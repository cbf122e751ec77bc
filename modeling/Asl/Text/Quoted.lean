import Asl.Text.Printable

/-!
# Quoted text

Two ways to put arbitrary text on one line.

`oneLine` is the form of a report: line feeds, carriage returns and tabs
become two-character escapes, any other character that is not printable
becomes a hexadecimal escape, and everything else – quotes and backslashes
included – stays as it is.

`quoted` is the form of a name inside a message: the text stands between
quote marks, the mark and the backslash are themselves escaped, and the
mark is chosen so that a name holding apostrophes only needs no escape.
-/

namespace Asl.Text

/-- The two-character escape of a line feed, a carriage return or a tab. -/
def layoutEscape? (c : Char) : Option Text :=
  if c = '\n' then some ['\\', 'n']
  else if c = '\r' then some ['\\', 'r']
  else if c = '\t' then some ['\\', 't']
  else none

/-- The text with every line feed, carriage return and tab escaped, and
nothing else changed. -/
def escapeLayout (t : Text) : Text :=
  t.flatMap fun c => (layoutEscape? c).getD [c]

/-- One character of a report line: characters that are not printable are
written with at least two hexadecimal digits below `U+0100` and at least
four from there on. -/
def oneLineChar (c : Char) : Text :=
  match layoutEscape? c with
  | some t => t
  | none =>
    if isPrintable c then [c]
    else if c.toNat < 0x100 then '\\' :: 'x' :: hex 2 c.toNat
    else '\\' :: 'u' :: hex 4 c.toNat

/-- The text as it is shown inside a one-line report. -/
def oneLine (t : Text) : Text := t.flatMap oneLineChar

/-- The mark around a quoted text: the apostrophe, unless the text holds
one and holds no double quote. -/
def quoteMark (t : Text) : Char :=
  if '\'' ∈ t ∧ '"' ∉ t then '"' else '\''

/-- One character of a text quoted with `mark`. -/
def quotedChar (mark c : Char) : Text :=
  if c = mark ∨ c = '\\' then ['\\', c]
  else
    match layoutEscape? c with
    | some t => t
    | none =>
      if isPrintable c then [c]
      else if c.toNat < 0x100 then '\\' :: 'x' :: hex 2 c.toNat
      else if c.toNat < 0x10000 then '\\' :: 'u' :: hex 4 c.toNat
      else '\\' :: 'U' :: hex 8 c.toNat

/-- The text between quote marks, on one line. -/
def quoted (t : Text) : Text :=
  let mark := quoteMark t
  mark :: t.flatMap (quotedChar mark) ++ [mark]

end Asl.Text
