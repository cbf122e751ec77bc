/-!
# Text

A text is a list of characters. Offsets, columns, lengths and widths all
count characters, so the list is the view on which every rule of the
language is stated: a lexeme is a prefix of the text that remains, and what
is left of a text after a lexeme is a suffix of it.

The module also spells numbers: decimal for positions and counts,
hexadecimal of a least width for escapes.
-/

namespace Asl

/-- A sequence of characters, counted by code point. -/
abbrev Text := List Char

namespace Text

/-- The decimal digits of a natural number, without leading zeros. -/
def ofNat (n : Nat) : Text := Nat.toDigits 10 n

/-- The decimal spelling of an integer: a minus sign before the digits of a
negative one. -/
def ofInt : Int → Text
  | .ofNat n => ofNat n
  | .negSucc n => '-' :: ofNat (n + 1)

/-- Lowercase hexadecimal digits, filled with zeros on the left up to
`width`. -/
def hex (width n : Nat) : Text :=
  let digits := Nat.toDigits 16 n
  List.replicate (width - digits.length) '0' ++ digits

/-- The texts in order with `sep` between neighbours. -/
def join (sep : Text) : List Text → Text
  | [] => []
  | [t] => t
  | t :: u :: ts => t ++ sep ++ join sep (u :: ts)

/-- A line: the text and the line feed that ends it. -/
def line (t : Text) : Text := t ++ ['\n']

end Text

end Asl
