import Asl.Text.Quoted
import Asl.Token

/-!
# Token listings

A list of tokens is written in one of two formats. The text format has one
line per token:

`[@index,first:last='text',<KIND>,channel=1,line:column]`

with the offsets of the first and the last character, the column counted
from zero, and the channel named only where it is the hidden one. Line
feeds, carriage returns and tabs in the text are escaped, so a token is one
line whatever it holds; the end token shows `<EOF>`.

The JSON format is an array of objects, indented by two, in ASCII: a
character outside the printable part of ASCII is written by its UTF-16
units.
-/

namespace Asl

/-- The format of a listing. -/
inductive ListingFormat where
  /-- One line per token. -/
  | text
  /-- A JSON array. -/
  | json
deriving DecidableEq, Repr

namespace ListingFormat

/-- The name of a format on the command line. -/
def name : ListingFormat → Text
  | text => "text".toList
  | json => "json".toList

/-- The formats, in the order they are offered. -/
def all : List ListingFormat := [text, json]

/-- The format with a given name. -/
def ofName? (n : Text) : Option ListingFormat := all.find? (·.name = n)

end ListingFormat

namespace Listing

/-! ## Text -/

/-- The text a token shows. -/
def shownText (t : Token) : Text :=
  Text.escapeLayout (if t.kind = .eof then "<EOF>".toList else t.lexeme)

/-- The line of a token, without its line feed. -/
def textLine (index : Int) (t : Token) : Text :=
  "[@".toList ++ Text.ofInt index ++ [','] ++ Text.ofInt t.span.start.offset ++ [':']
    ++ Text.ofInt (t.span.stop.offset - 1) ++ "='".toList ++ shownText t ++ "',<".toList
    ++ t.kind.name ++ ['>']
    ++ (if t.isHidden then ",channel=".toList ++ Text.ofNat t.channel.number else [])
    ++ [','] ++ Text.ofInt t.span.start.line ++ [':']
    ++ Text.ofInt (t.span.start.column - 1) ++ [']']

/-- The lines of a list of tokens, numbered from `index` on. -/
def textFrom (index : Nat) : List Token → Text
  | [] => []
  | t :: ts => Text.line (textLine index t) ++ textFrom (index + 1) ts

/-! ## JSON -/

/-- The escape of one UTF-16 unit. -/
def jsonUnit (n : Nat) : Text := '\\' :: 'u' :: Text.hex 4 n

/-- One character inside a JSON string. -/
def jsonChar (c : Char) : Text :=
  if c = '"' then ['\\', '"']
  else if c = '\\' then ['\\', '\\']
  else if c = '\n' then ['\\', 'n']
  else if c = '\r' then ['\\', 'r']
  else if c = '\t' then ['\\', 't']
  else if c = '\x0c' then ['\\', 'f']
  else if c = '\x08' then ['\\', 'b']
  else
    let n := c.toNat
    if 0x20 ≤ n ∧ n ≤ 0x7e then [c]
    else if n < 0x10000 then jsonUnit n
    else jsonUnit (0xd800 + (n - 0x10000) / 0x400) ++ jsonUnit (0xdc00 + (n - 0x10000) % 0x400)

/-- A JSON string. -/
def jsonString (t : Text) : Text := '"' :: t.flatMap jsonChar ++ ['"']

/-- What a JSON listing says of a token: all but where it ends. -/
structure Entry where
  /-- The kind. -/
  kind : TokenKind
  /-- What a parser reads. -/
  value : Text
  /-- The characters of the source. -/
  lexeme : Text
  /-- The channel. -/
  channel : Channel
  /-- Where the token begins. -/
  start : Position
deriving DecidableEq, Repr

/-- The entry of a token. -/
def Entry.ofToken (t : Token) : Entry := ⟨t.kind, t.value, t.lexeme, t.channel, t.span.start⟩

/-- The fields of an entry by name, in order: strings quoted, numbers
bare. -/
def Entry.fields (e : Entry) : List (Text × Text) :=
  [("type".toList, jsonString e.kind.name),
   ("value".toList, jsonString e.value),
   ("raw".toList, jsonString e.lexeme),
   ("channel".toList, jsonString e.channel.name),
   ("line".toList, Text.ofInt e.start.line),
   ("column".toList, Text.ofInt e.start.column),
   ("offset".toList, Text.ofInt e.start.offset)]

/-- One field of an object, on a line of its own. -/
def jsonField (f : Text × Text) : Text :=
  "\n    ".toList ++ jsonString f.1 ++ ": ".toList ++ f.2

/-- The object of an entry. -/
def jsonObject (e : Entry) : Text :=
  "\n  \x7b".toList ++ Text.join [','] (e.fields.map jsonField) ++ "\n  \x7d".toList

/-- The array of the objects of some entries. -/
def jsonArray : List Entry → Text
  | [] => "[]".toList
  | e :: es => '[' :: Text.join [','] ((e :: es).map jsonObject) ++ "\n]".toList

/-- The listing of some tokens. -/
def render (format : ListingFormat) (ts : List Token) : Text :=
  match format with
  | .text => textFrom 0 ts
  | .json => Text.line (jsonArray (ts.map Entry.ofToken))

end Listing

end Asl
