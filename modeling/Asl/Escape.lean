import Asl.Text

/-!
# Escapes in literals

Inside a character or string literal a backslash and a code stand for one
character. The table of codes is the only thing the scanner and the decoder
share: the scanner asks whether a code is known (`Escape.isCode`), and
leaves the body of a literal as it is written; `Escape.decode` reads such a
body, and refuses it at the first pair it does not know.
-/

namespace Asl

namespace Escape

/-- Each code with the character it stands for, in the order of the
codes. -/
def table : List (Char × Char) :=
  [('"', '"'), ('\'', '\''), ('\\', '\\'), ('b', '\x08'), ('f', '\x0c'), ('n', '\n'),
   ('r', '\r'), ('t', '\t')]

/-- The character a code stands for. -/
def charOf? (code : Char) : Option Char := table.lookup code

/-- Whether a character may follow a backslash. -/
def isCode (c : Char) : Bool := (charOf? c).isSome

end Escape

/-- Why a literal body cannot be decoded. -/
inductive EscapeError where
  /-- The body ends in a backslash that pairs with nothing. -/
  | trailingBackslash
  /-- A backslash is followed by a character that is no code. -/
  | unknownCode (code : Char)
deriving DecidableEq, Repr

/-- The wording for a pair that is no escape. -/
def Escape.invalidMessage (code : Char) : Text :=
  "invalid escape sequence '\\".toList ++ [code, '\'']

namespace EscapeError

/-- The wording of a decoding failure. -/
def message : EscapeError → Text
  | trailingBackslash => "trailing backslash in literal".toList
  | unknownCode code => Escape.invalidMessage code

end EscapeError

namespace Escape

/-- A body decoded unit by unit, from left to right. -/
def decodeUnits : Text → Except EscapeError Text
  | [] => .ok []
  | ['\\'] => .error .trailingBackslash
  | '\\' :: code :: t =>
    match charOf? code with
    | none => .error (.unknownCode code)
    | some c => (decodeUnits t).map (c :: ·)
  | c :: t => (decodeUnits t).map (c :: ·)

/-- The text a literal body stands for. A body without a backslash stands
for itself. -/
def decode (body : Text) : Except EscapeError Text :=
  if '\\' ∈ body then decodeUnits body else .ok body

end Escape

end Asl
