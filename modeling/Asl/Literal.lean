import Asl.Binary64
import Asl.Escape
import Asl.Token

/-!
# Literal values

What a literal token stands for. An integer is read in base ten, up to a
fixed number of digits; a number with a point is the nearest value of the
64-bit binary format; the two spellings of truth are told apart by the
whole value; characters and strings are decoded.
-/

namespace Asl

/-- The value of a literal. -/
inductive Literal where
  /-- An integer. -/
  | int (n : Nat)
  /-- A floating-point number, as its bits in the 64-bit binary format. -/
  | float (bits : Nat)
  /-- A truth value. -/
  | bool (b : Bool)
  /-- A character or a string, decoded. -/
  | str (t : Text)
deriving DecidableEq, Repr

/-- Why a token has no literal value. -/
inductive LiteralError where
  /-- The token is of a kind that has none. -/
  | notLiteral (kind : TokenKind)
  /-- The integer is written with more digits than are converted. -/
  | tooManyDigits (count : Nat)
  /-- The body cannot be decoded. -/
  | escape (e : EscapeError)
deriving DecidableEq, Repr

/-- The most digits an integer may be written with, leading zeros
included. -/
def maxIntDigits : Nat := 4300

/-- The wording for an integer with too many digits. -/
def tooManyDigitsMessage (count : Nat) : Text :=
  "Exceeds the limit (4300 digits) for integer string conversion: value has ".toList
    ++ Text.ofNat count
    ++ " digits; use sys.set_int_max_str_digits() to increase the limit".toList

namespace LiteralError

/-- The wording of an error. -/
def message : LiteralError → Text
  | notLiteral kind => kind.name ++ " is not a literal token".toList
  | tooManyDigits count => tooManyDigitsMessage count
  | escape e => e.message

end LiteralError

namespace Literal

/-- The number a sequence of decimal digits stands for. -/
def decimal (digits : Text) : Nat :=
  digits.foldl (fun n c => 10 * n + (c.toNat - '0'.toNat)) 0

/-- The bits of the number written as digits around a point. -/
def floatBits (t : Text) : Nat :=
  let whole := t.takeWhile (· ≠ '.')
  let fraction := (t.dropWhile (· ≠ '.')).tail
  Binary64.nearest (decimal (whole ++ fraction)) (Nat.pow 10 fraction.length)

end Literal

/-- The value of a literal token. -/
def Token.literal (t : Token) : Except LiteralError Literal :=
  match t.kind with
  | .intval =>
    if t.value.length ≤ maxIntDigits then .ok (.int (Literal.decimal t.value))
    else .error (.tooManyDigits t.value.length)
  | .floatval => .ok (.float (Literal.floatBits t.value))
  | .boolval => .ok (.bool (t.value = "true".toList))
  | .charval => ((Escape.decode t.value).map .str).mapError .escape
  | .stringval => ((Escape.decode t.value).map .str).mapError .escape
  | kind => .error (.notLiteral kind)

end Asl
