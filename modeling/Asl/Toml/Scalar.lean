import Asl.Literal
import Asl.Toml.Value

/-!
# TOML strings, numbers and dates

The values that hold no other values, and the keys. Each reader takes the
text from where a value begins and gives the value with the text after it.

A document can be refused for two causes: it breaks a rule of the format,
or it holds a decimal integer with more digits than are converted.
-/

namespace Asl.Toml

/-- Why a document is refused. -/
inductive Error where
  /-- It breaks a rule of the format. -/
  | malformed
  /-- An integer is written with too many digits. -/
  | tooManyDigits (count : Nat)
deriving DecidableEq, Repr

/-! ## Characters -/

/-- A blank within a line. -/
def isBlank (c : Char) : Bool := c = ' ' || c = '\t'

/-- A blank or a line feed. -/
def isLayout (c : Char) : Bool := isBlank c || c = '\n'

/-- A control character other than the tab. -/
def isControl (c : Char) : Bool := (c.toNat < 0x20 && c ≠ '\t') || c.toNat = 0x7f

/-- What may not stand in a string: control characters, line feeds excepted
where the string may span lines. -/
def isIllegal (multiline : Bool) (c : Char) : Bool := isControl c && !(multiline && c = '\n')

/-- A decimal digit. -/
def isDigit (c : Char) : Bool := '0' ≤ c && c ≤ '9'

/-- A hexadecimal digit. -/
def isHexDigit (c : Char) : Bool :=
  isDigit c || ('a' ≤ c && c ≤ 'f') || ('A' ≤ c && c ≤ 'F')

/-- A character of a key without quotes. -/
def isBareKeyChar (c : Char) : Bool :=
  ('a' ≤ c && c ≤ 'z') || ('A' ≤ c && c ≤ 'Z') || isDigit c || c = '-' || c = '_'

/-- The value of a digit in a base up to sixteen. -/
def digitValue (c : Char) : Nat :=
  if isDigit c then c.toNat - '0'.toNat
  else if 'a' ≤ c then c.toNat - 'a'.toNat + 10
  else c.toNat - 'A'.toNat + 10

/-- The number some digits stand for in a base. -/
def numberInBase (base : Nat) (digits : Text) : Nat :=
  digits.foldl (fun n c => base * n + digitValue c) 0

/-- The text after blanks. -/
def skipBlanks (t : Text) : Text := t.dropWhile isBlank

/-- The text after a comment, if one stands there. A comment holds no
control characters. -/
def skipComment (t : Text) : Except Error Text :=
  match t with
  | '#' :: u =>
    if (u.takeWhile (· ≠ '\n')).any isControl then .error .malformed
    else .ok (u.dropWhile (· ≠ '\n'))
  | _ => .ok t

/-! ## Strings -/

/-- The character written by a number of hexadecimal digits. -/
def hexChar (count : Nat) (t : Text) : Except Error (Text × Text) :=
  let digits := t.take count
  if digits.length = count && digits.all isHexDigit then
    let n := numberInBase 16 digits
    if n < 0xd800 || (0xe000 ≤ n && n ≤ 0x10ffff) then .ok ([Char.ofNat n], t.drop count)
    else .error .malformed
  else .error .malformed

/-- The text after the blank rest of a line and all layout that follows:
what a backslash at the end of a line passes over. -/
def continueLine (t : Text) : Except Error (Text × Text) :=
  match skipBlanks t with
  | [] => .ok ([], [])
  | '\n' :: u => .ok ([], u.dropWhile isLayout)
  | _ => .error .malformed

/-- What a backslash and the text after it stand for. -/
def escape (multiline : Bool) (t : Text) : Except Error (Text × Text) :=
  match t with
  | 'b' :: u => .ok (['\x08'], u)
  | 't' :: u => .ok (['\t'], u)
  | 'n' :: u => .ok (['\n'], u)
  | 'f' :: u => .ok (['\x0c'], u)
  | 'r' :: u => .ok (['\r'], u)
  | '"' :: u => .ok (['"'], u)
  | '\\' :: u => .ok (['\\'], u)
  | 'u' :: u => hexChar 4 u
  | 'U' :: u => hexChar 8 u
  | c :: _ => if multiline && isLayout c then continueLine t else .error .malformed
  | [] => .error .malformed

/-- The body of a basic string, up to its closing quote or quotes. The fuel
bounds the number of units read. -/
def basicBody (multiline : Bool) : Nat → Text → Except Error (Text × Text)
  | 0, _ => .error .malformed
  | fuel + 1, t =>
    match t with
    | [] => .error .malformed
    | '\\' :: u => do
      let (c, v) ← escape multiline u
      let (s, w) ← basicBody multiline fuel v
      return (c ++ s, w)
    | c :: u =>
      if c = '"' && !multiline then .ok ([], u)
      else if c = '"' && u.take 2 = ['"', '"'] then .ok ([], u.drop 2)
      else if c ≠ '"' && isIllegal multiline c then .error .malformed
      else do
        let (s, w) ← basicBody multiline fuel u
        return (c :: s, w)

/-- A basic string on one line, after its opening quote. -/
def basicString (t : Text) : Except Error (Text × Text) := basicBody false (t.length + 1) t

/-- A literal string on one line, after its opening quote. -/
def literalString (t : Text) : Except Error (Text × Text) :=
  let body := t.takeWhile (· ≠ '\'')
  match t.dropWhile (· ≠ '\'') with
  | _ :: u => if body.any (isIllegal false) then .error .malformed else .ok (body, u)
  | [] => .error .malformed

/-- The body of a literal string over several lines, up to three quotes. -/
def literalBody : Text → Except Error (Text × Text)
  | [] => .error .malformed
  | '\'' :: '\'' :: '\'' :: t => .ok ([], t)
  | c :: t =>
    if isIllegal true c then .error .malformed
    else do
      let (s, u) ← literalBody t
      return (c :: s, u)

/-- One or two quotes that still belong to a string whose closing quotes
were just read. -/
def trailingQuotes (quote : Char) (r : Text × Text) : Text × Text :=
  match r.2 with
  | c :: d :: t =>
    if c = quote && d = quote then (r.1 ++ [c, d], t)
    else if c = quote then (r.1 ++ [c], d :: t)
    else r
  | [c] => if c = quote then (r.1 ++ [c], []) else r
  | [] => r

/-- The text without a line feed in front. -/
def dropLineFeed : Text → Text
  | '\n' :: t => t
  | t => t

/-- A string over several lines, after its opening quotes. -/
def multilineString (quote : Char) (t : Text) : Except Error (Text × Text) :=
  let t := dropLineFeed t
  let body := if quote = '"' then basicBody true (t.length + 1) t else literalBody t
  body.map (trailingQuotes quote)

/-- A string of any sort, if one begins here. -/
def string? (t : Text) : Option (Except Error (Text × Text)) :=
  match t with
  | '"' :: '"' :: '"' :: u => some (multilineString '"' u)
  | '"' :: u => some (basicString u)
  | '\'' :: '\'' :: '\'' :: u => some (multilineString '\'' u)
  | '\'' :: u => some (literalString u)
  | _ => none

/-! ## Keys -/

/-- One name of a key. -/
def keyName (t : Text) : Except Error (Text × Text) :=
  match t with
  | '"' :: u => basicString u
  | '\'' :: u => literalString u
  | _ =>
    match t.takeWhile isBareKeyChar with
    | [] => .error .malformed
    | name => .ok (name, t.dropWhile isBareKeyChar)

/-- The names of a key, with points between them. The fuel bounds their
number. -/
def keyNames : Nat → Text → Except Error (Key × Text)
  | 0, _ => .error .malformed
  | fuel + 1, t => do
    let (name, u) ← keyName t
    match skipBlanks u with
    | '.' :: v =>
      let (names, w) ← keyNames fuel (skipBlanks v)
      return (name :: names, w)
    | v => return ([name], v)

/-- A key and the text after the blanks that follow it. -/
def key (t : Text) : Except Error (Key × Text) := keyNames (t.length + 1) t

/-! ## Numbers -/

/-- Digits that continue a number; single underscores may stand between
digits and are left out. -/
def moreDigits (p : Char → Bool) : Text → Text × Text
  | '_' :: c :: t =>
    if p c then (c :: (moreDigits p t).1, (moreDigits p t).2) else ([], '_' :: c :: t)
  | c :: t => if p c then (c :: (moreDigits p t).1, (moreDigits p t).2) else ([], c :: t)
  | [] => ([], [])

/-- A run of digits, underscores between them left out. -/
def digits? (p : Char → Bool) : Text → Option (Text × Text)
  | c :: t => if p c then some (c :: (moreDigits p t).1, (moreDigits p t).2) else none
  | [] => none

/-- The digits of a whole number: a zero alone, or digits that begin with
another. -/
def wholeDigits? : Text → Option (Text × Text)
  | '0' :: t => some (['0'], t)
  | t => digits? isDigit t

/-- An optional sign. -/
def sign : Text → Text × Text
  | '+' :: t => (['+'], t)
  | '-' :: t => (['-'], t)
  | t => ([], t)

/-- The text after a fractional part, if there is one. -/
def skipFraction (t : Text) : Text :=
  match t with
  | '.' :: u =>
    match digits? isDigit u with
    | some (_, v) => v
    | none => t
  | _ => t

/-- The text after an exponent, if there is one. -/
def skipExponent (t : Text) : Text :=
  match t with
  | c :: u =>
    if c = 'e' || c = 'E' then
      match digits? isDigit (sign u).2 with
      | some (_, v) => v
      | none => t
    else t
  | [] => t

/-- An integer in another base than ten, which has a mark and no sign. -/
def markedInteger? (t : Text) : Option (Value × Text) :=
  let inBase (base : Nat) (p : Char → Bool) (u : Text) : Option (Value × Text) :=
    (digits? p u).map fun r => (.integer (numberInBase base r.1), r.2)
  match t with
  | '0' :: 'x' :: u => inBase 16 isHexDigit u
  | '0' :: 'b' :: u => inBase 2 (fun c => c = '0' || c = '1') u
  | '0' :: 'o' :: u => inBase 8 (fun c => '0' ≤ c && c ≤ '7') u
  | _ => none

/-- A number in base ten, if one begins here. -/
def decimalNumber? (t : Text) : Option (Except Error (Value × Text)) :=
  let signed := sign t
  match wholeDigits? signed.2 with
  | none => none
  | some (digits, u) =>
    let v := skipExponent (skipFraction u)
    if v.length < u.length then some (.ok (.float (t.take (t.length - v.length)), v))
    else if maxIntDigits < digits.length then some (.error (.tooManyDigits digits.length))
    else
      let n : Int := numberInBase 10 digits
      some (.ok (.integer (if signed.1 = ['-'] then -n else n), u))

/-- A number, if one begins here. -/
def number? (t : Text) : Option (Except Error (Value × Text)) :=
  match markedInteger? t with
  | some r => some (.ok r)
  | none => decimalNumber? t

/-- Infinity and the value that is no number, with an optional sign. -/
def specialFloat? (t : Text) : Option (Value × Text) :=
  let signed := sign t
  let name := signed.2.take 3
  if name = ['i', 'n', 'f'] || name = ['n', 'a', 'n'] then
    some (.float (signed.1 ++ name), signed.2.drop 3)
  else none

/-! ## Dates and times -/

/-- A number of exactly `count` digits. -/
def fixedNumber? (count : Nat) (t : Text) : Option (Nat × Text) :=
  let digits := t.take count
  if digits.length = count && digits.all isDigit then
    some (numberInBase 10 digits, t.drop count)
  else none

/-- A number of `count` digits within bounds. -/
def boundedNumber? (count low high : Nat) (t : Text) : Option (Nat × Text) :=
  match fixedNumber? count t with
  | some (n, u) => if low ≤ n && n ≤ high then some (n, u) else none
  | none => none

/-- A given character. -/
def expect? (c : Char) : Text → Option Text
  | d :: t => if d = c then some t else none
  | [] => none

/-- The number of days of a month. -/
def daysIn (year month : Nat) : Nat :=
  if month = 2 then
    if year % 4 = 0 && (year % 100 ≠ 0 || year % 400 = 0) then 29 else 28
  else if month = 4 || month = 6 || month = 9 || month = 11 then 30
  else 31

/-- The text after a date, and whether the calendar has that day. -/
def date? (t : Text) : Option (Bool × Text) := do
  let (year, t) ← fixedNumber? 4 t
  let t ← expect? '-' t
  let (month, t) ← boundedNumber? 2 1 12 t
  let t ← expect? '-' t
  let (day, t) ← boundedNumber? 2 1 31 t
  return (1 ≤ year && day ≤ daysIn year month, t)

/-- The text after hours and minutes. -/
def hourMinute? (t : Text) : Option Text := do
  let (_, t) ← boundedNumber? 2 0 23 t
  let t ← expect? ':' t
  let (_, t) ← boundedNumber? 2 0 59 t
  return t

/-- The text after a fraction of a second, if there is one. -/
def skipSecondFraction (t : Text) : Text :=
  match t with
  | '.' :: u => if (u.head?.map isDigit).getD false then u.dropWhile isDigit else t
  | _ => t

/-- The text after a time of day. -/
def time? (t : Text) : Option Text := do
  let t ← hourMinute? t
  let t ← expect? ':' t
  let (_, t) ← boundedNumber? 2 0 59 t
  return skipSecondFraction t

/-- The text after an offset from universal time, if there is one. -/
def skipOffset (t : Text) : Text :=
  match t with
  | 'Z' :: u => u
  | 'z' :: u => u
  | c :: u => if c = '+' || c = '-' then (hourMinute? u).getD t else t
  | [] => t

/-- The text after a time of day that follows a date, if there is one. -/
def skipTimeAfterDate (t : Text) : Text :=
  match t with
  | c :: u =>
    if c = 'T' || c = 't' || c = ' ' then
      match time? u with
      | some v => skipOffset v
      | none => t
    else t
  | [] => t

/-- A date, a time or both, if one begins here. -/
def moment? (t : Text) : Option (Except Error (Value × Text)) :=
  let spelled (u : Text) : Value × Text := (.moment (t.take (t.length - u.length)), u)
  match date? t with
  | some (valid, u) =>
    some (if valid then .ok (spelled (skipTimeAfterDate u)) else .error .malformed)
  | none => (time? t).map fun u => .ok (spelled u)

/-- A value that holds no other values. -/
def scalar (t : Text) : Except Error (Value × Text) :=
  match string? t with
  | some r => r.map fun r => (.string r.1, r.2)
  | none =>
    if t.take 4 = "true".toList then .ok (.boolean true, t.drop 4)
    else if t.take 5 = "false".toList then .ok (.boolean false, t.drop 5)
    else
      match moment? t with
      | some r => r
      | none =>
        match number? t with
        | some r => r
        | none =>
          match specialFloat? t with
          | some r => .ok r
          | none => .error .malformed

end Asl.Toml
