import Asl.Text

/-!
# UTF-8

Decoding reads the bytes from left to right and stops at the first sequence
that is not well formed. What it then reports is the longest beginning of a
well-formed sequence that stands there – one byte at least – and why it goes
no further: no sequence starts with its first byte, the next byte does not
continue it, or the data ends.

A lead byte fixes how many bytes follow and the range of the first of them;
narrower ranges than `80`–`BF` exclude overlong forms, surrogates and code
points above `10FFFF`.
-/

namespace Asl

/-- A sequence of bytes. -/
abbrev Bytes := List UInt8

namespace Utf8

/-- Why a sequence is not well formed. -/
inductive Reason where
  /-- No sequence starts with the byte. -/
  | invalidStart
  /-- The next byte does not continue the sequence. -/
  | invalidContinuation
  /-- The data ends inside the sequence. -/
  | unexpectedEnd
deriving DecidableEq, Repr

/-- The wording of a reason. -/
def Reason.message : Reason → Text
  | invalidStart => "invalid start byte".toList
  | invalidContinuation => "invalid continuation byte".toList
  | unexpectedEnd => "unexpected end of data".toList

/-- A sequence that is not well formed. -/
structure Error where
  /-- The number of bytes before it. -/
  start : Nat
  /-- Its first byte. -/
  first : UInt8
  /-- How many bytes of it were read. -/
  length : Nat
  /-- Why it ends there. -/
  reason : Reason
deriving DecidableEq, Repr

/-- The wording of a failure: a single byte is shown, several are only
located. -/
def Error.message (e : Error) : Text :=
  "'utf-8' codec can't decode ".toList
    ++ (if e.length = 1 then
        "byte 0x".toList ++ Text.hex 2 e.first.toNat ++ " in position ".toList
          ++ Text.ofNat e.start
      else
        "bytes in position ".toList ++ Text.ofNat e.start ++ ['-']
          ++ Text.ofNat (e.start + e.length - 1))
    ++ ": ".toList ++ e.reason.message

/-- A sequence of several bytes, partly read. -/
structure Partial where
  /-- The number of bytes before it. -/
  start : Nat
  /-- Its first byte. -/
  first : UInt8
  /-- How many bytes of it were read. -/
  length : Nat
  /-- The bits of the code point read so far. -/
  code : Nat
  /-- How many bytes are still to come, less one. -/
  owed : Nat
  /-- The least value of the next byte. -/
  low : UInt8
  /-- The greatest value of the next byte. -/
  high : UInt8
deriving DecidableEq, Repr

/-- The sequence a lead byte opens. -/
def Partial.open? (start : Nat) (b : UInt8) : Option Partial :=
  let n := b.toNat
  let opened (code owed : Nat) (low high : UInt8) : Option Partial :=
    some ⟨start, b, 1, code, owed, low, high⟩
  if n < 0xc2 then none
  else if n < 0xe0 then opened (n - 0xc0) 0 0x80 0xbf
  else if n = 0xe0 then opened 0 1 0xa0 0xbf
  else if n = 0xed then opened 0xd 1 0x80 0x9f
  else if n < 0xf0 then opened (n - 0xe0) 1 0x80 0xbf
  else if n = 0xf0 then opened 0 2 0x90 0xbf
  else if n < 0xf4 then opened (n - 0xf0) 2 0x80 0xbf
  else if n = 0xf4 then opened 4 2 0x80 0x8f
  else none

/-- The failure at a sequence partly read. -/
def Partial.fail (p : Partial) (reason : Reason) : Error := ⟨p.start, p.first, p.length, reason⟩

/-- The code point with the bits of one more byte. -/
def Partial.extend (p : Partial) (b : UInt8) : Nat := p.code * 64 + (b.toNat - 0x80)

/-- Decoding from the byte with number `i` on, with a sequence open or
not. -/
def decodeFrom (i : Nat) : Option Partial → Bytes → Except Error Text
  | none, [] => .ok []
  | some p, [] => .error (p.fail .unexpectedEnd)
  | none, b :: bs =>
    if b < 0x80 then (decodeFrom (i + 1) none bs).map (Char.ofNat b.toNat :: ·)
    else
      match Partial.open? i b with
      | none => .error ⟨i, b, 1, .invalidStart⟩
      | some p => decodeFrom (i + 1) (some p) bs
  | some p, b :: bs =>
    if p.low ≤ b && b ≤ p.high then
      match p.owed with
      | 0 => (decodeFrom (i + 1) none bs).map (Char.ofNat (p.extend b) :: ·)
      | owed + 1 =>
        decodeFrom (i + 1)
          (some ⟨p.start, p.first, p.length + 1, p.extend b, owed, 0x80, 0xbf⟩) bs
    else .error (p.fail .invalidContinuation)

/-- The text some bytes stand for. -/
def decode (bs : Bytes) : Except Error Text := decodeFrom 0 none bs

/-- The bytes of a text. -/
def encode (t : Text) : Bytes := t.flatMap String.utf8EncodeChar

end Utf8

end Asl
