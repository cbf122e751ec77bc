import Asl.Text

/-!
# UTF-16

Editors count the units of UTF-16 along a line, and JSON names by them the
characters it does not write as they are. A character up to `U+FFFF` is one
unit, its own number; one above is two, a high surrogate and a low one, which
are numbers of no character. So a text is told by its units, and they can be
read from left to right: a high surrogate and nothing else calls for a second
unit.
-/

namespace Asl.Utf16

/-- The units of a character. -/
def encodeChar (c : Char) : List Nat :=
  if c.toNat < 0x10000 then [c.toNat]
  else [0xd800 + (c.toNat - 0x10000) / 0x400, 0xdc00 + (c.toNat - 0x10000) % 0x400]

/-- The units of a text. -/
def encode (t : Text) : List Nat := t.flatMap encodeChar

/-- **The text some units stand for**, unless a surrogate among them is not
part of a pair. -/
def decode? : List Nat → Option Text
  | [] => some []
  | n :: us =>
    if n.isValidChar then (decode? us).map (Char.ofNat n :: ·)
    else if n < 0xdc00 then
      match us with
      | [] => none
      | m :: us =>
        if 0xdc00 ≤ m ∧ m < 0xe000 then
          (decode? us).map (Char.ofNat (0x10000 + 0x400 * (n - 0xd800) + (m - 0xdc00)) :: ·)
        else none
    else none

theorem encode_cons (c : Char) (t : Text) : encode (c :: t) = encodeChar c ++ encode t := rfl

/-- A character has one unit or two. -/
theorem length_encodeChar (c : Char) :
    (encodeChar c).length = if c.toNat < 0x10000 then 1 else 2 := by
  unfold encodeChar
  split <;> rfl

theorem toNat_lt (c : Char) : c.toNat < 0x110000 := by
  rcases c.valid with h | h
  · exact Nat.lt_trans h (by decide)
  · exact h.2

/-- A unit has sixteen bits. -/
theorem lt_of_mem_encodeChar {c : Char} {n : Nat} (h : n ∈ encodeChar c) : n < 0x10000 := by
  have hlt := toNat_lt c
  unfold encodeChar at h
  split at h
  · next hc => rwa [List.mem_singleton.1 h]
  · rw [List.mem_cons, List.mem_singleton] at h
    omega

/-- A character is read in front of any other units. -/
theorem decode?_encodeChar_append (c : Char) (us : List Nat) :
    decode? (encodeChar c ++ us) = (decode? us).map (c :: ·) := by
  have hvalid : c.toNat.isValidChar := c.valid
  have hlt := toNat_lt c
  unfold encodeChar
  split
  · show decode? (c.toNat :: us) = _
    rw [decode?.eq_def]
    dsimp only
    rw [if_pos hvalid, Char.ofNat_toNat]
  · next hc =>
    -- the halves of a pair are surrogates, and the character is put together from them
    have hhigh : ¬ (0xd800 + (c.toNat - 0x10000) / 0x400).isValidChar := by
      rintro (h | h) <;> omega
    have hjoin : 0x10000 + 0x400 * (0xd800 + (c.toNat - 0x10000) / 0x400 - 0xd800)
        + (0xdc00 + (c.toNat - 0x10000) % 0x400 - 0xdc00) = c.toNat := by
      omega
    show decode? (_ :: _ :: us) = _
    rw [decode?, if_neg hhigh, if_pos (by omega), if_pos (by omega), hjoin, Char.ofNat_toNat]

/-- **A text is told by its units.** -/
theorem decode?_encode (t : Text) : decode? (encode t) = some t := by
  induction t with
  | nil => rfl
  | cons c t ih => rw [encode_cons, decode?_encodeChar_append, ih]; rfl

end Asl.Utf16
