import Asl.Text.Utf8

/-!
# Text through UTF-8 and back

The bytes of a text decode to the text. A character is written as a lead byte
and up to three more, with the bits of its code point in groups of six; what
has to be seen is that the ranges a lead byte sets for the byte after it
exclude nothing that is ever written. The narrow ranges are those after `e0`,
`ed`, `f0` and `f4`: they leave out code points that take fewer bytes,
surrogates, and what lies above `10ffff`, and no character is any of these.
-/

namespace Asl.Utf8

theorem toNat_ofNat {n : Nat} (h : n < 256) : (UInt8.ofNat n).toNat = n :=
  UInt8.toNat_ofNat_of_lt' h

/-- **A byte that continues a sequence** adds six bits. -/
theorem decodeFrom_continue {p : Partial} {x : Nat} (hx : x < 64) (hl : p.low.toNat ≤ x + 0x80)
    (hh : x + 0x80 ≤ p.high.toNat) (i : Nat) (bs : Bytes) :
    decodeFrom i (some p) (UInt8.ofNat (x + 0x80) :: bs) = match p.owed with
      | 0 => (decodeFrom (i + 1) none bs).map (Char.ofNat (p.code * 64 + x) :: ·)
      | owed + 1 => decodeFrom (i + 1)
          (some ⟨p.start, p.first, p.length + 1, p.code * 64 + x, owed, 0x80, 0xbf⟩) bs := by
  have hb : (UInt8.ofNat (x + 0x80)).toNat = x + 0x80 := toNat_ofNat (by omega)
  generalize UInt8.ofNat (x + 0x80) = b at hb
  have hlow : p.low ≤ b := UInt8.le_iff_toNat_le.2 (by omega)
  have hhigh : b ≤ p.high := UInt8.le_iff_toNat_le.2 (by omega)
  have he : p.extend b = p.code * 64 + x := by
    unfold Partial.extend
    omega
  have hin : (p.low ≤ b && b ≤ p.high) = true := by
    simp only [hlow, hhigh, decide_true, Bool.and_self]
  cases ho : p.owed with
  | zero => simp only [decodeFrom, hin, if_true, ho, he]
  | succ owed => simp only [decodeFrom, hin, if_true, ho, he]

/-- A byte that opens a sequence. -/
theorem decodeFrom_open {i n : Nat} (hn : 0x80 ≤ n) (hb : n < 256) {p : Partial}
    (h : Partial.open? i (UInt8.ofNat n) = some p) (bs : Bytes) :
    decodeFrom i none (UInt8.ofNat n :: bs) = decodeFrom (i + 1) (some p) bs := by
  have hlt : ¬ UInt8.ofNat n < 0x80 := by
    rw [UInt8.lt_iff_toNat_lt, toNat_ofNat hb]
    exact Nat.not_lt.2 hn
  rw [decodeFrom, if_neg hlt, h]

theorem open?_two (i : Nat) {n : Nat} (hl : 2 ≤ n) (hh : n < 32) :
    Partial.open? i (UInt8.ofNat (n + 0xc0))
      = some ⟨i, UInt8.ofNat (n + 0xc0), 1, n, 0, 0x80, 0xbf⟩ := by
  have hb : (UInt8.ofNat (n + 0xc0)).toNat = n + 0xc0 := toNat_ofNat (by omega)
  simp only [Partial.open?, hb]
  rw [if_neg (by omega), if_pos (by omega), Nat.add_sub_cancel]

theorem open?_three (i : Nat) {n : Nat} (hh : n < 16) :
    Partial.open? i (UInt8.ofNat (n + 0xe0))
      = some ⟨i, UInt8.ofNat (n + 0xe0), 1, n, 1, if n = 0 then 0xa0 else 0x80,
          if n = 0xd then 0x9f else 0xbf⟩ := by
  have hb : (UInt8.ofNat (n + 0xe0)).toNat = n + 0xe0 := toNat_ofNat (by omega)
  simp only [Partial.open?, hb]
  rw [if_neg (by omega), if_neg (by omega)]
  by_cases h0 : n = 0
  · subst h0; rfl
  · by_cases hd : n = 0xd
    · subst hd; rfl
    · rw [if_neg (by omega), if_neg (by omega), if_pos (by omega), if_neg h0, if_neg hd,
        Nat.add_sub_cancel]

theorem open?_four (i : Nat) {n : Nat} (hh : n ≤ 4) :
    Partial.open? i (UInt8.ofNat (n + 0xf0))
      = some ⟨i, UInt8.ofNat (n + 0xf0), 1, n, 2, if n = 0 then 0x90 else 0x80,
          if n = 4 then 0x8f else 0xbf⟩ := by
  have hb : (UInt8.ofNat (n + 0xf0)).toNat = n + 0xf0 := toNat_ofNat (by omega)
  simp only [Partial.open?, hb]
  rw [if_neg (by omega), if_neg (by omega), if_neg (by omega), if_neg (by omega),
    if_neg (by omega)]
  by_cases h0 : n = 0
  · subst h0; rfl
  · by_cases h4 : n = 4
    · subst h4; rfl
    · rw [if_neg (by omega), if_pos (by omega), if_neg h0, if_neg h4, Nat.add_sub_cancel]

/-! ## Sequences of one to four bytes -/

section Sequences

variable (i : Nat) (bs : Bytes) {v : Nat}

theorem decodeFrom_one (hv : v < 0x80) :
    decodeFrom i none (UInt8.ofNat v :: bs)
      = (decodeFrom (i + 1) none bs).map (Char.ofNat v :: ·) := by
  have hb : (UInt8.ofNat v).toNat = v := toNat_ofNat (by omega)
  have hlt : UInt8.ofNat v < 0x80 := by
    rw [UInt8.lt_iff_toNat_lt, hb]
    exact hv
  rw [decodeFrom, if_pos hlt, hb]

theorem decodeFrom_two (hl : 0x80 ≤ v) (hv : v < 0x800) :
    decodeFrom i none (UInt8.ofNat (v / 64 % 32 + 0xc0) :: UInt8.ofNat (v % 64 + 0x80) :: bs)
      = (decodeFrom (i + 2) none bs).map (Char.ofNat v :: ·) := by
  have hcode : v / 64 % 32 * 64 + v % 64 = v := by omega
  rw [decodeFrom_open (by omega) (by omega) (open?_two i (by omega) (by omega)),
    decodeFrom_continue (by omega) (Nat.le_add_left _ _) (by show _ ≤ 0xbf; omega)]
  show (decodeFrom (i + 2) none bs).map (Char.ofNat (v / 64 % 32 * 64 + v % 64) :: ·) = _
  rw [hcode]

theorem decodeFrom_three (hl : 0x800 ≤ v) (hv : v < 0x10000) (hs : v < 0xd800 ∨ 0xdfff < v) :
    decodeFrom i none (UInt8.ofNat (v / 4096 % 16 + 0xe0) :: UInt8.ofNat (v / 64 % 64 + 0x80)
        :: UInt8.ofNat (v % 64 + 0x80) :: bs)
      = (decodeFrom (i + 3) none bs).map (Char.ofNat v :: ·) := by
  have hcode : (v / 4096 % 16 * 64 + v / 64 % 64) * 64 + v % 64 = v := by omega
  have hlow : (if v / 4096 % 16 = 0 then 0xa0 else 0x80 : UInt8).toNat ≤ v / 64 % 64 + 0x80 := by
    split
    · show 0xa0 ≤ _
      omega
    · exact Nat.le_add_left _ _
  have hhigh : v / 64 % 64 + 0x80 ≤ (if v / 4096 % 16 = 0xd then 0x9f else 0xbf : UInt8).toNat := by
    split
    · show _ ≤ 0x9f
      omega
    · show _ ≤ 0xbf
      omega
  rw [decodeFrom_open (by omega) (by omega) (open?_three i (by omega)),
    decodeFrom_continue (by omega) hlow hhigh]
  show decodeFrom (i + 2) (some ⟨_, _, _, _, 0, 0x80, 0xbf⟩) _ = _
  rw [decodeFrom_continue (by omega) (Nat.le_add_left _ _) (by show _ ≤ 0xbf; omega)]
  show (decodeFrom (i + 3) none bs).map (Char.ofNat (_ * 64 + v % 64) :: ·) = _
  rw [hcode]

theorem decodeFrom_four (hl : 0x10000 ≤ v) (hv : v < 0x110000) :
    decodeFrom i none (UInt8.ofNat (v / 262144 % 8 + 0xf0) :: UInt8.ofNat (v / 4096 % 64 + 0x80)
        :: UInt8.ofNat (v / 64 % 64 + 0x80) :: UInt8.ofNat (v % 64 + 0x80) :: bs)
      = (decodeFrom (i + 4) none bs).map (Char.ofNat v :: ·) := by
  have hcode : ((v / 262144 % 8 * 64 + v / 4096 % 64) * 64 + v / 64 % 64) * 64 + v % 64 = v := by
    omega
  have hlow : (if v / 262144 % 8 = 0 then 0x90 else 0x80 : UInt8).toNat
      ≤ v / 4096 % 64 + 0x80 := by
    split
    · show 0x90 ≤ _
      omega
    · exact Nat.le_add_left _ _
  have hhigh : v / 4096 % 64 + 0x80
      ≤ (if v / 262144 % 8 = 4 then 0x8f else 0xbf : UInt8).toNat := by
    split
    · show _ ≤ 0x8f
      omega
    · show _ ≤ 0xbf
      omega
  rw [decodeFrom_open (by omega) (by omega) (open?_four i (by omega)),
    decodeFrom_continue (by omega) hlow hhigh]
  show decodeFrom (i + 2) (some ⟨_, _, _, _, 1, 0x80, 0xbf⟩) _ = _
  rw [decodeFrom_continue (by omega) (Nat.le_add_left _ _) (by show _ ≤ 0xbf; omega)]
  show decodeFrom (i + 3) (some ⟨_, _, _, _, 0, 0x80, 0xbf⟩) _ = _
  rw [decodeFrom_continue (by omega) (Nat.le_add_left _ _) (by show _ ≤ 0xbf; omega)]
  show (decodeFrom (i + 4) none bs).map (Char.ofNat (_ * 64 + v % 64) :: ·) = _
  rw [hcode]

end Sequences

/-- **What is written for a character is read as the character.** -/
theorem decodeFrom_encodeChar (c : Char) (i : Nat) (bs : Bytes) :
    ∃ j, decodeFrom i none (String.utf8EncodeChar c ++ bs)
      = (decodeFrom j none bs).map (c :: ·) := by
  -- no character is a surrogate, or lies above `10ffff`
  have hv : c.val.toNat < 0xd800 ∨ 0xdfff < c.val.toNat ∧ c.val.toNat < 0x110000 := c.valid
  have hc : Char.ofNat c.val.toNat = c := Char.ofNat_toNat c
  unfold String.utf8EncodeChar
  generalize c.val.toNat = v at hv hc
  subst hc
  dsimp only
  split
  · exact ⟨i + 1, decodeFrom_one i bs (by omega)⟩
  · split
    · exact ⟨i + 2, decodeFrom_two i bs (by omega) (by omega)⟩
    · split
      · exact ⟨i + 3, decodeFrom_three i bs (by omega) (by omega) (by omega)⟩
      · exact ⟨i + 4, decodeFrom_four i bs (by omega) (by omega)⟩

/-- **The bytes of a text decode to the text.** -/
theorem decode_encode (t : Text) : decode (encode t) = .ok t := by
  unfold decode
  generalize 0 = i
  induction t generalizing i with
  | nil => rfl
  | cons c t ih =>
    obtain ⟨j, hj⟩ := decodeFrom_encodeChar c i (encode t)
    show decodeFrom i none (String.utf8EncodeChar c ++ encode t) = _
    rw [hj, ih j]
    rfl

end Asl.Utf8
