import Asl.Proofs.StringBodies

/-!
# Every text can be written as a literal

Not every character can stand in a literal as it is: a backslash would begin
a pair, a quote would end the literal, and a string literal does not go over
the end of a line. Each of these characters has a code, though, so a text is
written as a literal by putting a backslash and the code for each of them and
leaving all else as it is (`Escape.spell`).

What is written so is read back. Two readers have to agree on that, the
scanner, which looks for the closing quote, and the decoder, which is given
the body alone. Neither must pair a backslash that was written for one
character with what was written for the next. Both go by units, and each
character is written as one unit that stands for it: this is all that is
asked of the codes (`Escape.Spells`), for the two kinds of literal alike.
-/

namespace Asl

namespace Escape

/-! ## Writing a text -/

/-- **A text as the body of a literal**: a character with a code is written as
a backslash and that code, and any other as it is. -/
def spell (codes : List (Char × Char)) (t : Text) : Text :=
  t.flatMap fun c =>
    match codes.lookup c with
    | some code => ['\\', code]
    | none => [c]

/-- The characters written with a code in a string literal. -/
def stringCodes : List (Char × Char) := [('\\', '\\'), ('"', '"'), ('\n', 'n'), ('\r', 'r')]

/-- Those written with a code in a character literal. -/
def charCodes : List (Char × Char) := [('\\', '\\'), ('\'', '\'')]

/-- The unit a character is written as. -/
def unitOf (codes : List (Char × Char)) (c : Char) : BodyUnit :=
  match codes.lookup c with
  | some code => .pair code
  | none => .plain c

theorem spell_eq_text (codes : List (Char × Char)) (t : Text) :
    spell codes t = StringBody.text (t.map (unitOf codes)) := by
  unfold spell StringBody.text
  rw [List.flatMap_map]
  refine List.flatMap_congr fun c _ => ?_
  unfold unitOf
  cases codes.lookup c <;> rfl

/-- **Codes to write literals with**: each stands for its character, and
neither a backslash nor what the literal bars is without one. -/
structure Spells (barred : List Char) (codes : List (Char × Char)) : Prop where
  stands : ∀ x ∈ codes, charOf? x.2 = some x.1
  covers : ∀ c ∈ '\\' :: barred, (codes.lookup c).isSome

theorem spells_stringCodes : Spells ['"', '\r', '\n'] stringCodes :=
  ⟨by decide, List.all_eq_true.1 rfl⟩

theorem spells_charCodes : Spells ['\''] charCodes := ⟨by decide, List.all_eq_true.1 rfl⟩

namespace Spells

variable {barred : List Char} {codes : List (Char × Char)} (h : Spells barred codes)
include h

/-- The unit a character is written as stands for that character. -/
theorem denotes_unitOf (c : Char) : (unitOf codes c).Denotes c := by
  unfold unitOf
  cases hc : codes.lookup c with
  | some code => exact h.stands _ (Lexicon.mem_of_lookup hc)
  | none =>
    refine ⟨?_, rfl⟩
    rintro rfl
    have hs := h.covers '\\' List.mem_cons_self
    rw [hc] at hs
    cases hs

/-- It is a unit of the literal. -/
theorem fits_unitOf (c : Char) : (unitOf codes c).Fits barred := by
  refine BodyUnit.fits_iff.2 ⟨(h.denotes_unitOf c).fits, fun d hd he => ?_⟩
  have hs := h.covers d (List.mem_cons_of_mem _ hd)
  unfold unitOf at he
  split at he
  · cases he
  · next hn =>
    cases he
    rw [hn] at hs
    cases hs

/-- **What is written is decoded to what it was written for.** -/
theorem decode_spell (t : Text) : decode (spell codes t) = .ok t := by
  rw [spell_eq_text]
  refine decode_text ?_
  rw [List.forall₂_map_left_iff]
  exact List.forall₂_same.2 fun c _ => h.denotes_unitOf c

end Spells

end Escape

/-! ## Reading it back -/

/-- A literal whose body is a text written with codes stands for that text. -/
theorem Source.tokens_spell (name : Text) {barred : List Char} {codes : List (Char × Char)}
    (h : Escape.Spells barred codes) {kind : TokenKind} {t w : Text}
    (hw : Lexes kind (Escape.spell codes t) w) (hk : kind = .charval ∨ kind = .stringval) :
    ∃ k e, (Source.mk name w).tokens true = .ok [k, e] ∧ k.kind = kind ∧ e.kind = .eof ∧
      k.literal = .ok (.str t) := by
  obtain ⟨k, p, ht, rfl, hv, -⟩ := Source.tokens_of_lexes name hw
  refine ⟨k, .eofAt p, ht, rfl, rfl, k.literal_of_decode hk ?_⟩
  rw [hv]
  exact h.decode_spell t

/-- **Every text and every character can be written as a literal.** A text is
written between double quotes with codes for backslash, double quote, line
feed and carriage return, and a character between quotes with codes for
backslash and quote. The scanner finds one literal there and then the end, and
the literal stands for what was written. -/
theorem tokens_spelled (name : Text) :
    (∀ t : Text, ∃ k e,
      (Source.mk name ('"' :: Escape.spell Escape.stringCodes t ++ ['"'])).tokens true
          = .ok [k, e] ∧
        k.kind = .stringval ∧ e.kind = .eof ∧ k.literal = .ok (.str t)) ∧
    ∀ c : Char, ∃ k e,
      (Source.mk name ('\'' :: Escape.spell Escape.charCodes [c] ++ ['\''])).tokens true
          = .ok [k, e] ∧
        k.kind = .charval ∧ e.kind = .eof ∧ k.literal = .ok (.str [c]) := by
  have hs := Escape.spells_stringCodes
  have hc := Escape.spells_charCodes
  refine ⟨fun t => ?_, fun c => ?_⟩
  · refine Source.tokens_spell name hs ?_ (.inr rfl)
    rw [Escape.spell_eq_text]
    refine .string fun u hu => ?_
    obtain ⟨d, -, rfl⟩ := List.mem_map.1 hu
    exact hs.fits_unitOf d
  · refine Source.tokens_spell name hc ?_ (.inl rfl)
    rw [show Escape.spell Escape.charCodes [c] = (Escape.unitOf Escape.charCodes c).text by
      rw [Escape.spell_eq_text]; exact List.append_nil _]
    exact .char (hc.fits_unitOf c)

-- a backslash before a letter is no pair in the text, nor in what is written for it
example : Escape.spell Escape.stringCodes ['\\', 'n', '"', '\n']
    = ['\\', '\\', 'n', '\\', '"', '\\', 'n'] := by
  decide

end Asl
