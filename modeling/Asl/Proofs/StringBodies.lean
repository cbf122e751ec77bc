import Asl.Proofs.EntryPoints
import Asl.Proofs.LiteralValues

/-!
# The scanner and the decoder accept the same bodies

The body of a string literal is read twice, by two loops that share nothing
but the table of codes. The scanner looks for the end of the literal, with
the closing quote and what follows still in front of it. The decoder is
given the body alone, and looks for nothing but its escapes.

They agree on what a body is. A text between double quotes is one string
literal with that text for its value exactly if the text can be decoded and
holds nothing that ends a literal early: no line end, and no double quote
outside a pair. A body that ends in an odd number of backslashes is refused
by both, for different reasons – the decoder finds a backslash that pairs
with nothing, the scanner finds that it paired with the closing quote.

Both loops cut a body into units, so it is the units that are compared
(`fits_iff_of_text`). What decoding asks of them, and what is asked of the
text beside, is together what a string literal asks of its units.
-/

namespace Asl

/-- **The characters outside pairs.** Pairs are read from left to right, and a
backslash pairs with whatever character follows it. -/
def Escape.unpaired : Text → Text
  | [] => []
  | '\\' :: _ :: t => unpaired t
  | c :: t => c :: unpaired t

/-- In a text of units the characters outside pairs are the units of one
character. -/
theorem Escape.mem_unpaired_text {us : List BodyUnit} (hu : ∀ u ∈ us, u.Fits []) (c : Char) :
    c ∈ unpaired (StringBody.text us) ↔ .plain c ∈ us := by
  induction us with
  | nil => simp [unpaired]
  | cons u us ih =>
    rw [List.forall_mem_cons] at hu
    rw [StringBody.text_cons, List.mem_cons]
    cases u with
    | plain d =>
      have hd : unpaired (d :: StringBody.text us) = d :: unpaired (StringBody.text us) :=
        unpaired.eq_3 d _ (fun _ _ he => absurd he hu.1.1)
      show c ∈ unpaired (d :: StringBody.text us) ↔ _
      rw [hd, List.mem_cons, ih hu.2, BodyUnit.plain.injEq]
    | pair code =>
      show c ∈ unpaired (StringBody.text us) ↔ _
      rw [ih hu.2]
      simp

/-- A character that is neither a backslash nor a code is in a text of units
only as a unit by itself. -/
theorem StringBody.mem_text_iff {us : List BodyUnit} (hu : ∀ u ∈ us, u.Fits []) {c : Char}
    (hb : c ≠ '\\') (hc : c ∉ Grammar.codes) : c ∈ text us ↔ .plain c ∈ us := by
  constructor
  · intro h
    obtain ⟨u, hm, hcu⟩ := List.mem_flatMap.1 h
    cases u with
    | plain d =>
      obtain rfl := List.mem_singleton.1 hcu
      exact hm
    | pair code =>
      simp only [BodyUnit.text, List.mem_cons, List.not_mem_nil, or_false] at hcu
      obtain rfl := hcu.resolve_left hb
      exact absurd (hu _ hm) hc
  · exact fun h => List.mem_flatMap.2 ⟨_, h, List.mem_singleton.2 rfl⟩

/-- What a literal bars is barred as a unit of one character; its pairs are
those of every literal. -/
theorem BodyUnit.fits_iff {barred : List Char} {u : BodyUnit} :
    u.Fits barred ↔ u.Fits [] ∧ ∀ c ∈ barred, u ≠ .plain c := by
  cases u with
  | plain d =>
    simp only [Fits, List.not_mem_nil, not_false_eq_true, and_true, ne_eq, plain.injEq]
    exact and_congr_right fun _ => ⟨fun h c hc he => h (he ▸ hc), fun h hd => h d hd rfl⟩
  | pair code => simp [Fits]

/-- **Units are those of a string literal** exactly if their text holds no
line end, and no double quote outside a pair. -/
theorem StringBody.fits_iff_of_text {us : List BodyUnit} (hu : ∀ u ∈ us, u.Fits []) :
    (∀ u ∈ us, u.Fits ['"', '\r', '\n']) ↔
      '\r' ∉ text us ∧ '\n' ∉ text us ∧ '"' ∉ Escape.unpaired (text us) := by
  rw [mem_text_iff hu (by decide) (by decide), mem_text_iff hu (by decide) (by decide),
    Escape.mem_unpaired_text hu]
  constructor
  · intro h
    have hne : ∀ c ∈ ['"', '\r', '\n'], .plain c ∉ us :=
      fun c hc hm => (BodyUnit.fits_iff.1 (h _ hm)).2 c hc rfl
    exact ⟨hne '\r' (by decide), hne '\n' (by decide), hne '"' (by decide)⟩
  · rintro ⟨hr, hn, hq⟩ u hm
    refine BodyUnit.fits_iff.2 ⟨hu u hm, ?_⟩
    simp only [List.forall_mem_cons, List.not_mem_nil, false_imp_iff, implies_true, and_true]
    exact ⟨fun he => hq (he ▸ hm), fun he => hr (he ▸ hm), fun he => hn (he ▸ hm)⟩

/-- **A lexeme alone in a source is its one token** before the end token. -/
theorem Source.tokens_of_lexes (name : Text) {kind : TokenKind} {value w : Text}
    (h : Lexes kind value w) :
    ∃ t p, (Source.mk name w).tokens true = .ok [t, .eofAt p] ∧
      t.kind = kind ∧ t.value = value ∧ t.lexeme = w := by
  obtain ⟨c, u, rfl⟩ := List.exists_cons_of_ne_nil h.ne_nil
  have hm : munch c u = ⟨.lexeme kind (c :: u), []⟩ :=
    munch_of_lexes h (by simp) (List.append_nil _).symm
  have ht : (Source.mk name (c :: u)).tokens true = _ := Scan.tokens_ready_of_lexeme hm
  rw [Scan.tokens_ready_nil] at ht
  exact ⟨_, _, ht, rfl, h.valueOf_eq, rfl⟩

/-- The units of a string literal, between double quotes, are the one token
of a source before its end. -/
theorem tokens_quoted_text (name : Text) {us : List BodyUnit}
    (hu : ∀ u ∈ us, u.Fits ['"', '\r', '\n']) :
    ∃ t p, (Source.mk name ('"' :: StringBody.text us ++ ['"'])).tokens true
        = .ok [t, .eofAt p] ∧
      t.kind = .stringval ∧ t.value = StringBody.text us := by
  obtain ⟨t, p, ht, hk, hv, -⟩ := Source.tokens_of_lexes name (.string hu)
  exact ⟨t, p, ht, hk, hv⟩

/-- **The scanner and the decoder accept the same bodies.** A text between
double quotes is a single string literal with that text for its value,
followed by the end token, if and only if the text can be decoded, holds no
line end, and every double quote in it stands in a pair. -/
theorem tokens_quoted_iff_decode (name text : Text) :
    (∃ t e, (Source.mk name ('"' :: text ++ ['"'])).tokens true = .ok [t, e] ∧
        t.kind = .stringval ∧ t.value = text ∧ e.kind = .eof) ↔
      (∃ cs, Escape.decode text = .ok cs) ∧ '\r' ∉ text ∧ '\n' ∉ text ∧
        '"' ∉ Escape.unpaired text := by
  rw [Escape.exists_decode_iff]
  constructor
  · rintro ⟨t, e, h, hk, rfl, -⟩
    have hm : t ∈ (Source.mk name ('"' :: t.value ++ ['"'])).survey.tokens := by
      rw [← (Source.tokens_eq_ok_iff.1 h).2]
      exact List.mem_cons_self
    have hl := (Scan.lexes_of_mem_survey t hm).resolve_left (by rw [hk]; decide)
    rw [hk] at hl
    obtain ⟨us, hu, ht⟩ := hl.admits
    have hf : ∀ u ∈ us, u.Fits [] := fun u hm => (BodyUnit.fits_iff.1 (hu u hm)).1
    refine ⟨⟨us, hf, ht⟩, ?_⟩
    rw [ht]
    exact (StringBody.fits_iff_of_text hf).1 hu
  · rintro ⟨⟨us, hf, rfl⟩, h⟩
    obtain ⟨t, p, ht, hk, hv⟩ :=
      tokens_quoted_text name ((StringBody.fits_iff_of_text hf).2 h)
    exact ⟨t, .eofAt p, ht, hk, hv, rfl⟩

-- a backslash at the end of a body is refused by both, here with the closing quote for its code
example : Escape.decode ['a', '\\'] = .error .trailingBackslash ∧
    (Source.mk [] ['"', 'a', '\\', '"']).survey.errors.map LexError.kind
      = [.unterminatedString] := by
  decide +kernel

end Asl
