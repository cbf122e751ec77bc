import Asl.Literal
import Asl.Proofs.Decoding
import Asl.Proofs.MaximalMunch
import Mathlib.Data.List.Induction
import Mathlib.Data.Nat.Digits.Defs

/-!
# Every literal of a source has a value

A token may come from anywhere, and then its value need not be what its kind
promises: digits that are none, a body that cannot be decoded. The tokens of
a source are different. Each of them is a lexeme of the grammar
(`Scan.lexes_of_mem_survey`), and a lexeme of a literal kind has the value
of that kind. The one thing that is refused is an integer with more digits
than are converted.

What the value is can be said without the functions that compute it: an
integer is the number of its digits in base ten, and a character or a string
has as many characters as its body, less one for each pair.
-/

namespace Asl

/-- The kinds of token that stand for a value. -/
def TokenKind.literals : List TokenKind := [.intval, .floatval, .boolval, .charval, .stringval]

/-! ## Tokens of a survey -/

/-- **The tokens of a survey are lexemes**, the end token apart. -/
theorem Scan.lexes_of_mem_survey {s : Source} {p : Position} {t : Text} :
    ∀ k ∈ (ready s p t).survey.tokens, k.kind = .eof ∨ Lexes k.kind k.value k.lexeme := by
  rw [survey_tokens]
  induction t using munch_induction generalizing p with
  | nil =>
    rw [calls_ready_nil]
    exact List.forall_mem_singleton.2 (.inl rfl)
  | cons c t ih =>
    rw [calls_ready_cons]
    rcases hm : munch c t with ⟨⟨kind, w⟩ | ⟨cause, b, w, a⟩, u⟩ <;> rw [hm] at ih
    · obtain ⟨value, hl⟩ := exists_lexes_of_munch hm
      refine List.forall_mem_cons.2 ⟨.inr ?_, ih⟩
      show Lexes kind (kind.valueOf w) w
      rw [hl.valueOf_eq]
      exact hl
    · exact ih

/-! ## Lexemes of literals -/

/-- What the value of a literal is made of, where it has to be read: digits,
a unit, or units. -/
def TokenKind.Admits (value : Text) : TokenKind → Prop
  | intval => ∀ d ∈ value, Lexicon.isDigit d = true
  | charval => ∃ u, BodyUnit.Fits ['\''] u ∧ value = u.text
  | stringval => ∃ us, (∀ u ∈ us, BodyUnit.Fits ['"', '\r', '\n'] u) ∧ value = StringBody.text us
  | _ => True

/-- **The value of a lexeme is what its kind promises.** -/
theorem Lexes.admits {kind : TokenKind} {value w : Text} (h : Lexes kind value w) :
    kind.Admits value := by
  -- no table holds one of the kinds in question
  have hp : ∀ k ∈ Lexicon.punctuation, k.2.Admits value := by
    simp [Lexicon.punctuation, TokenKind.Admits]
  have ho : ∀ k ∈ Grammar.operators, k.2.Admits value := by
    simp [Grammar.operators, TokenKind.Admits]
  have hk : ∀ k ∈ Lexicon.keywords, k.2.Admits value := by
    simp [Lexicon.keywords, TokenKind.Admits]
  cases h with
  | punctuation h => exact hp _ h
  | operator h => exact ho _ h
  | keyword h => exact hk _ h
  | int _ hd => exact hd
  | char hu => exact ⟨_, hu, rfl⟩
  | string hu => exact ⟨_, hu, rfl⟩
  | _ => exact True.intro

/-! ## Values -/

/-- The number of decimal digits, the first of them the greatest, in base
ten. -/
theorem Literal.decimal_eq_ofDigits (ds : Text) :
    decimal ds = Nat.ofDigits 10 (ds.reverse.map fun d => d.toNat - '0'.toNat) := by
  induction ds using List.reverseRecOn with
  | nil => rfl
  | append_singleton ds d ih =>
    have hd : decimal (ds ++ [d]) = 10 * decimal ds + (d.toNat - '0'.toNat) := by
      unfold decimal
      rw [List.foldl_append]
      rfl
    rw [hd, ih, List.reverse_append, List.reverse_singleton, List.singleton_append,
      List.map_cons, Nat.ofDigits_cons]
    exact Nat.add_comm _ _

namespace Token

variable {t : Token}

/-- A character or a string has the value its body is decoded to. -/
theorem literal_of_decode (hk : t.kind = .charval ∨ t.kind = .stringval) {cs : Text}
    (h : Escape.decode t.value = .ok cs) : t.literal = .ok (.str cs) := by
  obtain hk | hk := hk <;> simp only [literal, hk, h] <;> rfl

theorem literal_of_charval (hk : t.kind = .charval) (h : Lexes t.kind t.value t.lexeme) :
    ∃ c, Escape.decode t.value = .ok [c] ∧ t.literal = .ok (.str [c]) := by
  rw [hk] at h
  obtain ⟨u, hu, hv⟩ := h.admits
  have hf : ∀ v ∈ [u], v.Fits ['\''] := List.forall_mem_singleton.2 hu
  obtain ⟨cs, hd, hl⟩ := Escape.exists_decode_text hf
  rw [StringBody.text_cons, StringBody.text_nil, List.append_nil, ← hv] at hd
  obtain ⟨c, rfl⟩ := List.length_eq_one_iff.1 hl
  exact ⟨c, hd, literal_of_decode (.inl hk) hd⟩

theorem literal_of_stringval (hk : t.kind = .stringval) (h : Lexes t.kind t.value t.lexeme) :
    ∃ cs, Escape.decode t.value = .ok cs ∧ t.literal = .ok (.str cs) ∧
      cs.length + Escape.pairs t.value = t.value.length := by
  rw [hk] at h
  obtain ⟨us, hu, hv⟩ := h.admits
  obtain ⟨cs, hd, hl⟩ := Escape.exists_decode_text hu
  rw [← hv] at hd
  refine ⟨cs, hd, literal_of_decode (.inr hk) hd, ?_⟩
  rw [hv, hl, Escape.length_text hu]

theorem literal_of_boolval (hk : t.kind = .boolval) (h : Lexes t.kind t.value t.lexeme) :
    t.literal = .ok (.bool (t.lexeme = "true".toList)) := by
  rw [hk] at h
  rw [show t.lexeme = t.value from h.valueOf_eq]
  simp only [literal, hk]

theorem literal_of_intval (hk : t.kind = .intval) :
    t.literal = if t.value.length ≤ 4300 then
        .ok (.int (Nat.ofDigits 10 (t.value.reverse.map fun d => d.toNat - '0'.toNat)))
      else .error (.tooManyDigits t.value.length) := by
  simp only [literal, hk, Literal.decimal_eq_ofDigits, maxIntDigits]

/-- A token of another kind has no value. -/
theorem literal_of_not_mem (hk : t.kind ∉ TokenKind.literals) :
    t.literal = .error (.notLiteral t.kind) := by
  unfold literal
  cases h : t.kind <;> first | rfl | exact absurd (by rw [h]; decide) hk

/-- A literal has a value, if it is not an integer of too many digits. -/
theorem exists_literal (hk : t.kind ∈ TokenKind.literals)
    (hi : t.kind = .intval → t.value.length ≤ 4300) (h : Lexes t.kind t.value t.lexeme) :
    ∃ v, t.literal = .ok v := by
  simp only [TokenKind.literals, List.mem_cons, List.not_mem_nil, or_false] at hk
  obtain hk | hk | hk | hk | hk := hk
  · exact ⟨_, (literal_of_intval hk).trans (if_pos (hi hk))⟩
  · exact ⟨.float (Literal.floatBits t.value), by simp only [literal, hk]⟩
  · exact ⟨_, literal_of_boolval hk h⟩
  · obtain ⟨c, -, hc⟩ := literal_of_charval hk h
    exact ⟨_, hc⟩
  · obtain ⟨cs, -, hc, -⟩ := literal_of_stringval hk h
    exact ⟨_, hc⟩

/-- **A literal is refused only for its number of digits.** -/
theorem literal_eq_error_iff (h : t.kind ∈ TokenKind.literals → Lexes t.kind t.value t.lexeme) :
    (∃ e, t.literal = .error e) ↔
      t.kind ∉ TokenKind.literals ∨ t.kind = .intval ∧ 4300 < t.value.length := by
  constructor
  · rintro ⟨e, he⟩
    by_contra hn
    rw [not_or, not_not, not_and, Nat.not_lt] at hn
    obtain ⟨v, hv⟩ := exists_literal hn.1 hn.2 (h hn.1)
    rw [he] at hv
    cases hv
  · rintro (hk | ⟨hk, hd⟩)
    · exact ⟨_, literal_of_not_mem hk⟩
    · exact ⟨_, (literal_of_intval hk).trans (if_neg (Nat.not_le.2 hd))⟩

end Token

/-- **Every literal of a source has a value.** A token of a survey is refused
exactly if it is no literal, or an integer of too many digits. A character
literal is decoded to one character, and a string literal to as many as its
body has, less one for each pair. An integer is the number of its digits in
base ten, and a truth value is true exactly if it is spelled so. -/
theorem literal_of_mem_survey (s : Source) (t : Token) (ht : t ∈ s.survey.tokens) :
    ((∃ e, t.literal = .error e) ↔
      t.kind ∉ TokenKind.literals ∨ t.kind = .intval ∧ 4300 < t.value.length) ∧
    (t.kind = .charval →
      ∃ c, Escape.decode t.value = .ok [c] ∧ t.literal = .ok (.str [c])) ∧
    (t.kind = .stringval →
      ∃ cs, Escape.decode t.value = .ok cs ∧ t.literal = .ok (.str cs) ∧
        cs.length + Escape.pairs t.value = t.value.length) ∧
    (t.kind = .intval → t.value.length ≤ 4300 →
      (∀ d ∈ t.value, Lexicon.isDigit d = true) ∧
        t.literal
          = .ok (.int (Nat.ofDigits 10 (t.value.reverse.map fun d => d.toNat - '0'.toNat)))) ∧
    (t.kind = .boolval → t.literal = .ok (.bool (t.lexeme = "true".toList))) := by
  have hlex : t.kind ∈ TokenKind.literals → Lexes t.kind t.value t.lexeme := by
    intro hk
    refine (Scan.lexes_of_mem_survey t ht).resolve_left (fun he => ?_)
    rw [he] at hk
    exact absurd hk (by decide)
  have hmem : ∀ {kind}, kind ∈ TokenKind.literals → t.kind = kind →
      Lexes t.kind t.value t.lexeme := fun hk he => hlex (he ▸ hk)
  refine ⟨Token.literal_eq_error_iff hlex, fun hk => ?_, fun hk => ?_, fun hk hd => ⟨?_, ?_⟩,
    fun hk => ?_⟩
  · exact Token.literal_of_charval hk (hmem (by decide) hk)
  · exact Token.literal_of_stringval hk (hmem (by decide) hk)
  · have ha := (hmem (by decide) hk).admits
    rwa [hk] at ha
  · exact (Token.literal_of_intval hk).trans (if_pos hd)
  · exact Token.literal_of_boolval hk (hmem (by decide) hk)

/-- An escaped line feed, a string of an escaped backslash and an escaped
double quote, a number with leading zeros, a truth value, and a blank that
has no value. -/
theorem literal_of_mem_survey_each :
    let ts := (Source.mk [] "'\\n'\"\\\\\\\"\"007 true".toList).survey.tokens
    (∃ t ∈ ts, t.kind ∉ TokenKind.literals ∧ ∃ e, t.literal = .error e) ∧
    (∃ t ∈ ts, t.kind = .charval ∧
      ∃ c, Escape.decode t.value = .ok [c] ∧ t.literal = .ok (.str [c])) ∧
    (∃ t ∈ ts, t.kind = .stringval ∧
      ∃ cs, Escape.decode t.value = .ok cs ∧ t.literal = .ok (.str cs) ∧
        cs.length + Escape.pairs t.value = t.value.length) ∧
    (∃ t ∈ ts, (t.kind = .intval ∧ t.value.length ≤ 4300) ∧
      (∀ d ∈ t.value, Lexicon.isDigit d = true) ∧
        t.literal
          = .ok (.int (Nat.ofDigits 10 (t.value.reverse.map fun d => d.toNat - '0'.toNat)))) ∧
    ∃ t ∈ ts, t.kind = .boolval ∧ t.literal = .ok (.bool (t.lexeme = "true".toList)) := by
  intro ts
  have hall : (∃ t ∈ ts, t.kind ∉ TokenKind.literals) ∧ (∃ t ∈ ts, t.kind = .charval) ∧
      (∃ t ∈ ts, t.kind = .stringval) ∧
      (∃ t ∈ ts, t.kind = .intval ∧ t.value.length ≤ 4300) ∧
      ∃ t ∈ ts, t.kind = .boolval := by
    decide +kernel
  obtain ⟨⟨n, hn, hnk⟩, ⟨c, hc, hck⟩, ⟨d, hd, hdk⟩, ⟨i, hi, hik⟩, b, hb, hbk⟩ := hall
  exact ⟨⟨n, hn, hnk, (literal_of_mem_survey _ n hn).1.2 (.inl hnk)⟩,
    ⟨c, hc, hck, (literal_of_mem_survey _ c hc).2.1 hck⟩,
    ⟨d, hd, hdk, (literal_of_mem_survey _ d hd).2.2.1 hdk⟩,
    ⟨i, hi, hik, (literal_of_mem_survey _ i hi).2.2.2.1 hik.1 hik.2⟩,
    b, hb, hbk, (literal_of_mem_survey _ b hb).2.2.2.2 hbk⟩

end Asl
