import Asl.Proofs.Places

/-!
# When each kind of error arises

An error is of one of five kinds, and which one it is depends on the text
that is left to read and on nothing else. This module says for each kind
what that text looks like (`FaultKind.Arises`), and shows that it is then,
and only then, that a scan gives an error of that kind. In all other cases
it gives a token.

The conditions overlap as they come: a string literal may both hold a pair
that is no escape and be left open. So some of them rule others out, in the
order in which the complaints take precedence. A bad pair comes first, in
whatever literal it is and however that literal ends; a literal that is not
closed is complained of only without one.

That a text of some form is read as the fault of that form is a matter of
finding the reading that stands there (`faulty_of_arises`). Conversely
a fault shows the form of its text; and where a condition rules another out,
the text cannot have the other form too, or it would be read as another
fault (`arises_of_faulty`).
-/

namespace Asl

/-! ## What a text begins with -/

namespace Text

/-- A character that starts no lexeme, or an exclamation mark with no equals
sign after it. -/
def StartsUnexpected (r : Text) : Prop :=
  (∃ c t, r = c :: t ∧ CharClass.of? c = none) ∨ ∃ t, r = '!' :: t ∧ t.head? ≠ some '='

/-- Digits and a point with no digit after it. -/
def StartsHalfFloat (r : Text) : Prop :=
  ∃ ds t, r = ds ++ '.' :: t ∧ ds ≠ [] ∧ (∀ d ∈ ds, Lexicon.isDigit d = true) ∧
    ∀ d ∈ t.head?, Lexicon.isDigit d = false

/-- A quote and a pair that is no escape. -/
def StartsBadChar (r : Text) : Prop :=
  ∃ code t, r = '\'' :: '\\' :: code :: t ∧ code ∉ Grammar.codes

/-- A double quote, and after it units of a body up to a pair that is no
escape. -/
def StartsBadString (r : Text) : Prop :=
  ∃ us code t, r = '"' :: (StringBody.text us ++ '\\' :: code :: t) ∧ (∀ u ∈ us, u.InBody) ∧
    Lexicon.isLineEnd code = false ∧ code ∉ Grammar.codes

/-- A character literal. -/
def StartsCharLiteral (r : Text) : Prop :=
  ∃ u t, r = '\'' :: (BodyUnit.text u ++ '\'' :: t) ∧ u.Fits ['\'']

/-- A double quote, and after it units of a body up to the end of the line or
of the text. -/
def StartsOpenString (r : Text) : Prop :=
  ∃ us w t, r = '"' :: (StringBody.text us ++ (w ++ t)) ∧ (∀ u ∈ us, u.InBody) ∧
    StringBody.LooseEnd w ∧ ∀ d ∈ t.head?, Lexicon.isLineEnd d = true

end Text

/-- **The texts at which an error of a kind arises.** -/
def FaultKind.Arises (r : Text) : FaultKind → Prop
  | lexical => False
  | unexpectedCharacter => r.StartsUnexpected
  | malformedFloat => r.StartsHalfFloat
  | invalidEscape => r.StartsBadChar ∨ r.StartsBadString
  | unterminatedChar => r.head? = some '\'' ∧ ¬ r.StartsBadChar ∧ ¬ r.StartsCharLiteral
  | unterminatedString => ¬ r.StartsBadString ∧ r.StartsOpenString

/-! ## A text of some form is read so -/

/-- A step reads a fault of some kind. -/
def Step.Faulty (kind : FaultKind) (s : Step) : Prop :=
  ∃ cause b w a, s.reading = .fault cause b w a ∧ cause.kind = kind

/-- A fault that stands in front of a text is read there. -/
theorem faulty_of_before {cause : Fault} {b w a u : Text}
    (h : (Reading.fault cause b w a).Before u.head?) {c : Char} {t : Text}
    (hs : c :: t = b ++ w ++ a ++ u) : (munch c t).Faulty cause.kind := by
  rw [munch_of_before h hs]
  exact ⟨cause, b, w, a, rfl, rfl⟩

section Forms

variable {c : Char} {t : Text}

theorem faulty_of_startsUnexpected (h : Text.StartsUnexpected (c :: t)) :
    (munch c t).Faulty .unexpectedCharacter := by
  obtain ⟨d, u, hs, hc⟩ | ⟨u, hs, hu⟩ := h <;> obtain ⟨rfl, rfl⟩ := List.cons_eq_cons.1 hs
  · exact faulty_of_before (.stray (Option.map_eq_none_iff.1 hc)) rfl
  · refine faulty_of_before (.bare ?_) rfl
    rintro d hd rfl
    exact hu hd

theorem faulty_of_startsHalfFloat (h : Text.StartsHalfFloat (c :: t)) :
    (munch c t).Faulty .malformedFloat := by
  obtain ⟨ds, u, hs, hn, hd, hu⟩ := h
  refine faulty_of_before (.missingFraction hn hd hu) ?_
  rw [hs, List.nil_append, List.append_nil, List.append_assoc]
  rfl

theorem faulty_of_startsBadChar (h : Text.StartsBadChar (c :: t)) :
    (munch c t).Faulty .invalidEscape := by
  obtain ⟨code, u, hs, hc⟩ := h
  exact faulty_of_before (u := u) (.charEscape hc) hs

/-- Of the pairs that are no escape one is the first. -/
theorem Text.StartsBadString.exists_first {r : Text} (h : r.StartsBadString) :
    ∃ us code t, r = '"' :: (StringBody.text us ++ '\\' :: code :: t) ∧
      (∀ u ∈ us, u.Fits ['"', '\r', '\n']) ∧ Lexicon.isLineEnd code = false ∧
      code ∉ Grammar.codes := by
  obtain ⟨us, code, t, rfl, hus, hl, hc⟩ := h
  obtain hf | ⟨before, d, after, rfl, hf, hd⟩ := StringBody.forall_fits_or_exists hus
  · exact ⟨us, code, t, rfl, hf, hl, hc⟩
  · refine ⟨before, d, StringBody.text after ++ '\\' :: code :: t, ?_, hf, ?_, hd⟩
    · simp only [StringBody.text_append, StringBody.text_cons, BodyUnit.text, List.cons_append,
        List.nil_append, List.append_assoc]
    · exact hus (.pair d) (by simp)

/-- The first bad pair is reported, however the literal ends. -/
theorem faulty_of_startsBadString (h : Text.StartsBadString (c :: t)) :
    (munch c t).Faulty .invalidEscape := by
  obtain ⟨us, code, u, hs, hus, hl, hc⟩ := h.exists_first
  obtain ⟨vs, hvs, hr⟩ := StringBody.isRead_read u
  have hu := StringBody.text_read u
  obtain ⟨v, hr⟩ | ⟨w, v, hw, hv, hr⟩ := hr <;> rw [hr] at hu
  · refine faulty_of_before (u := v) (.closedEscape hus hc hl hvs) ?_
    rw [hs, ← hu]
    simp
  · rw [StringBody.text_append, StringBody.text_map_plain] at hu
    refine faulty_of_before (u := v) (.openEscapes hus hc hl hvs hw hv) ?_
    rw [hs, ← hu]
    simp

/-- A character literal is read as one. -/
theorem munch_of_startsCharLiteral (h : Text.StartsCharLiteral (c :: t)) :
    ∃ w u, munch c t = ⟨.lexeme .charval w, u⟩ := by
  obtain ⟨u, v, hs, hu⟩ := h
  refine ⟨_, v, munch_of_lexes (.char hu) (by simp [TokenKind.endsBefore]) ?_⟩
  rw [hs, List.append_assoc]
  rfl

/-- What follows an opening quote is not enough, or too much. -/
theorem faulty_of_quote (hb : ¬ Text.StartsBadChar ('\'' :: t))
    (hc : ¬ Text.StartsCharLiteral ('\'' :: t)) : (munch '\'' t).Faulty .unterminatedChar := by
  -- a payload is followed by something other than a quote, or there would be a literal
  have hunit : ∀ {u : BodyUnit} {v : Text}, u.Fits ['\''] → t = u.text ++ v →
      (munch '\'' t).Faulty .unterminatedChar := by
    intro u v hu hv
    refine faulty_of_before (u := v) (.unclosedChar hu ?_) (by simp [hv])
    rintro d hd rfl
    obtain ⟨x, rfl⟩ := List.head?_eq_some_iff.1 hd
    exact hc ⟨u, x, by rw [hv], hu⟩
  match t with
  | [] => exact faulty_of_before (u := []) .openQuote rfl
  | d :: v =>
    by_cases hq : d = '\''
    · subst hq
      exact faulty_of_before (u := v) .emptyChar rfl
    · by_cases hs : d = '\\'
      · subst hs
        match v with
        | [] => exact faulty_of_before (u := []) .openEscape rfl
        | code :: v =>
          have hcode : code ∈ Grammar.codes := by
            by_contra hn
            exact hb ⟨code, v, rfl, hn⟩
          exact hunit (u := .pair code) hcode rfl
      · exact hunit (u := .plain d) ⟨hs, by simpa using hq⟩ rfl

theorem faulty_of_startsOpenString (hb : ¬ Text.StartsBadString (c :: t))
    (h : Text.StartsOpenString (c :: t)) : (munch c t).Faulty .unterminatedString := by
  obtain ⟨us, w, u, hs, hus, hw, hu⟩ := h
  obtain hf | ⟨before, d, after, rfl, hf, hd⟩ := StringBody.forall_fits_or_exists hus
  · refine faulty_of_before (.openString hf hw hu) ?_
    rw [hs]
    simp
  · refine absurd ⟨before, d, StringBody.text after ++ (w ++ u), ?_, ?_, ?_, hd⟩ hb
    · rw [hs]
      simp only [StringBody.text_append, StringBody.text_cons, BodyUnit.text, List.cons_append,
        List.nil_append, List.append_assoc]
    · exact fun v hv => BodyUnit.inBody_of_fits (hf v hv)
    · exact hus (.pair d) (by simp)

/-- **Where an error of a kind arises, a fault of that kind is read.** -/
theorem faulty_of_arises {kind : FaultKind} (h : kind.Arises (c :: t)) :
    (munch c t).Faulty kind := by
  cases kind with
  | lexical => exact h.elim
  | unexpectedCharacter => exact faulty_of_startsUnexpected h
  | malformedFloat => exact faulty_of_startsHalfFloat h
  | invalidEscape => exact h.elim faulty_of_startsBadChar faulty_of_startsBadString
  | unterminatedChar =>
    obtain ⟨hq, hb, hc⟩ := h
    obtain rfl := Option.some.inj hq
    exact faulty_of_quote hb hc
  | unterminatedString => exact faulty_of_startsOpenString h.1 h.2

/-! ## What is read shows the form of its text -/

/-- A fault has one kind. -/
theorem Step.Faulty.unique {s : Step} {k l : FaultKind} (hk : s.Faulty k) (hl : s.Faulty l) :
    k = l := by
  obtain ⟨_, _, _, _, hr, rfl⟩ := hk
  obtain ⟨_, _, _, _, hr', rfl⟩ := hl
  rw [(Reading.fault.inj (hr.symm.trans hr')).1]

/-- A text that is read as an unfinished character literal begins with no
other form of one. -/
theorem arises_of_quote (h : (munch '\'' t).Faulty .unterminatedChar) :
    FaultKind.Arises ('\'' :: t) .unterminatedChar := by
  refine ⟨rfl, fun hb => ?_, fun hc => ?_⟩
  · exact FaultKind.noConfusion (h.unique (faulty_of_startsBadChar hb))
  · obtain ⟨w, u, hm⟩ := munch_of_startsCharLiteral hc
    obtain ⟨_, _, _, _, hr, -⟩ := h
    rw [hm] at hr
    cases hr

/-- **A fault is read only where an error of its kind arises.** -/
theorem arises_of_faulty {kind : FaultKind} (h : (munch c t).Faulty kind) :
    kind.Arises (c :: t) := by
  have hf := h
  obtain ⟨cause, b, w, a, hr, rfl⟩ := h
  have hs : c :: t = b ++ w ++ a ++ (munch c t).rest := by
    have hs := splits_munch c t
    rw [Step.Splits, hr] at hs
    exact hs.symm
  have hb := before_munch c t
  rw [hr] at hb
  generalize (munch c t).rest = u at hs hb
  generalize hx : u.head? = next at hb
  cases hb with
  | stray hc =>
    obtain ⟨rfl, rfl⟩ := List.cons_eq_cons.1 hs
    exact .inl ⟨c, t, rfl, by rw [CharClass.of?, hc]; rfl⟩
  | bare hn =>
    obtain ⟨rfl, rfl⟩ := List.cons_eq_cons.1 hs
    exact .inr ⟨t, rfl, fun hd => hn '=' (hx ▸ hd) rfl⟩
  | missingFraction hm hd hn =>
    refine ⟨_, u, ?_, hm, hd, hx ▸ hn⟩
    rw [hs]
    simp
  | openQuote =>
    obtain ⟨rfl, rfl⟩ := List.cons_eq_cons.1 hs
    exact arises_of_quote hf
  | openEscape =>
    obtain ⟨rfl, rfl⟩ := List.cons_eq_cons.1 hs
    exact arises_of_quote hf
  | emptyChar =>
    obtain ⟨rfl, rfl⟩ := List.cons_eq_cons.1 hs
    exact arises_of_quote hf
  | unclosedChar hu hn =>
    obtain ⟨rfl, -⟩ := List.cons_eq_cons.1 hs
    exact arises_of_quote hf
  | charEscape hc => exact .inl ⟨_, u, hs, hc⟩
  | openString hu hw hn =>
    refine ⟨fun hb => ?_, _, _, u, ?_, fun v hv => BodyUnit.inBody_of_fits (hu v hv), hw, hx ▸ hn⟩
    · exact FaultKind.noConfusion (hf.unique (faulty_of_startsBadString hb))
    · rw [hs]
      simp
  | @closedEscape us vs code _ hu hc hl hv =>
    refine .inr ⟨us, code, StringBody.text vs ++ '"' :: u, ?_, ?_, hl, hc⟩
    · rw [hs]
      simp
    · exact fun v hv => BodyUnit.inBody_of_fits (hu v hv)
  | @openEscapes us vs code w _ hu hc hl hv hw hn =>
    refine .inr ⟨us, code, StringBody.text vs ++ (w ++ u), ?_, ?_, hl, hc⟩
    · rw [hs]
      simp
    · exact fun v hv => BodyUnit.inBody_of_fits (hu v hv)

end Forms

/-! ## What a scan gives -/

/-- No error arises at the end of the text. -/
theorem FaultKind.not_arises_nil (kind : FaultKind) : ¬ kind.Arises [] := by
  cases kind with
  | lexical => exact id
  | unexpectedCharacter =>
    rintro (⟨_, _, hs, _⟩ | ⟨_, hs, _⟩) <;> cases hs
  | malformedFloat =>
    rintro ⟨ds, t, hs, _⟩
    exact absurd hs.symm (by simp)
  | invalidEscape =>
    rintro (⟨_, _, hs, _⟩ | ⟨_, _, _, hs, _⟩) <;> cases hs
  | unterminatedChar =>
    rintro ⟨hs, _⟩
    cases hs
  | unterminatedString =>
    rintro ⟨_, _, _, _, hs, _⟩
    cases hs

namespace Scan

/-- **What kind of error a scan at rest gives** depends on the text it has
left. -/
theorem next_error_iff {x : Scan} (hp : x.pending = none) (kind : FaultKind) :
    (∃ e, x.next.1 = .error e ∧ e.kind = kind) ↔ kind.Arises x.rest := by
  cases hr : x.rest with
  | nil =>
    rw [next_of_nil hp hr]
    refine ⟨?_, fun h => absurd h kind.not_arises_nil⟩
    rintro ⟨e, he, -⟩
    cases he
  | cons c t =>
    rw [next_of_cons hp hr]
    refine Iff.trans ⟨?_, ?_⟩ ⟨arises_of_faulty, faulty_of_arises⟩
    · rintro ⟨e, he, rfl⟩
      cases hm : (munch c t).reading with
      | lexeme k w => rw [hm] at he; cases he
      | fault cause b w a => rw [hm] at he; cases he; exact ⟨cause, b, w, a, hm, rfl⟩
    · rintro ⟨cause, b, w, a, hm, rfl⟩
      rw [hm]
      exact ⟨_, rfl, rfl⟩

/-- It gives a token in all other cases. -/
theorem next_token_iff {x : Scan} (hp : x.pending = none) :
    (∃ t, x.next.1 = .token t) ↔ ∀ kind : FaultKind, ¬ kind.Arises x.rest := by
  constructor
  · rintro ⟨t, ht⟩ kind ha
    obtain ⟨e, he, -⟩ := (next_error_iff hp kind).2 ha
    rw [ht] at he
    cases he
  · intro h
    cases hn : x.next.1 with
    | token t => exact ⟨t, rfl⟩
    | error e => exact absurd ((next_error_iff hp e.kind).1 ⟨e, hn, rfl⟩) (h e.kind)

/-- What a scan has left is the source from its cursor on. -/
theorem Anchored.rest_eq {s : Source} {x : Scan} (h : x.Anchored s) :
    x.rest = s.text.drop x.position.offset.toNat := by
  obtain ⟨pre, ht, hp⟩ := h.stands
  rw [hp, Position.offset_after_start, Int.toNat_natCast, ht, List.drop_left]

/-- **The kind of an error is decided by the text from the cursor on.**
Whatever a client asked before, a scan that has not stopped gives an error
of a kind exactly if one arises there, and a token exactly if none does. -/
theorem next_kind_iff_arises (s : Source) (cs : List Command)
    (hp : ((start s).run cs).2.pending = none) :
    let x := ((start s).run cs).2
    let r := s.text.drop x.position.offset.toNat
    (∀ kind : FaultKind, (∃ e, x.next.1 = .error e ∧ e.kind = kind) ↔ kind.Arises r) ∧
      ((∃ t, x.next.1 = .token t) ↔ ∀ kind : FaultKind, ¬ kind.Arises r) := by
  intro x r
  have hr : x.rest = r := ((anchored_start s).run cs).1.rest_eq
  rw [← hr]
  exact ⟨next_error_iff hp, next_token_iff hp⟩

/-- After half a number and a blank, a string literal that holds a bad pair
and that the text leaves open. -/
theorem next_kind_iff_arises_badString :
    let s : Source := ⟨[], "1. \"a\\qb".toList⟩
    let x := ((start s).run [.next, .resume, .next]).2
    let r : Text := "\"a\\qb".toList
    x.pending = none ∧
      (∀ kind : FaultKind, (∃ e, x.next.1 = .error e ∧ e.kind = kind) ↔ kind.Arises r) ∧
      ((∃ t, x.next.1 = .token t) ↔ ∀ kind : FaultKind, ¬ kind.Arises r) := by
  intro s x r
  have hp : x.pending = none := by decide +kernel
  exact ⟨hp, next_kind_iff_arises s [.next, .resume, .next] hp⟩

end Scan

end Asl
