import Asl.Proofs.Calls

/-!
# How far a string literal reaches

The scan that comes to a double quote goes on to the end of a literal,
whatever it meets in between. Two things are decided on the way, and they
come from different places: where the scan goes on from comes from the end of
the literal, and what it reports may come from a pair in the middle. So a bad
escape must change nothing about how far the literal reaches, and where the
literal ends must change nothing about what is said of a bad escape.

How far a literal reaches is a matter of its units, and is said here without
the reader: `StringBody.Reaches` is a relation with one rule for each unit and
one for the end. A backslash is a unit by itself only where it pairs with
nothing. The reader finds exactly the units of the relation
(`StringBody.read_eq_iff`), so they are unique, and the step passes over them
and over the closing quote if there is one, known escapes or not
(`Step.consumed_stringLiteral`).
-/

namespace Asl

/-! ## The units of a body -/

namespace StringBody

/-- **How far a body reaches**: from the front of a text, over some units, to
what follows it. -/
inductive Reaches : Text → List BodyUnit → Text → Prop where
  /-- A double quote, a line end and the end of the text end it. -/
  | stop {t : Text} (h : ∀ d ∈ t.head?, d = '"' ∨ Lexicon.isLineEnd d = true) : Reaches t [] t
  /-- A backslash pairs with a character that does not end the line. -/
  | pair {code : Char} {t rest : Text} {us : List BodyUnit}
      (hc : Lexicon.isLineEnd code = false) (h : Reaches t us rest) :
      Reaches ('\\' :: code :: t) (.pair code :: us) rest
  /-- Any other character is a unit, also a backslash that has none to pair
  with. -/
  | plain {c : Char} {t rest : Text} {us : List BodyUnit} (hq : c ≠ '"')
      (hl : Lexicon.isLineEnd c = false)
      (hb : c = '\\' → ∀ d ∈ t.head?, Lexicon.isLineEnd d = true) (h : Reaches t us rest) :
      Reaches (c :: t) (.plain c :: us) rest

/-- A body reaches as far as it is read. -/
theorem reaches_read (t : Text) : Reaches t (read t).1 (read t).2 := by
  fun_induction read t with
  | case1 => exact .stop (by simp)
  | case2 code t h =>
    have hend : ∀ d ∈ (code :: t).head?, Lexicon.isLineEnd d = true := by
      rintro d ⟨⟩
      exact h
    exact .plain (by decide) rfl (fun _ => hend) (.stop fun d hd => .inr (hend d hd))
  | case3 code t h ih => exact .pair (Bool.eq_false_iff.2 h) ih
  | case4 c t _ h =>
    refine .stop ?_
    rintro d ⟨⟩
    simpa using h
  | case5 c t hb h ih =>
    rw [Bool.or_eq_true, not_or, decide_eq_true_eq] at h
    refine .plain h.1 (Bool.eq_false_iff.2 h.2) (fun hc d hd => ?_) ih
    -- a backslash with a character after it would have been read with it
    obtain ⟨u, rfl⟩ := List.head?_eq_some_iff.1 hd
    exact absurd rfl (hb d u hc)

/-- It reaches no other way. -/
theorem Reaches.read_eq {t rest : Text} {us : List BodyUnit} (h : Reaches t us rest) :
    read t = (us, rest) := by
  induction h with
  | @stop t h =>
    cases t with
    | nil => rfl
    | cons d t =>
      obtain rfl | hd := h d rfl
      · exact read_quote t
      · refine read_loose (w := []) (.inl rfl) ?_
        rintro e ⟨⟩
        exact hd
  | @pair code t rest us hc _ ih =>
    show read ((BodyUnit.pair code).text ++ t) = _
    rw [read_unit (u := .pair code) hc, ih]
    rfl
  | @plain c t rest us hq hl hb _ ih =>
    by_cases hc : c = '\\'
    · -- the line ends after it, and the body with the line
      subst hc
      have hend : ∀ d ∈ t.head?, Lexicon.isLineEnd d = true := hb rfl
      have ht : read t = ([], t) := read_loose (w := []) (.inl rfl) hend
      obtain ⟨rfl, rfl⟩ := Prod.mk.inj (ih.symm.trans ht)
      exact read_loose (w := ['\\']) (.inr rfl) hend
    · show read ((BodyUnit.plain c).text ++ t) = _
      rw [read_unit (u := .plain c) ⟨hc, hq, hl⟩, ih]
      rfl

/-- **The reader finds how far a body reaches.** -/
theorem read_eq_iff {t rest : Text} {us : List BodyUnit} :
    read t = (us, rest) ↔ Reaches t us rest := by
  refine ⟨fun h => ?_, Reaches.read_eq⟩
  have hr := reaches_read t
  rwa [h] at hr

section Reaches

variable {t rest : Text} {us : List BodyUnit} (h : Reaches t us rest)
include h

/-- A body stays on its line. -/
theorem Reaches.isLineEnd_text : ∀ d ∈ text us, Lexicon.isLineEnd d = false := by
  induction h with
  | stop _ => simp
  | pair hc _ ih =>
    refine List.forall_mem_append.2 ⟨?_, ih⟩
    exact List.forall_mem_cons.2 ⟨rfl, List.forall_mem_singleton.2 hc⟩
  | plain _ hl _ _ ih => exact List.forall_mem_cons.2 ⟨hl, ih⟩

/-- It ends at a double quote, or with its line. -/
theorem Reaches.head?_rest : ∀ d ∈ rest.head?, d = '"' ∨ Lexicon.isLineEnd d = true := by
  induction h with
  | stop h => exact h
  | pair _ _ ih => exact ih
  | plain _ _ _ _ ih => exact ih

end Reaches

/-- **The first pair that is no escape** among some units: the pairs before it
all are. -/
structure IsFirstBad (us before : List BodyUnit) (code : Char) (after : List BodyUnit) :
    Prop where
  units_eq : us = before ++ .pair code :: after
  known : ∀ c, .pair c ∈ before → Escape.isCode c = true
  unknown : Escape.isCode code = false

/-- Of the pairs that are no escape one is the first. -/
theorem exists_isFirstBad {us : List BodyUnit} {bad : Char} (hm : .pair bad ∈ us)
    (hbad : Escape.isCode bad = false) : ∃ before code after, IsFirstBad us before code after := by
  induction us with
  | nil => cases hm
  | cons u us ih =>
    by_cases hu : ∃ code, u = .pair code ∧ Escape.isCode code = false
    · obtain ⟨code, rfl, hc⟩ := hu
      exact ⟨[], code, us, rfl, by simp, hc⟩
    · have htail : .pair bad ∈ us :=
        (List.mem_cons.1 hm).resolve_left fun he => hu ⟨bad, he.symm, hbad⟩
      obtain ⟨before, code, after, rfl, hk, hc⟩ := ih htail
      refine ⟨u :: before, code, after, rfl, fun c hm => ?_, hc⟩
      rcases List.mem_cons.1 hm with he | hm
      · exact eq_true_of_ne_false fun hn => hu ⟨c, he.symm, hn⟩
      · exact hk c hm

/-- It is the one to be reported. -/
theorem IsFirstBad.firstBad_eq {us before after : List BodyUnit} {code : Char}
    (h : IsFirstBad us before code after) : firstBad us = some (before, code, after) := by
  obtain ⟨rfl, hk, hc⟩ := h
  induction before with
  | nil => rw [List.nil_append, firstBad, if_neg (Bool.eq_false_iff.1 hc)]
  | cons u before ih =>
    have htail := ih fun c hm => hk c (List.mem_cons_of_mem u hm)
    cases u with
    | plain c => rw [List.cons_append, firstBad, htail]; rfl
    | pair c =>
      rw [List.cons_append, firstBad, if_pos (hk c List.mem_cons_self), htail]
      rfl

end StringBody

/-! ## The step over a literal -/

namespace Step

variable {t rest : Text} {us : List BodyUnit} (h : StringBody.Reaches t us rest)
include h

/-- The step leaves what follows the literal, its closing quote apart. -/
theorem rest_stringLiteral : (stringLiteral t).rest = (closing rest).2 := by
  unfold stringLiteral
  rw [h.read_eq]
  dsimp only
  split
  · rfl
  · split <;> rfl

/-- **The step passes over all units**, and over the closing quote. -/
theorem consumed_stringLiteral :
    (stringLiteral t).reading.consumed = '"' :: StringBody.text us ++ (closing rest).1 := by
  have hsplit : _ ++ _ = '"' :: t := splits_stringLiteral t
  have htext := StringBody.text_read t
  rw [h.read_eq] at htext
  rw [rest_stringLiteral h] at hsplit
  have hall : '"' :: t = ('"' :: StringBody.text us ++ (closing rest).1) ++ (closing rest).2 := by
    rw [List.append_assoc, closing_append, List.cons_append, htext]
  exact List.append_cancel_right (hsplit.trans hall)

/-- **A bad pair is reported, wherever the literal ends.** -/
theorem reading_stringLiteral {before after : List BodyUnit} {code : Char}
    (hb : StringBody.firstBad us = some (before, code, after)) :
    (stringLiteral t).reading
      = .fault (.badEscape code) ('"' :: StringBody.text before) ['\\', code]
          (StringBody.text after ++ (closing rest).1) := by
  unfold stringLiteral
  rw [h.read_eq]
  dsimp only
  rw [hb]

end Step

/-! ## The scan over a literal -/

namespace Scan

section Ready

variable {x : Scan} {t rest : Text} {us : List BodyUnit} (hp : x.pending = none)
  (hx : x.rest = '"' :: t) (h : StringBody.Reaches t us rest)
include hp hx h

/-- A scan goes on after the units, and after the closing quote. -/
theorem next_of_reaches :
    x.next.2.rest = (Step.closing rest).2 ∧ x.next.2.position
      = x.position.after ('"' :: StringBody.text us ++ (Step.closing rest).1) := by
  rw [next_of_cons hp hx, ← Step.rest_stringLiteral h, ← Step.consumed_stringLiteral h]
  exact ⟨rfl, rfl⟩

/-- The first bad pair is the error. -/
theorem next_of_isFirstBad {before after : List BodyUnit} {code : Char}
    (hf : StringBody.IsFirstBad us before code after) :
    x.next.1 = .error ⟨.invalidEscape, Escape.invalidMessage code,
      x.position.after ('"' :: StringBody.text before), x.source, ['\\', code]⟩ := by
  rw [next_of_cons hp hx]
  show (Step.stringLiteral t).reading.event x.source x.position = _
  rw [Step.reading_stringLiteral h hf.firstBad_eq]
  rfl

end Ready

/-- **A scan passes over a string literal to its end, and reports its first bad
escape.** At a double quote, the units that follow are settled by the text. The
scan is left right after the double quote that ends them or, where there is
none, at the line end or the end of the text; what it has passed over holds no
line end. If a pair among the units is no escape, the scan gives an error about
the first such pair, at its backslash, with the pair as its text. A scan that
has stopped at an earlier error gives that error until it is resumed; on any
other, resuming does nothing. -/
theorem next_of_doubleQuote {x : Scan} {t : Text} (hx : x.rest = '"' :: t) :
    let y := x.resume
    (x.pending = none → y = x) ∧ (∀ e, x.pending = some e → x.next = (.error e, x)) ∧
    ∃ us rest, (∀ vs v, StringBody.Reaches t vs v ↔ vs = us ∧ v = rest) ∧
      (∀ v, rest = '"' :: v → y.next.2.rest = v ∧
        y.next.2.position = x.position.after ('"' :: StringBody.text us ++ ['"'])) ∧
      (rest.head? ≠ some '"' → (∀ d ∈ rest.head?, Lexicon.isLineEnd d = true) ∧
        y.next.2.rest = rest ∧ y.next.2.position = x.position.after ('"' :: StringBody.text us)) ∧
      (∀ d ∈ '"' :: StringBody.text us ++ ['"'], Lexicon.isLineEnd d = false) ∧
      (∀ bad, .pair bad ∈ us → Escape.isCode bad = false →
        ∃ before code after, StringBody.IsFirstBad us before code after) ∧
      ∀ before code after, StringBody.IsFirstBad us before code after →
        y.next.1 = .error ⟨.invalidEscape, Escape.invalidMessage code,
          x.position.after ('"' :: StringBody.text before), x.source, ['\\', code]⟩ := by
  intro y
  have h := StringBody.reaches_read t
  generalize hr : StringBody.read t = r at h
  obtain ⟨us, rest⟩ := r
  have hnext := next_of_reaches (x := y) rfl hx h
  refine ⟨resume_of_pending, fun e => next_of_pending, us, rest, fun vs v => ?_, ?_,
    fun hne => ?_, ?_, fun bad => StringBody.exists_isFirstBad,
    fun before code after hf => next_of_isFirstBad (x := y) rfl hx h hf⟩
  · rw [← StringBody.read_eq_iff, hr, Prod.mk.injEq]
    exact ⟨fun he => ⟨he.1.symm, he.2.symm⟩, fun he => ⟨he.1.symm, he.2.symm⟩⟩
  · rintro v rfl
    exact hnext
  · have hend : ∀ d ∈ rest.head?, Lexicon.isLineEnd d = true := by
      refine fun d hd => (h.head?_rest d hd).resolve_left fun hq => hne ?_
      rw [← hq]
      exact hd
    rw [Step.closing_of_isLineEnd hend, List.append_nil] at hnext
    exact ⟨hend, hnext⟩
  · refine List.forall_mem_cons.2 ⟨rfl, List.forall_mem_append.2 ⟨h.isLineEnd_text, ?_⟩⟩
    exact List.forall_mem_singleton.2 rfl

/-- After an escaped quote two bad pairs, and then a backslash that the line
end leaves alone: the first of the two is reported, and the scan goes on at the
line end. -/
theorem next_of_doubleQuote_open :
    let s : Source := ⟨[], "x \"a\\\"\\q\\z\\\n@".toList⟩
    let x := ((start s).run [.next, .next]).2
    x.pending = none ∧ x.rest = '"' :: "a\\\"\\q\\z\\\n@".toList ∧
      StringBody.Reaches "a\\\"\\q\\z\\\n@".toList
        [.plain 'a', .pair '"', .pair 'q', .pair 'z', .plain '\\'] "\n@".toList ∧
      x.next.2.rest = "\n@".toList ∧ x.next.2.position = ⟨1, 12, 11⟩ ∧
      ∃ e, x.next.1 = .error e ∧ e.kind = .invalidEscape ∧ e.position = ⟨1, 7, 6⟩ ∧
        e.text = "\\q".toList := by
  intro s x
  have hp : x.pending = none := by decide +kernel
  have hx : x.rest = '"' :: "a\\\"\\q\\z\\\n@".toList := by decide +kernel
  have hreach : StringBody.Reaches "a\\\"\\q\\z\\\n@".toList
      [.plain 'a', .pair '"', .pair 'q', .pair 'z', .plain '\\'] "\n@".toList :=
    StringBody.read_eq_iff.1 (by decide +kernel)
  obtain ⟨hsame, -, us, rest, hunits, -, hopen, -, -, hbad⟩ := next_of_doubleQuote hx
  rw [hsame hp] at hopen hbad
  obtain ⟨rfl, rfl⟩ := (hunits _ _).1 hreach
  obtain ⟨-, hrest, hplace⟩ := hopen (by decide)
  have hknown : ∀ c, .pair c ∈ [BodyUnit.plain 'a', .pair '"'] → Escape.isCode c = true := by
    intro c hm
    obtain rfl : c = '"' := by simpa using hm
    rfl
  have he := hbad [.plain 'a', .pair '"'] 'q' [.pair 'z', .plain '\\'] ⟨rfl, hknown, rfl⟩
  exact ⟨hp, hx, hreach, hrest, hplace.trans (by decide +kernel), _, he, rfl, by decide +kernel,
    rfl⟩

end Scan

end Asl
