import Asl.Diagnostic
import Asl.Proofs.Layout
import Asl.Text.Lines

/-!
# Line ends of a text and of a file

A file is read with its line ends unified: a `CR LF` pair and a lone `CR` both
become a line feed. The language treats the three nearly alike, since a `CR`
is blank space and ends a comment and a string literal as a line feed does.
This module says what the difference comes to.

Unifying works on the two parts of a text separately, unless the cut goes
through a pair (`Text.Parted`). Places are counted by line feeds, so a place
keeps its line and column exactly if every `CR` before it is the first half of
a pair (`Text.Paired`); a lone `CR` puts all that follows on a later line
(`EditorPosition.ofPosition_after_unify_iff`).

What is read stands before a `CR` as it stands before a line feed. So a
reading that holds no `CR` is read from the unified text as well, and only
four readings can hold one: blank space, a character literal with the `CR` for
its payload, closed or not, and a backslash with the `CR` for its code, after
a quote (`Reading.Before.lineEnd_cases`).
-/

namespace Asl

/-! ## Unified texts -/

namespace Text

/-- **Every `CR` is the first half of a pair.** -/
def Paired (t : Text) : Prop := ∀ a b, t = a ++ '\r' :: b → b.head? = some '\n'

/-- **No pair is cut** between two texts. -/
def Parted (a b : Text) : Prop := a.getLast? = some '\r' → b.head? ≠ some '\n'

/-- What becomes of a character that is no half of a pair. -/
def unifyChar (c : Char) : Char := if c = '\r' then '\n' else c

/-- A character that does not begin a pair is unified alone. -/
theorem unifyNewlines_cons {c : Char} {t : Text} (h : c = '\r' → t.head? ≠ some '\n') :
    unifyNewlines (c :: t) = unifyChar c :: unifyNewlines t := by
  rw [unifyNewlines.eq_def]
  split
  · next he => cases he
  · next he =>
    obtain ⟨rfl, rfl⟩ := List.cons.inj he
    exact absurd rfl (h rfl)
  · next he =>
    obtain ⟨rfl, rfl⟩ := List.cons.inj he
    rfl

/-- **Induction along the line ends of a text**: a `CR` is taken with the line
feed after it, if there is one. -/
theorem lineEnd_induction {motive : Text → Prop} (nil : motive [])
    (pair : ∀ t, motive t → motive ('\r' :: '\n' :: t))
    (lone : ∀ t, t.head? ≠ some '\n' → motive t → motive ('\r' :: t))
    (char : ∀ c t, c ≠ '\r' → motive t → motive (c :: t)) (t : Text) : motive t := by
  induction t using unifyNewlines.induct with
  | case1 => exact nil
  | case2 t ih => exact pair t ih
  | case3 c t h ih =>
    by_cases hc : c = '\r'
    · subst hc
      refine lone t (fun ht => ?_) ih
      obtain ⟨u, rfl⟩ := List.head?_eq_some_iff.1 ht
      exact h u rfl rfl
    · exact char c t hc ih

theorem unifyNewlines_lone {t : Text} (h : t.head? ≠ some '\n') :
    unifyNewlines ('\r' :: t) = '\n' :: unifyNewlines t :=
  unifyNewlines_cons fun _ => h

theorem unifyNewlines_char {c : Char} (h : c ≠ '\r') (t : Text) :
    unifyNewlines (c :: t) = c :: unifyNewlines t := by
  rw [unifyNewlines_cons fun hc => absurd hc h, unifyChar, if_neg h]

/-- Where nothing is a `CR`, nothing changes. -/
theorem unifyNewlines_append_left {a : Text} (h : '\r' ∉ a) (b : Text) :
    unifyNewlines (a ++ b) = a ++ unifyNewlines b := by
  induction a with
  | nil => rfl
  | cons c a ih =>
    have hc : c ≠ '\r' := fun hc => h (hc ▸ List.mem_cons_self)
    rw [List.cons_append, unifyNewlines_char hc, ih fun ha => h (List.mem_cons_of_mem c ha)]
    rfl

theorem unifyNewlines_of_not_mem {a : Text} (h : '\r' ∉ a) : unifyNewlines a = a := by
  simpa [unifyNewlines] using unifyNewlines_append_left h []

theorem head?_unifyNewlines (t : Text) : (unifyNewlines t).head? = t.head?.map unifyChar := by
  induction t using lineEnd_induction with
  | nil => rfl
  | pair t _ => rfl
  | lone t ht _ => rw [unifyNewlines_lone ht]; rfl
  | char c t hc _ =>
    rw [unifyNewlines_char hc]
    show some c = some (unifyChar c)
    rw [unifyChar, if_neg hc]

theorem unifyNewlines_ne_nil {t : Text} (h : t ≠ []) : unifyNewlines t ≠ [] := by
  intro hu
  have hh := head?_unifyNewlines t
  rw [hu] at hh
  exact h (List.head?_eq_none_iff.1 (Option.map_eq_none_iff.1 hh.symm))

/-- Nothing new comes in but line feeds. -/
theorem mem_of_mem_unifyNewlines {d : Char} {t : Text} (h : d ∈ unifyNewlines t) :
    d ∈ t ∨ d = '\n' := by
  induction t using lineEnd_induction with
  | nil => cases h
  | pair t ih =>
    rcases List.mem_cons.1 h with rfl | h
    · exact .inr rfl
    · exact (ih h).imp_left fun h => List.mem_cons_of_mem _ (List.mem_cons_of_mem _ h)
  | lone t ht ih =>
    rw [unifyNewlines_lone ht] at h
    rcases List.mem_cons.1 h with rfl | h
    · exact .inr rfl
    · exact (ih h).imp_left (List.mem_cons_of_mem _)
  | char c t hc ih =>
    rw [unifyNewlines_char hc] at h
    rcases List.mem_cons.1 h with rfl | h
    · exact .inl List.mem_cons_self
    · exact (ih h).imp_left (List.mem_cons_of_mem _)

/-- A `CR` becomes a line feed, whatever follows. -/
theorem exists_unifyNewlines_return (t : Text) : ∃ u, unifyNewlines ('\r' :: t) = '\n' :: u := by
  by_cases ht : t.head? = some '\n'
  · obtain ⟨u, rfl⟩ := List.head?_eq_some_iff.1 ht
    exact ⟨unifyNewlines u, rfl⟩
  · exact ⟨unifyNewlines t, unifyNewlines_lone ht⟩

section Parted

variable {a b : Text}

theorem Parted.tail {c : Char} (h : Parted (c :: a) b) : Parted a b := by
  intro ha
  apply h
  rw [List.getLast?_cons, ha]
  rfl

theorem parted_of_head? (h : b.head? ≠ some '\n') : Parted a b := fun _ => h

theorem parted_of_getLast? (h : a.getLast? ≠ some '\r') : Parted a b := fun ha => absurd ha h

/-- What stands before the first part does not matter, unless that is empty. -/
theorem Parted.append_left (h : Parted a b) (ha : a ≠ []) (t : Text) : Parted (t ++ a) b := by
  intro hl
  rw [List.getLast?_append_of_ne_nil t ha] at hl
  exact h hl

/-- **Unifying goes part by part.** -/
theorem unifyNewlines_append (h : Parted a b) :
    unifyNewlines (a ++ b) = unifyNewlines a ++ unifyNewlines b := by
  induction a using lineEnd_induction with
  | nil => rfl
  | pair a ih => exact congrArg ('\n' :: ·) (ih h.tail.tail)
  | lone a ha ih =>
    have hab : (a ++ b).head? ≠ some '\n' := by
      cases a with
      | nil => exact h rfl
      | cons c a => exact ha
    rw [List.cons_append, unifyNewlines_lone hab, unifyNewlines_lone ha, ih h.tail]
    rfl
  | char c a hc ih =>
    rw [List.cons_append, unifyNewlines_char hc, unifyNewlines_char hc, ih h.tail]
    rfl

end Parted

/-! ### Pairs -/

theorem paired_nil : Paired [] := by
  intro a b h
  exact absurd h (List.append_ne_nil_of_right_ne_nil a (List.cons_ne_nil _ b)).symm

theorem paired_cons_iff {c : Char} {t : Text} :
    Paired (c :: t) ↔ (c = '\r' → t.head? = some '\n') ∧ Paired t := by
  constructor
  · intro h
    refine ⟨fun hc => h [] t (by rw [hc]; rfl), fun a b hab => ?_⟩
    exact h (c :: a) b (by rw [hab]; rfl)
  · rintro ⟨hc, ht⟩ a b hab
    cases a with
    | nil =>
      obtain ⟨rfl, rfl⟩ := List.cons.inj hab
      exact hc rfl
    | cons d a => exact ht a b (List.cons.inj hab).2

/-- Unifying adds a line feed for every lone `CR`, and takes none away. -/
theorem count_unifyNewlines (t : Text) :
    t.count '\n' ≤ (unifyNewlines t).count '\n' ∧
      ((unifyNewlines t).count '\n' = t.count '\n' ↔ Paired t) := by
  have hr : ∀ u : Text, ('\r' :: u).count '\n' = u.count '\n' :=
    fun u => List.count_cons_of_ne (by decide)
  induction t using lineEnd_induction with
  | nil => exact ⟨Nat.le_refl _, iff_of_true rfl paired_nil⟩
  | pair t ih =>
    have hp : Paired ('\r' :: '\n' :: t) ↔ Paired t := by simp [paired_cons_iff]
    show _ ≤ ('\n' :: unifyNewlines t).count '\n' ∧ (('\n' :: unifyNewlines t).count '\n' = _ ↔ _)
    rw [hp, ← ih.2, hr, List.count_cons_self, List.count_cons_self]
    omega
  | lone t ht ih =>
    have hp : ¬ Paired ('\r' :: t) := fun h => ht ((paired_cons_iff.1 h).1 rfl)
    rw [unifyNewlines_lone ht, hr, List.count_cons_self]
    exact ⟨by omega, iff_of_false (by omega) hp⟩
  | char c t hc ih =>
    have hp : Paired (c :: t) ↔ Paired t := by simp [paired_cons_iff, hc]
    rw [unifyNewlines_char hc, hp, ← ih.2, List.count_cons, List.count_cons]
    omega

instance (t : Text) : Decidable (Paired t) := decidable_of_iff _ (count_unifyNewlines t).2

end Text

/-! ## Places -/

/-- The place of a position, as an editor counts. -/
def EditorPosition.ofPosition (p : Position) : EditorPosition := ⟨p.line - 1, p.column - 1⟩

namespace EditorPosition

variable {p q : Position}

theorem ofPosition_eq_iff :
    ofPosition p = ofPosition q ↔ p.line = q.line ∧ p.column = q.column := by
  unfold ofPosition
  rw [EditorPosition.mk.injEq]
  omega

theorem ofPosition_advance (h : ofPosition p = ofPosition q) (c : Char) :
    ofPosition (p.advance c) = ofPosition (q.advance c) := by
  rw [ofPosition_eq_iff] at h ⊢
  unfold Position.advance
  split
  · exact ⟨by rw [h.1], rfl⟩
  · exact ⟨h.1, by rw [h.2]⟩

/-- Over pairs a place moves as it moves over line feeds. -/
theorem ofPosition_after_unify {t : Text} (ht : t.Paired) (h : ofPosition p = ofPosition q) :
    ofPosition (p.after t) = ofPosition (q.after (Text.unifyNewlines t)) := by
  induction t using Text.lineEnd_induction generalizing p q with
  | nil => exact h
  | pair t ih =>
    have hp : ofPosition ((p.advance '\r').advance '\n') = ofPosition (q.advance '\n') := by
      rw [ofPosition_eq_iff] at h ⊢
      exact ⟨congrArg (· + 1) h.1, rfl⟩
    exact ih (Text.paired_cons_iff.1 (Text.paired_cons_iff.1 ht).2).2 hp
  | lone t hn _ => exact absurd ((Text.paired_cons_iff.1 ht).1 rfl) hn
  | char c t hc ih =>
    rw [Text.unifyNewlines_char hc]
    exact ih (Text.paired_cons_iff.1 ht).2 (ofPosition_advance h c)

/-- **A place is kept exactly if every `CR` before it belongs to a pair.** -/
theorem ofPosition_after_unify_iff (t : Text) :
    ofPosition (Position.start.after t)
      = ofPosition (Position.start.after (Text.unifyNewlines t)) ↔ t.Paired := by
  refine ⟨fun h => ?_, fun ht => ofPosition_after_unify ht rfl⟩
  have hl := (ofPosition_eq_iff.1 h).1
  rw [Position.line_after, Position.line_after] at hl
  exact (Text.count_unifyNewlines t).2.1 (by omega)

end EditorPosition

/-! ## Readings before a line end -/

/-- **What stands before a line end stands before any other.** -/
theorem Reading.Before.lineEnd {r : Reading} {c d : Char} (hc : Lexicon.isLineEnd c = true)
    (hd : Lexicon.isLineEnd d = true) (h : r.Before (some c)) : r.Before (some d) := by
  have hn : ∀ {q : Char → Prop}, q d → ∀ e ∈ some d, q e := by
    rintro q hq e ⟨⟩
    exact hq
  have hne : ∀ {e : Char}, Lexicon.isLineEnd e = false → d ≠ e := by
    rintro e he rfl
    rw [hd] at he
    cases he
  have hdigit : Lexicon.isDigit d = false := by
    obtain rfl | rfl := Lexicon.isLineEnd_iff.1 hd <;> rfl
  cases h with
  | @lexeme kind value w _ h hr =>
    have hk : kind.endsBefore c = kind.endsBefore d := by
      obtain rfl | rfl := Lexicon.isLineEnd_iff.1 hc <;>
      obtain rfl | rfl := Lexicon.isLineEnd_iff.1 hd <;>
      cases kind <;> rfl
    exact .lexeme h (hn (hk ▸ hr c rfl))
  | stray h => exact .stray h
  | bare _ => exact .bare (hn (hne rfl))
  | missingFraction hm ha _ => exact .missingFraction hm ha (hn hdigit)
  | emptyChar => exact .emptyChar
  | charEscape hc => exact .charEscape hc
  | unclosedChar hu _ => exact .unclosedChar hu (hn (hne rfl))
  | openString hu hw _ => exact .openString hu hw (hn hd)
  | closedEscape hu hc hl hv => exact .closedEscape hu hc hl hv
  | openEscapes hu hc hl hv hw _ => exact .openEscapes hu hc hl hv hw (hn hd)

/-- What stands before a text stands before the unified text. -/
theorem Reading.Before.unifyNewlines {r : Reading} {u : Text} (h : r.Before u.head?) :
    r.Before (Text.unifyNewlines u).head? := by
  rw [Text.head?_unifyNewlines]
  cases hu : u.head? with
  | none => rwa [hu] at h
  | some d =>
    rw [hu] at h
    show r.Before (some (Text.unifyChar d))
    unfold Text.unifyChar
    split
    · next hd => exact (hd ▸ h).lineEnd rfl rfl
    · exact h

/-! ## Readings over a line end -/

section Over

variable {d : Char} (hd : Lexicon.isLineEnd d = true)

theorem BodyUnit.InBody.isLineEnd_eq_false {u : BodyUnit} (h : u.InBody) :
    ∀ c ∈ u.text, Lexicon.isLineEnd c = false := by
  cases u with
  | plain c => exact List.forall_mem_singleton.2 h.2.2
  | pair code => exact List.forall_mem_cons.2 ⟨rfl, List.forall_mem_singleton.2 h⟩

theorem StringBody.isLineEnd_eq_false {us : List BodyUnit} (h : ∀ u ∈ us, u.InBody) :
    ∀ c ∈ text us, Lexicon.isLineEnd c = false := by
  intro c hc
  obtain ⟨u, hu, hcu⟩ := List.mem_flatMap.1 hc
  exact (h u hu).isLineEnd_eq_false c hcu

theorem StringBody.LooseEnd.isLineEnd_eq_false {w : Text} (h : LooseEnd w) :
    ∀ c ∈ w, Lexicon.isLineEnd c = false := by
  obtain rfl | rfl := h
  · exact List.forall_mem_nil _
  · exact List.forall_mem_singleton.2 rfl

theorem Lexicon.isLineEnd_eq_false_of_isWordChar {c : Char} (h : isWordChar c = true) :
    isLineEnd c = false := by
  rw [Bool.eq_false_iff, ne_eq, isLineEnd_iff, not_or]
  exact ⟨ne_of_isWordChar h rfl, ne_of_isWordChar h rfl⟩

theorem Lexicon.isLineEnd_eq_false_of_isDigit {c : Char} (h : isDigit c = true) :
    isLineEnd c = false :=
  isLineEnd_eq_false_of_isWordChar (by rw [isWordChar, h, Bool.or_true])

theorem Lexicon.isLineEnd_eq_false_of_any {v : Text} (h : v.any isLineEnd = false) :
    ∀ c ∈ v, isLineEnd c = false :=
  fun c hc => Bool.eq_false_iff.2 (List.any_eq_false.1 h c hc)

include hd

/-- A text without line ends does not hold one. -/
theorem Lexicon.not_mem_of_isLineEnd {v : Text} (hv : ∀ c ∈ v, isLineEnd c = false) : d ∉ v := by
  intro hm
  rw [hv d hm] at hd
  cases hd

/-- The payload of a character literal holds a line end only if it is one. -/
theorem BodyUnit.Fits.eq_plain {u : BodyUnit} (h : u.Fits ['\'']) (hm : d ∈ u.text) :
    u = .plain d := by
  cases u with
  | plain c => rw [List.mem_singleton.1 hm]
  | pair code =>
    have hall : ∀ c ∈ '\\' :: Grammar.codes, Lexicon.isLineEnd c = false :=
      Lexicon.isLineEnd_eq_false_of_any rfl
    have hmem : d ∈ '\\' :: Grammar.codes := by
      rcases List.mem_cons.1 hm with rfl | hm
      · exact List.mem_cons_self
      · rw [List.mem_singleton.1 hm]
        exact List.mem_cons_of_mem _ h
    exact absurd hmem (Lexicon.not_mem_of_isLineEnd hd hall)

/-- **A lexeme over a line end** is blank space, or a character literal with
the line end for its payload. -/
theorem Lexes.lineEnd_cases {kind : TokenKind} {value w : Text} (h : Lexes kind value w)
    (hw : d ∈ w) : kind = .space ∨ kind = .charval ∧ w = ['\'', d, '\''] := by
  have hfree : ∀ {v : Text}, (∀ c ∈ v, Lexicon.isLineEnd c = false) → d ∉ v :=
    Lexicon.not_mem_of_isLineEnd hd
  have hword := @Lexicon.isLineEnd_eq_false_of_isWordChar
  have hletter : ∀ {c : Char}, Lexicon.isLetter c = true → Lexicon.isLineEnd c = false :=
    fun hc => hword (by rw [Lexicon.isWordChar, hc, Bool.true_or])
  have hdigit := @Lexicon.isLineEnd_eq_false_of_isDigit
  cases h with
  | punctuation h =>
    have hall : ∀ k ∈ Lexicon.punctuation, [k.1].any Lexicon.isLineEnd = false := by decide
    exact absurd hw (hfree (Lexicon.isLineEnd_eq_false_of_any (hall _ h)))
  | operator h =>
    have hall : ∀ k ∈ Grammar.operators, k.1.any Lexicon.isLineEnd = false := by decide
    exact absurd hw (hfree (Lexicon.isLineEnd_eq_false_of_any (hall _ h)))
  | keyword h =>
    obtain ⟨c, t, ht, hc, hall⟩ := Lexicon.exists_word_of_mem h
    rw [ht] at hw
    exact absurd hw (hfree (List.forall_mem_cons.2 ⟨hletter hc, fun c hc => hword (hall c hc)⟩))
  | name hc hall _ =>
    exact absurd hw (hfree (List.forall_mem_cons.2 ⟨hletter hc, fun c hc => hword (hall c hc)⟩))
  | int _ hall => exact absurd hw (hfree fun c hc => hdigit (hall c hc))
  | float _ hall _ hall' =>
    refine absurd hw (hfree (List.forall_mem_append.2 ⟨fun c hc => hdigit (hall c hc), ?_⟩))
    exact List.forall_mem_cons.2 ⟨rfl, fun c hc => hdigit (hall' c hc)⟩
  | @char u hu =>
    have hm : d ∈ u.text := by
      have hq : ∀ c ∈ ['\''], Lexicon.isLineEnd c = false := List.forall_mem_singleton.2 rfl
      rcases List.mem_cons.1 hw with rfl | hw
      · cases hd
      · exact (List.mem_append.1 hw).resolve_right (hfree hq)
    rw [hu.eq_plain hd hm]
    exact .inr ⟨rfl, rfl⟩
  | string hu =>
    refine absurd hw (hfree (List.forall_mem_cons.2 ⟨rfl, List.forall_mem_append.2 ⟨?_, ?_⟩⟩))
    · exact StringBody.isLineEnd_eq_false fun u h => BodyUnit.inBody_of_fits (hu u h)
    · exact List.forall_mem_singleton.2 rfl
  | comment hall =>
    exact absurd hw (hfree (List.forall_mem_cons.2 ⟨rfl, List.forall_mem_cons.2 ⟨rfl, hall⟩⟩))
  | space _ _ => exact .inl rfl

/-- **A fault over a line end** is a character literal that is not closed, or
an escape after a quote, with the line end for its payload or its code. -/
theorem Reading.Before.fault_lineEnd_cases {cause : Fault} {b w a : Text} {next : Option Char}
    (h : (Reading.fault cause b w a).Before next) (hm : d ∈ b ++ w ++ a) :
    Reading.fault cause b w a = .fault .unclosedChar [] ['\'', d] [] ∨
      Reading.fault cause b w a = .fault (.badEscape d) ['\''] ['\\', d] [] := by
  have hfree : ∀ {v : Text}, (∀ c ∈ v, Lexicon.isLineEnd c = false) → d ∉ v :=
    Lexicon.not_mem_of_isLineEnd hd
  have hbody : ∀ {us : List BodyUnit}, (∀ u ∈ us, u.Fits ['"', '\r', '\n']) →
      ∀ c ∈ '"' :: StringBody.text us, Lexicon.isLineEnd c = false :=
    fun hu => List.forall_mem_cons.2
      ⟨rfl, StringBody.isLineEnd_eq_false fun u h => BodyUnit.inBody_of_fits (hu u h)⟩
  have hpair : ∀ {code : Char}, Lexicon.isLineEnd code = false →
      ∀ c ∈ ['\\', code], Lexicon.isLineEnd c = false :=
    fun hl => List.forall_mem_cons.2 ⟨rfl, List.forall_mem_singleton.2 hl⟩
  cases h with
  | @stray c _ h =>
    have hs : Lexicon.isSpace d = true := by
      obtain rfl | rfl := Lexicon.isLineEnd_iff.1 hd <;> rfl
    rw [← List.mem_singleton.1 hm, Lead.of?_of_isSpace hs] at h
    cases h
  | bare _ | openQuote | openEscape | emptyChar =>
    exact absurd hm (hfree (Lexicon.isLineEnd_eq_false_of_any rfl))
  | missingFraction _ hall _ =>
    rw [List.nil_append, List.append_nil] at hm
    refine absurd hm (hfree (List.forall_mem_append.2 ⟨fun c hc => ?_, ?_⟩))
    · exact Lexicon.isLineEnd_eq_false_of_isDigit (hall c hc)
    · exact List.forall_mem_singleton.2 rfl
  | @charEscape code _ _ =>
    rcases List.mem_cons.1 hm with rfl | hm
    · cases hd
    · rcases List.mem_cons.1 hm with rfl | hm
      · cases hd
      · rw [List.mem_singleton.1 hm]
        exact .inr rfl
  | @unclosedChar u _ hu _ =>
    rw [List.nil_append, List.append_nil] at hm
    rcases List.mem_cons.1 hm with rfl | hm
    · cases hd
    · rw [hu.eq_plain hd hm]
      exact .inl rfl
  | openString hu hw _ =>
    rw [List.nil_append, List.append_nil] at hm
    exact absurd hm (hfree (List.forall_mem_append.2 ⟨hbody hu, hw.isLineEnd_eq_false⟩))
  | closedEscape hu _ hl hv =>
    refine absurd hm (hfree (List.forall_mem_append.2
      ⟨List.forall_mem_append.2 ⟨hbody hu, hpair hl⟩, List.forall_mem_append.2 ⟨?_, ?_⟩⟩))
    · exact StringBody.isLineEnd_eq_false hv
    · exact List.forall_mem_singleton.2 rfl
  | openEscapes hu _ hl hv hw _ =>
    refine absurd hm (hfree (List.forall_mem_append.2
      ⟨List.forall_mem_append.2 ⟨hbody hu, hpair hl⟩, List.forall_mem_append.2 ⟨?_, ?_⟩⟩))
    · exact StringBody.isLineEnd_eq_false hv
    · exact hw.isLineEnd_eq_false

/-- **Four readings can be over a line end.** -/
theorem Reading.Before.lineEnd_cases {r : Reading} {next : Option Char} (h : r.Before next)
    (hm : d ∈ r.consumed) :
    (∃ w, r = .lexeme .space w ∧ ∀ c ∈ w, Lexicon.isSpace c = true) ∨
      r = .lexeme .charval ['\'', d, '\''] ∨ r = .fault .unclosedChar [] ['\'', d] [] ∨
      r = .fault (.badEscape d) ['\''] ['\\', d] [] := by
  cases r with
  | lexeme kind w =>
    cases h with
    | lexeme h _ =>
      rcases h.lineEnd_cases hd hm with rfl | ⟨rfl, rfl⟩
      · exact .inl ⟨w, rfl, h.isSpace_of_space⟩
      · exact .inr (.inl rfl)
  | fault cause b w a => exact .inr (.inr (h.fault_lineEnd_cases hd hm))

/-- What stands before the text at fault holds no line end. -/
theorem Reading.Before.not_mem_before {cause : Fault} {b w a : Text} {next : Option Char}
    (h : (Reading.fault cause b w a).Before next) : d ∉ b := by
  intro hb
  have hm : d ∈ b ++ w ++ a := List.mem_append_left a (List.mem_append_left w hb)
  rcases h.fault_lineEnd_cases hd hm with he | he
  · cases he
    cases hb
  · cases he
    rw [List.mem_singleton.1 hb] at hd
    cases hd

end Over

end Asl
