import Asl.Proofs.LineEnds
import Asl.Proofs.Tiling

/-!
# A source with its line feeds written as pairs

A text comes from another system with `CR LF` where it has a line feed. The
language does not mind: what a parser reads of it and what is complained about
is the same, on the same lines and in the same columns. Only offsets grow, by
one for every line above (`Position.paired`).

The two texts are read side by side. A reading that passes no line feed is
read from both, since nothing that stands before a line feed minds a `CR` in
its place (`Reading.Before.lineEnd`); comments and string literals, finished
or not, are among these. Blank space passes line feeds, and so do the pairs in
its place, and none of it is heard.

A character literal can have a line feed for its payload, and a pair is one
character too many for that; so can the escape of a line feed, in such a
literal, which becomes the escape of a `CR`. Where one of them is read the two
texts part, and the statement excludes it in these words: no call of the
survey consumes a line feed, unless it gives blank space.
-/

namespace Asl

/-! ## Pairs for line feeds -/

namespace Text

/-- Every line feed written as `CR LF`. -/
def pairLineFeeds (t : Text) : Text := t.flatMap fun c => if c = '\n' then ['\r', '\n'] else [c]

theorem pairLineFeeds_cons (c : Char) (t : Text) :
    pairLineFeeds (c :: t) = (if c = '\n' then ['\r', '\n'] else [c]) ++ pairLineFeeds t :=
  rfl

theorem pairLineFeeds_append (a b : Text) :
    pairLineFeeds (a ++ b) = pairLineFeeds a ++ pairLineFeeds b :=
  List.flatMap_append

theorem pairLineFeeds_of_not_mem {t : Text} (h : '\n' ∉ t) : pairLineFeeds t = t := by
  induction t with
  | nil => rfl
  | cons c t ih =>
    rw [List.mem_cons, not_or] at h
    rw [pairLineFeeds_cons, if_neg fun hc => h.1 hc.symm, ih h.2]
    rfl

/-- A line feed at the front gives way to a `CR`. -/
theorem head?_pairLineFeeds (t : Text) :
    (pairLineFeeds t).head? = t.head?.map fun c => if c = '\n' then '\r' else c := by
  cases t with
  | nil => rfl
  | cons c t =>
    rw [pairLineFeeds_cons]
    by_cases hc : c = '\n'
    · rw [if_pos hc, hc]
      rfl
    · rw [if_neg hc]
      exact congrArg some (if_neg hc).symm

theorem isSpace_of_mem_pairLineFeeds {t : Text} (h : ∀ c ∈ t, Lexicon.isSpace c = true) :
    ∀ c ∈ pairLineFeeds t, Lexicon.isSpace c = true := by
  intro c hc
  obtain ⟨d, hd, hcd⟩ := List.mem_flatMap.1 hc
  split at hcd
  · rcases List.mem_cons.1 hcd with rfl | hcd
    · rfl
    · rw [List.mem_singleton.1 hcd]
      rfl
  · rw [List.mem_singleton.1 hcd]
    exact h d hd

end Text

/-- **The place with a character more for every line above.** -/
def Position.paired (p : Position) : Position := ⟨p.line, p.column, p.offset + (p.line - 1)⟩

/-- What is between the places before and after a stretch is that stretch. -/
theorem Text.slice_after {text pre w post : Text} (h : text = pre ++ (w ++ post)) :
    text.slice (Position.start.after pre).offset (Position.start.after (pre ++ w)).offset = w := by
  rw [Position.offset_after_start, Position.offset_after_start, h, List.length_append]
  exact Text.slice_append pre w post

/-- Pairs lead there. -/
theorem Position.paired_after (p : Position) (t : Text) :
    p.paired.after (Text.pairLineFeeds t) = (p.after t).paired := by
  induction t generalizing p with
  | nil => rfl
  | cons c t ih =>
    have hstep : p.paired.after (if c = '\n' then ['\r', '\n'] else [c])
        = (p.advance c).paired := by
      unfold advance
      split
      · show (⟨p.line + 1, 1, p.offset + (p.line - 1) + 1 + 1⟩ : Position)
          = ⟨p.line + 1, 1, p.offset + 1 + (p.line + 1 - 1)⟩
        rw [Position.mk.injEq]
        omega
      · next hc =>
        show p.paired.advance c = ⟨p.line, p.column + 1, p.offset + 1 + (p.line - 1)⟩
        unfold advance
        rw [if_neg hc, Position.mk.injEq]
        refine ⟨rfl, rfl, ?_⟩
        show p.offset + (p.line - 1) + 1 = _
        omega
    rw [Text.pairLineFeeds_cons, after_append, hstep, ih, after_cons]

/-! ## Readings -/

/-- What stands before a text stands before the text with its pairs. -/
theorem Reading.Before.pairLineFeeds {r : Reading} {u : Text} (h : r.Before u.head?) :
    r.Before (Text.pairLineFeeds u).head? := by
  rw [Text.head?_pairLineFeeds]
  cases hu : u.head? with
  | none => rwa [hu] at h
  | some d =>
    rw [hu] at h
    show r.Before (some (if d = '\n' then '\r' else d))
    split
    · next hd => exact (hd ▸ h).lineEnd rfl rfl
    · exact h

/-- A reading without a line feed is the same event among pairs, in its
place. -/
theorem Reading.event_paired {r : Reading} (h : '\n' ∉ r.consumed) (s s' : Source)
    (p : Position) : r.event s' p.paired = (r.event s p).relocated s' Position.paired := by
  have hafter : ∀ w : Text, '\n' ∉ w → p.paired.after w = (p.after w).paired := by
    intro w hw
    rw [← Position.paired_after, Text.pairLineFeeds_of_not_mem hw]
  cases r with
  | lexeme kind w =>
    show Event.token ⟨_, _, _, ⟨_, p.paired.after w⟩, _⟩ = _
    rw [hafter w h]
    rfl
  | fault cause b w a =>
    show Event.error ⟨_, _, p.paired.after b, _, _⟩ = _
    rw [hafter b fun hb => h (List.mem_append_left a (List.mem_append_left w hb))]
    rfl

/-- A reading that gives blank space consumes nothing else. -/
theorem Reading.Before.isSpace_of_consumed {r : Reading} {next : Option Char} (h : r.Before next)
    {s : Source} {p : Position} (hk : (r.event s p).token?.map Token.kind = some .space) :
    ∀ c ∈ r.consumed, Lexicon.isSpace c = true := by
  cases r with
  | fault cause b w a => cases hk
  | lexeme kind w =>
    obtain rfl : kind = .space := Option.some.inj hk
    cases h with
    | lexeme h _ => exact h.isSpace_of_space

/-! ## Two texts side by side -/

/-- **A call that consumes no line feed**, unless it gives blank space. -/
def Call.KeepsLine (text : Text) (c : Call) : Prop :=
  c.event.token?.map Token.kind ≠ some .space → '\n' ∉ text.slice c.first c.stop

instance (text : Text) (c : Call) : Decidable (c.KeepsLine text) :=
  inferInstanceAs (Decidable (_ → _))

namespace Scan

/-- **What is heard among pairs is what is heard among line feeds**, in its
place. -/
theorem heard_pairLineFeeds {s : Source} (s' : Source) (pre : Text) {t : Text}
    (hs : s.text = pre ++ t)
    (h : ∀ c ∈ (ready s (Position.start.after pre) t).calls, c.KeepsLine s.text) :
    heard s' (Position.start.after pre).paired (Text.pairLineFeeds t)
      = (heard s (Position.start.after pre) t).map (Event.relocated s' Position.paired) := by
  induction t using reading_induction generalizing pre with
  | nil =>
    rw [heard_nil]
    exact heard_nil s' _
  | read r u hb hn ih =>
    rw [calls_read hb hn, List.forall_mem_cons, ← Position.after_append] at h
    obtain ⟨hfirst, hrest⟩ := h
    have hu : u.length < (r.consumed ++ u).length := by
      rw [List.length_append]
      exact Nat.lt_add_of_pos_left (List.length_pos_iff.2 hn)
    have hlater := ih u hu (pre ++ r.consumed) (by rw [hs, List.append_assoc]) hrest
    rw [Position.after_append, ← Position.paired_after] at hlater
    rw [Text.pairLineFeeds_append]
    by_cases hr : '\n' ∈ r.consumed
    · -- the stretch of the call is what is read, so this is blank space
      have hk : (r.event s (Position.start.after pre)).token?.map Token.kind = some .space := by
        by_contra hk
        refine hfirst hk ?_
        show '\n' ∈ s.text.slice (Position.start.after pre).offset
          (Position.start.after (pre ++ r.consumed)).offset
        rw [Text.slice_after hs]
        exact hr
      have hw := hb.isSpace_of_consumed hk
      rw [heard_spaces s _ hw, heard_spaces s' _ (Text.isSpace_of_mem_pairLineFeeds hw), hlater]
    · have hc : Text.pairLineFeeds r.consumed = r.consumed := Text.pairLineFeeds_of_not_mem hr
      rw [hc] at hlater ⊢
      rw [heard_read hb.pairLineFeeds hn, heard_read hb hn, hlater, Reading.event_paired hr s,
        List.map_append]
      exact congrArg (· ++ _) (Event.filter_relocated s' Position.paired [_])

end Scan

/-- **A source reads the same with pairs for its line feeds.** Let no call of
the survey consume a line feed, unless it gives blank space. Then the survey
of the source with every line feed written as `CR LF` has the same visible
tokens and the same errors, on the same lines and in the same columns, and
each offset has grown by the number of lines above. -/
theorem survey_pairLineFeeds (s : Source)
    (h : ∀ c ∈ (Scan.start s).calls, c.KeepsLine s.text) :
    let s' : Source := ⟨s.name, Text.pairLineFeeds s.text⟩
    Token.visible s'.survey.tokens
        = (Token.visible s.survey.tokens).map (Token.relocated Position.paired) ∧
      s'.survey.errors = s.survey.errors.map (LexError.relocated s' Position.paired) := by
  intro s'
  have hheard : Scan.heard s' .start s'.text
      = (Scan.heard s .start s.text).map (Event.relocated s' Position.paired) :=
    Scan.heard_pairLineFeeds s' [] rfl h
  have hend : Position.start.after s'.text = (Position.start.after s.text).paired :=
    Position.paired_after .start s.text
  refine ⟨?_, ?_⟩
  · show Token.visible (Scan.ready s' .start s'.text).survey.tokens
      = (Token.visible (Scan.ready s .start s.text).survey.tokens).map _
    rw [Scan.visible_survey_ready, Scan.visible_survey_ready, hheard,
      Event.filterMap_token?_relocated, hend, List.map_append]
    rfl
  · show (Scan.ready s' .start s'.text).survey.errors
      = (Scan.ready s .start s.text).survey.errors.map _
    rw [Scan.survey_errors_ready, Scan.survey_errors_ready, hheard,
      Event.filterMap_error?_relocated]

/-- Every line of this source ends in something that a line end cuts short: a
comment, a string literal with a backslash, a number, an operator. -/
theorem survey_pairLineFeeds_unfinished :
    let s : Source := ⟨[], "x // a\n\"b\\\n1.\n  c !\n'd".toList⟩
    let s' : Source := ⟨[], "x // a\r\n\"b\\\r\n1.\r\n  c !\r\n'd".toList⟩
    (∀ c ∈ (Scan.start s).calls, c.KeepsLine s.text) ∧
      Token.visible s'.survey.tokens
        = (Token.visible s.survey.tokens).map (Token.relocated Position.paired) ∧
      s'.survey.errors = s.survey.errors.map (LexError.relocated s' Position.paired) := by
  intro s s'
  have h : ∀ c ∈ (Scan.start s).calls, c.KeepsLine s.text := by decide +kernel
  exact ⟨h, survey_pairLineFeeds s h⟩

-- a line feed between quotes is a character literal, and a pair is not
example : (Source.mk [] "'\n'".toList).survey.errors = [] ∧
    (Source.mk [] (Text.pairLineFeeds "'\n'".toList)).survey.errors ≠ [] := by
  decide +kernel

end Asl
