import Asl.Proofs.EventStream
import Asl.Proofs.LineLocality
import Asl.Proofs.Tiling

/-!
# An event reads the same alone

What a call of a survey consumes can be cut out of its source and surveyed
by itself. The excerpt gives the event of the call again, and the end token
after it, and nothing else.

The cut takes away two things. It takes away the character the call looked
at after what it consumed: where the source went on, the excerpt ends. A
reading is described by what it can stand before (`Reading.Before`), and
whatever stands before some character stands before the end of the text as
well (`Reading.Before.alone`). That holds of faults as of lexemes. The two
rules that ask for the end of the text, an open character literal and an
escape left open in one, only meet it again.

The cut also takes away what led to the excerpt, and with it the place of
the event. A place in the excerpt is found in the source as a place beyond
the one where the excerpt begins (`Position.beyond`): lines and characters
are counted on, columns only as long as the line is the same.
-/

namespace Asl

/-! ## A place beyond another -/

namespace Position

/-- **A place beyond another**: where `q` is a place in some text, and the text
begins at `p`. The column of `p` counts on the first line of the text only. -/
def beyond (p q : Position) : Position where
  line := p.line + (q.line - 1)
  column := if q.line = 1 then p.column + (q.column - 1) else q.column
  offset := p.offset + q.offset

theorem beyond_start (p : Position) : p.beyond start = p := by
  show Position.mk (p.line + 0) (p.column + 0) (p.offset + 0) = p
  rw [Int.add_zero, Int.add_zero, Int.add_zero]

/-- One more character leads both on. -/
theorem beyond_advance (p : Position) {q : Position} (hq : 1 ≤ q.line) (c : Char) :
    p.beyond (q.advance c) = (p.beyond q).advance c := by
  unfold advance
  by_cases hc : c = '\n'
  · rw [if_pos hc, if_pos hc]
    show Position.mk (p.line + (q.line + 1 - 1)) (if q.line + 1 = 1 then _ else 1) _ = _
    rw [if_neg (by omega), Position.mk.injEq]
    exact ⟨by show _ = p.line + (q.line - 1) + 1; omega, rfl, (Int.add_assoc ..).symm⟩
  · rw [if_neg hc, if_neg hc]
    unfold beyond
    rw [Position.mk.injEq]
    refine ⟨rfl, ?_, (Int.add_assoc ..).symm⟩
    dsimp only
    split <;> omega

/-- **A text leads both on.** -/
theorem beyond_after (p : Position) {q : Position} (hq : 1 ≤ q.line) (t : Text) :
    p.beyond (q.after t) = (p.beyond q).after t := by
  induction t using List.reverseRecOn with
  | nil => rfl
  | append_singleton t c ih =>
    have hline : 1 ≤ (q.after t).line := by
      rw [line_after]
      omega
    rw [after_append, after_append, ← ih]
    exact beyond_advance p hline c

/-- **What leads on from a place** leads as far beyond it as it leads from the
start. -/
theorem after_eq_beyond (p : Position) (t : Text) : p.after t = p.beyond (start.after t) := by
  rw [beyond_after p (Int.le_refl 1), beyond_start]

end Position

/-- **A reading beyond a place** is the event it is, found beyond it. -/
theorem Reading.event_beyond_of_line (r : Reading) (s s' : Source) (p : Position) {q : Position}
    (hq : 1 ≤ q.line) : r.event s (p.beyond q) = (r.event s' q).relocated s p.beyond := by
  cases r with
  | lexeme kind w =>
    show Event.token ⟨_, _, _, ⟨_, (p.beyond q).after w⟩, _⟩ = _
    rw [← Position.beyond_after p hq]
    rfl
  | fault cause b w a =>
    show Event.error ⟨_, _, (p.beyond q).after b, _, _⟩ = _
    rw [← Position.beyond_after p hq]
    rfl

/-- **A reading elsewhere** is the event it is at the start, found beyond the
place where it is read. -/
theorem Reading.event_beyond (r : Reading) (s s' : Source) (p : Position) :
    r.event s p = (r.event s' .start).relocated s p.beyond := by
  rw [← r.event_beyond_of_line s s' p (Int.le_refl 1), Position.beyond_start]

/-! ## What is read before the end of the text -/

/-- **Whatever stands before some character stands before the end of the text
too.** -/
theorem Reading.Before.alone {r : Reading} {next : Option Char} (h : r.Before next) :
    r.Before none := by
  -- a rule says of the next character, if there is one, that it does not go on
  have hnone : ∀ {q : Char → Prop}, ∀ d ∈ (none : Option Char), q d := by
    intro q d hd
    cases hd
  cases h with
  | lexeme h _ => exact .lexeme h hnone
  | stray h => exact .stray h
  | bare _ => exact .bare hnone
  | missingFraction hs hd _ => exact .missingFraction hs hd hnone
  | openQuote => exact .openQuote
  | openEscape => exact .openEscape
  | emptyChar => exact .emptyChar
  | charEscape hc => exact .charEscape hc
  | unclosedChar hu _ => exact .unclosedChar hu hnone
  | openString hu hw _ => exact .openString hu hw hnone
  | closedEscape hu hc hl hv => exact .closedEscape hu hc hl hv
  | openEscapes hu hc hl hv hw _ => exact .openEscapes hu hc hl hv hw hnone

/-- A reading that can stand before the end is all that a source of its text
gives. -/
theorem Source.events_of_before {r : Reading} (h : r.Before none) (hn : r.consumed ≠ [])
    (name : Text) :
    (Source.mk name r.consumed).events
      = [r.event ⟨name, r.consumed⟩ .start,
          .token (.eofAt (Position.start.after r.consumed))] := by
  have hcalls := Scan.calls_read (s := ⟨name, r.consumed⟩) (p := .start) (u := []) h hn
  rw [List.append_nil, Scan.calls_ready_nil] at hcalls
  show (Scan.ready ⟨name, r.consumed⟩ .start r.consumed).calls.map Call.event = _
  rw [hcalls]
  rfl

/-- What a call consumes is what it reads. -/
theorem Call.Reads.slice_eq {s : Source} {pre post : Text} {r : Reading} {c : Call}
    (h : c.Reads s pre r post) : s.text.slice c.first c.stop = r.consumed := by
  have hfirst : c.first = pre.length := by
    rw [Call.first, h.before_eq, Position.offset_after_start]
  have hstop : c.stop = pre.length + r.consumed.length := by
    rw [Call.stop, h.after_eq, Position.offset_after_start, List.length_append]
    push_cast
    rfl
  rw [hfirst, hstop, h.text_eq]
  exact Text.slice_append pre r.consumed post

/-- **An event reads the same alone.** What a call of a survey consumes, if it
does not give the end token, is surveyed by itself as one event and the end
token, at the end. The event is that of the call, a token of the same kind,
value, lexeme and channel, or an error of the same kind, message and text; its
place in the source is the one it has alone, beyond the place where the call
begins. -/
theorem events_excerpt (s : Source) {c : Call} (hc : c ∈ (Scan.start s).calls)
    (hn : ∀ t ∈ c.event.token?, t.kind ≠ .eof) :
    let part : Source := ⟨s.name, s.text.slice c.first c.stop⟩
    let last : Token := .eofAt (Position.start.after part.text)
    ∃ v, part.events = [v, .token last] ∧
      part.survey.tokens = v.token?.toList ++ [last] ∧ part.survey.errors = v.error?.toList ∧
      c.event = v.relocated s c.before.position.beyond := by
  intro part last
  obtain he | ⟨pre, r, post, hr⟩ := Source.exists_call_reads hc
  · rw [he] at hn
    exact absurd rfl (hn _ rfl)
  have hpart : part = ⟨s.name, r.consumed⟩ := by rw [← hr.slice_eq]
  have hevents : part.events = [r.event part .start, .token last] := by
    show part.events = [_, .token (.eofAt (Position.start.after part.text))]
    rw [hpart]
    exact Source.events_of_before hr.stands.alone hr.ne_nil s.name
  refine ⟨r.event part .start, hevents, ?_, ?_, ?_⟩
  · rw [part.survey_tokens_eq, hevents]
    cases r <;> rfl
  · rw [part.survey_errors_eq, hevents]
    cases r <;> rfl
  · rw [hr.event_eq, hr.before_eq]
    exact r.event_beyond s part _

/-- A string literal with a bad escape, left open by its line: cut out, it is
left open by the end of the text, and the escape is reported where it was. -/
theorem events_excerpt_openEscape :
    let s : Source := ⟨[], "x\n  \"a\\qb\\\n@".toList⟩
    let part : Source := ⟨[], "\"a\\qb\\".toList⟩
    ∃ c ∈ (Scan.start s).calls, (∀ t ∈ c.event.token?, t.kind ≠ .eof) ∧
      s.text.slice c.first c.stop = part.text ∧ c.before.position = ⟨2, 3, 4⟩ ∧
      ∃ v, part.events = [v, .token (.eofAt ⟨1, 7, 6⟩)] ∧ part.survey.errors = v.error?.toList ∧
        c.event = v.relocated s (Position.beyond ⟨2, 3, 4⟩) := by
  intro s part
  let c := (Scan.start s).calls.get ⟨2, by decide +kernel⟩
  have hc : c ∈ (Scan.start s).calls := List.get_mem _ _
  have hn : ∀ t ∈ c.event.token?, t.kind ≠ .eof := by decide +kernel
  have hslice : s.text.slice c.first c.stop = part.text := by decide +kernel
  have hplace : c.before.position = ⟨2, 3, 4⟩ := by decide +kernel
  obtain ⟨v, hv, -, he, hplaced⟩ := events_excerpt s hc hn
  rw [hslice] at hv he
  rw [hplace] at hplaced
  exact ⟨c, hc, hn, hslice, hplace, v, hv, he, hplaced⟩

end Asl
