import Asl.Proofs.Calls
import Mathlib.Data.List.DropRight

/-!
# Positions are what they say

A scan keeps line, column and offset as it goes, one character at a time. A
position says something about the source, though: how many line feeds stand
before it, and how many characters after the last of them. `Position.In`
states it, as the source is written and with no scan in sight.

Whatever a client asks of a scan, and in whatever order, the cursor and
every position handed out are such positions. This needs an invariant that
survives an error: the scan stands after a beginning of its source, at the
place that beginning leads to, and the error it has stopped at is in place
as well (`Scan.Anchored`). One call keeps it (`Scan.Anchored.next`,
`Scan.Anchored.resume`), so any number of them do (`Scan.Anchored.run`).
-/

namespace Asl

/-! ## Where a text leads -/

namespace Position

theorem offset_advance (p : Position) (c : Char) : (p.advance c).offset = p.offset + 1 := by
  unfold advance
  split <;> rfl

theorem offset_after (p : Position) (t : Text) : (p.after t).offset = p.offset + t.length := by
  induction t generalizing p with
  | nil => rw [after_nil, List.length_nil, Int.natCast_zero, Int.add_zero]
  | cons c t ih =>
    rw [after_cons, ih, offset_advance, List.length_cons]
    omega

/-- A beginning of a source leads to the offset of its length. -/
theorem offset_after_start (t : Text) : (start.after t).offset = t.length := by
  rw [offset_after]
  exact Int.zero_add _

theorem line_after (p : Position) (t : Text) : (p.after t).line = p.line + t.count '\n' := by
  induction t generalizing p with
  | nil => rw [after_nil, List.count_nil, Int.natCast_zero, Int.add_zero]
  | cons c t ih =>
    rw [after_cons, ih, List.count_cons]
    by_cases hc : c = '\n'
    · subst hc
      simp only [advance, if_pos, beq_self_eq_true]
      omega
    · simp [advance, hc]

/-- The column is that of the last line, so it is found from the end of the
text. -/
theorem column_after_start (t : Text) :
    (start.after t).column = 1 + (t.rtakeWhile (· ≠ '\n')).length := by
  -- from the end: the last character starts a line or lengthens it
  induction t using List.reverseRecOn with
  | nil => rfl
  | append_singleton t c ih =>
    rw [after_append, after_cons, after_nil, advance, List.rtakeWhile_concat]
    by_cases hc : c = '\n'
    · rw [if_pos hc, if_neg (by simp [hc])]
      rfl
    · rw [if_neg hc, if_pos (by simp [hc]), ih, List.length_append, List.length_singleton]
      push_cast
      omega

/-- **A position in a text**: its offset is inside the text, its line counts
the line feeds before it, and its column the characters after the last of
them. -/
structure In (text : Text) (p : Position) : Prop where
  nonneg : 0 ≤ p.offset
  le_length : p.offset ≤ text.length
  line_eq : p.line = 1 + (text.take p.offset.toNat).count '\n'
  column_eq : p.column = 1 + ((text.take p.offset.toNat).rtakeWhile (· ≠ '\n')).length

/-- A beginning of a text leads to a position in it. -/
theorem in_after_start (t u : Text) : (start.after t).In (t ++ u) := by
  have ho := offset_after_start t
  have ht : (t ++ u).take (start.after t).offset.toNat = t := by
    rw [ho, Int.toNat_natCast, List.take_left]
  refine ⟨?_, ?_, ?_, ?_⟩
  · rw [ho]
    exact Int.natCast_nonneg _
  · rw [ho, List.length_append]
    omega
  · rw [ht, line_after]
    rfl
  · rw [ht, column_after_start]

end Position

/-! ## Events in their places -/

/-- **An event in place**: every position it names is a position in the
text. -/
def Event.InPlace (text : Text) : Event → Prop
  | token t => t.span.start.In text ∧ t.span.stop.In text
  | error e => e.position.In text

/-- A reading after a beginning of a text, and before an end of it, is in
place there. -/
theorem Reading.inPlace_event {r : Reading} {s : Source} {pre post text : Text}
    (h : text = pre ++ (r.consumed ++ post)) :
    (r.event s (Position.start.after pre)).InPlace text := by
  subst h
  cases r with
  | lexeme kind w =>
    refine ⟨Position.in_after_start _ _, ?_⟩
    show ((Position.start.after pre).after w).In (pre ++ (w ++ post))
    rw [← Position.after_append, ← List.append_assoc]
    exact Position.in_after_start _ _
  | fault cause b w a =>
    show ((Position.start.after pre).after b).In (pre ++ (b ++ w ++ a ++ post))
    rw [← Position.after_append, List.append_assoc, List.append_assoc, ← List.append_assoc]
    exact Position.in_after_start _ _

namespace Scan

/-- **A scan anchored in a source**: it stands after a beginning of it, at
the place that leads to, and the error it has stopped at is in place. -/
structure Anchored (s : Source) (x : Scan) : Prop where
  stands : ∃ pre, s.text = pre ++ x.rest ∧ x.position = Position.start.after pre
  pending : ∀ e ∈ x.pending, (Event.error e).InPlace s.text

variable {s : Source} {x : Scan}

theorem anchored_start (s : Source) : (start s).Anchored s :=
  ⟨⟨[], rfl, rfl⟩, by simp [start]⟩

theorem Anchored.in_position (h : x.Anchored s) : x.position.In s.text := by
  obtain ⟨pre, ht, hp⟩ := h.stands
  rw [hp, ht]
  exact Position.in_after_start pre x.rest

/-- What a scan gives is in place. -/
theorem Anchored.inPlace_next (h : x.Anchored s) : x.next.1.InPlace s.text := by
  cases hp : x.pending with
  | some e =>
    rw [next_of_pending hp]
    exact h.pending e hp
  | none =>
    cases hr : x.rest with
    | nil =>
      rw [next_of_nil hp hr]
      exact ⟨h.in_position, h.in_position⟩
    | cons c t =>
      obtain ⟨pre, ht, hpre⟩ := h.stands
      rw [hr, ← splits_munch c t] at ht
      rw [next_of_cons hp hr, hpre]
      exact Reading.inPlace_event ht

/-- Giving it keeps the scan anchored. -/
theorem Anchored.next (h : x.Anchored s) : x.next.2.Anchored s := by
  have he := h.inPlace_next
  cases hp : x.pending with
  | some e => rwa [next_of_pending hp]
  | none =>
    cases hr : x.rest with
    | nil => rwa [next_of_nil hp hr]
    | cons c t =>
      obtain ⟨pre, ht, hpre⟩ := h.stands
      rw [next_of_cons hp hr] at he ⊢
      refine ⟨⟨pre ++ (munch c t).reading.consumed, ?_, ?_⟩, fun e hm => ?_⟩
      · rw [ht, hr, List.append_assoc, ← splits_munch c t]
      · rw [Position.after_append, hpre]
      · -- the error left behind is the event that was given
        cases hv : (munch c t).reading.event x.source x.position with
        | token t => rw [hv] at hm; cases hm
        | error d => rw [hv] at hm he; cases hm; exact he

theorem Anchored.resume (h : x.Anchored s) : x.resume.Anchored s :=
  ⟨h.stands, by simp [Scan.resume]⟩

/-- **Commands keep a scan anchored**, and their answers are in place. -/
theorem Anchored.run (h : x.Anchored s) (cs : List Command) :
    (x.run cs).2.Anchored s ∧ ∀ e ∈ (x.run cs).1, e.InPlace s.text := by
  induction cs generalizing x with
  | nil => exact ⟨h, by simp [Scan.run]⟩
  | cons c cs ih =>
    have hc : (x.obey c).2.Anchored s ∧ ∀ e ∈ (x.obey c).1, e.InPlace s.text := by
      cases c with
      | next => exact ⟨h.next, by simpa [obey] using h.inPlace_next⟩
      | resume => exact ⟨h.resume, by simp [obey]⟩
    obtain ⟨hr, he⟩ := ih hc.1
    exact ⟨hr, List.forall_mem_append.2 ⟨hc.2, he⟩⟩

/-- **Positions are sound along every run.** Whatever commands a client
gives, the cursor and every position of the tokens and errors it is handed
are positions in the source. -/
theorem run_start_in (s : Source) (cs : List Command) :
    ((start s).run cs).2.position.In s.text ∧
      ∀ e ∈ ((start s).run cs).1, e.InPlace s.text := by
  obtain ⟨hx, he⟩ := (anchored_start s).run cs
  exact ⟨hx.in_position, he⟩

end Scan

end Asl
