import Asl.Proofs.EventStream
import Asl.Proofs.Tiling

/-!
# One character of lookahead

A scan that has stopped somewhere inside a text has looked at the next
character, and at no other. So it does not matter what the text goes on
with after that: an event that leaves some of the text unread is the same
event, in the same place, when the text is longer. Text that is put at the
end can change the last event before the end token, and no other.

The relation `Reading.Before` already says that a reading depends on the
next character only. A step that leaves some text leaves the same next
character when more is put behind it, so it reads the same
(`munch_append`); and then the calls of a survey agree one by one, as long
as they leave text (`Scan.exists_call_append`).
-/

namespace Asl

/-! ## The same event in another source -/

/-- An error as it is told of another source: an error names its source, and
all else about it stays. -/
def LexError.within (s : Source) (e : LexError) : LexError := { e with source := s }

/-- An event as it is told of another source. -/
def Event.within (s : Source) : Event → Event
  | token t => .token t
  | error e => .error (e.within s)

theorem Reading.event_within (r : Reading) (s s' : Source) (p : Position) :
    r.event s' p = (r.event s p).within s' := by
  cases r <;> rfl

/-- **The same call in another source**: it consumes the same stretch, and
gives the same event. -/
structure Call.Same (s : Source) (c d : Call) : Prop where
  first_eq : d.first = c.first
  stop_eq : d.stop = c.stop
  event_eq : d.event = c.event.within s

/-! ## More text at the end -/

/-- **A step that leaves some text reads the same with more of it.** -/
theorem munch_append {c : Char} {t : Text} (h : (munch c t).rest ≠ []) (u : Text) :
    munch c (t ++ u) = ⟨(munch c t).reading, (munch c t).rest ++ u⟩ := by
  refine munch_of_before ?_ ?_
  · rw [List.head?_append_of_ne_nil _ h]
    exact before_munch c t
  · rw [← List.cons_append, ← List.append_assoc, splits_munch c t]

namespace Scan

variable (s s' : Source)

/-- The calls that read the last of a text stop at its end. -/
theorem stop_eq_of_rest_eq_nil {p : Position} {c : Char} {t : Text} (hr : (munch c t).rest = []) :
    ∀ d ∈ (ready s p (c :: t)).calls, d.stop = p.offset + (c :: t).length := by
  have ht : (munch c t).reading.consumed = c :: t := by
    have hs := splits_munch c t
    rwa [Step.Splits, hr, List.append_nil] at hs
  have hp : (p.after (c :: t)).offset = p.offset + (c :: t).length := Position.offset_after _ _
  rw [calls_ready_cons, hr, ht, calls_ready_nil]
  refine List.forall_mem_cons.2 ⟨?_, List.forall_mem_singleton.2 hp⟩
  show (p.after (munch c t).reading.consumed).offset = _
  rw [ht, hp]

/-- **A call that leaves some text is made with more of it too**, at the same
place among the calls. -/
theorem exists_call_append (p : Position) (t u : Text) {i : Nat} {c : Call}
    (hc : (ready s p t).calls[i]? = some c) (hs : c.stop < p.offset + t.length) :
    ∃ d, (ready s' p (t ++ u)).calls[i]? = some d ∧ c.Same s' d := by
  induction t using munch_induction generalizing p i with
  | nil =>
    -- the one call there gives the end token, at the end
    rw [calls_ready_nil] at hc
    obtain rfl := List.mem_singleton.1 (List.mem_of_getElem? hc)
    exact absurd hs (by simp [Call.stop, ready])
  | cons x t ih =>
    by_cases hr : (munch x t).rest = []
    · have hend := stop_eq_of_rest_eq_nil s hr c (List.mem_of_getElem? hc)
      exact absurd hs (by rw [hend]; exact Int.lt_irrefl _)
    · rw [List.cons_append, calls_ready_cons, munch_append hr]
      rw [calls_ready_cons] at hc
      cases i with
      | zero =>
        obtain rfl := Option.some.inj hc
        refine ⟨_, rfl, rfl, ?_, Reading.event_within _ s s' p⟩
        show ((ready s' p (x :: (t ++ u))).next.2).position.offset = _
        rw [next_ready_cons, munch_append hr]
        rfl
      | succ i =>
        refine ih (p.after (munch x t).reading.consumed) hc ?_
        have hl := congrArg List.length (splits_munch x t)
        rw [List.length_append] at hl
        rw [Position.offset_after]
        omega

end Scan

/-! ## Which events can change -/

namespace Tiles

variable {text : Text} {p : Int} {cs : List Call}

theorem le_length (h : Tiles text p cs) : p ≤ text.length := by
  induction h with
  | last hp hq hl he => omega
  | cons hp hq hn he hc ih => omega

/-- A tile with two more after it ends before the text does. -/
theorem stop_lt_length (h : Tiles text p cs) {i : Nat} {c : Call} (hc : cs[i]? = some c)
    (hi : i + 2 < cs.length) : c.stop < text.length := by
  induction h generalizing i with
  | last hp hq hl he => simp at hi
  | @cons d cs p hp hq hn he hd ih =>
    cases i with
    | zero =>
      obtain rfl := Option.some.inj hc
      -- the tile after it is not the last one, so it is not empty
      cases hd with
      | last _ _ _ _ => simp at hi
      | cons _ hlt _ _ hrest => exact Int.lt_of_lt_of_le hlt hrest.le_length
    | succ i =>
      rw [List.length_cons] at hi
      exact ih hc (by omega)

end Tiles

/-- **What is read before the end of a text does not depend on what follows
the text.** Each call of a survey that stops before the end is made again,
at the same place among the calls, when more text is put behind: it consumes
the same stretch and gives the same token or error. So only the last event
before the end token can change. -/
theorem events_append_stable (name s u : Text) :
    let part : Source := ⟨name, s⟩
    let whole : Source := ⟨name, s ++ u⟩
    (∀ (i : Nat) (c : Call), (Scan.start part).calls[i]? = some c → c.stop < s.length →
      ∃ d, (Scan.start whole).calls[i]? = some d ∧ c.Same whole d) ∧
    ∀ i : Nat, i + 2 < part.events.length →
      whole.events[i]? = part.events[i]?.map (Event.within whole) := by
  intro part whole
  have hcalls : ∀ (i : Nat) (c : Call), (Scan.start part).calls[i]? = some c → c.stop < s.length →
      ∃ d, (Scan.start whole).calls[i]? = some d ∧ c.Same whole d := by
    intro i c hc hs
    exact Scan.exists_call_append part whole .start s u hc (by simpa [Position.start] using hs)
  refine ⟨hcalls, fun i hi => ?_⟩
  rw [Source.events, List.length_map] at hi
  obtain ⟨c, hc⟩ : ∃ c, (Scan.start part).calls[i]? = some c :=
    ⟨_, List.getElem?_eq_getElem (by omega)⟩
  have ht : Tiles s 0 (Scan.start part).calls := tiles_calls_ready part [] rfl
  obtain ⟨d, hd, hsame⟩ := hcalls i c hc (ht.stop_lt_length hc hi)
  rw [Source.events, Source.events, List.getElem?_map, List.getElem?_map, hc, hd]
  exact congrArg some hsame.event_eq

-- the last event before the end token does depend on what follows
example : (Source.mk [] ['1']).events[0]? ≠ (Source.mk [] ['1', '2']).events[0]? := by
  decide +kernel

end Asl
