import Asl.Proofs.Excerpts

/-!
# A scan has no memory

A scan that stands at rest before some text does with it what a new scan
would do, whatever it read before. So the events of a source from one of them
on are the events of the rest of the source, taken for a source of its own,
and only their places have to be moved.

The two scans are followed side by side. One stands at a place in the rest,
the other beyond the place where the rest begins (`Position.beyond`), and both
have the same text left. A step reads the same from both and leads both on
(`Scan.events_ready_beyond`). What the columns have in common is lost at the
first line feed, wherever it is read: `beyond` counts the column of the
beginning on the first line of the rest only, so the line feed may stand in
blank space or in a character literal and needs no case of its own.

What remains is to find the rest of a survey in the survey. The calls that
begin at or after an offset are those of a scan at rest, if a call begins
there (`Scan.exists_calls_from`), and an event stands at or after that offset
exactly if its call begins there (`Tiles.stop_le_first`).
-/

namespace Asl

namespace Scan

/-- **Two scans side by side**: what is given beyond a place is what is given
at the place in the rest, moved. -/
theorem events_ready_beyond (s s' : Source) (p : Position) {q : Position} (hq : 1 ≤ q.line)
    (t : Text) :
    (ready s (p.beyond q) t).calls.map Call.event
      = ((ready s' q t).calls.map Call.event).map (Event.relocated s p.beyond) := by
  induction t using munch_induction generalizing q with
  | nil =>
    rw [calls_ready_nil, calls_ready_nil]
    rfl
  | cons c t ih =>
    have hline : 1 ≤ (q.after (munch c t).reading.consumed).line := by
      rw [Position.line_after]
      omega
    rw [calls_ready_cons, calls_ready_cons, List.map_cons, List.map_cons, List.map_cons,
      ← Position.beyond_after p hq, ih hline]
    exact congrArg (· :: _) (Reading.event_beyond_of_line _ s s' p hq)

/-- **The calls from a call on** are those of a scan at rest, which stands where
the call begins. -/
theorem exists_calls_from {s : Source} (pre : Text) {t : Text} (ht : s.text = pre ++ t) {c : Call}
    (hc : c ∈ (ready s (Position.start.after pre) t).calls) :
    ∃ u v, t = u ++ v ∧ c.before.position = Position.start.after (pre ++ u) ∧
      (ready s (Position.start.after pre) t).calls.filter (fun d => c.first ≤ d.first)
        = (ready s (Position.start.after (pre ++ u)) v).calls := by
  induction t using munch_induction generalizing pre with
  | nil =>
    rw [calls_ready_nil, List.mem_singleton] at hc
    subst hc
    refine ⟨[], [], rfl, ?_, ?_⟩
    · rw [List.append_nil]
      rfl
    · rw [List.append_nil, calls_ready_nil]
      exact List.filter_cons_of_pos (decide_eq_true (Int.le_refl _))
  | cons x t ih =>
    rw [calls_ready_cons] at hc
    rcases List.mem_cons.1 hc with rfl | hc
    · -- no call begins before the first one
      refine ⟨[], x :: t, rfl, ?_, ?_⟩
      · rw [List.append_nil]
        rfl
      · rw [List.append_nil]
        refine List.filter_eq_self.2 fun d hd => decide_eq_true ?_
        show (Position.start.after pre).offset ≤ d.first
        rw [Position.offset_after_start]
        exact (tiles_calls_ready s pre ht).le_first d hd
    · have hsplit : s.text = pre ++ (munch x t).reading.consumed ++ (munch x t).rest := by
        rw [ht, List.append_assoc, splits_munch x t]
      rw [← Position.after_append] at hc
      obtain ⟨u, v, hv, hplace, hfilter⟩ := ih _ hsplit hc
      -- the first call begins before all that follow it
      have hlate := (tiles_calls_ready s _ hsplit).le_first c hc
      have hpos := List.length_pos_iff.2 (consumed_munch_ne_nil x t)
      refine ⟨(munch x t).reading.consumed ++ u, v, ?_, ?_, ?_⟩
      · rw [List.append_assoc, ← hv, splits_munch x t]
      · rw [hplace, List.append_assoc]
      · rw [calls_ready_cons, List.filter_cons_of_neg, ← Position.after_append, hfilter,
          List.append_assoc]
        rw [decide_eq_true_eq, Int.not_le]
        show (Position.start.after pre).offset < c.first
        rw [Position.offset_after_start]
        rw [List.length_append] at hlate
        omega

end Scan

/-! ## Which events stand at or after an offset -/

namespace Tiles

variable {text : Text} {p : Int} {cs : List Call}

/-- A tile that begins before another ends before it. -/
theorem stop_le_first (h : Tiles text p cs) :
    ∀ d ∈ cs, ∀ c ∈ cs, d.first < c.first → d.stop ≤ c.first := by
  induction h with
  | last _ _ _ _ =>
    intro d hd c hc hlt
    rw [List.mem_singleton.1 hd, List.mem_singleton.1 hc] at hlt
    exact absurd hlt (Int.lt_irrefl _)
  | @cons e cs p hp hq _ _ ht ih =>
    have hle := ht.le_first
    refine List.forall_mem_cons.2 ⟨List.forall_mem_cons.2 ⟨?_, fun c hc _ => hle c hc⟩, ?_⟩
    · exact fun hlt => absurd hlt (Int.lt_irrefl _)
    · intro d hd
      refine List.forall_mem_cons.2 ⟨fun hlt => ?_, ih d hd⟩
      have hd := hle d hd
      omega

/-- The tokens that stand at or after the beginning of a tile are those of the
tiles from there on. -/
theorem filter_tokens (h : Tiles text p cs) (c : Call) :
    (cs.filterMap (·.event.token?)).filter (fun t => c.first ≤ t.span.start.offset)
      = (cs.filter fun d => c.first ≤ d.first).filterMap (·.event.token?) := by
  rw [List.filter_filterMap, List.filterMap_filter]
  refine List.filterMap_congr fun d hd => ?_
  cases ht : d.event.token? with
  | none => exact (ite_self none).symm
  | some t =>
    have hfills := h.lies d hd
    rw [Event.eq_token ht] at hfills
    rw [← hfills.start_eq]
    exact Option.filter_some

/-- So are the errors. -/
theorem filter_errors (h : Tiles text p cs) {c : Call} (hc : c ∈ cs) :
    (cs.filterMap (·.event.error?)).filter (fun e => c.first ≤ e.position.offset)
      = (cs.filter fun d => c.first ≤ d.first).filterMap (·.event.error?) := by
  rw [List.filter_filterMap, List.filterMap_filter]
  refine List.filterMap_congr fun d hd => ?_
  cases he : d.event.error? with
  | none => exact (ite_self none).symm
  | some e =>
    have hinside := h.lies d hd
    rw [Event.eq_error he] at hinside
    -- an error has text, so it stands before the end of its tile
    have hpos := List.length_pos_iff.2 hinside.ne_nil
    have hend := hinside.end_le
    have hle := hinside.le_offset
    have hstop := h.stop_le_first d hd c hc
    have hiff : c.first ≤ e.position.offset ↔ c.first ≤ d.first := by omega
    rw [Option.filter_some, decide_eq_decide.2 hiff]

end Tiles

/-- **A scan has no memory.** Let a call of a survey begin at a place in the
source: its event begins there, with the first character the call reads, also
when a bad escape is reported further inside a literal. The events from there
on are those of the rest of the source by itself: tokens of the same kind, value, lexeme and channel, errors of the same
kind, message and text. They are found beyond the place where the call begins,
which moves every offset and every line, and the columns of the first line of
the rest. The tokens and the errors of the survey that stand at or after that
place are, each in order, those of the survey of the rest. -/
theorem events_from (s : Source) {c : Call} (hc : c ∈ (Scan.start s).calls) :
    let p := c.before.position
    let rest : Source := ⟨s.name, s.text.drop p.offset.toNat⟩
    p.In s.text ∧
    ((Scan.start s).calls.filter fun d => p.offset ≤ d.first).map Call.event
      = rest.events.map (Event.relocated s p.beyond) ∧
    s.survey.tokens.filter (fun t => p.offset ≤ t.span.start.offset)
      = rest.survey.tokens.map (Token.relocated p.beyond) ∧
    s.survey.errors.filter (fun e => p.offset ≤ e.position.offset)
      = rest.survey.errors.map (LexError.relocated s p.beyond) := by
  intro p rest
  have htiles : Tiles s.text 0 (Scan.start s).calls := tiles_calls_ready s [] rfl
  obtain ⟨u, v, hsplit, hplace, hcalls⟩ := Scan.exists_calls_from (t := s.text) [] rfl hc
  have hp : p = Position.start.after u := hplace
  have hrest : rest.text = v := by
    show s.text.drop p.offset.toNat = v
    rw [hp, Position.offset_after_start, Int.toNat_natCast, hsplit, List.drop_left]
  have hevents : ((Scan.start s).calls.filter fun d => p.offset ≤ d.first).map Call.event
      = rest.events.map (Event.relocated s p.beyond) := by
    have hbeyond := Scan.events_ready_beyond s rest p (q := .start) (Int.le_refl 1) rest.text
    rw [Position.beyond_start] at hbeyond
    refine Eq.trans (congrArg (List.map Call.event) ?_) hbeyond
    rw [List.nil_append, ← hp] at hcalls
    rw [hrest]
    exact hcalls
  refine ⟨?_, hevents, ?_, ?_⟩
  · rw [hp, hsplit]
    exact Position.in_after_start u v
  · have htokens := congrArg (List.filterMap Event.token?) hevents
    rw [List.filterMap_map, Event.filterMap_token?_relocated, ← rest.survey_tokens_eq] at htokens
    rw [← htokens]
    exact (congrArg _ (Scan.survey_tokens (.start s))).trans (htiles.filter_tokens c)
  · have herrors := congrArg (List.filterMap Event.error?) hevents
    rw [List.filterMap_map, Event.filterMap_error?_relocated, ← rest.survey_errors_eq] at herrors
    rw [← herrors]
    exact (congrArg _ (Scan.survey_errors (.start s))).trans (htiles.filter_errors hc)

/-- From a character literal on that holds a line feed: the column of its
beginning moves, and the columns after the line feed stay. -/
theorem events_from_innerLineFeed :
    let s : Source := ⟨[], "x '\n'@\n y".toList⟩
    let rest : Source := ⟨[], "'\n'@\n y".toList⟩
    let p : Position := ⟨1, 3, 2⟩
    ∃ c ∈ (Scan.start s).calls, c.before.position = p ∧ p.In s.text ∧
      ((Scan.start s).calls.filter fun d => p.offset ≤ d.first).map Call.event
        = rest.events.map (Event.relocated s p.beyond) ∧
      rest.survey.tokens.head?.map Token.span = some ⟨⟨1, 1, 0⟩, ⟨2, 2, 3⟩⟩ ∧
      rest.survey.errors.map LexError.position = [⟨2, 2, 3⟩] ∧
      s.survey.errors.filter (fun e => p.offset ≤ e.position.offset)
        = rest.survey.errors.map (LexError.relocated s p.beyond) := by
  intro s rest p
  let c := (Scan.start s).calls.get ⟨2, by decide +kernel⟩
  have hc : c ∈ (Scan.start s).calls := List.get_mem _ _
  have hplace : c.before.position = p := by decide +kernel
  have hrest : (⟨s.name, s.text.drop p.offset.toNat⟩ : Source) = rest := rfl
  obtain ⟨hin, hevents, -, herrors⟩ := events_from s hc
  rw [hplace] at hin hevents herrors
  rw [hrest] at hevents herrors
  exact ⟨c, hc, hplace, hin, hevents, by decide +kernel, by decide +kernel, herrors⟩

end Asl
