import Asl.Proofs.Calls

/-!
# A client walks one stream of events

A scan stops at an error, so what it gives depends on what it was asked
before. Behind that there is a stream that does not: the events of a survey,
which resumes after each error and stops at the end token
(`Source.events`). Whatever a client asks, and in whatever order, it is
given the events of that stream, one after the other.

Where the client stands is a `Bookmark`: the number of the event it is given
next, and whether it has been given it already – which matters for an error,
since only resuming leads past it. `Bookmark.move` says how a command moves
the bookmark and mentions no scan. A scan that started at the beginning is
always the scan its bookmark stands for (`Scan.Marked`): a command that
moves one moves the other (`Scan.Marked.next`, `Scan.Marked.resume`), and
so do any number of them (`Scan.Marked.run`).
-/

namespace Asl

/-- **The events of a source**: what the calls of a survey give, in order. -/
def Source.events (s : Source) : List Event := (Scan.start s).calls.map Call.event

/-- The tokens of a survey are those of its events. -/
theorem Source.survey_tokens_eq (s : Source) :
    s.survey.tokens = s.events.filterMap Event.token? := by
  rw [events, List.filterMap_map]
  exact Scan.survey_tokens (.start s)

/-- So are the errors. -/
theorem Source.survey_errors_eq (s : Source) :
    s.survey.errors = s.events.filterMap Event.error? := by
  rw [events, List.filterMap_map]
  exact Scan.survey_errors (.start s)

/-- **A place in a stream of events.** -/
structure Bookmark where
  /-- The number of the event given next. -/
  index : Nat
  /-- Whether that event is an error that has been given, and not been left
  behind since. -/
  halted : Bool
deriving DecidableEq, Repr

namespace Bookmark

/-- The place before the first event. -/
def start : Bookmark := ⟨0, false⟩

/-- The place after a command. A token is left behind as it is given, except
the end token, which is never left behind. An error is left behind when the
client resumes after it was given. -/
def move (es : List Event) (b : Bookmark) : Command → Bookmark
  | .next =>
    match es[b.index]? with
    | some (.token t) => if t.kind = .eof then b else ⟨b.index + 1, false⟩
    | some (.error _) => ⟨b.index, true⟩
    | none => b
  | .resume => if b.halted then ⟨b.index + 1, false⟩ else b

/-- The place after commands given one after the other. -/
def follow (es : List Event) (b : Bookmark) (cs : List Command) : Bookmark :=
  cs.foldl (move es) b

/-- What commands are answered with: each request with the event at the
place it is made. -/
def answers (es : List Event) (b : Bookmark) : List Command → List Event
  | [] => []
  | .next :: cs => es[b.index]?.toList ++ answers es (b.move es .next) cs
  | .resume :: cs => answers es (b.move es .resume) cs

variable {es : List Event} {b : Bookmark}

theorem move_next_of_error {e : LexError} (h : es[b.index]? = some (.error e)) :
    b.move es .next = ⟨b.index, true⟩ := by
  simp only [move, h]

theorem move_next_of_eof {t : Token} (h : es[b.index]? = some (.token t))
    (ht : t.kind = .eof) : b.move es .next = b := by
  simp only [move, h, if_pos ht]

theorem move_next_of_token {t : Token} (h : es[b.index]? = some (.token t))
    (ht : t.kind ≠ .eof) : b.move es .next = ⟨b.index + 1, false⟩ := by
  simp only [move, h, if_neg ht]

end Bookmark

namespace Scan

variable {x y : Scan}

/-- The first call of a survey asks the scan itself. -/
theorem head?_calls (x : Scan) : x.calls.head? = some ⟨x, x.next.1, x.next.2⟩ := by
  rcases hn : x.next with ⟨t | e, x'⟩
  · by_cases ht : t.kind = .eof
    · rw [calls_of_eof hn ht]
      rfl
    · rw [calls_of_token hn ht]
      rfl
  · rw [calls_of_error hn]
    rfl

/-! ## Scans and bookmarks -/

/-- **The scan a bookmark stands for.** The calls from the bookmark on are
those of a scan at rest. The bookmark stands for that scan, or for what the
scan becomes as it gives its error. -/
structure Marked (s : Source) (b : Bookmark) (x : Scan) : Prop where
  source_eq : x.source = s
  stands : ∃ y : Scan, y.pending = none ∧ (start s).calls.drop b.index = y.calls ∧
    (b.halted = false ∧ x = y ∨ b.halted = true ∧ ∃ e, y.next = (.error e, x))

variable {s : Source} {b : Bookmark}

/-- The event at a bookmark is the one the calls from there on begin with. -/
theorem events_getElem? (hd : (start s).calls.drop b.index = y.calls) :
    s.events[b.index]? = some y.next.1 := by
  rw [Source.events, List.getElem?_map, ← List.head?_drop, hd, head?_calls]
  rfl

/-- The calls after the first one. -/
theorem drop_index_succ {c : Call} {cs : List Call}
    (hd : (start s).calls.drop b.index = c :: cs) : (start s).calls.drop (b.index + 1) = cs := by
  rw [← List.tail_drop, hd]
  rfl

namespace Marked

theorem start (s : Source) : Marked s .start (Scan.start s) :=
  ⟨rfl, Scan.start s, rfl, rfl, .inl ⟨rfl, rfl⟩⟩

variable (h : x.Marked s b)
include h

/-- **What a scan gives is the event at its bookmark.** -/
theorem getElem? : s.events[b.index]? = some x.next.1 := by
  obtain ⟨y, -, hd, ⟨-, rfl⟩ | ⟨-, e, hn⟩⟩ := h.stands
  · exact events_getElem? hd
  · rw [events_getElem? hd, hn, next_of_pending (pending_of_error hn)]

/-- A scan has an error pending exactly if its bookmark is halted, and then
it is the one at the bookmark. -/
theorem pending_eq : x.pending = if b.halted then x.next.1.error? else none := by
  obtain ⟨y, hy, hd, ⟨hb, rfl⟩ | ⟨hb, e, hn⟩⟩ := h.stands
  · rw [hb]
    exact hy
  · rw [hb, next_of_pending (pending_of_error hn), pending_of_error hn]
    rfl

theorem halted_iff : b.halted = true ↔ x.pending.isSome = true := by
  obtain ⟨y, hy, -, ⟨hb, rfl⟩ | ⟨hb, e, hn⟩⟩ := h.stands
  · rw [hb, hy]
    rfl
  · rw [hb, pending_of_error hn]
    rfl

/-- Asking moves the scan and its bookmark alike. -/
theorem next : x.next.2.Marked s (b.move s.events .next) := by
  have he := h.getElem?
  have hs : x.next.2.source = s := (source_next x).trans h.source_eq
  obtain ⟨y, hy, hd, ⟨hb, rfl⟩ | ⟨hb, e, hn⟩⟩ := h.stands
  · rcases hn : x.next with ⟨t | e, x'⟩ <;> rw [hn] at he hs
    · by_cases ht : t.kind = .eof
      · rw [Bookmark.move_next_of_eof he ht, (eq_of_eof hn ht).2]
        exact h
      · rw [Bookmark.move_next_of_token he ht]
        rw [calls_of_token hn ht] at hd
        exact ⟨hs, x', pending_of_token hn, drop_index_succ hd, .inl ⟨rfl, rfl⟩⟩
    · rw [Bookmark.move_next_of_error he]
      exact ⟨hs, x, hy, hd, .inr ⟨rfl, e, hn⟩⟩
  · -- the error is given again, and neither of the two moves
    rw [next_of_pending (pending_of_error hn)] at he ⊢
    rw [Bookmark.move_next_of_error he, show (⟨b.index, true⟩ : Bookmark) = b by rw [← hb]]
    exact h

/-- So does resuming. -/
theorem resume : x.resume.Marked s (b.move s.events .resume) := by
  obtain ⟨y, hy, hd, ⟨hb, rfl⟩ | ⟨hb, e, hn⟩⟩ := h.stands
  · rw [resume_of_pending hy, show b.move s.events .resume = b by simp [Bookmark.move, hb]]
    exact h
  · rw [show b.move s.events .resume = ⟨b.index + 1, false⟩ by simp [Bookmark.move, hb]]
    rw [calls_of_error hn] at hd
    exact ⟨h.source_eq, x.resume, rfl, drop_index_succ hd, .inl ⟨rfl, rfl⟩⟩

/-- **Commands keep a scan at its bookmark**, and are answered from the
stream. -/
theorem run (cs : List Command) :
    (x.run cs).2.Marked s (b.follow s.events cs) ∧ (x.run cs).1 = b.answers s.events cs := by
  induction cs generalizing x b with
  | nil => exact ⟨h, rfl⟩
  | cons c cs ih =>
    cases c with
    | next =>
      obtain ⟨hm, ha⟩ := ih h.next
      refine ⟨hm, ?_⟩
      show [x.next.1] ++ (x.next.2.run cs).1 = _
      rw [ha, Bookmark.answers, h.getElem?]
      rfl
    | resume => exact ih h.resume

/-- A scan that has stopped, or that is at the end, is not moved by a
command. -/
theorem position_obey (hb : b.halted = true ∨ ∃ t, x.next.1 = .token t ∧ t.kind = .eof)
    (c : Command) : (x.obey c).2.position = x.position := by
  cases c with
  | resume => rfl
  | next =>
    show x.next.2.position = x.position
    obtain hb | ⟨t, hn, ht⟩ := hb
    · obtain ⟨e, he⟩ := Option.isSome_iff_exists.1 (h.halted_iff.1 hb)
      rw [next_of_pending he]
    · have hx : x.next = (.token t, x.next.2) := by rw [← hn]
      rw [(eq_of_eof hx ht).2]

end Marked

end Scan

/-! ## Events as readings -/

/-- A client is given no event that is not in the stream. -/
theorem Scan.mem_events_of_mem_run {s : Source} {cs : List Command} {v : Event}
    (h : v ∈ ((start s).run cs).1) : v ∈ s.events := by
  rw [((Marked.start s).run cs).2] at h
  generalize Bookmark.start = b at h
  induction cs generalizing b with
  | nil => cases h
  | cons c cs ih =>
    cases c with
    | next =>
      rcases List.mem_append.1 h with h | h
      · exact List.mem_of_getElem? (Option.mem_toList.1 h)
      · exact ih _ h
    | resume => exact ih _ h

/-- **A call that reads**: after `pre` and before `post`, it reads what stands
there, and leaves the scan at the place after it. -/
structure Call.Reads (s : Source) (pre : Text) (r : Reading) (post : Text) (k : Call) :
    Prop where
  text_eq : s.text = pre ++ (r.consumed ++ post)
  stands : r.Before post.head?
  ne_nil : r.consumed ≠ []
  before_eq : k.before.position = Position.start.after pre
  after_eq : k.after.position = Position.start.after (pre ++ r.consumed)
  event_eq : k.event = r.event s (Position.start.after pre)

/-- **A call reads**, or gives the end token. -/
theorem Source.exists_call_reads {s : Source} {k : Call} (h : k ∈ (Scan.start s).calls) :
    k.event = .token (.eofAt (Position.start.after s.text)) ∨
      ∃ pre r post, k.Reads s pre r post := by
  -- what is left of the text, after what has been read
  suffices hs : ∀ t pre, s.text = pre ++ t →
      k ∈ (Scan.ready s (Position.start.after pre) t).calls → _ from hs s.text [] rfl h
  clear h
  intro t
  induction t using munch_induction with
  | nil =>
    intro pre ht h
    rw [Scan.calls_ready_nil] at h
    rw [ht, List.append_nil, List.mem_singleton.1 h]
    exact .inl rfl
  | cons c t ih =>
    intro pre ht h
    have hsplit : s.text = pre ++ ((munch c t).reading.consumed ++ (munch c t).rest) := by
      rw [ht, splits_munch c t]
    rw [Scan.calls_ready_cons, ← Position.after_append] at h
    rcases List.mem_cons.1 h with rfl | h
    · refine .inr ⟨pre, _, _, hsplit, before_munch c t, consumed_munch_ne_nil c t, rfl, ?_, rfl⟩
      exact (Position.after_append _ _ _).symm
    · exact ih _ (by rw [hsplit, List.append_assoc]) h

/-- **An event is a reading in its place**, or the end token. -/
theorem Source.exists_reading {s : Source} {v : Event} (h : v ∈ s.events) :
    v = .token (.eofAt (Position.start.after s.text)) ∨
      ∃ (pre : Text) (r : Reading) (post : Text),
        s.text = pre ++ (r.consumed ++ post) ∧ r.Before post.head? ∧
          v = r.event s (Position.start.after pre) := by
  obtain ⟨k, hk, rfl⟩ := List.mem_map.1 h
  obtain he | ⟨pre, r, post, hr⟩ := Source.exists_call_reads hk
  · exact .inl he
  · exact .inr ⟨pre, r, post, hr.text_eq, hr.stands, hr.event_eq⟩

/-- **An error is a fault in its place.** -/
theorem Source.exists_fault {s : Source} {e : LexError} (h : e ∈ s.survey.errors) :
    ∃ (pre : Text) (cause : Fault) (b w a post : Text),
      s.text = pre ++ b ++ (w ++ (a ++ post)) ∧
        (Reading.fault cause b w a).Before post.head? ∧
          e = ⟨cause.kind, cause.message, Position.start.after (pre ++ b), s, w⟩ := by
  have hm : e ∈ (Scan.start s).calls.filterMap (·.event.error?) :=
    Scan.survey_errors (.start s) ▸ h
  obtain ⟨k, hk, he⟩ := List.mem_filterMap.1 hm
  have hv : Event.error e ∈ s.events := List.mem_map.2 ⟨k, hk, Event.eq_error he⟩
  obtain hv | ⟨pre, r, post, ht, hb, hv⟩ := Source.exists_reading hv
  · cases hv
  · cases r with
    | lexeme kind w => cases hv
    | fault cause b w a =>
      refine ⟨pre, cause, b, w, a, post, ?_, hb, ?_⟩
      · rw [ht]
        simp only [Reading.consumed, List.append_assoc]
      · rw [Position.after_append]
        exact Event.error.inj hv

/-- The line of log for resuming after an error, with the scan at a
place. -/
def Source.resumeLine (s : Source) (p : Position) (e : LexError) : Text :=
  "asllex.scanner: ".toList ++ s.name ++ ": resuming at ".toList ++ Text.ofInt p.line ++ [':']
    ++ Text.ofInt p.column ++ " after ".toList ++ e.kind.name

/-- **A client walks the events of its source.** The events are the tokens
and the errors of the survey. After any commands, the client has been
answered from the stream, and asking again gives the event at its bookmark.
An error is pending exactly while the bookmark is halted at it. Then, and at
the end token, no command moves the cursor. Resuming forgets the error and
nothing else, it does nothing without one, and it is logged in one line
exactly if there is one. -/
theorem Scan.run_start_walks_events (s : Source) (cs : List Command) :
    let x := ((start s).run cs).2
    let b := Bookmark.start.follow s.events cs
    s.events.filterMap Event.token? = s.survey.tokens ∧
    s.events.filterMap Event.error? = s.survey.errors ∧
    ((start s).run cs).1 = Bookmark.start.answers s.events cs ∧
    s.events[b.index]? = some x.next.1 ∧
    (x.pending = if b.halted then x.next.1.error? else none) ∧
    (b.halted = true ↔ x.pending.isSome = true) ∧
    ((b.halted = true ∨ ∃ t, x.next.1 = .token t ∧ t.kind = .eof) →
      ∀ c, (x.obey c).2.position = x.position) ∧
    x.resume = { x with pending := none } ∧
    (x.pending = none → x.resume = x) ∧
    x.resumeLog = x.pending.toList.map (s.resumeLine x.position) := by
  intro x b
  obtain ⟨hm, ha⟩ : x.Marked s b ∧ _ := (Marked.start s).run cs
  refine ⟨?_, ?_, ha, hm.getElem?, hm.pending_eq, hm.halted_iff, hm.position_obey, rfl,
    resume_of_pending, ?_⟩
  · rw [Source.events, List.filterMap_map]
    exact (survey_tokens (start s)).symm
  · rw [Source.events, List.filterMap_map]
    exact (survey_errors (start s)).symm
  · rw [← hm.source_eq]
    unfold resumeLog
    cases x.pending with
    | none => rfl
    | some e => rfl

end Asl
