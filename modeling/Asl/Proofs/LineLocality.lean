import Asl.Proofs.Places

/-!
# A line feed divides a scan

Whatever goes wrong on a line stays on that line: after a line feed a scan
goes on as a new scan would, one line further down. So the survey of two
texts with a line feed between them is the survey of the one followed by
that of the other, moved to its place.

There is one exception. A character literal takes a line feed for its
payload, so a text that ends right after an opening quote, or after a
backslash that stands there, reaches over into the next line. The
complaint about such a text is an unterminated character literal, and it is
the only one that has to be excluded: a string literal, an escape or a
number that a line leaves unfinished is read the same with the line feed
after it (`Reading.Before.lineFeed`).

Blank space is not divided. A run of it goes on over the line feed, and is
one token where the two texts have two, or none. Hidden tokens are therefore
left out of the comparison, and `Scan.heard` are the events that remain.
-/

namespace Asl

/-! ## Moving to another place -/

/-- A token with its positions changed. -/
def Token.relocated (f : Position → Position) (t : Token) : Token :=
  { t with span := ⟨f t.span.start, f t.span.stop⟩ }

/-- An error with its position changed, in another source. -/
def LexError.relocated (s : Source) (f : Position → Position) (e : LexError) : LexError :=
  { e with position := f e.position, source := s }

/-- An event with its positions changed, in another source. -/
def Event.relocated (s : Source) (f : Position → Position) : Event → Event
  | token t => .token (t.relocated f)
  | error e => .error (e.relocated s f)

theorem Event.filterMap_token?_relocated (s : Source) (f : Position → Position)
    (es : List Event) :
    (es.map (relocated s f)).filterMap token? = (es.filterMap token?).map (Token.relocated f) := by
  rw [List.filterMap_map, List.map_filterMap]
  refine List.filterMap_congr (fun e _ => ?_)
  cases e <;> rfl

theorem Event.filterMap_error?_relocated (s : Source) (f : Position → Position)
    (es : List Event) :
    (es.map (relocated s f)).filterMap error?
      = (es.filterMap error?).map (LexError.relocated s f) := by
  rw [List.filterMap_map, List.map_filterMap]
  refine List.filterMap_congr (fun e _ => ?_)
  cases e <;> rfl

/-! ## Moving to another line -/

namespace Position

/-- The place a number of lines and of characters further on, in the same
column. -/
def moved (lines chars : Int) (p : Position) : Position :=
  ⟨p.line + lines, p.column, p.offset + chars⟩

theorem moved_zero (p : Position) : p.moved 0 0 = p := by
  unfold moved
  rw [Int.add_zero, Int.add_zero]

theorem advance_moved (lines chars : Int) (p : Position) (c : Char) :
    (p.moved lines chars).advance c = (p.advance c).moved lines chars := by
  unfold advance moved
  split
  · rw [Int.add_right_comm, Int.add_right_comm p.offset]
  · rw [Int.add_right_comm p.offset]

theorem after_moved (lines chars : Int) (p : Position) (t : Text) :
    (p.moved lines chars).after t = (p.after t).moved lines chars := by
  induction t generalizing p with
  | nil => rfl
  | cons c t ih => rw [after_cons, advance_moved, ih, after_cons]

/-- A text and a line feed lead to the first column of a later line. -/
theorem after_lineFeed (t : Text) :
    start.after (t ++ ['\n']) = start.moved (1 + t.count '\n') (t.length + 1) := by
  rw [after_append, after_cons, after_nil, advance, if_pos rfl, line_after, offset_after]
  unfold moved
  rw [Int.add_assoc, Int.add_comm (t.count '\n' : Int) 1, Int.add_assoc]
  rfl

/-- What follows there leads where it leads alone, moved. -/
theorem after_append_line (t u : Text) :
    start.after (t ++ '\n' :: u) = (start.after u).moved (1 + t.count '\n') (t.length + 1) := by
  show start.after (t ++ (['\n'] ++ u)) = _
  rw [← List.append_assoc, after_append, after_lineFeed, after_moved]

end Position

/-- A token moved to another place. -/
def Token.moved (lines chars : Int) (t : Token) : Token :=
  { t with span := ⟨t.span.start.moved lines chars, t.span.stop.moved lines chars⟩ }

/-- An error moved to another place, in another source. -/
def LexError.moved (s : Source) (lines chars : Int) (e : LexError) : LexError :=
  { e with position := e.position.moved lines chars, source := s }

/-- An event moved to another place, in another source. -/
def Event.moved (s : Source) (lines chars : Int) : Event → Event
  | token t => .token (t.moved lines chars)
  | error e => .error (e.moved s lines chars)

theorem Token.moved_zero (t : Token) : t.moved 0 0 = t := by
  unfold moved
  rw [Position.moved_zero, Position.moved_zero]

theorem Event.filterMap_token?_moved (s : Source) (lines chars : Int) (es : List Event) :
    (es.map (moved s lines chars)).filterMap token?
      = (es.filterMap token?).map (Token.moved lines chars) :=
  filterMap_token?_relocated s (Position.moved lines chars) es

theorem Event.filterMap_error?_moved (s : Source) (lines chars : Int) (es : List Event) :
    (es.map (moved s lines chars)).filterMap error?
      = (es.filterMap error?).map (LexError.moved s lines chars) :=
  filterMap_error?_relocated s (Position.moved lines chars) es

/-- A reading elsewhere is the same event, moved. -/
theorem Reading.event_moved (r : Reading) (s s' : Source) (lines chars : Int) (p : Position) :
    r.event s' (p.moved lines chars) = (r.event s p).moved s' lines chars := by
  cases r with
  | lexeme kind w =>
    show Event.token ⟨_, _, _, ⟨_, (p.moved lines chars).after w⟩, _⟩ = _
    rw [Position.after_moved]
    rfl
  | fault cause b w a =>
    show Event.error ⟨_, _, (p.moved lines chars).after b, _, _⟩ = _
    rw [Position.after_moved]
    rfl

/-! ## The events that are heard -/

/-- Whether an event is neither a hidden token nor the end token. -/
def Event.isHeard : Event → Bool
  | token t => !t.isHidden && t.kind ≠ .eof
  | error _ => true

/-- Where it stands does not decide whether an event is heard. -/
theorem Event.filter_relocated (s : Source) (f : Position → Position) (es : List Event) :
    (es.map (relocated s f)).filter isHeard = (es.filter isHeard).map (relocated s f) := by
  have hh : isHeard ∘ relocated s f = isHeard := by
    funext e
    cases e <;> rfl
  rw [List.filter_map, hh]

namespace Scan

/-- **The events heard from a text on**: errors, and tokens that are neither
hidden nor the end token. -/
def heard (s : Source) (p : Position) (t : Text) : List Event :=
  ((ready s p t).calls.map Call.event).filter Event.isHeard

variable (s : Source) (p : Position)

theorem heard_nil : heard s p [] = [] := by
  unfold heard
  rw [calls_ready_nil]
  rfl

theorem heard_cons (c : Char) (t : Text) :
    heard s p (c :: t)
      = [(munch c t).reading.event s p].filter Event.isHeard
        ++ heard s (p.after (munch c t).reading.consumed) (munch c t).rest := by
  unfold heard
  rw [calls_ready_cons, List.map_cons, ← List.filter_append]
  rfl

variable {s p} in
theorem heard_read {r : Reading} {u : Text} (h : r.Before u.head?) (hn : r.consumed ≠ []) :
    heard s p (r.consumed ++ u)
      = [r.event s p].filter Event.isHeard ++ heard s (p.after r.consumed) u := by
  unfold heard
  rw [calls_read h hn, List.map_cons, ← List.filter_append]
  rfl

/-- What is heard elsewhere is the same, moved. -/
theorem heard_moved (s' : Source) (lines chars : Int) (t : Text) :
    heard s' (p.moved lines chars) t = (heard s p t).map (Event.moved s' lines chars) := by
  induction t using munch_induction generalizing p with
  | nil => rw [heard_nil, heard_nil]; rfl
  | cons c t ih =>
    rw [heard_cons, heard_cons, Reading.event_moved _ s, Position.after_moved, ih,
      List.map_append]
    exact congrArg (· ++ _) (Event.filter_relocated s' (Position.moved lines chars) [_])

/-- A run of blank space is not heard. -/
theorem heard_blank {v u : Text} (hv : ∀ d ∈ v, Lexicon.isSpace d = true)
    (hu : ∀ d ∈ u.head?, Lexicon.isSpace d = false) :
    heard s p (v ++ u) = heard s (p.after v) u := by
  cases v with
  | nil => rfl
  | cons c v =>
    have hm : munch c (v ++ u) = ⟨.lexeme .space (c :: v), u⟩ := by
      refine munch_of_lexes (.space (by simp) hv) ?_ rfl
      simpa [TokenKind.endsBefore] using hu
    rw [List.cons_append, heard_cons, hm]
    rfl

/-- The errors of a survey are all heard. -/
theorem survey_errors_ready (t : Text) :
    (ready s p t).survey.errors = (heard s p t).filterMap Event.error? := by
  have hf : (fun e : Event => if e.isHeard = true then e.error? else none) = Event.error? := by
    funext e
    cases e with
    | token t => exact ite_self none
    | error e => rfl
  rw [survey_errors, heard, List.filterMap_filter, hf, List.filterMap_map]
  rfl

/-- The end token is not heard. -/
theorem kind_ne_eof_of_heard (t : Text) :
    ∀ k ∈ (heard s p t).filterMap Event.token?, k.kind ≠ .eof := by
  intro k hk
  obtain ⟨e, he, hek⟩ := List.mem_filterMap.1 hk
  have hh := (List.mem_filter.1 he).2
  rw [Event.eq_token hek] at hh
  simp only [Event.isHeard, Bool.and_eq_true, decide_eq_true_eq] at hh
  exact hh.2

/-- The visible tokens of a survey are those heard, and the end token. -/
theorem visible_survey_ready (t : Text) :
    Token.visible (ready s p t).survey.tokens
      = (heard s p t).filterMap Event.token? ++ [.eofAt (p.after t)] := by
  rw [survey_tokens]
  induction t using munch_induction generalizing p with
  | nil =>
    rw [calls_ready_nil, heard_nil]
    rfl
  | cons c t ih =>
    rw [calls_ready_cons, heard_cons, List.filterMap_append, List.append_assoc]
    -- the end token stands where the whole text leads
    have hp : (p.after (munch c t).reading.consumed).after (munch c t).rest = p.after (c :: t) := by
      rw [← Position.after_append, splits_munch c t]
    rw [← hp, ← ih]
    rcases hm : munch c t with ⟨⟨kind, w⟩ | ⟨cause, b, w, a⟩, u⟩
    · obtain ⟨value, hl⟩ := exists_lexes_of_munch hm
      have hk := hl.kind_ne_eof
      generalize ht : (⟨kind, kind.valueOf w, w, ⟨p, p.after w⟩, kind.channel⟩ : Token) = k
      have hkind : k.kind ≠ .eof := ht ▸ hk
      simp only [Reading.event, ht, List.filterMap_cons, Event.token?, Token.visible]
      cases hh : k.isHidden <;> simp [Event.isHeard, hh, hkind, Event.token?]
    · rfl

end Scan

/-! ## The line feed -/

/-- **What is read at the end of a text is read the same before a line
feed**, unless it is blank space or an open character literal. -/
theorem Reading.Before.lineFeed {r : Reading} (h : r.Before none)
    (hs : ∀ w, r ≠ .lexeme .space w) (ho : ∀ b w a, r ≠ .fault .openChar b w a) :
    r.Before (some '\n') := by
  have hn : ∀ {q : Char → Prop}, q '\n' → ∀ d ∈ some '\n', q d := by
    rintro q hq d ⟨⟩
    exact hq
  cases h with
  | @lexeme kind value w _ h _ =>
    refine .lexeme h (hn ?_)
    cases kind <;> first | rfl | exact absurd rfl (hs w)
  | stray h => exact .stray h
  | bare _ => exact .bare (hn (by decide))
  | missingFraction hm hd _ => exact .missingFraction hm hd (hn (by decide))
  | openQuote => exact absurd rfl (ho _ _ _)
  | openEscape => exact absurd rfl (ho _ _ _)
  | emptyChar => exact .emptyChar
  | charEscape hc => exact .charEscape hc
  | unclosedChar hu _ => exact .unclosedChar hu (hn (by decide))
  | openString hu hw _ => exact .openString hu hw (hn (by decide))
  | closedEscape hu hc hl hv => exact .closedEscape hu hc hl hv
  | openEscapes hu hc hl hv hw _ => exact .openEscapes hu hc hl hv hw (hn (by decide))

theorem Lexes.isSpace_of_space {value w : Text} (h : Lexes .space value w) :
    ∀ d ∈ w, Lexicon.isSpace d = true := by
  have hp : ∀ k ∈ Lexicon.punctuation, k.2 ≠ .space := by decide
  have ho : ∀ k ∈ Grammar.operators, k.2 ≠ .space := by decide
  have hk : ∀ k ∈ Lexicon.keywords, k.2 ≠ .space := by decide
  cases h with
  | punctuation h => exact absurd rfl (hp _ h)
  | operator h => exact absurd rfl (ho _ h)
  | keyword h => exact absurd rfl (hk _ h)
  | space _ hw => exact hw

namespace Scan

variable (s : Source)

/-- Blank space before a line feed is not heard, nor is the line feed. -/
theorem heard_blank_lineFeed (p : Position) {w : Text} (hw : ∀ d ∈ w, Lexicon.isSpace d = true)
    (b : Text) : heard s p (w ++ '\n' :: b) = heard s (p.after (w ++ ['\n'])) b := by
  obtain ⟨v, x, rfl, hv, hx⟩ := Text.exists_run Lexicon.isSpace b
  have hall : ∀ d ∈ w ++ '\n' :: v, Lexicon.isSpace d = true :=
    List.forall_mem_append.2 ⟨hw, List.forall_mem_cons.2 ⟨rfl, hv⟩⟩
  have hrun := heard_blank s p hall hx
  rw [heard_blank s _ hv hx, ← Position.after_append]
  simpa only [List.append_assoc, List.cons_append, List.nil_append] using hrun

/-- **A line feed divides what is heard.** -/
theorem heard_append_line {a : Text} (b : Text) (p : Position)
    (h : ∀ e, .error e ∈ heard s p a → e.message ≠ Fault.openChar.message) :
    heard s p (a ++ '\n' :: b) = heard s p a ++ heard s (p.after (a ++ ['\n'])) b := by
  induction a using munch_induction generalizing p with
  | nil =>
    rw [heard_nil, List.nil_append]
    exact heard_blank_lineFeed s p (w := []) (by simp) b
  | cons c t ih =>
    have hsplit : c :: t = (munch c t).reading.consumed ++ (munch c t).rest :=
      (splits_munch c t).symm
    have hb := before_munch c t
    rw [heard_cons] at h
    rw [heard_cons s p c t]
    rcases hm : munch c t with ⟨r, u⟩
    rw [hm] at h hb hsplit ih
    dsimp only at h hb hsplit ih ⊢
    by_cases hr : u = [] ∧ ∃ w, r = .lexeme .space w
    · -- blank space up to the line feed, which goes on beyond it
      obtain ⟨rfl, w, rfl⟩ := hr
      obtain ⟨value, hl⟩ := exists_lexes_of_munch hm
      rw [hsplit, heard_nil, List.append_nil]
      exact heard_blank_lineFeed s p hl.isSpace_of_space b
    · -- anything else ends where it ended, and the line feed is left to what follows
      have ho : ∀ b w a, r ≠ .fault .openChar b w a := by
        rintro b w a rfl
        exact h _ (List.mem_append_left _ List.mem_cons_self) rfl
      have hnext : r.Before (u ++ '\n' :: b).head? := by
        cases u with
        | nil => exact hb.lineFeed (fun w hw => hr ⟨rfl, w, hw⟩) ho
        | cons d u => exact hb
      have hm' : munch c (t ++ '\n' :: b) = ⟨r, u ++ '\n' :: b⟩ := by
        refine munch_of_before hnext ?_
        rw [← List.cons_append, hsplit, List.append_assoc]
      rw [List.cons_append, heard_cons, hm', ih _ (fun e he => h e (List.mem_append_right _ he)),
        ← List.append_assoc, ← Position.after_append, ← List.append_assoc, ← hsplit]

/-- What is heard from two texts with a line feed between them is heard from
each of them alone, and moved. -/
theorem heard_start_append_line (name a b : Text)
    (h : ∀ e ∈ (Source.mk name a).survey.errors, e.message ≠ Fault.openChar.message) :
    let whole : Source := ⟨name, a ++ '\n' :: b⟩
    heard whole .start whole.text
      = (heard ⟨name, a⟩ .start a).map (Event.moved whole 0 0)
        ++ (heard ⟨name, b⟩ .start b).map (Event.moved whole (1 + a.count '\n') (a.length + 1)) := by
  intro whole
  have ha : heard whole .start a = (heard ⟨name, a⟩ .start a).map (Event.moved whole 0 0) := by
    rw [← heard_moved, Position.moved_zero]
  have hb : heard whole (Position.start.after (a ++ ['\n'])) b
      = (heard ⟨name, b⟩ .start b).map (Event.moved whole (1 + a.count '\n') (a.length + 1)) := by
    rw [← heard_moved, Position.after_lineFeed]
  rw [← ha, ← hb]
  refine heard_append_line whole b .start (fun e he => ?_)
  -- moving an error leaves its message as it is
  have hm := List.mem_filterMap.2 ⟨_, he, (rfl : (Event.error e).error? = some e)⟩
  rw [ha, Event.filterMap_error?_moved, ← survey_errors_ready] at hm
  obtain ⟨d, hd, rfl⟩ := List.mem_map.1 hm
  exact h d hd

end Scan

/-- **A line feed divides a survey.** If the first of two texts does not end
inside a character literal, before its payload is complete, then the survey
of both with a line feed between them has the errors of the first followed
by those of the second, and the visible tokens of the first, its end token
left out, followed by those of the second. What comes from the second is
moved down by the lines of the first and on by its characters. -/
theorem survey_append_line (name a b : Text)
    (h : ∀ e ∈ (Source.mk name a).survey.errors,
      e.message ≠ "unterminated character literal".toList) :
    let whole : Source := ⟨name, a ++ '\n' :: b⟩
    let lines : Int := 1 + a.count '\n'
    let chars : Int := a.length + 1
    whole.survey.errors
        = (Source.mk name a).survey.errors.map (LexError.moved whole 0 0)
          ++ (Source.mk name b).survey.errors.map (LexError.moved whole lines chars) ∧
      Token.visible whole.survey.tokens
        = (Token.visible (Source.mk name a).survey.tokens).filter (fun t => t.kind ≠ .eof)
          ++ (Token.visible (Source.mk name b).survey.tokens).map (Token.moved lines chars) := by
  intro whole lines chars
  have hwhole := Scan.heard_start_append_line name a b h
  have hend : Token.eofAt (Position.start.after whole.text)
      = (Token.eofAt (Position.start.after b)).moved lines chars := by
    show Token.eofAt (Position.start.after (a ++ '\n' :: b)) = _
    rw [Position.after_append_line]
    rfl
  have hvisible : (Token.visible (Source.mk name a).survey.tokens).filter (fun t => t.kind ≠ .eof)
      = (Scan.heard ⟨name, a⟩ .start a).filterMap Event.token? := by
    show (Token.visible (Scan.ready ⟨name, a⟩ .start a).survey.tokens).filter _ = _
    rw [Scan.visible_survey_ready, List.filter_append,
      List.filter_eq_self.2 (fun k hk => by simpa using Scan.kind_ne_eof_of_heard _ _ a k hk)]
    simp [Token.eofAt]
  refine ⟨?_, ?_⟩
  · show (Scan.ready whole .start whole.text).survey.errors = _
    rw [Scan.survey_errors_ready, hwhole, List.filterMap_append, Event.filterMap_error?_moved,
      Event.filterMap_error?_moved, ← Scan.survey_errors_ready, ← Scan.survey_errors_ready]
    rfl
  · show Token.visible (Scan.ready whole .start whole.text).survey.tokens
      = _ ++ (Token.visible (Scan.ready ⟨name, b⟩ .start b).survey.tokens).map _
    rw [hvisible, Scan.visible_survey_ready, Scan.visible_survey_ready, hwhole, hend,
      List.filterMap_append, Event.filterMap_token?_moved, Event.filterMap_token?_moved,
      funext Token.moved_zero, List.map_id', List.map_append, List.append_assoc]
    rfl

/-- A number and a string literal that their line leaves unfinished say
nothing about the next line. -/
theorem survey_append_line_unfinished :
    let a : Text := "1. \"oops\\".toList
    let b : Text := "x = 'c".toList
    let whole : Source := ⟨[], a ++ '\n' :: b⟩
    (∀ e ∈ (Source.mk [] a).survey.errors,
        e.message ≠ "unterminated character literal".toList) ∧
      whole.survey.errors
        = (Source.mk [] a).survey.errors.map (LexError.moved whole 0 0)
          ++ (Source.mk [] b).survey.errors.map (LexError.moved whole 1 10) ∧
      Token.visible whole.survey.tokens
        = (Token.visible (Source.mk [] a).survey.tokens).filter (fun t => t.kind ≠ .eof)
          ++ (Token.visible (Source.mk [] b).survey.tokens).map (Token.moved 1 10) := by
  have h : ∀ e ∈ (Source.mk [] "1. \"oops\\".toList).survey.errors,
      e.message ≠ "unterminated character literal".toList := by decide +kernel
  exact ⟨h, survey_append_line [] "1. \"oops\\".toList "x = 'c".toList h⟩

-- a quote alone is an error, and the line feed after it is its payload
example : (Source.mk [] ['\'']).survey.errors ≠ [] ∧
    (Source.mk [] ['\'', '\n', '\'']).survey.errors = [] := by
  decide +kernel

end Asl
