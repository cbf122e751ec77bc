import Asl.Scan
import Asl.Proofs.Munch

/-!
# Scans at rest, and what is asked of them

A scan with no error pending depends on three things only: the source it
names in its errors, the place it stands at, and the text it has left.
`Scan.ready` is such a scan, and every scan that a run to the end asks is
one of them: a token leaves the scan ready, and an error does once the scan
is resumed. So a run is followed by the text alone, one step of reading
after another (`munch_induction`), and the equations below say what each
step adds to the tokens, to the survey, and to the calls.

A client need not run a scan to its end, nor resume it after an error:
`Scan.run` obeys commands in any order and any number. What one of them does
to a scan that is not at rest is said separately.

The calls of a survey are kept in full (`Call`): the scan that was asked,
its answer, and the scan as it was left. What a survey collects is read off
them (`Scan.survey_tokens`, `Scan.survey_errors`).
-/

namespace Asl

/-- **Induction along the readings of a text**: what holds of the empty
text, and of a text whenever it holds of what a step leaves of it, holds of
every text. -/
@[elab_as_elim]
theorem munch_induction {motive : Text → Prop} (nil : motive [])
    (cons : ∀ c t, motive (munch c t).rest → motive (c :: t)) (t : Text) : motive t := by
  induction hn : t.length using Nat.strong_induction_on generalizing t with
  | h n ih =>
    cases t with
    | nil => exact nil
    | cons c t =>
      have hl := length_rest_munch_lt c t
      rw [hn] at hl
      exact cons c t (ih _ hl _ rfl)

/-- **Induction along the readings of a text**, with all that is shorter at
hand: the text is empty, or begins with a reading. -/
theorem reading_induction {motive : Text → Prop} (nil : motive [])
    (read : ∀ (r : Reading) (u : Text), r.Before u.head? → r.consumed ≠ [] →
      (∀ v : Text, v.length < (r.consumed ++ u).length → motive v) → motive (r.consumed ++ u))
    (t : Text) : motive t := by
  induction hn : t.length using Nat.strong_induction_on generalizing t with
  | h n ih =>
    cases t with
    | nil => exact nil
    | cons c t =>
      have hs : (munch c t).reading.consumed ++ (munch c t).rest = c :: t := splits_munch c t
      rw [← hs] at hn ⊢
      exact read _ _ (before_munch c t) (consumed_munch_ne_nil c t)
        fun v hv => ih v.length (hn ▸ hv) v rfl

/-- No lexeme is of the kind of the end token. -/
theorem Lexes.kind_ne_eof {kind : TokenKind} {value w : Text} (h : Lexes kind value w) :
    kind ≠ .eof := by
  have hp : ∀ k ∈ Lexicon.punctuation, k.2 ≠ .eof := by decide
  have ho : ∀ k ∈ Grammar.operators, k.2 ≠ .eof := by decide
  have hk : ∀ k ∈ Lexicon.keywords, k.2 ≠ .eof := by decide
  cases h with
  | punctuation h => exact hp _ h
  | operator h => exact ho _ h
  | keyword h => exact hk _ h
  | _ => exact TokenKind.noConfusion

/-- What the step takes for a lexeme is one. -/
theorem exists_lexes_of_munch {c : Char} {t u : Text} {kind : TokenKind} {w : Text}
    (h : munch c t = ⟨.lexeme kind w, u⟩) : ∃ value, Lexes kind value w := by
  cases (munch_eq_iff.1 h).2 with
  | lexeme h _ => exact ⟨_, h⟩

/-! ## Scans at rest -/

namespace Scan

/-- **A scan at rest**: it stands before a text, with no error pending. -/
def ready (s : Source) (p : Position) (t : Text) : Scan := ⟨s, t, p, none⟩

variable (s : Source) (p : Position)

theorem next_ready_nil : (ready s p []).next = (.token (.eofAt p), ready s p []) := rfl

theorem next_ready_cons (c : Char) (t : Text) :
    (ready s p (c :: t)).next =
      ((munch c t).reading.event s p,
        { ready s (p.after (munch c t).reading.consumed) (munch c t).rest with
          pending := ((munch c t).reading.event s p).error? }) := rfl

variable {s p}

/-- A lexeme is a token and leaves the scan ready. -/
theorem next_ready_of_lexeme {c : Char} {t u : Text} {kind : TokenKind} {w : Text}
    (h : munch c t = ⟨.lexeme kind w, u⟩) :
    (ready s p (c :: t)).next
      = (.token ⟨kind, kind.valueOf w, w, ⟨p, p.after w⟩, kind.channel⟩,
          ready s (p.after w) u) := by
  rw [next_ready_cons, h]
  rfl

/-- A fault is an error, and leaves it pending. -/
theorem next_ready_of_fault {c : Char} {t u : Text} {cause : Fault} {b w a : Text}
    (h : munch c t = ⟨.fault cause b w a, u⟩) :
    (ready s p (c :: t)).next
      = (.error ⟨cause.kind, cause.message, p.after b, s, w⟩,
          { ready s (p.after (b ++ w ++ a)) u with
            pending := some ⟨cause.kind, cause.message, p.after b, s, w⟩ }) := by
  rw [next_ready_cons, h]
  rfl

/-! ## What one call does to a scan -/

section Call

variable {x y : Scan}

theorem source_next (x : Scan) : x.next.2.source = x.source := by
  cases hp : x.pending with
  | some e => rw [next_of_pending hp]
  | none =>
    cases hr : x.rest with
    | nil => rw [next_of_nil hp hr]
    | cons c t => rw [next_of_cons hp hr]

/-- What a scan gives is left pending exactly if it is an error. -/
theorem pending_next (x : Scan) : x.next.2.pending = x.next.1.error? := by
  cases hp : x.pending with
  | some e => rw [next_of_pending hp]; exact hp
  | none =>
    cases hr : x.rest with
    | nil => rw [next_of_nil hp hr]; exact hp
    | cons c t => rw [next_of_cons hp hr]

theorem pending_of_error {e : LexError} (h : y.next = (.error e, x)) : x.pending = some e := by
  have hp := pending_next y
  rwa [h] at hp

theorem pending_of_token {t : Token} (h : y.next = (.token t, x)) : x.pending = none := by
  have hp := pending_next y
  rwa [h] at hp

/-- The end token stands where the scan does, and leaves the scan as it
is. -/
theorem eq_of_eof {t : Token} (h : y.next = (.token t, x)) (ht : t.kind = .eof) :
    t = .eofAt y.position ∧ x = y := by
  cases hp : y.pending with
  | some d => rw [next_of_pending hp] at h; cases (Prod.mk.inj h).1
  | none =>
    cases hr : y.rest with
    | nil =>
      rw [next_of_nil hp hr] at h
      obtain ⟨he, rfl⟩ := Prod.mk.inj h
      exact ⟨(Event.token.inj he).symm, rfl⟩
    | cons c u =>
      -- no lexeme is of the kind of the end token, so no text is left
      rw [next_of_cons hp hr] at h
      rcases hm : munch c u with ⟨⟨kind, w⟩ | ⟨cause, b, w, a⟩, v⟩ <;>
      rw [hm] at h <;> cases (Prod.mk.inj h).1
      obtain ⟨value, hl⟩ := exists_lexes_of_munch hm
      exact absurd ht hl.kind_ne_eof

theorem resume_of_pending (h : x.pending = none) : x.resume = x := by
  rw [resume, ← h]

end Call

/-! ## The tokens up to the first error -/

theorem tokens_ready_nil (hidden : Bool) : (ready s p []).tokens hidden = .ok [.eofAt p] := by
  rw [tokens_of_eof hidden (next_ready_nil s p) rfl]
  rw [show (Token.eofAt p).isHidden = false from rfl, Bool.not_false, Bool.or_true, if_pos rfl]

theorem tokens_ready_of_lexeme {c : Char} {t u : Text} {kind : TokenKind} {w : Text}
    (h : munch c t = ⟨.lexeme kind w, u⟩) :
    (ready s p (c :: t)).tokens true
      = ((ready s (p.after w) u).tokens true).map
          (⟨kind, kind.valueOf w, w, ⟨p, p.after w⟩, kind.channel⟩ :: ·) := by
  obtain ⟨value, hl⟩ := exists_lexes_of_munch h
  rw [tokens_of_token true (next_ready_of_lexeme h) hl.kind_ne_eof]
  rfl

theorem tokens_ready_of_fault {c : Char} {t u : Text} {cause : Fault} {b w a : Text}
    (h : munch c t = ⟨.fault cause b w a, u⟩) (hidden : Bool) :
    (ready s p (c :: t)).tokens hidden
      = .error ⟨cause.kind, cause.message, p.after b, s, w⟩ :=
  tokens_of_error hidden (next_ready_of_fault h)

end Scan

/-! ## What a client asks -/

/-- What a client can ask of a scan. -/
inductive Command where
  /-- The next event. -/
  | next
  /-- To resume after an error. -/
  | resume
deriving DecidableEq, Repr

namespace Scan

/-- The answer to a command, if it has one, and the scan after it. -/
def obey (s : Scan) : Command → List Event × Scan
  | .next => ([s.next.1], s.next.2)
  | .resume => ([], s.resume)

/-- The answers to commands given one after the other, and the scan after
the last of them. -/
def run (s : Scan) : List Command → List Event × Scan
  | [] => ([], s)
  | c :: cs => ((s.obey c).1 ++ ((s.obey c).2.run cs).1, ((s.obey c).2.run cs).2)

end Scan

/-! ## The calls of a survey -/

/-- The token of an event, if it is one. -/
def Event.token? : Event → Option Token
  | token t => some t
  | error _ => none

theorem Event.eq_token {e : Event} {t : Token} (h : e.token? = some t) : e = .token t := by
  cases e with
  | token u => rw [Option.some.inj h]
  | error d => cases h

theorem Event.eq_error {e : Event} {d : LexError} (h : e.error? = some d) : e = .error d := by
  cases e with
  | token u => cases h
  | error d => rw [Option.some.inj h]

/-- **A call of the survey**: the scan that is asked, what it gives, and the
scan as the answer leaves it. -/
structure Call where
  /-- The scan that is asked. -/
  before : Scan
  /-- What it gives. -/
  event : Event
  /-- The scan after the answer, not yet resumed. -/
  after : Scan

namespace Scan

/-- The calls a survey makes, in order. It resumes after an error and stops
after the end token. -/
def calls (s : Scan) : List Call :=
  match _hn : s.next with
  | (.error e, s') => ⟨s, .error e, s'⟩ :: s'.resume.calls
  | (.token t, s') =>
    if _ht : t.kind = .eof then [⟨s, .token t, s'⟩] else ⟨s, .token t, s'⟩ :: s'.calls
termination_by s.work
decreasing_by
  · exact work_resume_lt_of_error _hn
  · exact work_lt_of_token _hn _ht

theorem calls_of_error {s s' : Scan} {e : LexError} (h : s.next = (.error e, s')) :
    s.calls = ⟨s, .error e, s'⟩ :: s'.resume.calls := by
  rw [calls]
  split <;> simp_all

theorem calls_of_eof {s s' : Scan} {t : Token} (h : s.next = (.token t, s'))
    (ht : t.kind = .eof) : s.calls = [⟨s, .token t, s'⟩] := by
  rw [calls]
  split <;> simp_all

theorem calls_of_token {s s' : Scan} {t : Token} (h : s.next = (.token t, s'))
    (ht : t.kind ≠ .eof) : s.calls = ⟨s, .token t, s'⟩ :: s'.calls := by
  rw [calls]
  split <;> simp_all

/-- The tokens of a survey are those its calls give. -/
theorem survey_tokens (s : Scan) : s.survey.tokens = s.calls.filterMap (·.event.token?) := by
  fun_induction calls s with
  | case1 s e s' hn ih =>
    rw [survey_of_error hn]
    exact ih
  | case2 s t s' hn ht =>
    rw [survey_of_eof hn ht]
    rfl
  | case3 s t s' hn ht ih =>
    rw [survey_of_token hn ht]
    exact congrArg (t :: ·) ih

/-- So are the errors. -/
theorem survey_errors (s : Scan) : s.survey.errors = s.calls.filterMap (·.event.error?) := by
  fun_induction calls s with
  | case1 s e s' hn ih =>
    rw [survey_of_error hn]
    exact congrArg (e :: ·) ih
  | case2 s t s' hn ht =>
    rw [survey_of_eof hn ht]
    rfl
  | case3 s t s' hn ht ih =>
    rw [survey_of_token hn ht]
    exact ih

variable (s : Source) (p : Position)

theorem calls_ready_nil :
    (ready s p []).calls = [⟨ready s p [], .token (.eofAt p), ready s p []⟩] :=
  calls_of_eof (next_ready_nil s p) rfl

/-- A survey goes on where a step of reading stops, whether it read a lexeme
or a fault. -/
theorem calls_ready_cons (c : Char) (t : Text) :
    (ready s p (c :: t)).calls
      = ⟨ready s p (c :: t), (munch c t).reading.event s p, (ready s p (c :: t)).next.2⟩
        :: (ready s (p.after (munch c t).reading.consumed) (munch c t).rest).calls := by
  rcases hm : munch c t with ⟨⟨kind, w⟩ | ⟨cause, b, w, a⟩, u⟩
  · obtain ⟨value, hl⟩ := exists_lexes_of_munch hm
    rw [calls_of_token (next_ready_of_lexeme hm) hl.kind_ne_eof, next_ready_of_lexeme hm]
    rfl
  · rw [calls_of_error (next_ready_of_fault hm), next_ready_of_fault hm]
    rfl

variable {s p}

/-- **What is read is called for first**, then what follows it. -/
theorem calls_read {r : Reading} {u : Text} (h : r.Before u.head?) (hn : r.consumed ≠ []) :
    (ready s p (r.consumed ++ u)).calls
      = ⟨ready s p (r.consumed ++ u), r.event s p,
          { ready s (p.after r.consumed) u with pending := (r.event s p).error? }⟩
        :: (ready s (p.after r.consumed) u).calls := by
  obtain ⟨c, w, hw⟩ := List.exists_cons_of_ne_nil hn
  have hm : munch c (w ++ u) = ⟨r, u⟩ := munch_of_before h (by rw [hw]; rfl)
  rw [hw, List.cons_append, calls_ready_cons, next_ready_cons, hm, ← hw]

end Scan

end Asl
