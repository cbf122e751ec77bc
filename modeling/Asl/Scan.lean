import Asl.Reading

/-!
# Scans

A scan walks a source from left to right, one reading at a time, and puts
each reading in its place: a lexeme becomes a token, a fault an error. It
stops at an error – asking again gives the same error – until it is told to
resume, which it does right after the consumed text. At the end of the text
it gives the end token, as often as it is asked.

Two ways of running a scan to its end are given. `Source.tokens` gives up
at the first error; `Source.survey` resumes after each one and collects
tokens and errors apart, with a line of log for every time it resumed.
-/

namespace Asl

/-- What a scan gives when it is asked. -/
inductive Event where
  /-- A token. -/
  | token (t : Token)
  /-- An error. -/
  | error (e : LexError)
deriving DecidableEq, Repr

namespace Event

/-- The error of an event, if it is one. -/
def error? : Event → Option LexError
  | token _ => none
  | error e => some e

end Event

/-- The value of a token of some kind: the lexeme, without its first and
last character where it is delimited. -/
def TokenKind.valueOf (kind : TokenKind) (lexeme : Text) : Text :=
  match kind with
  | .charval => lexeme.tail.dropLast
  | .stringval => lexeme.tail.dropLast
  | _ => lexeme

/-- A reading put in its place: `p` is where the consumed text begins. -/
def Reading.event (source : Source) (p : Position) : Reading → Event
  | lexeme kind text =>
    .token ⟨kind, kind.valueOf text, text, ⟨p, p.after text⟩, kind.channel⟩
  | fault cause before text _ =>
    .error ⟨cause.kind, cause.message, p.after before, source, text⟩

/-- A scan in progress. -/
structure Scan where
  /-- The source being read. -/
  source : Source
  /-- The text not yet read. -/
  rest : Text
  /-- Where that text begins. -/
  position : Position
  /-- The error the scan has stopped at, if any. -/
  pending : Option LexError
deriving DecidableEq, Repr

namespace Scan

/-- A scan of a source from its beginning. -/
def start (source : Source) : Scan := ⟨source, source.text, .start, none⟩

/-- The next event, and the scan after it. -/
def next (s : Scan) : Event × Scan :=
  match s.pending with
  | some e => (.error e, s)
  | none =>
    match s.rest with
    | [] => (.token (.eofAt s.position), s)
    | c :: t =>
      let step := munch c t
      let event := step.reading.event s.source s.position
      (event,
        { s with
          rest := step.rest
          position := s.position.after step.reading.consumed
          pending := event.error? })

/-- The scan with its pending error forgotten. -/
def resume (s : Scan) : Scan := { s with pending := none }

/-- The line of log for resuming: there is one exactly when an error is
pending. -/
def resumeLog (s : Scan) : List Text :=
  match s.pending with
  | none => []
  | some e =>
    ["asllex.scanner: ".toList ++ s.source.name ++ ": resuming at ".toList
      ++ Text.ofInt s.position.line ++ [':'] ++ Text.ofInt s.position.column
      ++ " after ".toList ++ e.kind.name]

/-- How much a scan still has to do: what remains to be read, and the error
to be left behind. -/
def work (s : Scan) : Nat :=
  2 * s.rest.length + (if s.pending.isSome then 1 else 0)

/-- A scan that has stopped gives its error again. -/
theorem next_of_pending {s : Scan} {e : LexError} (h : s.pending = some e) :
    s.next = (.error e, s) := by
  simp [next, h]

/-- A scan at the end of its text gives the end token. -/
theorem next_of_nil {s : Scan} (hp : s.pending = none) (hr : s.rest = []) :
    s.next = (.token (.eofAt s.position), s) := by
  simp [next, hp, hr]

/-- A scan with text left to read takes one step. -/
theorem next_of_cons {s : Scan} {c : Char} {t : Text} (hp : s.pending = none)
    (hr : s.rest = c :: t) :
    s.next =
      ((munch c t).reading.event s.source s.position,
        { s with
          rest := (munch c t).rest
          position := s.position.after (munch c t).reading.consumed
          pending := ((munch c t).reading.event s.source s.position).error? }) := by
  simp [next, hp, hr]

/-- A token other than the end token brings a scan forward. -/
theorem work_lt_of_token {s s' : Scan} {t : Token} (h : s.next = (.token t, s'))
    (ht : t.kind ≠ .eof) : s'.work < s.work := by
  cases hp : s.pending with
  | some e => simp [next_of_pending hp] at h
  | none =>
    cases hr : s.rest with
    | nil =>
      simp only [next_of_nil hp hr, Prod.mk.injEq, Event.token.injEq] at h
      exact absurd (h.1 ▸ rfl) ht
    | cons c u =>
      have hl := length_rest_munch_lt c u
      simp only [next_of_cons hp hr, Prod.mk.injEq] at h
      obtain ⟨he, rfl⟩ := h
      simp only [work, he, Event.error?, hr, hp, Option.isSome_none, Bool.false_eq_true,
        if_false]
      omega

/-- Resuming after an error brings a scan forward. -/
theorem work_resume_lt_of_error {s s' : Scan} {e : LexError} (h : s.next = (.error e, s')) :
    s'.resume.work < s.work := by
  cases hp : s.pending with
  | some d =>
    simp only [next_of_pending hp, Prod.mk.injEq] at h
    obtain ⟨-, rfl⟩ := h
    simp [work, resume, hp]
  | none =>
    cases hr : s.rest with
    | nil => simp [next_of_nil hp hr] at h
    | cons c u =>
      have hl := length_rest_munch_lt c u
      simp only [next_of_cons hp hr, Prod.mk.injEq] at h
      obtain ⟨-, rfl⟩ := h
      simp only [work, resume, hr, hp, Option.isSome_none, Bool.false_eq_true, if_false]
      omega

/-- The tokens up to the end token, or the first error. Hidden tokens are
kept only if `hidden` says so. -/
def tokens (hidden : Bool) (s : Scan) : Except LexError (List Token) :=
  match _hn : s.next with
  | (.error e, _) => .error e
  | (.token t, s') =>
    let kept := if hidden || !t.isHidden then [t] else []
    if _ht : t.kind = .eof then .ok kept else (s'.tokens hidden).map (kept ++ ·)
termination_by s.work
decreasing_by exact work_lt_of_token _hn _ht

/-- An error ends the tokens. -/
theorem tokens_of_error {s s' : Scan} {e : LexError} (hidden : Bool)
    (h : s.next = (.error e, s')) : s.tokens hidden = .error e := by
  rw [tokens]
  split <;> simp_all

/-- The end token ends the tokens. -/
theorem tokens_of_eof {s s' : Scan} {t : Token} (hidden : Bool)
    (h : s.next = (.token t, s')) (ht : t.kind = .eof) :
    s.tokens hidden = .ok (if hidden || !t.isHidden then [t] else []) := by
  rw [tokens]
  split <;> simp_all

/-- Any other token is followed by the tokens of the scan after it. -/
theorem tokens_of_token {s s' : Scan} {t : Token} (hidden : Bool)
    (h : s.next = (.token t, s')) (ht : t.kind ≠ .eof) :
    s.tokens hidden
      = (s'.tokens hidden).map ((if hidden || !t.isHidden then [t] else []) ++ ·) := by
  rw [tokens]
  split <;> simp_all

end Scan

/-- All that a whole source gives: the tokens, the errors, and the log of
resuming, each in source order. -/
structure Survey where
  /-- The tokens, hidden ones included, with the end token last. -/
  tokens : List Token
  /-- The errors. -/
  errors : List LexError
  /-- One line for each time the scan resumed. -/
  log : List Text
deriving DecidableEq, Repr

namespace Scan

/-- The scan run to its end, resuming after each error. -/
def survey (s : Scan) : Survey :=
  match _hn : s.next with
  | (.error e, s') =>
    let r := s'.resume.survey
    ⟨r.tokens, e :: r.errors, s'.resumeLog ++ r.log⟩
  | (.token t, s') =>
    if _ht : t.kind = .eof then ⟨[t], [], []⟩
    else
      let r := s'.survey
      ⟨t :: r.tokens, r.errors, r.log⟩
termination_by s.work
decreasing_by
  · exact work_resume_lt_of_error _hn
  · exact work_lt_of_token _hn _ht

/-- An error is collected, and the scan goes on after it. -/
theorem survey_of_error {s s' : Scan} {e : LexError} (h : s.next = (.error e, s')) :
    s.survey
      = ⟨s'.resume.survey.tokens, e :: s'.resume.survey.errors,
          s'.resumeLog ++ s'.resume.survey.log⟩ := by
  rw [survey]
  split <;> simp_all

/-- The end token is the last thing collected. -/
theorem survey_of_eof {s s' : Scan} {t : Token} (h : s.next = (.token t, s'))
    (ht : t.kind = .eof) : s.survey = ⟨[t], [], []⟩ := by
  rw [survey]
  split <;> simp_all

/-- Any other token is collected, and the scan goes on after it. -/
theorem survey_of_token {s s' : Scan} {t : Token} (h : s.next = (.token t, s'))
    (ht : t.kind ≠ .eof) :
    s.survey = ⟨t :: s'.survey.tokens, s'.survey.errors, s'.survey.log⟩ := by
  rw [survey]
  split <;> simp_all

end Scan

namespace Source

/-- The tokens of a source, or its first error. Hidden tokens are kept only
if `hidden` says so. -/
def tokens (s : Source) (hidden : Bool) : Except LexError (List Token) :=
  (Scan.start s).tokens hidden

/-- The tokens of a source a parser reads, or its first error. -/
def visibleTokens (s : Source) : Except LexError (List Token) := s.tokens false

/-- Every token and every error of a source. -/
def survey (s : Source) : Survey := (Scan.start s).survey

end Source

end Asl
