import Asl.Proofs.EntryPoints
import Asl.Proofs.ReportLines

/-!
# The courses a run can take

A run passes its stages one after the other: the command line, the
configuration, the input, the analysis, the listing. Each stage can end it,
and each in its own way. `Course` says once, for all of them, where a run can
end and what it has shown by then; `run_course` is that every run takes one
of these courses. What is true of all runs is then read off the courses, and
no proof opens the stages again.

An analysis that goes on after an error and one that does not are two
branches of a run, but not two courses. Both report errors of one survey, the
one all of them and the other the first (`Settings.errors_analyse`), and
without an error both list its tokens (`Settings.analyse_of_errors_eq_nil`).
-/

namespace Asl

/-! ## What an analysis tells -/

namespace Settings

/-- The errors a run reports, of all the errors there are. -/
def reported (o : Settings) (es : List LexError) : List LexError :=
  if o.keepGoing then es else es.take 1

/-- The listing of a source. -/
def listing (o : Settings) (s : Source) : Text :=
  Listing.render o.listingFormat (o.listed s.survey.tokens)

theorem reported_cons (o : Settings) (e : LexError) (es : List LexError) :
    ∃ more, o.reported (e :: es) = e :: more := by
  unfold reported
  split
  · exact ⟨es, rfl⟩
  · exact ⟨[], rfl⟩

end Settings

/-- A scan that meets no error does not resume, and logs nothing. -/
theorem Scan.survey_log_of_errors_eq_nil {x : Scan} (h : x.survey.errors = []) :
    x.survey.log = [] := by
  fun_induction calls x with
  | case1 x e x' hn _ =>
    rw [survey_of_error hn] at h
    cases h
  | case2 x t x' hn ht => rw [survey_of_eof hn ht]
  | case3 x t x' hn ht ih =>
    rw [survey_of_token hn ht] at h ⊢
    exact ih h

section Analysis

variable {o : Settings} {s : Source} (hn : s.name = o.input.toText)
include hn

/-- The source of an analysis is the text by the name of the input. -/
theorem Settings.source_eq : Source.mk o.input.toText s.text = s := by rw [← hn]

/-- **Whether or not an analysis goes on after an error, its errors are among
those of the survey**, from the first on. -/
theorem Settings.errors_analyse :
    (o.analyse s.text).errors = o.reported s.survey.errors := by
  have hs := source_eq hn
  cases hk : o.keepGoing with
  | true => simp only [analyse, reported, hk, if_true, hs]
  | false =>
    simp only [analyse, reported, hk, Bool.false_eq_true, if_false, hs, Source.tokens_eq]
    cases s.survey.errors <;> rfl

/-- **The analysis of a source without errors** is its tokens and one line of
the log. -/
theorem Settings.analyse_of_errors_eq_nil (he : s.survey.errors = []) :
    o.analyse s.text = ⟨o.listed s.survey.tokens, [], [o.openingLog s.text]⟩ := by
  have hs := source_eq hn
  have hl : s.survey.log = [] := Scan.survey_log_of_errors_eq_nil he
  cases hk : o.keepGoing with
  | true => simp only [analyse, hk, if_true, hs, he, hl]
  | false =>
    apply analyse_of_ok hk
    rw [hs]
    exact Source.tokens_eq_ok_iff.2 ⟨he, rfl⟩

end Analysis

/-! ## The courses -/

/-- The end of a run at a file it cannot use. A path that holds `U+0000` is
provided for nowhere, every other failure is told. -/
def Outcome.failed (verb : String) (path : Path) (e : FileError) (log : Text) : Outcome :=
  if e = .embeddedNul then .withMessage (.abort (.file .embeddedNul path)) log
  else .cannot verb path (e.message path) log

/-- **Where a run can end, and what it has shown by then.** -/
inductive Course (files : Files) (argv : List Text) : Outcome → Prop where
  /-- Help is asked for. -/
  | help (ha : Arguments.parse argv = .error .help) :
    Course files argv ⟨.stopped 0, Arguments.help, [], none⟩
  /-- The command line is wrong. -/
  | misused {e : UsageError} (ha : Arguments.parse argv = .error (.usage e)) :
    Course files argv (.withMessage (.stopped 2) (Arguments.complaint e))
  /-- The configuration is refused. -/
  | refused {a : Arguments} {e : ConfigError} (ha : Arguments.parse argv = .ok a)
    (hr : Settings.resolve files a = .error (.config e)) :
    Course files argv (.withMessage (.exit 2) (Text.line ("error: ".toList ++ e.message)))
  /-- The configuration cannot be judged. -/
  | unjudged {a : Arguments} {b : Abort} (ha : Arguments.parse argv = .ok a)
    (hr : Settings.resolve files a = .error (.abort b)) :
    Course files argv (.withMessage (.abort b) [])
  /-- The input cannot be read. -/
  | unread {a : Arguments} {o : Settings} {e : FileError} (ha : Arguments.parse argv = .ok a)
    (hr : Settings.resolve files a = .ok o) (he : files.read o.input = .error e) :
    Course files argv (.failed "read" o.input e [])
  /-- The input is no text. -/
  | undecoded {a : Arguments} {o : Settings} {contents : Bytes} {e : Utf8.Error}
    (ha : Arguments.parse argv = .ok a) (hr : Settings.resolve files a = .ok o)
    (hc : files.read o.input = .ok contents) (he : Settings.inputText contents = .error e) :
    Course files argv (.cannot "read" o.input e.message [])
  /-- The source has errors. -/
  | faulty {o : Settings} {s : Source} (h : ReadsInput files argv o s)
    (he : s.survey.errors ≠ []) :
    Course files argv (.withMessage (.exit 1)
      (o.shownLog (o.analyse s.text).log ++ (o.reported s.survey.errors).flatMap o.report))
  /-- The listing goes to the output stream. -/
  | printed {o : Settings} {s : Source} (h : ReadsInput files argv o s)
    (he : s.survey.errors = []) (ho : o.output = none) :
    Course files argv ⟨.exit 0, o.listing s, o.shownLog [o.openingLog s.text], none⟩
  /-- The listing goes to a file. -/
  | saved {o : Settings} {s : Source} {p : Path} (h : ReadsInput files argv o s)
    (he : s.survey.errors = []) (ho : o.output = some p) (hw : files.writable p = .ok ()) :
    Course files argv ⟨.exit 0, [], o.shownLog [o.openingLog s.text], some (p, o.listing s)⟩
  /-- The listing is to go to a file that cannot be written. -/
  | unsaved {o : Settings} {s : Source} {p : Path} {e : FileError} (h : ReadsInput files argv o s)
    (he : s.survey.errors = []) (ho : o.output = some p) (hw : files.writable p = .error e) :
    Course files argv (.failed "write" p e (o.shownLog [o.openingLog s.text]))

section Stages

variable {files : Files} {argv : List Text} {o : Settings} {s : Source}

/-- A listing that is delivered to a file, or not. -/
theorem Settings.deliver_of_output {p : Path} (ho : o.output = some p) (listing log : Text) :
    o.deliver files listing log = match files.writable p with
      | .ok _ => ⟨.exit 0, [], log, some (p, listing)⟩
      | .error e => .failed "write" p e log := by
  simp only [deliver, ho]
  cases files.writable p with
  | ok _ => rfl
  | error e => cases e <;> rfl

/-- A run on a source without errors delivers its listing. -/
theorem ReadsInput.run_of_errors_eq_nil (h : ReadsInput files argv o s)
    (he : s.survey.errors = []) :
    run files argv = o.deliver files (o.listing s) (o.shownLog [o.openingLog s.text]) := by
  rw [h.run_eq, Settings.analyse_of_errors_eq_nil h.name he]
  rfl

/-- A run on a source with errors reports them. -/
theorem ReadsInput.run_of_errors_ne_nil (h : ReadsInput files argv o s)
    (he : s.survey.errors ≠ []) :
    run files argv = .withMessage (.exit 1)
      (o.shownLog (o.analyse s.text).log ++ (o.reported s.survey.errors).flatMap o.report) := by
  have ha := Settings.errors_analyse h.name
  have hne : o.reported s.survey.errors ≠ [] := by
    obtain ⟨e, es, hes⟩ := List.exists_cons_of_ne_nil he
    obtain ⟨more, hm⟩ := o.reported_cons e es
    rw [hes, hm]
    exact List.cons_ne_nil e more
  rw [h.run_eq, Settings.conclude_of_errors (ha ▸ hne), ha]

/-- The courses of a run that gets to its source. -/
theorem ReadsInput.course (h : ReadsInput files argv o s) :
    Course files argv (run files argv) := by
  by_cases he : s.survey.errors = []
  · rw [h.run_of_errors_eq_nil he]
    cases ho : o.output with
    | none =>
      rw [Settings.deliver, ho]
      exact .printed h he ho
    | some p =>
      rw [Settings.deliver_of_output ho]
      cases hw : files.writable p with
      | ok _ => exact .saved h he ho hw
      | error e => exact .unsaved h he ho hw
  · rw [h.run_of_errors_ne_nil he]
    exact .faulty h he

/-- The courses of a run whose settings are known. -/
theorem course_of_settings {a : Arguments} (ha : Arguments.parse argv = .ok a)
    (hr : Settings.resolve files a = .ok o) : Course files argv (run files argv) := by
  have hrun : run files argv = o.run files := by simp only [run, ha, Arguments.run, hr]
  cases hc : files.read o.input with
  | error e =>
    have hf : o.run files = .failed "read" o.input e [] := by
      simp only [Settings.run, hc]
      cases e <;> rfl
    rw [hrun, hf]
    exact .unread ha hr hc
  | ok contents =>
    cases ht : Settings.inputText contents with
    | error e =>
      rw [hrun, Settings.run, hc]
      simp only [ht]
      exact .undecoded ha hr hc ht
    | ok t =>
      have h : ReadsInput files argv o ⟨o.input.toText, t⟩ :=
        ⟨⟨a, ha, hr⟩, rfl, contents, hc, ht⟩
      exact h.course

end Stages

/-- **Every run takes one of the courses.** -/
theorem run_course (files : Files) (argv : List Text) : Course files argv (run files argv) := by
  cases ha : Arguments.parse argv with
  | error r =>
    rw [run, ha]
    cases r with
    | help => exact .help ha
    | usage e => exact .misused ha
  | ok a =>
    cases hr : Settings.resolve files a with
    | error e =>
      rw [run, ha]
      simp only [Arguments.run, hr]
      cases e with
      | config e => exact .refused ha hr
      | abort b => exact .unjudged ha hr
    | ok o => exact course_of_settings ha hr

end Asl
