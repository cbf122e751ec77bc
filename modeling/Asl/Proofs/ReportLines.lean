import Asl.Run
import Asl.Proofs.Calls
import Asl.Text.Lines

/-!
# The report of an error and the lines it takes

A run that goes on after an error is to report each error in one line, so
that the lines on the error stream can be counted and read one by one. The
offending text is escaped for that: of it only printable characters are
shown as they are. The message is not escaped. Its wording is fixed for
every cause but one: the message for a bad escape quotes the character after
the backslash as it stands in the source, and that may be any character at
all.

So the description of an error of a source is printable exactly if the error
is no bad escape, or the escape is printable; and a run writes one line for
each error exactly if no bad escape holds a character that breaks a line
(`report_lines_iff`). A backslash before a line feed, in a character literal,
is such an escape (`report_lines_escaped_lineFeed`).

What is printable and what does not break a line are two classes of
characters, and the same is said of both. The lemmas on reports are
therefore about any class that holds what is printable.
-/

namespace Asl

/-! ## Printable text -/

namespace Text

/-- Numbers are spelled with printable digits, in every base there are digits
for. -/
theorem isPrintable_of_mem_toDigits {b : Nat} (hb : 1 < b) (hd : b ≤ 16) (n : Nat) :
    ∀ c ∈ Nat.toDigits b n, isPrintable c = true := by
  have hdigit : ∀ d < 16, isPrintable (Nat.digitChar d) = true := by decide
  induction n using Nat.strong_induction_on with
  | h n ih =>
    rw [Nat.toDigits_eq_if hb]
    split
    · exact List.forall_mem_singleton.2 (hdigit n (by omega))
    · have hlt : n / b < n := Nat.div_lt_self (by omega) hb
      have hmod : n % b < b := Nat.mod_lt n (by omega)
      exact List.forall_mem_append.2
        ⟨ih _ hlt, List.forall_mem_singleton.2 (hdigit _ (by omega))⟩

theorem isPrintable_of_mem_ofInt (n : Int) : ∀ c ∈ ofInt n, isPrintable c = true := by
  cases n with
  | ofNat n => exact isPrintable_of_mem_toDigits (by decide) (by decide) n
  | negSucc n =>
    exact List.forall_mem_cons.2 ⟨rfl, isPrintable_of_mem_toDigits (by decide) (by decide) (n + 1)⟩

theorem isPrintable_of_mem_hex (width n : Nat) : ∀ c ∈ hex width n, isPrintable c = true := by
  refine List.forall_mem_append.2
    ⟨fun c hc => ?_, isPrintable_of_mem_toDigits (by decide) (by decide) n⟩
  rw [List.eq_of_mem_replicate hc]
  rfl

theorem isPrintable_of_layoutEscape? {c : Char} {t : Text} (h : layoutEscape? c = some t) :
    ∀ d ∈ t, isPrintable d = true := by
  unfold layoutEscape? at h
  split at h
  · cases h
    exact List.all_eq_true.1 rfl
  · split at h
    · cases h
      exact List.all_eq_true.1 rfl
    · split at h
      · cases h
        exact List.all_eq_true.1 rfl
      · cases h

/-- A numbered escape is printable if its mark is. -/
theorem isPrintable_of_mem_numbered {mark : Char} (hm : isPrintable mark = true) (width n : Nat) :
    ∀ d ∈ '\\' :: mark :: hex width n, isPrintable d = true :=
  List.forall_mem_cons.2 ⟨by decide, List.forall_mem_cons.2 ⟨hm, isPrintable_of_mem_hex width n⟩⟩

/-- **Whatever is escaped for a report is printable.** -/
theorem isPrintable_of_mem_oneLine (t : Text) : ∀ d ∈ oneLine t, isPrintable d = true := by
  intro d hd
  obtain ⟨c, -, hd⟩ := List.mem_flatMap.1 hd
  unfold oneLineChar at hd
  split at hd
  · next w hw => exact isPrintable_of_layoutEscape? hw d hd
  · split at hd
    · next hc =>
      rw [List.mem_singleton.1 hd]
      exact hc
    · split at hd
      · exact isPrintable_of_mem_numbered (by decide) 2 c.toNat d hd
      · exact isPrintable_of_mem_numbered (by decide) 4 c.toNat d hd

/-- What is printable does not break a line. -/
theorem isLineBreak_eq_false_of_isPrintable {c : Char} (h : isPrintable c = true) :
    isLineBreak c = false := by
  rw [Bool.eq_false_iff]
  intro hb
  have hall : ['\n', '\r', '\x0b', '\x0c', '\x1c', '\x1d', '\x1e', '\u0085', '\u2028',
      '\u2029'].all (fun d => !isPrintable d) = true := rfl
  have hc := List.all_eq_true.1 hall c (by simpa [isLineBreak, or_assoc] using hb)
  rw [h] at hc
  cases hc

/-! ## Lines of a text -/

theorem lines_crlf (t : Text) : lines ('\r' :: '\n' :: t) = ['\r', '\n'] :: lines t := rfl

/-- A character that does not begin a pair stands alone. -/
theorem lines_cons {c : Char} {t : Text} (h : c = '\r' → t.head? ≠ some '\n') :
    lines (c :: t) = if isLineBreak c then [c] :: lines t else consLine c (lines t) := by
  rw [lines.eq_def]
  split
  · next he => cases he
  · next he =>
    obtain ⟨rfl, rfl⟩ := List.cons.inj he
    exact absurd rfl (h rfl)
  · next he =>
    obtain ⟨rfl, rfl⟩ := List.cons.inj he
    rfl

theorem lines_ne_nil {t : Text} (h : t ≠ []) : lines t ≠ [] := by
  intro hl
  have hf := flatten_lines t
  rw [hl] at hf
  exact h hf.symm

theorem line_ne_nil (t : Text) : line t ≠ [] := List.append_ne_nil_of_right_ne_nil t (by decide)

theorem consLine_append (c : Char) {ls : List Text} (h : ls ≠ []) (ms : List Text) :
    consLine c (ls ++ ms) = consLine c ls ++ ms := by
  cases ls with
  | nil => exact absurd rfl h
  | cons l ls => rfl

theorem consLine_eq_singleton_iff (c : Char) {ls : List Text} (h : ls ≠ []) (l : Text) :
    consLine c ls = [c :: l] ↔ ls = [l] := by
  cases ls with
  | nil => exact absurd rfl h
  | cons k ks => simp [consLine]

/-- **Induction along the lines of a text that a line feed ends.** Its last
character may be a `CR`, and is then one break with the line feed. -/
theorem line_induction {motive : Text → Prop} (nil : motive []) (cr : motive ['\r'])
    (crlf : ∀ t, motive t → motive ('\r' :: '\n' :: t))
    (cons : ∀ c t, (∀ u, c = '\r' → (line t ++ u).head? ≠ some '\n') → motive t → motive (c :: t))
    (t : Text) : motive t := by
  induction t using lines.induct with
  | case1 => exact nil
  | case2 t ih => exact crlf t ih
  | case3 c t h _ ih | case4 c t h _ ih =>
    by_cases hc : c = '\r' ∧ t = []
    · obtain ⟨rfl, rfl⟩ := hc
      exact cr
    · refine cons c t (fun u hr hu => ?_) ih
      cases t with
      | nil => exact hc ⟨hr, rfl⟩
      | cons d t => exact h t hr (congrArg (· :: t) (Option.some.inj hu))

/-- **A line feed always ends a line**, whatever it follows. -/
theorem lines_line_append (t u : Text) : lines (line t ++ u) = lines (line t) ++ lines u := by
  induction t using line_induction with
  | nil => rfl
  | cr => rfl
  | crlf t ih =>
    show lines ('\r' :: '\n' :: (line t ++ u)) = lines ('\r' :: '\n' :: line t) ++ lines u
    rw [lines_crlf, lines_crlf, ih]
    rfl
  | cons c t hc ih =>
    show lines (c :: (line t ++ u)) = lines (c :: line t) ++ lines u
    rw [lines_cons (hc u), lines_cons (by simpa using hc []), ih]
    split
    · rfl
    · exact consLine_append c (lines_ne_nil (line_ne_nil t)) _

/-- A text is one line with a line feed after it exactly if nothing in the
text breaks a line. A text that ends in `CR` is left out: that `CR` and the
line feed are one break. -/
theorem lines_line_iff {t : Text} (ht : t.getLast? ≠ some '\r') :
    lines (line t) = [line t] ↔ ∀ c ∈ t, isLineBreak c = false := by
  induction t using line_induction with
  | nil => exact iff_of_true rfl (List.forall_mem_nil _)
  | cr => exact absurd rfl ht
  | crlf t ih =>
    refine iff_of_false (fun h => ?_) (fun h => ?_)
    · change lines ('\r' :: '\n' :: line t) = _ at h
      rw [lines_crlf] at h
      exact lines_ne_nil (line_ne_nil t) (List.cons.inj h).2
    · cases h '\r' List.mem_cons_self
  | cons c t hc ih =>
    have ht' : t.getLast? ≠ some '\r' := by
      intro h
      apply ht
      rw [List.getLast?_cons, h]
      rfl
    have hn := lines_ne_nil (line_ne_nil t)
    show lines (c :: line t) = [c :: line t] ↔ _
    rw [lines_cons (by simpa using hc []), List.forall_mem_cons, ← ih ht']
    cases hb : isLineBreak c with
    | true =>
      refine iff_of_false (fun h => hn (List.cons.inj h).2) (fun h => ?_)
      cases h.1
    | false =>
      rw [if_neg Bool.false_ne_true, consLine_eq_singleton_iff c hn]
      exact (and_iff_right rfl).symm

theorem length_le_length_lines (ts : List Text) :
    ts.length ≤ (lines (ts.flatMap line)).length := by
  induction ts with
  | nil => exact Nat.zero_le _
  | cons t ts ih =>
    have hpos := List.length_pos_iff.2 (lines_ne_nil (line_ne_nil t))
    rw [List.flatMap_cons, lines_line_append, List.length_append, List.length_cons]
    omega

/-- **Texts written one after the other are a line each** exactly if none of
them takes more than one. -/
theorem lines_flatMap_line_iff (ts : List Text) :
    lines (ts.flatMap line) = ts.map line ↔ ∀ t ∈ ts, lines (line t) = [line t] := by
  induction ts with
  | nil => exact iff_of_true rfl (List.forall_mem_nil _)
  | cons t ts ih =>
    rw [List.flatMap_cons, lines_line_append, List.map_cons, List.forall_mem_cons, ← ih]
    constructor
    · intro h
      -- the texts after `t` have a line each, which leaves one for `t`
      have hlen := congrArg List.length h
      have hpos := List.length_pos_iff.2 (lines_ne_nil (line_ne_nil t))
      have hle := length_le_length_lines ts
      rw [List.length_append, List.length_cons, List.length_map] at hlen
      obtain ⟨l, hl⟩ := List.length_eq_one_iff.1 (show (lines (line t)).length = 1 by omega)
      rw [hl] at h ⊢
      obtain ⟨rfl, hts⟩ := List.cons.inj h
      exact ⟨rfl, hts⟩
    · rintro ⟨ht, hts⟩
      rw [ht, hts]
      rfl

end Text

/-! ## The report of one error -/

section Report

variable {q : Char → Prop} (hq : ∀ c, Text.isPrintable c = true → q c)
include hq

/-- A report adds nothing to the message but what is printable. -/
theorem LexError.forall_describe_iff (e : LexError) :
    (∀ c ∈ e.describe, q c) ↔ ∀ c ∈ e.message, q c := by
  have hf : ∀ {t : Text}, (∀ c ∈ t, Text.isPrintable c = true) → ∀ c ∈ t, q c :=
    fun h c hc => hq c (h c hc)
  unfold describe
  simp only [List.forall_mem_append]
  constructor
  · intro h
    exact h.1.1.1.2
  · intro hm
    have hline : ∀ c ∈ "line ".toList, q c := hf (List.all_eq_true.1 rfl)
    have hcolumn : ∀ c ∈ ", column ".toList, q c := hf (List.all_eq_true.1 rfl)
    have hcolon : ∀ c ∈ ": ".toList, q c := hf (List.all_eq_true.1 rfl)
    have hfound : ∀ c ∈ ", found '".toList, q c := hf (List.all_eq_true.1 rfl)
    have hquote : ∀ c ∈ ['\''], q c := hf (List.all_eq_true.1 rfl)
    exact ⟨⟨⟨⟨⟨⟨⟨⟨hline, hf (Text.isPrintable_of_mem_ofInt _)⟩, hcolumn⟩,
      hf (Text.isPrintable_of_mem_ofInt _)⟩, hcolon⟩, hm⟩, hfound⟩,
      hf (Text.isPrintable_of_mem_oneLine _)⟩, hquote⟩

/-- The message for a bad escape shows its code. -/
theorem Escape.forall_invalidMessage_iff (code : Char) :
    (∀ c ∈ invalidMessage code, q c) ↔ ∀ c ∈ ['\\', code], q c := by
  have hopen : ∀ c ∈ "invalid escape sequence '\\".toList, Text.isPrintable c = true :=
    List.all_eq_true.1 rfl
  unfold invalidMessage
  simp only [List.forall_mem_append, List.forall_mem_cons, List.not_mem_nil, IsEmpty.forall_iff,
    implies_true, and_true]
  constructor
  · intro h
    exact ⟨hq _ (by decide), h.2.1⟩
  · intro h
    exact ⟨fun c hc => hq c (hopen c hc), h.2, hq _ (by decide)⟩

/-- **Only the message for a bad escape depends on the source.** -/
theorem Reading.Before.forall_message_iff {cause : Fault} {b w a : Text} {next : Option Char}
    (h : (Reading.fault cause b w a).Before next) :
    (∀ c ∈ cause.message, q c) ↔
      (cause.kind = .invalidEscape → ∀ c ∈ w, q c) := by
  have hfixed : ∀ {f : Fault}, f.message.all Text.isPrintable = true →
      f.kind ≠ .invalidEscape → ((∀ c ∈ f.message, q c) ↔
        (f.kind = .invalidEscape → ∀ c ∈ w, q c)) :=
    fun hp hk => iff_of_true (fun c hc => hq c (List.all_eq_true.1 hp c hc)) fun he => absurd he hk
  have hbad : ∀ {code : Char}, w = ['\\', code] →
      ((∀ c ∈ (Fault.badEscape code).message, q c) ↔
        ((Fault.badEscape code).kind = .invalidEscape → ∀ c ∈ w, q c)) := by
    rintro code rfl
    exact (Escape.forall_invalidMessage_iff hq code).trans ⟨fun h _ => h, fun h => h rfl⟩
  cases h with
  | stray _ => exact hfixed rfl (by decide)
  | bare _ => exact hfixed rfl (by decide)
  | missingFraction _ _ _ => exact hfixed rfl (by decide)
  | openQuote => exact hfixed rfl (by decide)
  | openEscape => exact hfixed rfl (by decide)
  | emptyChar => exact hfixed rfl (by decide)
  | unclosedChar _ _ => exact hfixed rfl (by decide)
  | openString _ _ _ => exact hfixed rfl (by decide)
  | charEscape _ => exact hbad rfl
  | closedEscape _ _ _ _ => exact hbad rfl
  | openEscapes _ _ _ _ _ _ => exact hbad rfl

end Report

/-! ## The errors of a source -/

/-- **Every error is the report of a fault that was read.** -/
theorem Scan.exists_fault_of_mem_errors {s : Source} {p : Position} {t : Text} :
    ∀ e ∈ (ready s p t).survey.errors, ∃ cause b a next,
      (Reading.fault cause b e.text a).Before next ∧
        e.kind = cause.kind ∧ e.message = cause.message := by
  rw [survey_errors]
  induction t using munch_induction generalizing p with
  | nil =>
    rw [calls_ready_nil]
    exact List.forall_mem_nil _
  | cons c t ih =>
    rw [calls_ready_cons]
    rcases hm : munch c t with ⟨⟨kind, w⟩ | ⟨cause, b, w, a⟩, u⟩ <;> rw [hm] at ih
    · exact ih
    · exact List.forall_mem_cons.2 ⟨⟨cause, b, a, _, (munch_eq_iff.1 hm).2, rfl, rfl⟩, ih⟩

/-- **Only a bad escape shows in a report as it stands in the source.** -/
theorem Source.forall_describe_iff {q : Char → Prop} (hq : ∀ c, Text.isPrintable c = true → q c)
    {s : Source} {e : LexError} (he : e ∈ s.survey.errors) :
    (∀ c ∈ e.describe, q c) ↔ (e.kind = .invalidEscape → ∀ c ∈ e.text, q c) := by
  obtain ⟨cause, b, a, next, hb, hk, hm⟩ := Scan.exists_fault_of_mem_errors e he
  rw [e.forall_describe_iff hq, hk, hm]
  exact hb.forall_message_iff hq

/-! ## The reports of a run -/

/-- **A run that gets to its source**: its command line is understood, its
settings are found, and its input is a text. -/
structure ReadsInput (files : Files) (argv : List Text) (o : Settings) (s : Source) : Prop where
  /-- The settings the command line comes to. -/
  settings : ∃ a, Arguments.parse argv = .ok a ∧ Settings.resolve files a = .ok o
  /-- The source is known by the path of the input. -/
  name : s.name = o.input.toText
  /-- The text of the source is that of the input. -/
  text : ∃ contents, files.read o.input = .ok contents ∧ Settings.inputText contents = .ok s.text

/-- What is said of an error in a run that goes on after one. -/
def LexError.reportLine (e : LexError) (name : Text) : Text := name ++ ": ".toList ++ e.describe

section Run

variable {files : Files} {argv : List Text} {o : Settings} {s : Source}

/-- What such a run does is left to the analysis of the text. -/
theorem ReadsInput.run_eq (h : ReadsInput files argv o s) :
    run files argv = o.conclude files (o.analyse s.text) := by
  obtain ⟨a, ha, ho⟩ := h.settings
  obtain ⟨contents, hc, ht⟩ := h.text
  simp only [run, ha, Arguments.run, ho, Settings.run, hc, ht]

/-- A run that goes on after errors analyses its source to the end. -/
theorem ReadsInput.errors_analyse (h : ReadsInput files argv o s) (hk : o.keepGoing = true) :
    (o.analyse s.text).errors = s.survey.errors := by
  rw [Settings.analyse, if_pos hk, ← h.name]

/-- The errors of an analysis decide how a run ends. -/
theorem Settings.conclude_of_errors {a : Analysis} (h : a.errors ≠ []) :
    o.conclude files a
      = .withMessage (.exit 1) (o.shownLog a.log ++ a.errors.flatMap o.report) := by
  unfold conclude
  split
  · next he => exact absurd he h
  · rfl

/-- A run that goes on after errors and does not log writes the reports of
the errors and nothing else. -/
theorem ReadsInput.run_keepGoing (h : ReadsInput files argv o s) (hk : o.keepGoing = true)
    (hd : o.debug = false) (he : s.survey.errors ≠ []) :
    run files argv
      = .withMessage (.exit 1)
          ((s.survey.errors.map (·.reportLine s.name)).flatMap Text.line) := by
  have ha := h.errors_analyse hk
  have hl : o.shownLog (o.analyse s.text).log = [] := by
    rw [Settings.shownLog, hd, if_neg Bool.false_ne_true]
  have hr : o.report = fun e => Text.line (e.reportLine s.name) := by
    funext e
    rw [Settings.report, if_pos hk, LexError.reportLine, h.name]
  rw [h.run_eq, Settings.conclude_of_errors (ha ▸ he), hl, ha, hr, List.flatMap_map,
    List.nil_append]

theorem LexError.getLast?_describe (e : LexError) : e.describe.getLast? = some '\'' := by
  unfold describe
  exact List.getLast?_concat ..

/-- A report is one line exactly if the error is described in one: the name
breaks no line, and the description ends in a quote. -/
theorem LexError.lines_reportLine_iff {name : Text}
    (hp : ∀ c ∈ name, Text.isPrintable c = true) (e : LexError) :
    Text.lines (Text.line (e.reportLine name)) = [Text.line (e.reportLine name)] ↔
      ∀ c ∈ e.describe, Text.isLineBreak c = false := by
  have hlast : (e.reportLine name).getLast? = some '\'' := by
    rw [reportLine, List.getLast?_append, e.getLast?_describe, Option.some_or]
  have hcolon : ∀ c ∈ ": ".toList, Text.isPrintable c = true := List.all_eq_true.1 rfl
  have ht : (e.reportLine name).getLast? ≠ some '\r' := by
    rw [hlast]
    decide
  rw [Text.lines_line_iff ht, reportLine, List.forall_mem_append, List.forall_mem_append]
  constructor
  · exact And.right
  · intro h
    exact ⟨⟨fun c hc => Text.isLineBreak_eq_false_of_isPrintable (hp c hc),
      fun c hc => Text.isLineBreak_eq_false_of_isPrintable (hcolon c hc)⟩, h⟩

end Run

/-- **A report is printable, and one line, up to the bad escape it quotes.**
The description of an error of a source is printable exactly if the error is
no bad escape or the escape is printable. A run on the source that goes on
after errors and does not log, and knows the source by a printable name, ends
with code 1 and writes the reports of its errors, one after the other; and
each of them is a line of its own exactly if no bad escape holds a character
that breaks a line. -/
theorem report_lines_iff (s : Source) :
    (∀ e ∈ s.survey.errors, (∀ c ∈ e.describe, Text.isPrintable c = true) ↔
      (e.kind = .invalidEscape → ∀ c ∈ e.text, Text.isPrintable c = true)) ∧
    ∀ (files : Files) (argv : List Text) (o : Settings), ReadsInput files argv o s →
      o.keepGoing = true → o.debug = false → (∀ c ∈ s.name, Text.isPrintable c = true) →
      s.survey.errors ≠ [] →
      (run files argv).ending = .exit 1 ∧
      (run files argv).stderr = (s.survey.errors.map (·.reportLine s.name)).flatMap Text.line ∧
      (Text.lines (run files argv).stderr
          = (s.survey.errors.map (·.reportLine s.name)).map Text.line ↔
        ∀ e ∈ s.survey.errors, e.kind = .invalidEscape →
          ∀ c ∈ e.text, Text.isLineBreak c = false) := by
  refine ⟨fun e he => Source.forall_describe_iff (fun _ => id) he, ?_⟩
  intro files argv o h hk hd hp hes
  rw [h.run_keepGoing hk hd hes]
  refine ⟨rfl, rfl, ?_⟩
  show Text.lines ((s.survey.errors.map (·.reportLine s.name)).flatMap Text.line) = _ ↔ _
  rw [Text.lines_flatMap_line_iff, List.forall_mem_map]
  refine forall₂_congr fun e he => (e.lines_reportLine_iff hp).trans ?_
  exact Source.forall_describe_iff (fun _ => Text.isLineBreak_eq_false_of_isPrintable) he

/-- A stray character, a bad escape that is printable, and the quote after it
are reported in three lines. -/
theorem report_lines_iff_printable :
    let files := (FileTree.empty.addFile ["a.asl".toList] "@\n'\\q'".toUTF8.toList).view
    Text.lines (run files ["--keep-going".toList, "a.asl".toList]).stderr
      = ["a.asl: line 1, column 1: unexpected character, found '@'\n".toList,
         "a.asl: line 2, column 2: invalid escape sequence '\\q', found '\\q'\n".toList,
         "a.asl: line 2, column 4: unterminated character literal, found '''\n".toList] := by
  intro files
  let s : Source := ⟨"a.asl".toList, "@\n'\\q'".toList⟩
  let o : Settings := ⟨Path.ofText s.name, none, some .text, false, true, false⟩
  let a : Arguments := ⟨s.name, .absent, .absent, none, some true, .absent, false⟩
  have ho : ReadsInput files ["--keep-going".toList, "a.asl".toList] o s :=
    ⟨⟨a, by decide +kernel, by decide +kernel⟩, by decide +kernel,
      ⟨"@\n'\\q'".toUTF8.toList, by decide +kernel, by decide +kernel⟩⟩
  have hall : (s.survey.errors.flatMap LexError.text).all (fun c => !Text.isLineBreak c) = true :=
    by decide +kernel
  have hl := ((report_lines_iff s).2 files _ o ho rfl rfl (List.all_eq_true.1 rfl)
    (by decide +kernel)).2.2.2
    fun e he _ c hc => by simpa using List.all_eq_true.1 hall c (List.mem_flatMap.2 ⟨e, he, hc⟩)
  exact hl.trans (by decide +kernel)

/-- **An escaped line feed is reported in two lines.** The one error of this
source quotes the line feed in its description, and a run writes it so. -/
theorem report_lines_escaped_lineFeed :
    (⟨"a.asl".toList, "'\\\n".toList⟩ : Source).survey.errors.map LexError.describe
      = ["line 1, column 2: invalid escape sequence '\\\n', found '\\\\n'".toList] ∧
    Text.lines
        (run (FileTree.empty.addFile ["a.asl".toList] "'\\\n".toUTF8.toList).view
          ["--keep-going".toList, "a.asl".toList]).stderr
      = ["a.asl: line 1, column 2: invalid escape sequence '\\\n".toList,
         "', found '\\\\n'\n".toList] := by
  constructor <;> decide +kernel

end Asl
