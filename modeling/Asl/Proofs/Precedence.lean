import Asl.Settings
import Asl.Proofs.CommandLines

/-!
# Which layer a setting is taken from

A setting has three sources: the command line, the configuration, a default.
The first two can each say it or not, and the configuration can also say it in
a way that does not count: outside the table it belongs to, or as a value of
another type. This module says which source wins (`Prevails`).

Of a document only three entries are looked at, each as a value of one type
(`Toml.Table.Holds`), so two documents that agree on these come to the same
(`Config.ofTable_congr`). A format that a document names is judged before the
command line is asked, and one that does not exist is refused even where the
command line names another (`Config.ofTable_eq_error_iff`).

An empty path is no path. So an empty path at the end of a command line takes
back the paths before it: the listing goes to the output stream after all, and
the configuration is the one beside the input.
-/

namespace Asl

/-! ## What a document asks for -/

/-- **A document holds a value** at an entry of one of its tables. -/
def Toml.Table.Holds (root : Toml.Table) (table name : String) (v : Toml.Value) : Prop :=
  ∃ entries, root.lookup table.toList = some (.table entries) ∧
    entries.lookup name.toList = some v

/-- **Two documents ask for the same**: they hold the same format, as a string,
and the same truth values. -/
structure Toml.Table.Agrees (root root' : Toml.Table) : Prop where
  format : ∀ f, root.Holds "output" "format" (.string f) ↔
    root'.Holds "output" "format" (.string f)
  hidden : ∀ b, root.Holds "output" "hidden" (.boolean b) ↔
    root'.Holds "output" "hidden" (.boolean b)
  keepGoing : ∀ b, root.Holds "lexer" "keep_going" (.boolean b) ↔
    root'.Holds "lexer" "keep_going" (.boolean b)

namespace ListingFormat

theorem ofName?_name (f : ListingFormat) : ofName? f.name = some f := by cases f <;> rfl

theorem ofName?_eq_some_iff {n : Text} {f : ListingFormat} : ofName? n = some f ↔ n = f.name := by
  constructor
  · intro h
    have hf := List.find?_some h
    exact (of_decide_eq_true hf).symm
  · rintro rfl
    exact f.ofName?_name

theorem ofName?_eq_none_iff {n : Text} :
    ofName? n = none ↔ n ≠ "text".toList ∧ n ≠ "json".toList := by
  unfold ofName? all
  rw [List.find?_eq_none]
  simp [name, eq_comm]

end ListingFormat

namespace Config

variable {root root' : Toml.Table}

theorem entry?_eq_some_iff {table name : String} {v : Toml.Value} :
    entry? root table name = some v ↔ root.Holds table name v := by
  unfold entry? Toml.Table.Holds
  split
  · next entries h => simp [h]
  · next h =>
    refine iff_of_false (by simp) ?_
    rintro ⟨entries, hroot, -⟩
    exact h entries hroot

theorem flag?_eq_some_iff {table name : String} {b : Bool} :
    flag? root table name = some b ↔ root.Holds table name (.boolean b) := by
  rw [← entry?_eq_some_iff, flag?]
  split
  · next h => simp [h]
  · next h =>
    refine iff_of_false (by simp) ?_
    exact h b

theorem format?_of_holds {f : Text} (h : root.Holds "output" "format" (.string f)) :
    format? root = match ListingFormat.ofName? f with
      | some g => .ok (some g)
      | none => .error (.unknownFormat f) := by
  cases hn : ListingFormat.ofName? f <;> simp only [format?, entry?_eq_some_iff.2 h, hn]

theorem format?_of_forall_not (h : ∀ f, ¬ root.Holds "output" "format" (.string f)) :
    format? root = .ok none := by
  unfold format?
  split
  · next f he => exact absurd (entry?_eq_some_iff.1 he) (h f)
  · rfl

/-- **A document is refused** exactly for a format that does not exist. -/
theorem ofTable_eq_error_iff {e : ConfigError} :
    ofTable root = .error e ↔ ∃ f, e = .unknownFormat f ∧
      root.Holds "output" "format" (.string f) ∧ f ≠ "text".toList ∧ f ≠ "json".toList := by
  have hmap : ofTable root = .error e ↔ format? root = .error e := by
    unfold ofTable
    cases format? root <;> simp [Except.map]
  rw [hmap]
  constructor
  · intro he
    by_cases hf : ∃ f, root.Holds "output" "format" (.string f)
    · obtain ⟨f, hf⟩ := hf
      rw [format?_of_holds hf] at he
      cases hn : ListingFormat.ofName? f with
      | some g =>
        rw [hn] at he
        cases he
      | none =>
        rw [hn] at he
        cases he
        exact ⟨f, rfl, hf, ListingFormat.ofName?_eq_none_iff.1 hn⟩
    · rw [format?_of_forall_not (not_exists.1 hf)] at he
      cases he
  · rintro ⟨f, rfl, hf, hn⟩
    rw [format?_of_holds hf, ListingFormat.ofName?_eq_none_iff.2 hn]

/-- The format of a document that is not refused. -/
theorem eq_some_iff_of_format? {x : Option ListingFormat} (h : format? root = .ok x)
    (g : ListingFormat) : x = some g ↔ root.Holds "output" "format" (.string g.name) := by
  constructor
  · rintro rfl
    unfold format? at h
    split at h
    · next f he =>
      split at h
      · next g' hn =>
        cases h
        rw [← ListingFormat.ofName?_eq_some_iff.1 hn]
        exact entry?_eq_some_iff.1 he
      · cases h
    · cases h
  · intro hg
    rw [format?_of_holds hg, g.ofName?_name] at h
    exact (Except.ok.inj h).symm

/-- **A configuration is what its document asks for.** -/
theorem of_ofTable_eq_ok {c : Config} (h : ofTable root = .ok c) :
    (∀ f, c.format = some f ↔ root.Holds "output" "format" (.string f.name)) ∧
      (∀ b, c.hidden = some b ↔ root.Holds "output" "hidden" (.boolean b)) ∧
      ∀ b, c.keepGoing = some b ↔ root.Holds "lexer" "keep_going" (.boolean b) := by
  unfold ofTable at h
  cases hf : format? root with
  | error e =>
    rw [hf] at h
    cases h
  | ok x =>
    rw [hf] at h
    cases h
    exact ⟨eq_some_iff_of_format? hf, fun b => flag?_eq_some_iff, fun b => flag?_eq_some_iff⟩

/-- **No entry but the three is looked at.** -/
theorem ofTable_congr (h : root.Agrees root') : ofTable root = ofTable root' := by
  have hformat : format? root = format? root' := by
    by_cases hf : ∃ f, root.Holds "output" "format" (.string f)
    · obtain ⟨f, hf⟩ := hf
      rw [format?_of_holds hf, format?_of_holds ((h.format f).1 hf)]
    · have hf' := not_exists.1 hf
      rw [format?_of_forall_not hf', format?_of_forall_not fun f hg => hf' f ((h.format f).2 hg)]
  have hhidden : flag? root "output" "hidden" = flag? root' "output" "hidden" :=
    Option.ext fun b => by rw [flag?_eq_some_iff, flag?_eq_some_iff, h.hidden]
  have hkeep : flag? root "lexer" "keep_going" = flag? root' "lexer" "keep_going" :=
    Option.ext fun b => by rw [flag?_eq_some_iff, flag?_eq_some_iff, h.keepGoing]
  unfold ofTable
  rw [hformat, hhidden, hkeep]

/-- **The document at a path**: what the file there says, and an empty one
where there is no file. -/
inductive TableAt (files : Files) (path : Path) : Toml.Table → Prop where
  /-- No file. -/
  | absent (h : files.readIfFile path = .ok none) : TableAt files path []
  /-- A file. -/
  | file {contents : Bytes} {t : Text} {root : Toml.Table}
      (h : files.readIfFile path = .ok (some contents)) (hd : Utf8.decode contents = .ok t)
      (hr : Toml.read t = .ok root) : TableAt files path root

theorem TableAt.load_eq {files : Files} {path : Path} (h : TableAt files path root) :
    load files path = (ofTable root).mapError .config := by
  cases h with
  | absent h =>
    rw [load, h]
    rfl
  | file h hd hr => simp only [load, h, ofBytes, hd, hr]

end Config

/-! ## The layers put together -/

/-- **The layer that counts**: what is given, else what is configured, else the
default. -/
inductive Prevails {α : Type} (given : Option α) (configured : α → Prop) (default : α) :
    α → Prop where
  /-- The command line says it. -/
  | given {a : α} (h : given = some a) : Prevails given configured default a
  /-- Only the configuration says it. -/
  | configured {a : α} (hg : given = none) (h : configured a) :
      Prevails given configured default a
  /-- Neither does. -/
  | default (hg : given = none) (h : ∀ a, ¬ configured a) :
      Prevails given configured default default

theorem prevails_getD {α : Type} {c : Option α} {configured : α → Prop}
    (hc : ∀ a, c = some a ↔ configured a) (given : Option α) (default : α) :
    Prevails given configured default ((given.or c).getD default) := by
  cases given with
  | some a => exact .given rfl
  | none =>
    cases c with
    | some a => exact .configured rfl ((hc a).1 rfl)
    | none => exact .default rfl fun a ha => by cases (hc a).2 ha

/-- The path a value names; an empty one names none. -/
def Path.named (t : Option Text) : Option Path := (t.filter (· ≠ [])).map Path.ofText

theorem Path.ofValue?_ofLast (t : Option Text) : Path.ofValue? (.ofLast t) = Path.named t := by
  cases t with
  | none => rfl
  | some t => cases t <;> rfl

namespace CommandLine

/-- **The configuration file**: the last one that is given, and if this is none
or empty, the one of the fixed name beside the input. -/
def configPath (l : CommandLine) : Path :=
  (Path.named (l.last Directive.config?)).getD
    ((Path.ofText l.input.text).parent.child "asllex.toml".toList)

theorem configPath_arguments (l : CommandLine) : Settings.configPath l.arguments = l.configPath := by
  unfold Settings.configPath configPath
  rw [show l.arguments.config = .ofLast _ from rfl, Path.ofValue?_ofLast]
  cases Path.named (l.last Directive.config?) <;> rfl

/-- **The settings of a command line and a document**: for each thing the last
option that concerns it, else the document, else the default. -/
structure Settles (l : CommandLine) (root : Toml.Table) (o : Settings) : Prop where
  input_eq : o.input = Path.ofText l.input.text
  output_eq : o.output = Path.named (l.last Directive.output?)
  format : ∃ f, o.format = some f ∧ Prevails (l.last Directive.format?)
    (fun g => root.Holds "output" "format" (.string g.name)) .text f
  hidden : Prevails (l.last Directive.hidden?)
    (fun b => root.Holds "output" "hidden" (.boolean b)) false o.hidden
  keepGoing : Prevails (l.last Directive.keepGoing?)
    (fun b => root.Holds "lexer" "keep_going" (.boolean b)) false o.keepGoing
  debug_iff : o.debug = true ↔ .debug ∈ l.options

/-- **Two command lines say the same**, in whatever order, if the last options
that concern each thing do; the configuration file apart. -/
structure Alike (l l' : CommandLine) : Prop where
  input_eq : l.input = l'.input
  output_eq : l.last Directive.output? = l'.last Directive.output?
  format_eq : l.last Directive.format? = l'.last Directive.format?
  hidden_eq : l.last Directive.hidden? = l'.last Directive.hidden?
  keepGoing_eq : l.last Directive.keepGoing? = l'.last Directive.keepGoing?
  debug_iff : .debug ∈ l.options ↔ .debug ∈ l'.options

variable {l l' : CommandLine} {files : Files} {root : Toml.Table}

/-- The settings are resolved from the document at the configuration file. -/
theorem resolve_eq (h : Config.TableAt files l.configPath root) :
    Settings.resolve files l.arguments
      = ((Config.ofTable root).mapError .config).map fun c => Settings.merge c l.arguments := by
  rw [Settings.resolve, configPath_arguments, h.load_eq]

theorem resolve_eq_error_iff (h : Config.TableAt files l.configPath root) {e : SettingsError} :
    Settings.resolve files l.arguments = .error e ↔
      ∃ d, Config.ofTable root = .error d ∧ e = .config d := by
  rw [resolve_eq h]
  cases Config.ofTable root with
  | error d =>
    show Except.error (SettingsError.config d) = _ ↔ _
    simp [eq_comm]
  | ok c => exact iff_of_false (by rintro ⟨⟩) (by rintro ⟨d, ⟨⟩, -⟩)

theorem merge_congr (h : l.Alike l') (c : Config) :
    Settings.merge c l.arguments = Settings.merge c l'.arguments := by
  have hdebug : decide (.debug ∈ l.options) = decide (.debug ∈ l'.options) :=
    decide_eq_decide.2 h.debug_iff
  unfold Settings.merge arguments
  rw [h.input_eq, h.output_eq, h.format_eq, h.hidden_eq, h.keepGoing_eq, hdebug]

/-- The layers put together are the settings. -/
theorem settles_merge {c : Config} (h : Config.ofTable root = .ok c) :
    l.Settles root (Settings.merge c l.arguments) := by
  obtain ⟨hformat, hhidden, hkeep⟩ := Config.of_ofTable_eq_ok h
  refine ⟨rfl, Path.ofValue?_ofLast _, ⟨_, ?_, prevails_getD hformat _ _⟩,
    prevails_getD hhidden _ _, prevails_getD hkeep _ _, decide_eq_true_iff⟩
  show Settings.mergeFormat c (.ofLast (l.last Directive.format?)) = _
  cases l.last Directive.format? <;> rfl

end CommandLine

/-- **Which settings a command line and a configuration come to.** A command
line of options spelled in full, in any number and order, around one input is
understood. With the document at its configuration file, it is refused exactly
if the document names a format that does not exist, whatever the command line
says of the format. Otherwise each setting is what the last option that
concerns it says, else what the document holds, if it sits in its table and is
of its type, else the default. Nothing else in the document and no other order
of the options makes a difference. -/
theorem settings_precedence {l : CommandLine} {files : Files} {root : Toml.Table}
    (h : Config.TableAt files l.configPath root) :
    ∃ a, Arguments.parse l.words = .ok a ∧
      (∀ e, Settings.resolve files a = .error e ↔ ∃ f, e = .config (.unknownFormat f) ∧
        root.Holds "output" "format" (.string f) ∧ f ≠ "text".toList ∧ f ≠ "json".toList) ∧
      ((¬ ∃ f, root.Holds "output" "format" (.string f) ∧
          f ≠ "text".toList ∧ f ≠ "json".toList) →
        ∃ o, Settings.resolve files a = .ok o ∧ l.Settles root o) ∧
      ∀ l' files' root', Config.TableAt files' (CommandLine.configPath l') root' →
        l.Alike l' → root.Agrees root' →
        ∃ a', Arguments.parse l'.words = .ok a' ∧
          Settings.resolve files' a' = Settings.resolve files a := by
  refine ⟨l.arguments, l.parse_words, fun e => ?_, fun hf => ?_,
    fun l' files' root' h' hl hr => ⟨l'.arguments, l'.parse_words, ?_⟩⟩
  · rw [CommandLine.resolve_eq_error_iff h]
    constructor
    · rintro ⟨d, hd, rfl⟩
      obtain ⟨f, rfl, hf⟩ := Config.ofTable_eq_error_iff.1 hd
      exact ⟨f, rfl, hf⟩
    · rintro ⟨f, rfl, hf⟩
      exact ⟨_, Config.ofTable_eq_error_iff.2 ⟨f, rfl, hf⟩, rfl⟩
  · cases hc : Config.ofTable root with
    | error d =>
      obtain ⟨f, -, hd⟩ := Config.ofTable_eq_error_iff.1 hc
      exact absurd ⟨f, hd⟩ hf
    | ok c =>
      refine ⟨_, ?_, CommandLine.settles_merge hc⟩
      rw [CommandLine.resolve_eq h, hc]
      rfl
  · rw [CommandLine.resolve_eq h, CommandLine.resolve_eq h', Config.ofTable_congr hr,
      funext (CommandLine.merge_congr hl)]

/-- A command line that takes back what it says, with empty paths at the end,
and a document beside its input with a flag that is no truth value. -/
theorem settings_precedence_takenBack :
    let l : CommandLine :=
      ⟨[.hidden true, .config ⟨"other".toList, by decide⟩, .format .json, .config ⟨[], by decide⟩],
        ⟨"a/x".toList, by decide⟩,
        [.output false ⟨"out".toList, by decide⟩, .format .text, .output true ⟨[], by decide⟩]⟩
    let document :=
      "[output]\nformat = 'json'\nhidden = true\n[lexer]\nkeep_going = 1\n".toList
    let files := FileTree.view ⟨[["a".toList]], [(["a".toList, "asllex.toml".toList],
      Utf8.encode document)]⟩
    l.words = ["--hidden".toList, "--config".toList, "other".toList, "--format".toList,
        "json".toList, "--config".toList, [], "a/x".toList, "-o".toList, "out".toList,
        "--format".toList, "text".toList, "--output".toList, []] ∧
      ∃ root a o, Config.TableAt files l.configPath root ∧ Arguments.parse l.words = .ok a ∧
        Settings.resolve files a = .ok o ∧ l.Settles root o ∧
        o = ⟨⟨0, ["a".toList, "x".toList]⟩, none, some .text, true, false, false⟩ := by
  intro l document files
  refine ⟨by decide, ?_⟩
  have hread : files.readIfFile l.configPath = .ok (some (Utf8.encode document)) := by
    decide +kernel
  have hdecode : Utf8.decode (Utf8.encode document) = .ok document := by decide +kernel
  obtain ⟨root, hroot⟩ : ∃ root, Toml.read document = .ok root := by
    have hok : (Toml.read document).isOk = true := by decide +kernel
    cases hr : Toml.read document with
    | ok root => exact ⟨root, rfl⟩
    | error e =>
      rw [hr] at hok
      cases hok
  have htable : Config.TableAt files l.configPath root := .file hread hdecode hroot
  have hall : ((Arguments.parse l.words).toOption.bind fun a => (Settings.resolve files a).toOption)
      = some ⟨⟨0, ["a".toList, "x".toList]⟩, none, some .text, true, false, false⟩ := by
    decide +kernel
  obtain ⟨a, ha, hrefused, hsettled, -⟩ := settings_precedence htable
  rw [ha] at hall
  change (Settings.resolve files a).toOption = _ at hall
  have hknown : ¬ ∃ f, root.Holds "output" "format" (.string f) ∧
      f ≠ "text".toList ∧ f ≠ "json".toList := by
    rintro ⟨f, hf⟩
    rw [(hrefused _).2 ⟨f, rfl, hf⟩] at hall
    cases hall
  obtain ⟨o, ho, hsettles⟩ := hsettled hknown
  rw [ho] at hall
  exact ⟨root, a, o, htable, ha, ho, hsettles, Option.some.inj hall⟩

end Asl
