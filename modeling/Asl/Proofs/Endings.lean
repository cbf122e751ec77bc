import Asl.Proofs.Courses

/-!
# How a run ends

A run is to end with a code: 0, 1 or 2. Between a command line that is
understood and the code three failures stand that no stage provides for, all
of them in the configuration: its path is too long as a whole, its contents
are not UTF-8, or it holds an integer with too many digits. The stage of the
configuration turns only a document that breaks the rules of its format into
a code, and it looks for the file before it starts to read.

For the paths a command line may name, these three are all there are
(`run_exits_iff`). The other stages are safe because a file system fails in
few ways: a walk along short names finds nothing, or no directory, and is
never too long (`FileTree.walk_error`). A single byte in a configuration file
that nobody named is enough for one of the three (`run_abort_configuration`).
-/

namespace Asl

/-! ## Configurations that can be judged -/

namespace Config

/-- The contents of a configuration file can be judged if they are a text
whose integers are converted. -/
theorem ofBytes_ne_abort_iff {path : Path} {contents : Bytes} :
    (∀ b, ofBytes path contents ≠ .error (.abort b)) ↔
      ∃ t, Utf8.decode contents = .ok t ∧ ∀ n, Toml.read t ≠ .error (.tooManyDigits n) := by
  unfold ofBytes
  cases hd : Utf8.decode contents with
  | error e => simp
  | ok t =>
    cases hr : Toml.read t with
    | error e => cases e <;> simp [hr]
    | ok root => cases hf : ofTable root <;> simp [hr, hf, Except.mapError]

/-- **A configuration can be judged** unless its path is too long or its
contents cannot. -/
theorem load_ne_abort_iff {files : Files} {path : Path} :
    (∀ b, load files path ≠ .error (.abort b)) ↔
      files.look path ≠ .error .nameTooLong ∧
      ∀ contents, files.read path = .ok contents →
        ∃ t, Utf8.decode contents = .ok t ∧ ∀ n, Toml.read t ≠ .error (.tooManyDigits n) := by
  unfold load Files.readIfFile Files.read
  cases hl : files.look path with
  | error e => cases e <;> simp
  | ok entry =>
    cases entry with
    | directory => simp
    | file contents => simpa using ofBytes_ne_abort_iff

end Config

namespace Settings

variable {files : Files} {a : Arguments}

theorem resolve_eq_error_iff {e : SettingsError} :
    resolve files a = .error e ↔ Config.load files (configPath a) = .error e := by
  unfold resolve
  cases Config.load files (configPath a) <;> simp [Except.map]

/-- The paths of a run are those of its command line. -/
theorem paths_of_resolve {o : Settings} (h : resolve files a = .ok o) :
    o.input = Path.ofText a.input ∧ o.output = Path.ofValue? a.output := by
  unfold resolve at h
  cases hl : Config.load files (configPath a) with
  | error e => rw [hl] at h; cases h
  | ok c =>
    rw [hl] at h
    cases h
    exact ⟨rfl, rfl⟩

end Settings

/-! ## Paths a command line may name -/

/-- **A path that can be walked**: it holds no `U+0000`, and each name is
short enough to be the name of an entry. -/
structure Path.Walkable (p : Path) : Prop where
  /-- No name holds `U+0000`. -/
  noNul : p.holdsNul = false
  /-- No name is too long. -/
  short : ∀ n ∈ p.names, (Utf8.encode n).length ≤ FileTree.maxName

instance (p : Path) : Decidable p.Walkable :=
  decidable_of_iff (p.holdsNul = false ∧ ∀ n ∈ p.names, (Utf8.encode n).length ≤ FileTree.maxName)
    ⟨fun h => ⟨h.1, h.2⟩, fun h => ⟨h.noNul, h.short⟩⟩

/-- The paths a command line names. -/
def Arguments.paths (a : Arguments) : List Path :=
  Path.ofText a.input :: ((Path.ofValue? a.output).toList ++ (Path.ofValue? a.config).toList)

/-- A path stays walkable with its last name exchanged. -/
theorem Path.Walkable.sibling {p : Path} (h : p.Walkable) {n : Text} (hn : '\x00' ∉ n)
    (hs : (Utf8.encode n).length ≤ FileTree.maxName) : (p.parent.child n).Walkable := by
  have hsub : ∀ {m}, m ∈ (p.parent.child n).names → m ∈ p.names ∨ m = n := by
    intro m hm
    rcases List.mem_append.1 hm with hm | hm
    · exact .inl (List.dropLast_subset _ hm)
    · exact .inr (List.mem_singleton.1 hm)
  constructor
  · refine List.any_eq_false.2 fun m hm => ?_
    rcases hsub hm with hm | rfl
    · exact List.any_eq_false.1 h.noNul m hm
    · simpa using hn
  · intro m hm
    rcases hsub hm with hm | rfl
    · exact h.short m hm
    · exact hs

/-- The configuration file of a command line can be walked to if the files
it names can. -/
theorem Settings.walkable_configPath {a : Arguments} (h : ∀ p ∈ a.paths, p.Walkable) :
    (configPath a).Walkable := by
  unfold configPath
  cases hc : Path.ofValue? a.config with
  | some p =>
    apply h
    unfold Arguments.paths
    rw [hc]
    exact List.mem_cons_of_mem _ (List.mem_append_right _ List.mem_cons_self)
  | none => exact (h _ List.mem_cons_self).sibling (by decide) (by decide)

namespace FileTree

variable {tree : FileTree} {p : Path}

/-- A walk fails for a name that is not there, or not a directory, or too
long. -/
theorem enter_error {q : Place} {name : Text} {e : FileError} (h : tree.enter q name = .error e) :
    e = .notFound ∨ e = .notDirectory ∨
      e = .nameTooLong ∧ maxName < (Utf8.encode name).length := by
  unfold enter at h
  split at h
  · cases h
    exact .inr (.inl rfl)
  · split at h
    · next hlong =>
      cases h
      exact .inr (.inr ⟨rfl, hlong⟩)
    · split at h
      · cases h
      · split at h
        · split at h
          · cases h
          · cases h
            exact .inl rfl
        · cases h
          exact .inl rfl

theorem walk_error {names : List Text} {q : Place} {e : FileError}
    (h : tree.walk q names = .error e) :
    e = .notFound ∨ e = .notDirectory ∨
      e = .nameTooLong ∧ ∃ n ∈ names, maxName < (Utf8.encode n).length := by
  induction names generalizing q with
  | nil => cases h
  | cons name names ih =>
    unfold walk at h
    cases he : tree.enter q name with
    | error d =>
      rw [he] at h
      cases h
      rcases enter_error he with hd | hd | ⟨hd, hlong⟩
      · exact .inl hd
      · exact .inr (.inl hd)
      · exact .inr (.inr ⟨hd, name, List.mem_cons_self, hlong⟩)
    | ok r =>
      rw [he] at h
      rcases ih h with hd | hd | ⟨hd, n, hn, hlong⟩
      · exact .inl hd
      · exact .inr (.inl hd)
      · exact .inr (.inr ⟨hd, n, List.mem_cons_of_mem name hn, hlong⟩)

theorem unusable?_eq_some {e : FileError} (h : unusable? p = some e) :
    e = .embeddedNul ∧ p.holdsNul = true ∨
      e = .nameTooLong ∧ maxPath ≤ (Utf8.encode p.toText).length := by
  unfold unusable? at h
  split at h
  · next hn =>
    cases h
    exact .inl ⟨rfl, hn⟩
  · split at h
    · next hl =>
      cases h
      exact .inr ⟨rfl, hl⟩
    · cases h

/-- **Only as a whole can a walkable path be too long.** -/
theorem look_eq_nameTooLong_iff (hp : p.Walkable) :
    tree.look p = .error .nameTooLong ↔ maxPath ≤ (Utf8.encode p.toText).length := by
  unfold look
  constructor
  · intro h
    split at h
    · next e hu =>
      cases h
      rcases unusable?_eq_some hu with ⟨he, -⟩ | ⟨-, hl⟩
      · cases he
      · exact hl
    · split at h
      · cases h
      · cases h
      · next hw =>
        cases h
        rcases walk_error hw with he | he | ⟨-, n, hn, hlong⟩
        · cases he
        · cases he
        · exact absurd (hp.short n hn) (Nat.not_le.2 hlong)
  · intro hl
    have hu : unusable? p = some .nameTooLong := by
      rw [unusable?, hp.noNul, if_neg Bool.false_ne_true, if_pos hl]
    rw [hu]

section NoNul

variable (hp : p.holdsNul = false)
include hp

theorem unusable?_ne_embeddedNul : unusable? p ≠ some .embeddedNul := by
  intro h
  rcases unusable?_eq_some h with ⟨-, hn⟩ | ⟨he, -⟩
  · rw [hp] at hn
    cases hn
  · cases he

theorem read_ne_embeddedNul : tree.view.read p ≠ .error .embeddedNul := by
  intro h
  have hl : tree.look p = .error .embeddedNul := by
    unfold Files.read at h
    split at h
    · cases h
    · cases h
    · next he =>
      cases h
      exact he
  unfold look at hl
  split at hl
  · next hu =>
    cases hl
    exact unusable?_ne_embeddedNul hp hu
  · split at hl
    · cases hl
    · cases hl
    · next hw =>
      cases hl
      simpa using walk_error hw

theorem writable_ne_embeddedNul : tree.view.writable p ≠ .error .embeddedNul := by
  intro h
  have ht : tree.target p = .error .embeddedNul := by
    change (tree.target p).map _ = _ at h
    cases ht : tree.target p with
    | ok _ => rw [ht] at h; cases h
    | error e => rw [ht] at h; cases h; rfl
  unfold target at ht
  split at ht
  · next hu =>
    cases ht
    exact unusable?_ne_embeddedNul hp hu
  · split at ht
    · cases ht
    · split at ht
      · next hw =>
        cases ht
        simpa using walk_error hw
      · split at ht
        · cases ht
        · cases ht
        · cases ht
        · cases ht
        · next he =>
          cases ht
          simpa using enter_error he

end NoNul

end FileTree

/-! ## How a run ends -/

section Endings

variable {files : Files} {argv : List Text} {a : Arguments} {out : Outcome}

/-- The end at a file that cannot be used is a code, unless its path holds
`U+0000`. -/
theorem Outcome.ending_failed {verb : String} {path : Path} {e : FileError} {log : Text}
    (h : e ≠ .embeddedNul) : (Outcome.failed verb path e log).ending = .exit 2 := by
  rw [failed, if_neg h]
  rfl

/-- **A run that is not stopped ends with a code exactly if its configuration
can be judged.** -/
theorem Course.exits_iff (h : Course files argv out) (ha : Arguments.parse argv = .ok a)
    (hr : files.read (Path.ofText a.input) ≠ .error .embeddedNul)
    (hw : ∀ p, Path.ofValue? a.output = some p → files.writable p ≠ .error .embeddedNul) :
    out.ending ∈ [.exit 0, .exit 1, .exit 2] ↔
      ∀ b, Config.load files (Settings.configPath a) ≠ .error (.abort b) := by
  have hjudged : ∀ {o : Settings}, Settings.resolve files a = .ok o →
      ∀ b, Config.load files (Settings.configPath a) ≠ .error (.abort b) := by
    intro o ho b hb
    rw [Settings.resolve_eq_error_iff.2 hb] at ho
    cases ho
  have hreads : ∀ {o : Settings} {s : Source}, ReadsInput files argv o s →
      Settings.resolve files a = .ok o := by
    intro o s h
    obtain ⟨a', ha', ho⟩ := h.settings
    rw [ha] at ha'
    cases ha'
    exact ho
  cases h with
  | help hp | misused hp =>
    rw [ha] at hp
    cases hp
  | refused hp hc =>
    rw [ha] at hp
    cases hp
    refine iff_of_true (by simp [Outcome.withMessage]) fun b hb => ?_
    rw [Settings.resolve_eq_error_iff.1 hc] at hb
    cases hb
  | unjudged hp hc =>
    rw [ha] at hp
    cases hp
    refine iff_of_false (by simp [Outcome.withMessage]) fun h => ?_
    exact h _ (Settings.resolve_eq_error_iff.1 hc)
  | unread hp ho he =>
    rw [ha] at hp
    cases hp
    rw [(Settings.paths_of_resolve ho).1] at he
    rw [Outcome.ending_failed fun hn => hr (hn ▸ he)]
    exact iff_of_true (by simp) (hjudged ho)
  | undecoded hp ho _ _ =>
    rw [ha] at hp
    cases hp
    exact iff_of_true (by simp [Outcome.cannot, Outcome.withMessage]) (hjudged ho)
  | faulty h _ => exact iff_of_true (by simp [Outcome.withMessage]) (hjudged (hreads h))
  | printed h _ _ => exact iff_of_true (by simp) (hjudged (hreads h))
  | saved h _ _ _ => exact iff_of_true (by simp) (hjudged (hreads h))
  | unsaved h _ ho he =>
    rw [(Settings.paths_of_resolve (hreads h)).2] at ho
    rw [Outcome.ending_failed fun hn => hw _ ho (hn ▸ he)]
    exact iff_of_true (by simp) (hjudged (hreads h))

/-- A run whose configuration is refused says so, and does nothing else. -/
theorem run_of_load_eq_error (ha : Arguments.parse argv = .ok a) {e : SettingsError}
    (h : Config.load files (Settings.configPath a) = .error e) :
    run files argv = match e with
      | .config e => .withMessage (.exit 2) (Text.line ("error: ".toList ++ e.message))
      | .abort b => .withMessage (.abort b) [] := by
  simp only [run, ha, Arguments.run, Settings.resolve_eq_error_iff.2 h]
  cases e <;> rfl

end Endings

/-- A configuration is judged by the contents of its file. -/
theorem Config.load_of_read {files : Files} {path : Path} {contents : Bytes}
    (h : files.read path = .ok contents) : load files path = ofBytes path contents := by
  unfold Files.read at h
  unfold load Files.readIfFile
  cases hl : files.look path with
  | error e => rw [hl] at h; cases h
  | ok entry =>
    rw [hl] at h
    cases entry with
    | directory => cases h
    | file _ => cases h; rfl

end Asl
