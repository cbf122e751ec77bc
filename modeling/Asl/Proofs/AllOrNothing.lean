import Asl.Proofs.Courses

/-!
# All or nothing

A run either delivers its listing as a whole, in one place, or it leaves
everything as it was and says why. The courses of a run make this a matter of
reading them one by one, but for two things.

The first is what it means that a file is written. A path is a way through
the tree, not a key of it, so it has to be shown that the way still leads
where it led, now to the file that was written, and that no other file has
changed (`FileTree.saved_write`). A write could bar its own way only if it put
a file where the way passes through a directory, and a path whose way passes
through its own end cannot be written in the first place.

The second is that the options have no say in the verdict. Whether a run ends
with code 1 is decided by the source, and so is the error it reports first;
the source is what the input says, and the options only choose how much is
told and in which words (`run_all_or_nothing`).
-/

namespace Asl

/-! ## A file that was written -/

namespace FileTree

variable {tree : FileTree} {p : Path} {names : List Text}

/-- Entries taken out of a list are not missed under other names. -/
theorem lookup_filter_ne (fs : List (List Text × Bytes)) {m : List Text} (h : m ≠ names) :
    (fs.filter fun f => f.1 ≠ names).lookup m = fs.lookup m := by
  induction fs with
  | nil => rfl
  | cons f fs ih =>
    obtain ⟨k, contents⟩ := f
    by_cases hk : k = names
    · have hm : (m == k) = false := by rw [hk, beq_eq_false_iff_ne]; exact h
      rw [List.filter_cons_of_neg (by simpa using hk), ih, List.lookup_cons, hm]
    · rw [List.filter_cons_of_pos (by simpa using hk), List.lookup_cons, List.lookup_cons, ih]

theorem eq_of_place?_file {m : List Text} {contents : Bytes}
    (h : tree.place? names = some (.file m contents)) : m = names := by
  unfold place? at h
  split at h
  · cases h
    rfl
  · split at h <;> cases h

/-- **A name that is looked up** is short and does not lead up. -/
structure Named (name : Text) : Prop where
  /-- The name is not too long. -/
  short : (Utf8.encode name).length ≤ maxName
  /-- The name does not lead up. -/
  down : name ≠ ['.', '.']

theorem Named.enter_eq {name : Text} (h : Named name) (tree : FileTree) (dir : List Text) :
    tree.enter (.inside dir) name = (tree.place? (dir ++ [name])).elim (.error .notFound) .ok := by
  simp only [enter, if_neg (Nat.not_lt.2 h.short), if_neg h.down]
  cases tree.place? (dir ++ [name]) <;> rfl

/-- The way up is the same in every tree. -/
theorem enter_up {q : Place} (hq : ∀ m contents, q ≠ .file m contents) (tree : FileTree) :
    tree.enter q ['.', '.'] = .ok (up q) := by
  cases q with
  | file m contents => exact absurd rfl (hq m contents)
  | outside => rfl
  | inside dir => rfl

/-- **A step leads up, or to what is found under a name.** -/
theorem enter_eq_ok {q r : Place} {name : Text} (h : tree.enter q name = .ok r) :
    (name = ['.', '.'] ∧ (∀ m contents, q ≠ .file m contents) ∧ r = up q) ∨
      Named name ∧ ∃ dir, q = .inside dir ∧ tree.place? (dir ++ [name]) = some r := by
  have hq : ∀ m contents, q ≠ .file m contents := by
    rintro m contents rfl
    cases h
  by_cases hu : name = ['.', '.']
  · subst hu
    rw [enter_up hq] at h
    cases h
    exact .inl ⟨rfl, hq, rfl⟩
  · by_cases hs : (Utf8.encode name).length ≤ maxName
    · cases q with
      | file m contents => exact absurd rfl (hq m contents)
      | outside =>
        simp only [enter, if_neg (Nat.not_lt.2 hs), if_neg hu] at h
        cases h
      | inside dir =>
        rw [Named.enter_eq ⟨hs, hu⟩] at h
        cases hp : tree.place? (dir ++ [name]) with
        | none => rw [hp] at h; cases h
        | some q =>
          rw [hp] at h
          cases h
          exact .inr ⟨⟨hs, hu⟩, dir, rfl, hp⟩
    · cases q <;> simp only [enter, if_pos (Nat.not_le.1 hs)] at h <;> cases h

theorem up_ne_file (q : Place) (m : List Text) (contents : Bytes) : up q ≠ .file m contents := by
  unfold up
  split <;> simp

/-- **The way to a file inside**: through a directory to a name under which
there is no directory. -/
structure LeadsTo (tree : FileTree) (p : Path) (dir : List Text) (name : Text) : Prop where
  /-- The path can be used. -/
  usable : unusable? p = none
  /-- The name is the last of the path. -/
  last : p.names.getLast? = some name
  /-- The other names lead to the directory. -/
  walk : tree.walk (origin p) p.names.dropLast = .ok (.inside dir)
  /-- The name is looked up there. -/
  named : Named name
  /-- What is found is no directory. -/
  free : ∀ q, tree.place? (dir ++ [name]) = some q → ∃ m contents, q = .file m contents

theorem leadsTo_of_target (h : tree.target p = .ok (some names)) :
    ∃ dir name, tree.LeadsTo p dir name ∧ names = dir ++ [name] := by
  unfold target at h
  split at h
  · cases h
  · next hu =>
    split at h
    · cases h
    · next name hl =>
      split at h
      · cases h
      · next dir hw =>
        split at h
        · next m contents he =>
          cases h
          -- there is a file already
          rcases enter_eq_ok he with ⟨-, -, hup⟩ | ⟨hn, d, rfl, hq⟩
          · exact absurd hup.symm (up_ne_file _ names contents)
          · refine ⟨d, name, ⟨hu, hl, hw, hn, fun q hq' => ?_⟩, eq_of_place?_file hq⟩
            rw [hq] at hq'
            cases hq'
            exact ⟨_, _, rfl⟩
        · cases h
        · next d he =>
          cases h
          -- the file is new
          have hn : Named name := by
            simp only [enter] at he
            split at he
            · cases he
            · next hs =>
              split at he
              · cases he
              · next hd => exact ⟨Nat.not_lt.1 hs, hd⟩
          refine ⟨d, name, ⟨hu, hl, hw, hn, fun q hq => ?_⟩, rfl⟩
          rw [hn.enter_eq, hq] at he
          cases he
        · cases h
        · cases h

/-! ### The tree after a write -/

section Write

variable (h : tree.target p = .ok (some names)) (t : Text)
include h

theorem write_eq : tree.write p t
    = { tree with files := (names, Utf8.encode t) :: tree.files.filter fun f => f.1 ≠ names } := by
  rw [write, h]

/-- **One file is written, and no other is changed.** -/
theorem lookup_write (m : List Text) :
    (tree.write p t).files.lookup m
      = if m = names then some (Utf8.encode t) else tree.files.lookup m := by
  rw [write_eq h]
  show List.lookup m ((names, Utf8.encode t) :: _) = _
  rw [List.lookup_cons]
  by_cases hm : m = names
  · rw [if_pos hm, hm, beq_self_eq_true]
  · have hb : (m == names) = false := beq_eq_false_iff_ne.2 hm
    rw [if_neg hm, hb]
    exact lookup_filter_ne _ hm

theorem place?_write (m : List Text) :
    (tree.write p t).place? m
      = if m = names then some (.file names (Utf8.encode t)) else tree.place? m := by
  have hd : (tree.write p t).directories = tree.directories := by rw [write_eq h]
  unfold place?
  rw [lookup_write h, hd]
  by_cases hm : m = names
  · rw [if_pos hm, if_pos hm, hm]
  · rw [if_neg hm, if_neg hm]

/-- A step to a directory is not barred by a file that is written. -/
theorem enter_write {q r : Place} {name : Text}
    (hfree : ∀ q, tree.place? names = some q → ∃ m contents, q = .file m contents)
    (he : tree.enter q name = .ok r) (hr : ∀ m contents, r ≠ .file m contents) :
    (tree.write p t).enter q name = .ok r := by
  rcases enter_eq_ok he with ⟨rfl, hq, rfl⟩ | ⟨hn, dir, rfl, hq⟩
  · exact enter_up hq _
  · have hne : dir ++ [name] ≠ names := by
      intro heq
      rw [heq] at hq
      obtain ⟨m, contents, rfl⟩ := hfree r hq
      exact hr m contents rfl
    rw [hn.enter_eq, place?_write h, if_neg hne, hq]
    rfl

/-- A way to a directory is not barred by a file that is written. -/
theorem walk_write {ns : List Text} {q r : Place}
    (hfree : ∀ q, tree.place? names = some q → ∃ m contents, q = .file m contents)
    (hw : tree.walk q ns = .ok r) (hr : ∀ m contents, r ≠ .file m contents) :
    (tree.write p t).walk q ns = .ok r := by
  induction ns generalizing q with
  | nil => exact hw
  | cons n ns ih =>
    unfold walk at hw ⊢
    cases he : tree.enter q n with
    | error e => rw [he] at hw; cases hw
    | ok q' =>
      rw [he] at hw
      have hq' : ∀ m contents, q' ≠ .file m contents := by
        rintro m contents rfl
        -- from a file no step leads on
        cases ns with
        | nil => cases hw; exact hr m contents rfl
        | cons n' ns => cases hw
      rw [enter_write h t hfree he hq']
      exact ih hw

end Write

theorem walk_append (tree : FileTree) (q : Place) (ms ns : List Text) :
    tree.walk q (ms ++ ns) = (tree.walk q ms).bind fun r => tree.walk r ns := by
  induction ms generalizing q with
  | nil => rfl
  | cons m ms ih =>
    rw [List.cons_append, walk, walk]
    cases tree.enter q m with
    | error e => rfl
    | ok r => exact ih r

/-- **What was written is found where it was written.** -/
theorem look_write (h : tree.target p = .ok (some names)) (t : Text) :
    (tree.write p t).look p = .ok (.file (Utf8.encode t)) := by
  obtain ⟨dir, name, hl, rfl⟩ := leadsTo_of_target h
  have hlast : (tree.write p t).walk (.inside dir) [name]
      = .ok (.file (dir ++ [name]) (Utf8.encode t)) := by
    unfold walk
    rw [hl.named.enter_eq, place?_write h, if_pos rfl]
    rfl
  have hw : (tree.write p t).walk (origin p) p.names
      = .ok (.file (dir ++ [name]) (Utf8.encode t)) := by
    obtain ⟨ns, hns⟩ := List.getLast?_eq_some_iff.1 hl.last
    have hdir := walk_write h t hl.free hl.walk (by simp)
    rw [hns, List.dropLast_concat] at hdir
    rw [hns, walk_append, hdir]
    exact hlast
  unfold look
  rw [hl.usable, hw]

/-- **A text saved at a path**: one file holds it, every other file is what it
was, and the path leads to it. A file outside the working directory is none of
these files, and nothing is known of what it holds. -/
structure Saved (tree : FileTree) (p : Path) (t : Text) (tree' : FileTree) : Prop where
  /-- The directories are what they were. -/
  directories : tree'.directories = tree.directories
  /-- The file at the place of the path holds the text, and no other file is
  changed. -/
  files : ∃ place, tree.target p = .ok place ∧ ∀ names, tree'.files.lookup names
    = if some names = place then some (Utf8.encode t) else tree.files.lookup names
  /-- Inside, the path leads to the text. -/
  found : tree.target p ≠ .ok none → tree'.look p = .ok (.file (Utf8.encode t))

theorem saved_write (h : tree.view.writable p = .ok ()) (t : Text) :
    tree.Saved p t (tree.write p t) := by
  change (tree.target p).map _ = _ at h
  cases ht : tree.target p with
  | error e => rw [ht] at h; cases h
  | ok place =>
    cases place with
    | none =>
      have hw : tree.write p t = tree := by rw [write, ht]
      rw [hw]
      exact ⟨rfl, ⟨none, ht, fun names => by rw [if_neg (Option.some_ne_none names)]⟩,
        fun hn => absurd ht hn⟩
    | some names =>
      refine ⟨by rw [write_eq ht], ⟨some names, ht, fun m => ?_⟩, fun _ => look_write ht t⟩
      simp only [Option.some.injEq]
      exact lookup_write ht t m

/-- The tree after a run: what the run writes is written, and nothing else. -/
def after (tree : FileTree) (out : Outcome) : FileTree :=
  match out.written with
  | none => tree
  | some (p, t) => tree.write p t

end FileTree

/-! ## The effects of a run -/

section Effects

variable {files : Files} {argv : List Text} {out : Outcome}

@[simp] theorem Outcome.stdout_failed (verb : String) (p : Path) (e : FileError) (log : Text) :
    (Outcome.failed verb p e log).stdout = [] := by
  unfold failed
  split <;> rfl

@[simp] theorem Outcome.written_failed (verb : String) (p : Path) (e : FileError) (log : Text) :
    (Outcome.failed verb p e log).written = none := by
  unfold failed
  split <;> rfl

theorem Outcome.ending_failed_ne (verb : String) (p : Path) (e : FileError) (log : Text) :
    (Outcome.failed verb p e log).ending ≠ .exit 0 ∧
      (Outcome.failed verb p e log).ending ≠ .exit 1 := by
  unfold failed
  split <;> exact ⟨by simp [cannot, withMessage], by simp [cannot, withMessage]⟩

/-- **A run that does not end with 0 shows nothing but messages**, help
apart. -/
theorem Course.nothing (h : Course files argv out) (he : out.ending ≠ .exit 0) :
    out.written = none ∧ (out.ending ≠ .stopped 0 → out.stdout = []) := by
  cases h with
  | help _ => exact ⟨rfl, fun hs => absurd rfl hs⟩
  | misused _ | refused _ _ | unjudged _ _ | undecoded _ _ _ _ | faulty _ _ =>
    exact ⟨rfl, fun _ => rfl⟩
  | unread _ _ _ | unsaved _ _ _ _ => simp
  | printed _ _ _ | saved _ _ _ _ => exact absurd rfl he

/-- **A run that ends with 0 has delivered the listing of its source**, in one
place. -/
theorem Course.all (h : Course files argv out) (he : out.ending = .exit 0) :
    ∃ o s, ReadsInput files argv o s ∧ s.survey.errors = [] ∧
      out.stderr = o.shownLog [o.openingLog s.text] ∧
      match o.output with
      | none => out.stdout = o.listing s ∧ out.written = none
      | some p =>
        out.stdout = [] ∧ files.writable p = .ok () ∧ out.written = some (p, o.listing s) := by
  cases h with
  | help _ | misused _ | refused _ _ | unjudged _ _ | undecoded _ _ _ _ | faulty _ _ => cases he
  | unread _ _ _ | unsaved _ _ _ _ => exact absurd he (Outcome.ending_failed_ne ..).1
  | @printed o s h hs ho => exact ⟨o, s, h, hs, rfl, by rw [ho]; exact ⟨rfl, rfl⟩⟩
  | @saved o s p h hs ho hw => exact ⟨o, s, h, hs, rfl, by rw [ho]; exact ⟨rfl, hw, rfl⟩⟩

end Effects

/-! ## The verdict on a source -/

section Verdict

variable {files : Files} {argv : List Text} {o : Settings} {s : Source}

/-- **The source of a run is what its input says**, whatever the options. -/
theorem ReadsInput.source_unique {argv' : List Text} {o' : Settings} {s' : Source}
    (h : ReadsInput files argv o s) (h' : ReadsInput files argv' o' s')
    (hi : o'.input = o.input) : s' = s := by
  obtain ⟨contents, hc, ht⟩ := h.text
  obtain ⟨contents', hc', ht'⟩ := h'.text
  rw [hi, hc] at hc'
  cases hc'
  rw [ht] at ht'
  have hn : s'.name = s.name := by rw [h'.name, hi, h.name]
  cases s
  cases s'
  cases hn
  cases ht'
  rfl

/-- **The source alone decides whether a run ends with 1.** -/
theorem ReadsInput.exit_one_iff (h : ReadsInput files argv o s) :
    (run files argv).ending = .exit 1 ↔ s.survey.errors ≠ [] := by
  constructor
  · intro hrun he
    rw [h.run_of_errors_eq_nil he] at hrun
    cases ho : o.output with
    | none =>
      rw [Settings.deliver, ho] at hrun
      cases hrun
    | some p =>
      rw [Settings.deliver_of_output ho] at hrun
      cases hw : files.writable p with
      | ok _ => rw [hw] at hrun; cases hrun
      | error e =>
        rw [hw] at hrun
        exact (Outcome.ending_failed_ne ..).2 hrun
  · intro he
    rw [h.run_of_errors_ne_nil he]
    rfl

/-- A run that can write where it is to write ends with 0 exactly if its
source has no error. -/
theorem ReadsInput.exit_zero_iff (h : ReadsInput files argv o s)
    (hw : ∀ p, o.output = some p → files.writable p = .ok ()) :
    (run files argv).ending = .exit 0 ↔ s.survey.errors = [] := by
  constructor
  · intro hrun
    by_contra he
    rw [h.run_of_errors_ne_nil he] at hrun
    cases hrun
  · intro he
    rw [h.run_of_errors_eq_nil he]
    cases ho : o.output with
    | none => rw [Settings.deliver, ho]
    | some p => rw [Settings.deliver_of_output ho, hw p ho]

/-- **The first error is reported first**, after the log. -/
theorem ReadsInput.reports_first (h : ReadsInput files argv o s) {e : LexError}
    (he : s.survey.errors.head? = some e) :
    ∃ more, (run files argv).stderr
      = o.shownLog (o.analyse s.text).log ++ (o.report e ++ more) := by
  obtain ⟨es, hes⟩ := List.head?_eq_some_iff.1 he
  obtain ⟨more, hm⟩ := o.reported_cons e es
  rw [h.run_of_errors_ne_nil (hes ▸ List.cons_ne_nil e es), hes, hm]
  exact ⟨more.flatMap o.report, rfl⟩

end Verdict

end Asl
