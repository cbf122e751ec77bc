import Asl.Arguments
import Mathlib.Data.List.Basic

/-!
# Command lines read as they are meant

A command line says each thing as often as it likes, in any order and around
the input. It is taken here as it is meant, as a list of directives around an
input (`CommandLine`), each with its value, and the words are what it is
written with (`CommandLine.words`). The paths among the words begin with no
dash, so that none of them can be taken for an option; this is part of their
type (`Operand`).

Reading the words takes two passes. The first tells options from operands, and
gives for each directive what its words are meant to be, whatever stands around
them (`Directive.classifyAll_words`). The second sets one argument for each
directive (`Arguments.Progress.consume_read`). An argument that directives set
one after the other keeps what the last of those that concern it has set
(`Arguments.foldl_set`). So a whole command line is read off its last
directives alone (`CommandLine.parse_words`).
-/

namespace Asl

/-! ## Command lines as they are meant -/

/-- A word that cannot be taken for an option. -/
structure Operand where
  /-- The word. -/
  text : Text
  /-- It begins with no dash; it may be empty. -/
  dashless : text.head? ≠ some '-'
deriving DecidableEq, Repr

/-- **An option spelled in full**, with its value if it takes one. -/
inductive Directive where
  /-- To list hidden tokens, or not. -/
  | hidden (on : Bool)
  /-- To go on after an error, or not. -/
  | keepGoing (on : Bool)
  /-- To log to the error stream. -/
  | debug
  /-- The format of the listing. -/
  | format (f : ListingFormat)
  /-- The configuration file. -/
  | config (path : Operand)
  /-- The output file, in the long or the short spelling. -/
  | output (long : Bool) (path : Operand)
deriving DecidableEq, Repr

namespace Directive

/-- How an option is spelled. -/
def spelling : Directive → Text
  | hidden true => "--hidden".toList
  | hidden false => "--no-hidden".toList
  | keepGoing true => "--keep-going".toList
  | keepGoing false => "--no-keep-going".toList
  | debug => "--debug".toList
  | format _ => "--format".toList
  | config _ => "--config".toList
  | output true _ => "--output".toList
  | output false _ => "-o".toList

/-- What it does. -/
def action : Directive → Action
  | hidden on => .hidden on
  | keepGoing on => .keepGoing on
  | debug => .debug
  | format _ => .format
  | config _ => .config
  | output _ _ => .output

/-- The word after it. -/
def value? : Directive → Option Text
  | format f => some f.name
  | config path => some path.text
  | output _ path => some path.text
  | _ => none

/-- The words of an option. -/
def words (d : Directive) : List Text := d.spelling :: d.value?.toList

/-- What these words are. -/
def read (d : Directive) : List (Text × Word) :=
  (d.spelling, .option d.action (Word.isShort d.spelling) none)
    :: d.value?.toList.map fun t => (t, .operand)

/-- The format an option chooses. -/
def format? : Directive → Option ListingFormat
  | format f => some f
  | _ => none

/-- Whether an option lists hidden tokens. -/
def hidden? : Directive → Option Bool
  | hidden on => some on
  | _ => none

/-- Whether an option goes on after an error. -/
def keepGoing? : Directive → Option Bool
  | keepGoing on => some on
  | _ => none

/-- The configuration file an option gives. -/
def config? : Directive → Option Text
  | config path => some path.text
  | _ => none

/-- The output file an option gives. -/
def output? : Directive → Option Text
  | output _ path => some path.text
  | _ => none

end Directive

/-- **A command line**: options, in any number and order, around one input. -/
structure CommandLine where
  /-- The options before the input. -/
  before : List Directive
  /-- The input. -/
  input : Operand
  /-- The options after it. -/
  after : List Directive
deriving DecidableEq, Repr

namespace CommandLine

/-- The options, in order. -/
def options (l : CommandLine) : List Directive := l.before ++ l.after

/-- The words of a command line. -/
def words (l : CommandLine) : List Text :=
  l.before.flatMap Directive.words ++ l.input.text :: l.after.flatMap Directive.words

/-- **What the last option that concerns a thing says of it.** -/
def last {α : Type} (l : CommandLine) (said : Directive → Option α) : Option α :=
  (l.options.filterMap said).getLast?

end CommandLine

/-! ## Reading the words back -/

namespace Word

theorem classify_of_dashless {t : Text} (h : t.head? ≠ some '-') : classify t = .ok .operand := by
  unfold classify
  split
  · exact absurd rfl h
  · rfl

theorem ne_terminatorText {t : Text} (h : t.head? ≠ some '-') : t ≠ terminatorText := by
  rintro rfl
  exact h rfl

/-- A word before the terminator is classified by itself. -/
theorem classifyAll_cons {w : Text} {k : Word} (hw : w ≠ terminatorText)
    (hk : classify w = .ok k) (ws : List Text) :
    classifyAll (w :: ws) = (classifyAll ws).map ((w, k) :: ·) := by
  rw [classifyAll, if_neg hw, hk]
  cases classifyAll ws <;> rfl

end Word

namespace Directive

theorem spelling_mem (d : Directive) : (d.spelling, d.action) ∈ Action.spellings := by
  cases d with
  | hidden on | keepGoing on => cases on <;> decide
  | debug => decide
  | format _ => exact (by decide : ("--format".toList, .format) ∈ Action.spellings)
  | config _ => exact (by decide : ("--config".toList, .config) ∈ Action.spellings)
  | output long _ =>
    cases long with
    | true => exact (by decide : ("--output".toList, .output) ∈ Action.spellings)
    | false => exact (by decide : ("-o".toList, .output) ∈ Action.spellings)

/-- An option spelled in full is that option. -/
theorem classify_spelling (d : Directive) :
    d.spelling ≠ Word.terminatorText ∧
      Word.classify d.spelling = .ok (.option d.action (Word.isShort d.spelling) none) := by
  have hall : ∀ s ∈ Action.spellings, s.1 ≠ Word.terminatorText ∧
      Word.classify s.1 = .ok (.option s.2 (Word.isShort s.1) none) := by decide
  exact hall _ d.spelling_mem

theorem dashless_of_mem {d : Directive} {t : Text} (h : t ∈ d.value?) : t.head? ≠ some '-' := by
  cases d with
  | format f =>
    obtain rfl := Option.some.inj h
    cases f <;> decide
  | config path | output _ path =>
    obtain rfl := Option.some.inj h
    exact path.dashless
  | _ => cases h

/-- **The words of an option are what they are meant to be**, whatever
follows. -/
theorem classifyAll_words (d : Directive) (ws : List Text) :
    Word.classifyAll (d.words ++ ws) = (Word.classifyAll ws).map (d.read ++ ·) := by
  obtain ⟨hne, hclass⟩ := d.classify_spelling
  unfold words read
  cases hv : d.value? with
  | none => exact Word.classifyAll_cons hne hclass ws
  | some t =>
    have ht := dashless_of_mem hv
    show Word.classifyAll (d.spelling :: t :: ws) = _
    rw [Word.classifyAll_cons hne hclass, Word.classifyAll_cons (Word.ne_terminatorText ht)
      (Word.classify_of_dashless ht)]
    cases Word.classifyAll ws <;> rfl

theorem classifyAll_flatMap_words (ds : List Directive) (ws : List Text) :
    Word.classifyAll (ds.flatMap words ++ ws)
      = (Word.classifyAll ws).map (ds.flatMap read ++ ·) := by
  induction ds with
  | nil =>
    show Word.classifyAll ws = _
    cases Word.classifyAll ws <;> rfl
  | cons d ds ih =>
    rw [List.flatMap_cons, List.append_assoc, classifyAll_words, ih]
    cases Word.classifyAll ws with
    | error e => rfl
    | ok ks => exact congrArg Except.ok (List.append_assoc _ _ ks).symm

theorem takesValue_action (d : Directive) : d.action.takesValue = d.value?.isSome := by
  cases d <;> rfl

end Directive

namespace Arguments

/-- What an option sets. -/
def set (o : Arguments) : Directive → Arguments
  | .hidden on => { o with hidden := some on }
  | .keepGoing on => { o with keepGoing := some on }
  | .debug => { o with debug := true }
  | .format f => { o with format := .value f }
  | .config path => { o with config := .value path.text }
  | .output _ path => { o with output := .value path.text }

namespace Progress

theorem given_of_dashless {t : Text} (h : t.head? ≠ some '-') : given t = .value t :=
  if_neg (Word.ne_terminatorText h)

/-- An option carried out sets its argument. -/
theorem perform_action (p : Progress) (d : Directive) :
    p.perform d.action (d.value?.getD []) = .ok { p with options := p.options.set d } := by
  cases d with
  | hidden _ | keepGoing _ | debug => rfl
  | format f => cases f <;> rfl
  | config path =>
    show Except.ok { p with options := { p.options with config := given path.text } } = _
    rw [given_of_dashless path.dashless]
    rfl
  | output _ path =>
    show Except.ok { p with options := { p.options with output := given path.text } } = _
    rw [given_of_dashless path.dashless]
    rfl

theorem performAll_action (p : Progress) (d : Directive) :
    p.performAll [(d.action, d.value?.getD [])]
      = .ok { p with options := p.options.set d } := by
  rw [performAll, perform_action]
  rfl

/-- **One option**: its words set its argument, and leave the rest to what
follows. -/
theorem consume_read (p : Progress) (d : Directive) (ws : List (Text × Word)) :
    p.consume (d.read ++ ws) = { p with options := p.options.set d : Progress }.consume ws := by
  have hperform := p.performAll_action d
  have htakes := d.takesValue_action
  unfold Directive.read
  cases hv : d.value? with
  | none =>
    rw [hv] at hperform htakes
    show p.consume ((d.spelling, .option d.action _ none) :: ws) = _
    rw [consume]
    simp only [Request.ofWord, Request.bare, htakes, Option.isSome_none, Bool.false_eq_true,
      if_false]
    rw [show p.performAll [(d.action, [])] = _ from hperform]
  | some t =>
    rw [hv] at hperform htakes
    show p.consume ((d.spelling, .option d.action _ none) :: (t, .operand) :: ws) = _
    rw [consume]
    simp only [Request.ofWord, Request.bare, htakes, Option.isSome_some, if_true, List.nil_append]
    rw [show p.performAll [(d.action, t)] = _ from hperform]

/-- **Options one after the other.** -/
theorem consume_flatMap_read (p : Progress) (ds : List Directive) (ws : List (Text × Word)) :
    p.consume (ds.flatMap Directive.read ++ ws)
      = { p with options := ds.foldl set p.options : Progress }.consume ws := by
  induction ds generalizing p with
  | nil => rfl
  | cons d ds ih =>
    rw [List.flatMap_cons, List.append_assoc, consume_read, ih]
    rfl

/-- The first operand is the input, and options may follow it. -/
theorem consume_input {p : Progress} (hp : p.input = none) (t : Text) (ds : List Directive) :
    p.consume ((t, .operand) :: ds.flatMap Directive.read)
      = (p.withInput t).consume (ds.flatMap Directive.read) := by
  have hne : ∀ v ws, ds.flatMap Directive.read = (v, .terminator) :: ws → False := by
    intro v ws h
    cases ds with
    | nil => cases h
    | cons d ds => cases h
  -- only a terminator right after it would be passed over together with the operand
  rw [consume.eq_4 _ _ _ hne, hp]

end Progress

/-- **The last of several options that concern the same thing wins.** -/
theorem foldl_set {α β : Type} (get : Arguments → β) (said : Directive → Option α) (wrap : α → β)
    (h : ∀ o d, get (set o d) = ((said d).map wrap).getD (get o)) (ds : List Directive)
    (o : Arguments) :
    get (ds.foldl set o) = ((ds.filterMap said).getLast?.map wrap).getD (get o) := by
  induction ds generalizing o with
  | nil => rfl
  | cons d ds ih =>
    rw [List.foldl_cons, ih, h]
    cases hd : said d with
    | none => rw [List.filterMap_cons_none hd, Option.map_none, Option.getD_none]
    | some x =>
      rw [List.filterMap_cons_some hd, List.getLast?_cons]
      cases (ds.filterMap said).getLast? <;> rfl

/-- The log is asked for once and for all. -/
theorem debug_foldl_set (ds : List Directive) (o : Arguments) :
    (ds.foldl set o).debug = (o.debug || decide (.debug ∈ ds)) := by
  induction ds generalizing o with
  | nil => exact (Bool.or_false _).symm
  | cons d ds ih =>
    rw [List.foldl_cons, ih]
    cases d <;> simp [set]

end Arguments

/-- What a command line says of an option that takes a value, by its last
value. -/
def Given.ofLast {α : Type} (x : Option α) : Given α := (x.map .value).getD .absent

namespace CommandLine

/-- **What a command line asks for**, by the last options that concern each
thing. -/
def arguments (l : CommandLine) : Arguments where
  input := l.input.text
  output := .ofLast (l.last Directive.output?)
  format := .ofLast (l.last Directive.format?)
  hidden := l.last Directive.hidden?
  keepGoing := l.last Directive.keepGoing?
  config := .ofLast (l.last Directive.config?)
  debug := decide (.debug ∈ l.options)

open Arguments (set)
open Arguments.Progress (start consume_flatMap_read consume_input)

/-- What the words of a command line are. -/
theorem classifyAll_words (l : CommandLine) :
    Word.classifyAll l.words = .ok (l.before.flatMap Directive.read
      ++ (l.input.text, .operand) :: l.after.flatMap Directive.read) := by
  have hafter := Directive.classifyAll_flatMap_words l.after []
  have hinput := l.input.dashless
  rw [List.append_nil] at hafter
  rw [words, Directive.classifyAll_flatMap_words, Word.classifyAll_cons
    (Word.ne_terminatorText hinput) (Word.classify_of_dashless hinput), hafter]
  show Except.ok (_ ++ _ :: (l.after.flatMap Directive.read ++ [])) = _
  rw [List.append_nil]

/-- The words leave nothing over: the input is found, and every option has set
its argument. -/
theorem consume_words (l : CommandLine) :
    start.consume (l.before.flatMap Directive.read
      ++ (l.input.text, .operand) :: l.after.flatMap Directive.read)
        = .ok ⟨some l.input.text, l.options.foldl set start.options, []⟩ := by
  have hafter := consume_flatMap_read
    ⟨some l.input.text, l.before.foldl set start.options, []⟩ l.after []
  rw [List.append_nil, ← List.foldl_append] at hafter
  rw [consume_flatMap_read, consume_input rfl]
  exact hafter

/-- Each argument is what the last option that concerns it has set. -/
theorem foldl_options (l : CommandLine) :
    { l.options.foldl set start.options with input := l.input.text } = l.arguments := by
  have hlast {α β : Type} (get : Arguments → β) (said : Directive → Option α) (wrap : α → β)
      (h : ∀ o d, get (set o d) = ((said d).map wrap).getD (get o)) :
      get (l.options.foldl set start.options) = ((l.last said).map wrap).getD (get start.options) :=
    Arguments.foldl_set get said wrap h l.options start.options
  have hflag : ∀ x : Option Bool, (x.map some).getD none = x := fun x => by cases x <;> rfl
  unfold arguments
  rw [Arguments.mk.injEq]
  refine ⟨rfl, ?_, ?_, ?_, ?_, ?_, ?_⟩
  · exact hlast Arguments.output Directive.output? .value fun o d => by cases d <;> rfl
  · exact hlast Arguments.format Directive.format? .value fun o d => by cases d <;> rfl
  · rw [hlast Arguments.hidden Directive.hidden? some fun o d => by cases d <;> rfl]
    exact hflag _
  · rw [hlast Arguments.keepGoing Directive.keepGoing? some fun o d => by cases d <;> rfl]
    exact hflag _
  · exact hlast Arguments.config Directive.config? .value fun o d => by cases d <;> rfl
  · rw [Arguments.debug_foldl_set]
    exact Bool.false_or _

/-- **A command line is read as it is meant.** -/
theorem parse_words (l : CommandLine) : Arguments.parse l.words = .ok l.arguments := by
  unfold Arguments.parse
  rw [classifyAll_words]
  show (start.consume _ >>= _) = _
  rw [consume_words]
  exact congrArg Except.ok l.foldl_options

end CommandLine

end Asl
