import Asl.Listing
import Asl.Text.DecimalDigit

/-!
# Command-line arguments

The words of a command line are read in two passes. The first settles, word
by word, what each word is: an operand, an option with perhaps a value
attached, an option nobody knows, or the terminator `--`, after which every
word is an operand. A long option may be shortened as long as only one
option begins that way.

The second pass goes through the words in order and carries them out: an
option that takes a value and has none attached takes the next word, if that
is an operand; the first operand is the input; what is left over is
collected. Help ends it at once. The last of several options that concern
the same thing wins.

The terminator attached to an option as its value is no value: the option
then counts as given, without one.
-/

namespace Asl

/-! ## Options -/

/-- What an option does. -/
inductive Action where
  /-- Show the help and stop. -/
  | help
  /-- Name the output file. -/
  | output
  /-- Choose the format of the listing. -/
  | format
  /-- List hidden tokens, or not. -/
  | hidden (on : Bool)
  /-- Go on after an error, or not. -/
  | keepGoing (on : Bool)
  /-- Name the configuration file. -/
  | config
  /-- Log to the error stream. -/
  | debug
deriving DecidableEq, Repr

namespace Action

/-- Whether an option takes a value. -/
def takesValue : Action → Bool
  | output => true
  | format => true
  | config => true
  | _ => false

/-- How messages name an option: by all its spellings. -/
def displayName : Action → Text
  | help => "-h/--help".toList
  | output => "-o/--output".toList
  | format => "--format".toList
  | hidden _ => "--hidden/--no-hidden".toList
  | keepGoing _ => "--keep-going/--no-keep-going".toList
  | config => "--config".toList
  | debug => "--debug".toList

/-- The spellings of the options, in the order they are offered. -/
def spellings : List (Text × Action) :=
  [("-h".toList, help), ("--help".toList, help), ("-o".toList, output),
   ("--output".toList, output), ("--format".toList, format), ("--hidden".toList, hidden true),
   ("--no-hidden".toList, hidden false), ("--keep-going".toList, keepGoing true),
   ("--no-keep-going".toList, keepGoing false), ("--config".toList, config),
   ("--debug".toList, debug)]

/-- The option with exactly a given spelling. -/
def ofSpelling? (t : Text) : Option Action := spellings.lookup t

/-- The options whose spelling begins with a text. -/
def startingWith (t : Text) : List (Text × Action) :=
  spellings.filter fun s => t.isPrefixOf s.1

end Action

/-- What is wrong with a command line. -/
inductive UsageError where
  /-- A shortened option that several options begin with. -/
  | ambiguous (word : Text) (candidates : List Text)
  /-- A value attached to an option that takes none. -/
  | ignoredValue (action : Action) (value : Text)
  /-- An option without the value it takes. -/
  | missingValue (action : Action)
  /-- A format that is not offered. -/
  | invalidChoice (value : Text)
  /-- No input. -/
  | missingInput
  /-- Words that mean nothing. -/
  | unrecognized (words : List Text)
deriving DecidableEq, Repr

namespace UsageError

/-- A message about one option. -/
def about (a : Action) (t : Text) : Text := "argument ".toList ++ a.displayName ++ ": ".toList ++ t

/-- The wording of an error. -/
def message : UsageError → Text
  | ambiguous word candidates =>
    "ambiguous option: ".toList ++ word ++ " could match ".toList
      ++ Text.join ", ".toList candidates
  | ignoredValue a v => about a ("ignored explicit argument ".toList ++ Text.quoted v)
  | missingValue a => about a "expected one argument".toList
  | invalidChoice v =>
    about .format ("invalid choice: ".toList ++ Text.quoted v ++ " (choose from ".toList
      ++ Text.join ", ".toList (ListingFormat.all.map fun f => Text.quoted f.name) ++ [')'])
  | missingInput => "the following arguments are required: input".toList
  | unrecognized words => "unrecognized arguments: ".toList ++ Text.join [' '] words

end UsageError

/-! ## The first pass: what each word is -/

/-- What a word is. -/
inductive Word where
  /-- An operand. -/
  | operand
  /-- The terminator `--`. -/
  | terminator
  /-- An option; `short` tells a spelling of one dash and one letter. The
  value attached follows an equals sign, or the letter of a short option. -/
  | option (action : Action) (short : Bool) (attached : Option Text)
  /-- Something that looks like an option and is none. -/
  | unknown
deriving DecidableEq, Repr

namespace Word

/-- The spelling of the terminator. -/
def terminatorText : Text := "--".toList

/-- The text without one line feed at its end. -/
def dropFinalLineFeed (t : Text) : Text :=
  if t.getLast? = some '\n' then t.dropLast else t

/-- Whether a word is a minus sign and a number: digits, or digits after a
point with perhaps digits before it. A line feed may end the word. -/
def isNegativeNumber (word : Text) : Bool :=
  match dropFinalLineFeed word with
  | '-' :: t =>
    match t.dropWhile Text.isDecimalDigit with
    | [] => t ≠ []
    | '.' :: u => u ≠ [] && u.all Text.isDecimalDigit
    | _ => false
  | _ => false

/-- The two sides of the first equals sign of a word. -/
def splitEquals? (word : Text) : Option (Text × Text) :=
  match word.dropWhile (· ≠ '=') with
  | _ :: value => some (word.takeWhile (· ≠ '='), value)
  | [] => none

/-- What a word is that no option spells and that is no shortened long
option. -/
def plain (word : Text) : Word :=
  if isNegativeNumber word || word.contains ' ' then .operand else .unknown

/-- A long option, perhaps shortened, perhaps with a value. -/
def long (word : Text) : Except UsageError Word :=
  let (name, attached) :=
    match splitEquals? word with
    | some (name, value) => (name, some value)
    | none => (word, none)
  match Action.startingWith name with
  | [] => .ok (plain word)
  | [(_, action)] => .ok (.option action false attached)
  | candidates => .error (.ambiguous word (candidates.map (·.1)))

/-- A short option with a value joined to it. -/
def short (letter : Char) (value word : Text) : Word :=
  match Action.ofSpelling? ['-', letter] with
  | some action => .option action true (some value)
  | none => plain word

/-- Whether a spelling is one dash and one letter. -/
def isShort (spelling : Text) : Bool := spelling[1]? ≠ some '-'

/-- What a word before the terminator is. -/
def classify (word : Text) : Except UsageError Word :=
  match word with
  | '-' :: c :: t =>
    match Action.ofSpelling? word with
    | some action => .ok (.option action (isShort word) none)
    | none =>
      match (splitEquals? word).bind fun s => (Action.ofSpelling? s.1).map fun a => (a, s) with
      | some (action, name, value) => .ok (.option action (isShort name) (some value))
      | none => if c = '-' then long word else .ok (short c t word)
  | _ => .ok .operand

/-- What each word of a command line is. -/
def classifyAll : List Text → Except UsageError (List (Text × Word))
  | [] => .ok []
  | w :: ws =>
    if w = terminatorText then .ok ((w, .terminator) :: ws.map fun v => (v, .operand))
    else do
      let word ← classify w
      let words ← classifyAll ws
      return (w, word) :: words

end Word

/-! ## The second pass: what the words ask for -/

/-- What a command line says of an option that takes a value. -/
inductive Given (α : Type) where
  /-- Nothing: the option is not given. -/
  | absent
  /-- The option is given without a value. -/
  | bare
  /-- The option is given with a value. -/
  | value (a : α)
deriving DecidableEq, Repr

/-- What a command line asks for. A switch that is not given is `none`. -/
structure Arguments where
  /-- The input file. -/
  input : Text
  /-- The output file. -/
  output : Given Text
  /-- The format of the listing. -/
  format : Given ListingFormat
  /-- Whether hidden tokens are listed. -/
  hidden : Option Bool
  /-- Whether to go on after an error. -/
  keepGoing : Option Bool
  /-- The configuration file. -/
  config : Given Text
  /-- Whether to log to the error stream. -/
  debug : Bool
deriving DecidableEq, Repr

/-- Why a command line is not carried out. -/
inductive Refusal where
  /-- Help is asked for. -/
  | help
  /-- The command line is wrong. -/
  | usage (e : UsageError)
deriving DecidableEq, Repr

/-- What one option word comes to: options complete with their values, then
perhaps one that takes the next word. -/
structure Request where
  /-- The options that are complete; the value of one that takes none is
  empty. -/
  complete : List (Action × Text)
  /-- The option that takes the next word. -/
  awaiting : Option Action
deriving DecidableEq, Repr

namespace Request

/-- One option without a value attached. -/
def bare (a : Action) : Request := if a.takesValue then ⟨[], some a⟩ else ⟨[(a, [])], none⟩

/-- An option carried out before the others. -/
def after (a : Action) (r : Request) : Request := { r with complete := (a, []) :: r.complete }

/-- A short option with a value attached. Where it takes none, the value is
read as further short options, the last of them with the rest of the word as
its value. -/
def short (a : Action) : Text → Except UsageError Request
  | [] => if a.takesValue then .ok ⟨[(a, [])], none⟩ else .error (.ignoredValue a [])
  | c :: t =>
    if a.takesValue then .ok ⟨[(a, c :: t)], none⟩
    else
      match Action.ofSpelling? ['-', c], t with
      | none, _ => .error (.ignoredValue a (c :: t))
      | some b, [] => .ok (after a (bare b))
      | some b, u => (short b u).map (after a)

/-- A long option with a value attached. -/
def long (a : Action) (value : Text) : Except UsageError Request :=
  if a.takesValue then .ok ⟨[(a, value)], none⟩ else .error (.ignoredValue a value)

/-- What an option word comes to. -/
def ofWord (a : Action) (isShort : Bool) : Option Text → Except UsageError Request
  | none => .ok (bare a)
  | some value => if isShort then short a value else long a value

end Request

namespace Arguments

/-- A command line partly carried out. -/
structure Progress where
  /-- The operand taken as the input. -/
  input : Option Text
  /-- What the options ask for so far; the input in it is not yet set. -/
  options : Arguments
  /-- Words that mean nothing, in order. -/
  extras : List Text
deriving DecidableEq, Repr

namespace Progress

/-- Before the first word. -/
def start : Progress := ⟨none, ⟨[], .absent, .absent, none, none, .absent, false⟩, []⟩

/-- One more word that means nothing. -/
def extra (p : Progress) (w : Text) : Progress := { p with extras := p.extras ++ [w] }

/-- The input is found. -/
def withInput (p : Progress) (w : Text) : Progress := { p with input := some w }

/-- What a value says: the terminator says none. -/
def given (value : Text) : Given Text := if value = Word.terminatorText then .bare else .value value

/-- The format a value says: the terminator says none, and is not refused. -/
def givenFormat (value : Text) : Except Refusal (Given ListingFormat) :=
  if value = Word.terminatorText then .ok .bare
  else
    match ListingFormat.ofName? value with
    | some f => .ok (.value f)
    | none => .error (.usage (.invalidChoice value))

/-- An option carried out. -/
def perform (p : Progress) (a : Action) (value : Text) : Except Refusal Progress :=
  let o := p.options
  match a with
  | .help => .error .help
  | .output => .ok { p with options := { o with output := given value } }
  | .format => (givenFormat value).map fun f => { p with options := { o with format := f } }
  | .hidden on => .ok { p with options := { o with hidden := some on } }
  | .keepGoing on => .ok { p with options := { o with keepGoing := some on } }
  | .config => .ok { p with options := { o with config := given value } }
  | .debug => .ok { p with options := { o with debug := true } }

/-- Several options carried out in order. -/
def performAll (p : Progress) : List (Action × Text) → Except Refusal Progress
  | [] => .ok p
  | (a, value) :: rest => do
    let q ← p.perform a value
    q.performAll rest

/-- The words carried out in order. The terminator is passed over where it
stands right before or right after the operand that becomes the input. -/
def consume (p : Progress) : List (Text × Word) → Except Refusal Progress
  | [] => .ok p
  | (w, .unknown) :: ws => (p.extra w).consume ws
  | (w, .operand) :: (v, .terminator) :: ws =>
    match p.input with
    | some _ => ((p.extra w).extra v).consume ws
    | none => (p.withInput w).consume ws
  | (w, .operand) :: ws =>
    match p.input with
    | some _ => (p.extra w).consume ws
    | none => (p.withInput w).consume ws
  | (w, .terminator) :: (v, k) :: ws =>
    match p.input with
    | some _ => (p.extra w).consume ((v, k) :: ws)
    | none => (p.withInput v).consume ws
  | [(w, .terminator)] => .ok (p.extra w)
  | (_, .option a isShort attached) :: ws =>
    match Request.ofWord a isShort attached with
    | .error e => .error (.usage e)
    | .ok request =>
      match request.awaiting with
      | none =>
        match p.performAll request.complete with
        | .error r => .error r
        | .ok q => q.consume ws
      | some b =>
        match ws with
        | (v, .operand) :: ws' =>
          match p.performAll (request.complete ++ [(b, v)]) with
          | .error r => .error r
          | .ok q => q.consume ws'
        | _ => .error (.usage (.missingValue b))

/-- The arguments, once every word is carried out. -/
def finish (p : Progress) : Except Refusal Arguments :=
  match p.input, p.extras with
  | none, _ => .error (.usage .missingInput)
  | some input, [] => .ok { p.options with input := input }
  | some _, extras => .error (.usage (.unrecognized extras))

end Progress

/-- What the words of a command line ask for. -/
def parse (argv : List Text) : Except Refusal Arguments :=
  match Word.classifyAll argv with
  | .error e => .error (.usage e)
  | .ok words => do
    let p ← Progress.start.consume words
    p.finish

/-! ## Usage and help -/

/-- The summary shown before every complaint. -/
def usage : Text :=
  ("usage: asllex [-h] [-o OUTPUT] [--format \x7btext,json\x7d] [--hidden | --no-hidden]\n" ++
   "              [--keep-going | --no-keep-going] [--config FILE] [--debug]\n" ++
   "              input\n").toList

/-- The help. -/
def help : Text :=
  usage ++
  ("\nASL lexical analyzer: list the tokens of a source file\n" ++
   "\npositional arguments:\n" ++
   "  input                 Input .asl file\n" ++
   "\noptions:\n" ++
   "  -h, --help            show this help message and exit\n" ++
   "  -o OUTPUT, --output OUTPUT\n" ++
   "                        Output file (default: stdout)\n" ++
   "  --format \x7btext,json\x7d  Token listing format (default: text)\n" ++
   "  --hidden, --no-hidden\n" ++
   "                        Include hidden-channel tokens (comments, whitespace)\n" ++
   "  --keep-going, --no-keep-going\n" ++
   "                        Report every lexical error instead of stopping at the\n" ++
   "                        first\n" ++
   "  --config FILE         Config file (default: auto-discover asllex.toml)\n" ++
   "  --debug               Enable debug logging to stderr\n").toList

/-- What is written for a command line that is wrong. -/
def complaint (e : UsageError) : Text :=
  usage ++ Text.line ("asllex: error: ".toList ++ e.message)

end Arguments

end Asl
