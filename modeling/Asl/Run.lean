import Asl.Scan
import Asl.Settings

/-!
# A run of the program

From the words of a command line and a view of the file system to all that
a run shows: how it ends, what it writes to the two streams, and the file it
writes. Nothing else is done by a run.

A run ends with code 0 when the listing is written, 1 when the source has
lexical errors, and 2 when the configuration is refused or a file cannot be
used. The listing is written as a whole and only when there is no error; it
goes to the output file if one is named, and to the output stream
otherwise.
-/

namespace Asl

/-- The version of the program. -/
def version : Text := "0.1.0".toList

/-- How a run ends. -/
inductive Ending where
  /-- The command line was carried out, with this code. -/
  | exit (code : Nat)
  /-- The command line was not carried out: help, or a complaint. -/
  | stopped (code : Nat)
  /-- A failure that no stage provides for. -/
  | abort (a : Abort)
deriving DecidableEq, Repr

/-- All that a run shows. -/
structure Outcome where
  /-- How it ends. -/
  ending : Ending
  /-- What it writes to the output stream. -/
  stdout : Text
  /-- What it writes to the error stream. -/
  stderr : Text
  /-- The file it writes, and its contents. -/
  written : Option (Path × Text)
deriving DecidableEq, Repr

namespace Outcome

/-- An ending with nothing but a message. -/
def withMessage (ending : Ending) (stderr : Text) : Outcome := ⟨ending, [], stderr, none⟩

/-- A file that cannot be used: `verb` says for what. -/
def cannot (verb : String) (path : Path) (reason : Text) (log : Text) : Outcome :=
  withMessage (.exit 2)
    (log ++ Text.line ("error: cannot ".toList ++ verb.toList ++ [' '] ++ path.toText
      ++ ": ".toList ++ reason))

end Outcome

/-- The analysis of a file. -/
structure Analysis where
  /-- The tokens to list. -/
  tokens : List Token
  /-- The errors to report. -/
  errors : List LexError
  /-- The log of the analysis. -/
  log : List Text
deriving DecidableEq, Repr

namespace Settings

/-- The first line of the log. -/
def openingLog (s : Settings) (text : Text) : Text :=
  "asllex.cli: lexing ".toList ++ s.input.toText ++ " (".toList ++ Text.ofNat text.length
    ++ " chars)".toList

/-- The tokens without the hidden ones, unless these are listed too. -/
def listed (s : Settings) (ts : List Token) : List Token :=
  if s.hidden then ts else Token.visible ts

/-- The format the listing is in. -/
def listingFormat (s : Settings) : ListingFormat := s.format.getD .text

/-- The analysis of the text of the input: all its errors if the run is to
go on after an error, and the first one otherwise. -/
def analyse (s : Settings) (text : Text) : Analysis :=
  let source : Source := ⟨s.input.toText, text⟩
  let opening := s.openingLog text
  if s.keepGoing then
    let survey := source.survey
    ⟨s.listed survey.tokens, survey.errors, opening :: survey.log⟩
  else
    match source.tokens true with
    | .ok ts => ⟨s.listed ts, [], [opening]⟩
    | .error e => ⟨[], [e], [opening]⟩

/-- The log as it appears on the error stream. -/
def shownLog (s : Settings) (log : List Text) : Text :=
  if s.debug then log.flatMap Text.line else []

/-- The report of an error: one line if the run goes on after an error, and
a snippet otherwise. -/
def report (s : Settings) (e : LexError) : Text :=
  if s.keepGoing then Text.line (s.input.toText ++ ": ".toList ++ e.describe)
  else Text.line (e.formatAs s.input.toText)

/-- The listing delivered. -/
def deliver (s : Settings) (files : Files) (listing log : Text) : Outcome :=
  match s.output with
  | none => ⟨.exit 0, listing, log, none⟩
  | some path =>
    match files.writable path with
    | .ok _ => ⟨.exit 0, [], log, some (path, listing)⟩
    | .error .embeddedNul => .withMessage (.abort (.file .embeddedNul path)) log
    | .error e => .cannot "write" path (e.message path) log

/-- What follows from an analysis. -/
def conclude (s : Settings) (files : Files) (a : Analysis) : Outcome :=
  let log := s.shownLog a.log
  match a.errors with
  | [] => s.deliver files (Listing.render s.listingFormat a.tokens) log
  | es => .withMessage (.exit 1) (log ++ es.flatMap s.report)

/-- The text of the input, with its line ends unified. -/
def inputText (contents : Bytes) : Except Utf8.Error Text :=
  (Utf8.decode contents).map Text.unifyNewlines

/-- A run whose settings are known. -/
def run (s : Settings) (files : Files) : Outcome :=
  match files.read s.input with
  | .error .embeddedNul => .withMessage (.abort (.file .embeddedNul s.input)) []
  | .error e => .cannot "read" s.input (e.message s.input) []
  | .ok contents =>
    match inputText contents with
    | .error e => .cannot "read" s.input e.message []
    | .ok text => s.conclude files (s.analyse text)

end Settings

/-- A run whose command line is understood. -/
def Arguments.run (a : Arguments) (files : Files) : Outcome :=
  match Settings.resolve files a with
  | .error (.config e) => .withMessage (.exit 2) (Text.line ("error: ".toList ++ e.message))
  | .error (.abort a) => .withMessage (.abort a) []
  | .ok s => s.run files

/-- A run of the program. -/
def run (files : Files) (argv : List Text) : Outcome :=
  match Arguments.parse argv with
  | .error .help => ⟨.stopped 0, Arguments.help, [], none⟩
  | .error (.usage e) => .withMessage (.stopped 2) (Arguments.complaint e)
  | .ok a => a.run files

end Asl
