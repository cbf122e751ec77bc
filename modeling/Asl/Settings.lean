import Asl.Arguments
import Asl.FileTree
import Asl.Toml.Reader

/-!
# Settings

What a run is to do, from three layers: fixed defaults, the configuration
file, the command line, each overriding the one before. The configuration
file is the one the command line names; without a name it is the one of a
fixed name beside the input, and where there is no such file the layer is
empty.

Of a configuration only three entries count, each only where it sits in a
table and is of the right type: `output.format`, `output.hidden` and
`lexer.keep_going`. A format it names must exist, even when the command
line overrides it. An option given without a value overrides it too: a
format that is so given is none, and the listing is then in text.
-/

namespace Asl

/-- What a configuration file asks for. -/
structure Config where
  /-- The format of the listing. -/
  format : Option ListingFormat
  /-- Whether hidden tokens are listed. -/
  hidden : Option Bool
  /-- Whether to go on after an error. -/
  keepGoing : Option Bool
deriving DecidableEq, Repr

/-- Why a configuration file is refused. -/
inductive ConfigError where
  /-- The file at a path breaks the rules of its format. -/
  | malformed (path : Path)
  /-- It names a format that does not exist. -/
  | unknownFormat (name : Text)
deriving DecidableEq, Repr

namespace ConfigError

/-- What is said of a document that breaks the rules of its format. -/
def malformedDetail : Text := "not a valid document".toList

/-- The wording of a refusal. -/
def message : ConfigError → Text
  | malformed path =>
    "invalid config file ".toList ++ path.toText ++ ": ".toList ++ malformedDetail
  | unknownFormat name => "unknown output format in config: ".toList ++ Text.quoted name

end ConfigError

/-- A failure that no stage of a run provides for. -/
inductive Abort where
  /-- A path cannot be used at all. -/
  | file (e : FileError) (path : Path)
  /-- A configuration file is not UTF-8. -/
  | notUtf8 (e : Utf8.Error)
  /-- A configuration file holds an integer with too many digits. -/
  | tooManyDigits (count : Nat)
deriving DecidableEq, Repr

/-- The wording of a failure. -/
def Abort.message : Abort → Text
  | file e path => e.message path
  | notUtf8 e => e.message
  | tooManyDigits count => tooManyDigitsMessage count

/-- Why there are no settings. -/
inductive SettingsError where
  /-- The configuration file is refused. -/
  | config (e : ConfigError)
  /-- It could not be judged. -/
  | abort (a : Abort)
deriving DecidableEq, Repr

namespace Config

/-- The configuration that asks for nothing. -/
def empty : Config := ⟨none, none, none⟩

/-- The entry of a table of the document, both by name. -/
def entry? (root : Toml.Table) (table name : String) : Option Toml.Value :=
  match root.lookup table.toList with
  | some (.table entries) => entries.lookup name.toList
  | _ => none

/-- The truth value at an entry. -/
def flag? (root : Toml.Table) (table name : String) : Option Bool :=
  match entry? root table name with
  | some (.boolean b) => some b
  | _ => none

/-- The format a document names. -/
def format? (root : Toml.Table) : Except ConfigError (Option ListingFormat) :=
  match entry? root "output" "format" with
  | some (.string name) =>
    match ListingFormat.ofName? name with
    | some f => .ok (some f)
    | none => .error (.unknownFormat name)
  | _ => .ok none

/-- What a document asks for. -/
def ofTable (root : Toml.Table) : Except ConfigError Config :=
  (format? root).map fun f => ⟨f, flag? root "output" "hidden", flag? root "lexer" "keep_going"⟩

/-- What the contents of a configuration file ask for. -/
def ofBytes (path : Path) (contents : Bytes) : Except SettingsError Config :=
  match Utf8.decode contents with
  | .error e => .error (.abort (.notUtf8 e))
  | .ok t =>
    match Toml.read t with
    | .error .malformed => .error (.config (.malformed path))
    | .error (.tooManyDigits count) => .error (.abort (.tooManyDigits count))
    | .ok root => (ofTable root).mapError .config

/-- The configuration at a path, empty where there is no file. -/
def load (files : Files) (path : Path) : Except SettingsError Config :=
  match files.readIfFile path with
  | .error e => .error (.abort (.file e path))
  | .ok none => .ok empty
  | .ok (some contents) => ofBytes path contents

end Config

/-- What a run is to do. -/
structure Settings where
  /-- The file to analyse. -/
  input : Path
  /-- The file to write the listing to, if not the output stream. -/
  output : Option Path
  /-- The format of the listing; without one it is in text. -/
  format : Option ListingFormat
  /-- Whether hidden tokens are listed. -/
  hidden : Bool
  /-- Whether to go on after an error. -/
  keepGoing : Bool
  /-- Whether to log to the error stream. -/
  debug : Bool
deriving DecidableEq, Repr

/-- The path an option names; an empty value names none. -/
def Path.ofValue? : Given Text → Option Path
  | .absent => none
  | .bare => none
  | .value [] => none
  | .value t => some (Path.ofText t)

namespace Settings

/-- The name of a configuration file that is not named. -/
def configName : Text := "asllex.toml".toList

/-- The configuration file of a command line. -/
def configPath (a : Arguments) : Path :=
  match Path.ofValue? a.config with
  | some p => p
  | none => (Path.ofText a.input).parent.child configName

/-- The format of the listing, from the three layers. -/
def mergeFormat (c : Config) : Given ListingFormat → Option ListingFormat
  | .absent => some (c.format.getD .text)
  | .bare => none
  | .value f => some f

/-- The three layers put together. -/
def merge (c : Config) (a : Arguments) : Settings where
  input := Path.ofText a.input
  output := Path.ofValue? a.output
  format := mergeFormat c a.format
  hidden := (a.hidden.or c.hidden).getD false
  keepGoing := (a.keepGoing.or c.keepGoing).getD false
  debug := a.debug

/-- The settings for a command line. -/
def resolve (files : Files) (a : Arguments) : Except SettingsError Settings :=
  (Config.load files (configPath a)).map fun c => merge c a

end Settings

end Asl
