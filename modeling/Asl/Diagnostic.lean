import Asl.Scan

/-!
# Editor diagnostics

An editor is told of the lexical errors of a document whenever the document
is opened or changed. Every error gives one diagnostic: a range on one line,
both coordinates counted from zero, with the message and the kind. A range
covers the offending text up to its first line feed, and is never empty.

An editor takes coordinates of 31 bits. Those of a document are always among
them; an error made by hand can have others, and `Diagnostic.check` says
which coordinate is at fault.
-/

namespace Asl

/-- A place in a document, as an editor counts. -/
structure EditorPosition where
  /-- The line, counted from zero. -/
  line : Int
  /-- The character in the line, counted from zero. -/
  character : Int
deriving DecidableEq, Repr

/-- A coordinate an editor does not take. -/
inductive CoordinateError where
  /-- A line. -/
  | line (n : Int)
  /-- A character. -/
  | character (n : Int)
deriving DecidableEq, Repr

namespace CoordinateError

/-- The greatest coordinate; the least is zero. -/
def greatest : Int := 0x7fffffff

/-- The wording for a coordinate of a given name. -/
def outOfRange (name : String) (n : Int) : Text :=
  "Position.".toList ++ name.toList ++ " should be in range [0:".toList ++ Text.ofInt greatest
    ++ "], but was ".toList ++ Text.ofInt n ++ ['.']

/-- The wording of an error. -/
def message : CoordinateError → Text
  | line n => outOfRange "line" n
  | character n => outOfRange "character" n

end CoordinateError

namespace EditorPosition

/-- Whether an editor takes a coordinate. -/
def takes (n : Int) : Bool := 0 ≤ n && n ≤ CoordinateError.greatest

/-- Whether an editor takes a place: the line is looked at first. -/
def check (p : EditorPosition) : Except CoordinateError Unit :=
  if takes p.line then
    if takes p.character then .ok () else .error (.character p.character)
  else .error (.line p.line)

end EditorPosition

/-- What an editor is told of one error. -/
structure Diagnostic where
  /-- The place of the first character at fault. -/
  start : EditorPosition
  /-- The place after the last one. -/
  stop : EditorPosition
  /-- The message. -/
  message : Text
  /-- The kind. -/
  code : FaultKind
deriving DecidableEq, Repr

namespace Diagnostic

/-- How serious a lexical error is: the highest degree. -/
def severity : Nat := 1

/-- The name diagnostics are published under. -/
def origin : Text := "asllex".toList

/-- The number of characters a diagnostic covers. -/
def width (e : LexError) : Nat := max 1 (Text.firstLine e.text).length

/-- The diagnostic of an error. -/
def ofError (e : LexError) : Diagnostic :=
  let line := e.position.line - 1
  let character := e.position.column - 1
  ⟨⟨line, character⟩, ⟨line, character + width e⟩, e.message, e.kind⟩

/-- Whether an editor takes a diagnostic: the start is looked at first. -/
def check (d : Diagnostic) : Except CoordinateError Unit := do
  d.start.check
  d.stop.check

end Diagnostic

/-- What an editor is sent for a document. -/
structure Publication where
  /-- The address of the document. -/
  uri : Text
  /-- One diagnostic per error, in source order. -/
  diagnostics : List Diagnostic
  /-- The log of the analysis. -/
  log : List Text
deriving DecidableEq, Repr

namespace Publication

/-- The name of a document: what follows the last slash of its address. -/
def documentName (uri : Text) : Text := (uri.reverse.takeWhile (· ≠ '/')).reverse

/-- The analysis of a document just opened or changed. -/
def ofDocument (uri text : Text) : Publication :=
  let name := documentName uri
  let survey := Source.survey ⟨name, text⟩
  { uri := uri
    diagnostics := survey.errors.map Diagnostic.ofError
    log := survey.log ++
      ["asllex.lsp: ".toList ++ name ++ ": ".toList ++ Text.ofNat survey.errors.length
        ++ " lexical error(s)".toList] }

end Publication

end Asl
