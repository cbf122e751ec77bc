import Asl.Escape
import Asl.Snippet
import Asl.Text.Quoted

/-!
# Lexical and syntactic errors

A `Fault` is the cause of a lexical error, as the scanner meets it. Its
kind and its wording are functions of it, so that one cause has one report.
A `LexError` is a fault put in its place: the kind, the message, the
position, the source and the offending text. A client may also make one by
hand, with a message and a position of its own; such an error stands only if
its snippet can be drawn (`LexError.check`).

A `ParseError` is what a consumer of tokens raises on a token it did not
expect.
-/

namespace Asl

/-- The kinds of lexical error. -/
inductive FaultKind where
  /-- An error that is none of the others. -/
  | lexical
  /-- A character literal that is empty, too long or not closed. -/
  | unterminatedChar
  /-- A string literal that is not closed on its line. -/
  | unterminatedString
  /-- A backslash before a character that is no escape code. -/
  | invalidEscape
  /-- A number that ends in a point. -/
  | malformedFloat
  /-- A character no lexeme starts with, or an operator that is incomplete. -/
  | unexpectedCharacter
deriving DecidableEq, Repr

namespace FaultKind

/-- The name of a kind in reports. -/
def name : FaultKind → Text
  | lexical => "LexError".toList
  | unterminatedChar => "UnterminatedCharLiteral".toList
  | unterminatedString => "UnterminatedStringLiteral".toList
  | invalidEscape => "InvalidEscapeSequence".toList
  | malformedFloat => "MalformedFloatLiteral".toList
  | unexpectedCharacter => "UnexpectedCharacter".toList

/-- Every kind. -/
def all : List FaultKind :=
  [lexical, unterminatedChar, unterminatedString, invalidEscape, malformedFloat,
   unexpectedCharacter]

/-- The kind with a given name. -/
def ofName? (n : Text) : Option FaultKind := all.find? (·.name = n)

end FaultKind

/-- The causes of a lexical error. -/
inductive Fault where
  /-- A character that starts no lexeme. -/
  | strayCharacter
  /-- An operator that does not stand alone, without its equals sign. -/
  | bareOperator (c : Char)
  /-- Digits and a point with no digit after it. -/
  | missingFraction
  /-- The text ends before the payload of a character literal is complete. -/
  | openChar
  /-- Two quotes with nothing between them. -/
  | emptyChar
  /-- No closing quote after the payload of a character literal. -/
  | unclosedChar
  /-- The line or the text ends before a string literal is closed. -/
  | openString
  /-- A backslash before a character that is no escape code. -/
  | badEscape (code : Char)
deriving DecidableEq, Repr

namespace Fault

/-- The kind under which a cause is reported. -/
def kind : Fault → FaultKind
  | strayCharacter => .unexpectedCharacter
  | bareOperator _ => .unexpectedCharacter
  | missingFraction => .malformedFloat
  | openChar => .unterminatedChar
  | emptyChar => .unterminatedChar
  | unclosedChar => .unterminatedChar
  | openString => .unterminatedString
  | badEscape _ => .invalidEscape

/-- The wording of a cause. -/
def message : Fault → Text
  | strayCharacter => "unexpected character".toList
  | bareOperator c => ['\'', c] ++ "' must be followed by '='".toList
  | missingFraction => "expected digits after '.' in float literal".toList
  | openChar => "unterminated character literal".toList
  | emptyChar => "empty character literal".toList
  | unclosedChar => "expected closing quote after character literal payload".toList
  | openString => "unterminated string literal".toList
  | badEscape code => Escape.invalidMessage code

end Fault

/-- A lexical error in its place. -/
structure LexError where
  /-- The kind. -/
  kind : FaultKind
  /-- The message. -/
  message : Text
  /-- Where the offending text begins. -/
  position : Position
  /-- The source it is in. -/
  source : Source
  /-- The offending text. -/
  text : Text
deriving DecidableEq, Repr

namespace LexError

/-- The error in one line: place, message and offending text. -/
def describe (e : LexError) : Text :=
  "line ".toList ++ Text.ofInt e.position.line ++ ", column ".toList
    ++ Text.ofInt e.position.column ++ ": ".toList ++ e.message ++ ", found '".toList
    ++ Text.oneLine e.text ++ ['\'']

/-- The snippet of an error, under a given name of its source. -/
def snippet (e : LexError) (name : Text) : Snippet where
  message := e.message
  source := e.source.text
  name := name
  line := e.position.line
  column := e.position.column
  width := e.text.length

/-- The error shown in its source, under a given name. -/
def formatAs (e : LexError) (name : Text) : Text := (e.snippet name).render

/-- The error shown in its source. -/
def format (e : LexError) : Text := e.formatAs e.source.name

/-- Whether the error can be shown, under whatever name. -/
def check (e : LexError) : Except Extent.RunError Unit := (e.snippet e.source.name).check

end LexError

/-- An unexpected token. -/
structure ParseError where
  /-- The message. -/
  message : Text
  /-- Where the token stands. -/
  span : Span
  /-- The source it is in. -/
  source : Source
deriving DecidableEq, Repr

namespace ParseError

/-- The columns at fault: all of a span that stays on its line, and the rest
of the line for a span that leaves it. -/
def width (e : ParseError) : Int :=
  if e.span.stop.line = e.span.start.line then
    max 1 (e.span.stop.column - e.span.start.column)
  else e.source.text.length

/-- The snippet of an error, under a given name of its source. -/
def snippet (e : ParseError) (name : Text) : Snippet where
  message := e.message
  source := e.source.text
  name := name
  line := e.span.start.line
  column := e.span.start.column
  width := e.width

/-- The error shown in its source, under a given name. -/
def formatAs (e : ParseError) (name : Text) : Text := (e.snippet name).render

/-- The error shown in its source. -/
def format (e : ParseError) : Text := e.formatAs e.source.name

/-- Whether the error can be shown, under whatever name. -/
def check (e : ParseError) : Except Extent.RunError Unit := (e.snippet e.source.name).check

end ParseError

end Asl
