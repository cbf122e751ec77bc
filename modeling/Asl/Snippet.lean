import Asl.Extent
import Asl.Position
import Asl.Text.Lines

/-!
# Error snippets

A snippet shows an error in its source: the message, the place, the line it
stands on with its number in a gutter, and carets under the columns at
fault.

The line shown is the one of that number when the source is split as a page
is (`Text.lines`), without its trailing line feeds and then without its
trailing carriage returns; a number no line has shows an empty line. There
is always one caret, and beyond that the carets stay within the line.

The caret row is as long as the column and the width make it, so a position
from outside a source can ask for a row that cannot be had. `Snippet.check`
tells; a position inside a source never does.
-/

namespace Asl

/-- What a snippet is drawn from. -/
structure Snippet where
  /-- The message. -/
  message : Text
  /-- The text the error is in. -/
  source : Text
  /-- The name of the source. -/
  name : Text
  /-- The line to show, counted from one. -/
  line : Int
  /-- The column of the first caret, counted from one. -/
  column : Int
  /-- How many columns are at fault. -/
  width : Int
deriving DecidableEq, Repr

namespace Snippet

/-- The line of a text with a given number, counted from one; empty if there
is none. -/
def lineOf (source : Text) (line : Int) : Text :=
  if line ≤ 0 then []
  else
    let shown := (Text.lines source).getD (line - 1).toNat []
    Text.dropTrailing '\r' (Text.dropTrailing '\n' shown)

/-- The line a snippet shows. -/
def shownLine (s : Snippet) : Text := lineOf s.source s.line

/-- The number of carets. -/
def caretCount (s : Snippet) : Int :=
  max 1 (min s.width (s.shownLine.length - s.column + 1))

/-- The row of carets, after the blanks that bring it under the line. -/
def caretRow (s : Snippet) : Text :=
  List.replicate (s.column - 1).toNat ' ' ++ List.replicate s.caretCount.toNat '^'

/-- The gutter of a row that shows no source line. -/
def blankGutter (s : Snippet) : Text :=
  List.replicate ((Text.ofInt s.line).length + 1) ' '

/-- The whole snippet: five rows, without a final line feed. -/
def render (s : Snippet) : Text :=
  Text.join ['\n']
    ["error: ".toList ++ s.message,
     s.blankGutter ++ "--> ".toList ++ s.name ++ [':'] ++ Text.ofInt s.line ++ [':']
       ++ Text.ofInt s.column,
     s.blankGutter ++ ['|'],
     Text.ofInt s.line ++ " | ".toList ++ s.shownLine,
     s.blankGutter ++ "| ".toList ++ s.caretRow]

/-- Whether the caret row can be had: the blanks are laid out first, then the
carets. -/
def check (s : Snippet) : Except Extent.RunError Unit := do
  Extent.checkRun (s.column - 1)
  Extent.checkRun s.caretCount

end Snippet

end Asl
