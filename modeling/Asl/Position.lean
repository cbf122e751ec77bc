import Asl.Text

/-!
# Positions

A position names a place in a source three ways at once: line and column,
both counted from one, and the offset, counted from zero. A line feed ends
a line and nothing else does.

The coordinates are integers and not natural numbers, because a position is
also something a client may hand in – to a diagnostic or a listing – and
nothing obliges it to lie inside a source.
-/

namespace Asl

/-- A place in a source. -/
structure Position where
  /-- The line, counted from one. -/
  line : Int
  /-- The column, counted from one. -/
  column : Int
  /-- The number of characters before the place. -/
  offset : Int
deriving DecidableEq, Repr

namespace Position

/-- The place before the first character of a source. -/
def start : Position := ⟨1, 1, 0⟩

/-- The place after one more character. -/
def advance (p : Position) (c : Char) : Position :=
  if c = '\n' then ⟨p.line + 1, 1, p.offset + 1⟩ else ⟨p.line, p.column + 1, p.offset + 1⟩

/-- The place after a stretch of text. -/
def after (p : Position) (t : Text) : Position := t.foldl advance p

@[simp] theorem after_nil (p : Position) : p.after [] = p := rfl

@[simp] theorem after_cons (p : Position) (c : Char) (t : Text) :
    p.after (c :: t) = (p.advance c).after t := rfl

/-- Two stretches are passed one after the other. -/
theorem after_append (p : Position) (t u : Text) :
    p.after (t ++ u) = (p.after t).after u :=
  List.foldl_append

end Position

/-- A stretch of a source. -/
structure Span where
  /-- The place of its first character. -/
  start : Position
  /-- The place after its last character. -/
  stop : Position
deriving DecidableEq, Repr

/-- A named text to be analysed. -/
structure Source where
  /-- The name reports give it. -/
  name : Text
  /-- Its characters. -/
  text : Text
deriving DecidableEq, Repr

/-- The name of a source that is given none. -/
def Source.defaultName : Text := "input.asl".toList

end Asl
