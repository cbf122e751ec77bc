import Asl.Text

/-!
# Paths

A path is a root and the names below it. Reading one drops empty names and
the name `.`, so that two spellings of a path that differ in doubled or
trailing slashes are one path; the name `..` stays, since what it leads to
is for the file system to say. A path that starts with exactly two slashes
keeps both.
-/

namespace Asl

/-- A path. -/
structure Path where
  /-- The number of slashes it starts with: none, one or two. -/
  slashes : Nat
  /-- The names from the root on. -/
  names : List Text
deriving DecidableEq, Repr

namespace Path

/-- The pieces of a text between its slashes. -/
def pieces : Text → List Text
  | [] => [[]]
  | c :: t =>
    match pieces t with
    | [] => [[c]]
    | p :: ps => if c = '/' then [] :: p :: ps else (c :: p) :: ps

/-- The path a text spells. -/
def ofText (t : Text) : Path :=
  let leading := (t.takeWhile (· = '/')).length
  { slashes := if leading ≤ 2 then leading else 1
    names := (pieces t).filter fun p => p ≠ [] ∧ p ≠ ['.'] }

/-- The spelling of a path; the path without root and names is `.`. -/
def toText (p : Path) : Text :=
  if p.slashes = 0 ∧ p.names = [] then ['.']
  else List.replicate p.slashes '/' ++ Text.join ['/'] p.names

/-- The path without its last name. -/
def parent (p : Path) : Path := { p with names := p.names.dropLast }

/-- The path with one more name. -/
def child (p : Path) (name : Text) : Path := { p with names := p.names ++ [name] }

/-- Whether a path holds the character no file name can hold. -/
def holdsNul (p : Path) : Bool := p.names.any fun n => n.contains '\x00'

end Path

end Asl
