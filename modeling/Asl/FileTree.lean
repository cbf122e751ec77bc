import Asl.Path
import Asl.Text.Quoted
import Asl.Text.Utf8

/-!
# Files

What a program can learn of the file system, and how it fails. `Files` is
the interface: what stands at a path, and whether a path can be opened for
writing. Everything the program decides is a function of these two.

`FileTree` is a file system in memory: a working directory with files and
directories below it. A path is walked name by name, as POSIX has it: each
step needs a directory to start from, a name of at most 255 bytes, and an
entry of that name. Above the working directory there are directories, but
nothing is known of what they hold.
-/

namespace Asl

/-- Why a path cannot be used. -/
inductive FileError where
  /-- There is no entry of that name. -/
  | notFound
  /-- A name is looked up in something that is no directory. -/
  | notDirectory
  /-- A directory is used as a file. -/
  | isDirectory
  /-- A name or the whole path is too long. -/
  | nameTooLong
  /-- The path holds `U+0000`. -/
  | embeddedNul
deriving DecidableEq, Repr

/-- The wording of a failure at a path. -/
def FileError.message (e : FileError) (p : Path) : Text :=
  let numbered (number : Nat) (wording : String) : Text :=
    "[Errno ".toList ++ Text.ofNat number ++ "] ".toList ++ wording.toList ++ ": ".toList
      ++ Text.quoted p.toText
  match e with
  | notFound => numbered 2 "No such file or directory"
  | notDirectory => numbered 20 "Not a directory"
  | isDirectory => numbered 21 "Is a directory"
  | nameTooLong => numbered 36 "File name too long"
  | embeddedNul => "embedded null byte".toList

/-- What can stand at a path. -/
inductive Entry where
  /-- A directory. -/
  | directory
  /-- A file with its contents. -/
  | file (contents : Bytes)
deriving DecidableEq, Repr

/-- A view of the file system. -/
structure Files where
  /-- What stands at a path. -/
  look : Path → Except FileError Entry
  /-- Whether a path can be opened for writing. -/
  writable : Path → Except FileError Unit

namespace Files

/-- The contents of the file at a path. -/
def read (f : Files) (p : Path) : Except FileError Bytes :=
  match f.look p with
  | .ok (.file contents) => .ok contents
  | .ok .directory => .error .isDirectory
  | .error e => .error e

/-- The contents of the file at a path, or nothing where there is no file.
A path that is too long is a failure even here. -/
def readIfFile (f : Files) (p : Path) : Except FileError (Option Bytes) :=
  match f.look p with
  | .ok (.file contents) => .ok (some contents)
  | .error .nameTooLong => .error .nameTooLong
  | _ => .ok none

end Files

/-- A working directory. -/
structure FileTree where
  /-- The directories below it, by their names from there on. -/
  directories : List (List Text)
  /-- The files below it, likewise, with their contents. -/
  files : List (List Text × Bytes)
deriving DecidableEq, Repr

namespace FileTree

/-- The greatest length of a name, in bytes. -/
def maxName : Nat := 255

/-- The length in bytes from which on a path is too long. -/
def maxPath : Nat := 4096

/-- Where a walk has come to. -/
inductive Place where
  /-- A directory above the working directory, or otherwise outside it. -/
  | outside
  /-- A directory inside, by the names that lead there. -/
  | inside (names : List Text)
  /-- A file inside, likewise. -/
  | file (names : List Text) (contents : Bytes)
deriving DecidableEq, Repr

/-- The place of an entry inside. -/
def place? (tree : FileTree) (names : List Text) : Option Place :=
  match tree.files.lookup names with
  | some contents => some (.file names contents)
  | none => if names ∈ tree.directories then some (.inside names) else none

/-- The directory above a place. -/
def up : Place → Place
  | .inside (n :: ns) => .inside (n :: ns).dropLast
  | _ => .outside

/-- One name further. -/
def enter (tree : FileTree) (p : Place) (name : Text) : Except FileError Place :=
  match p with
  | .file _ _ => .error .notDirectory
  | _ =>
    if maxName < (Utf8.encode name).length then .error .nameTooLong
    else if name = ['.', '.'] then .ok (up p)
    else
      match p with
      | .inside names =>
        match tree.place? (names ++ [name]) with
        | some q => .ok q
        | none => .error .notFound
      | _ => .error .notFound

/-- A walk along names. -/
def walk (tree : FileTree) (p : Place) : List Text → Except FileError Place
  | [] => .ok p
  | name :: names =>
    match tree.enter p name with
    | .ok q => tree.walk q names
    | .error e => .error e

/-- Where a path starts: at the working directory, or outside it. -/
def origin (p : Path) : Place := if p.slashes = 0 then .inside [] else .outside

/-- The failure of a path that no walk is needed for. -/
def unusable? (p : Path) : Option FileError :=
  if p.holdsNul then some .embeddedNul
  else if maxPath ≤ (Utf8.encode p.toText).length then some .nameTooLong
  else none

/-- What stands at a path. -/
def look (tree : FileTree) (p : Path) : Except FileError Entry :=
  match unusable? p with
  | some e => .error e
  | none =>
    match tree.walk (origin p) p.names with
    | .ok (.file _ contents) => .ok (.file contents)
    | .ok _ => .ok .directory
    | .error e => .error e

/-- The place of a file to be written: a file that is there, or a new one
in a directory that is. Outside the working directory nothing is recorded,
and the place is `none`. -/
def target (tree : FileTree) (p : Path) : Except FileError (Option (List Text)) :=
  match unusable? p with
  | some e => .error e
  | none =>
    match p.names.getLast? with
    | none => .error .isDirectory
    | some name =>
      match tree.walk (origin p) p.names.dropLast with
      | .error e => .error e
      | .ok dir =>
        match tree.enter dir name, dir with
        | .ok (.file names _), _ => .ok (some names)
        | .ok _, _ => .error .isDirectory
        | .error .notFound, .inside names => .ok (some (names ++ [name]))
        | .error .notFound, _ => .ok none
        | .error e, _ => .error e

/-- The tree as a program sees it. -/
def view (tree : FileTree) : Files where
  look := tree.look
  writable p := (tree.target p).map fun _ => ()

/-- The tree after a text was written to a path; unchanged if that is not
possible. -/
def write (tree : FileTree) (p : Path) (t : Text) : FileTree :=
  match tree.target p with
  | .ok (some names) =>
    { tree with
      files := (names, Utf8.encode t) :: tree.files.filter fun f => f.1 ≠ names }
  | _ => tree

/-- The files of a tree that another does not have, or has with other
contents. -/
def changesFrom (tree before : FileTree) : List (List Text × Bytes) :=
  tree.files.filter fun f => before.files.lookup f.1 ≠ some f.2

/-- An empty working directory. -/
def empty : FileTree := ⟨[[]], []⟩

/-- The names that lead to the directories above an entry, the working
directory first. -/
def ancestors : List Text → List (List Text)
  | [] => []
  | n :: ns => [] :: (ancestors ns).map (n :: ·)

/-- The tree with a directory added, and those above it. -/
def addDirectory (tree : FileTree) (names : List Text) : FileTree :=
  { tree with directories := names :: ancestors names ++ tree.directories }

/-- The tree with a file added, and the directories above it. -/
def addFile (tree : FileTree) (names : List Text) (contents : Bytes) : FileTree :=
  { directories := ancestors names ++ tree.directories
    files := (names, contents) :: tree.files }

end FileTree

end Asl
