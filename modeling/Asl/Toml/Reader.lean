import Asl.Text.Lines
import Asl.Toml.Scalar

/-!
# Reading a TOML document

A document is a sequence of lines: headers of tables, headers of tables in
arrays, and keys with their values, each perhaps followed by a comment.
Arrays and tables written as values are read by mutual recursion; the fuel
that bounds it is computed from the length of the text, every second step
using up a character.
-/

namespace Asl.Toml

/-- The text after layout and comments, as they may stand between the items
of an array. -/
def skipLayout : Nat → Text → Except Error Text
  | 0, _ => .error .malformed
  | fuel + 1, t =>
    match t.dropWhile isLayout with
    | '#' :: u => do
      let v ← skipComment ('#' :: u)
      skipLayout fuel v
    | u => .ok u

/-- The text from the next item of an array on, or its end. -/
def nextItem (t : Text) : Except Error Text := skipLayout (t.length + 1) t

/-- The text after the equals sign between a key and its value. -/
def afterEquals : Text → Except Error Text
  | '=' :: t => .ok (skipBlanks t)
  | _ => .error .malformed

mutual

/-- A value. -/
def value : Nat → Text → Except Error (Value × Text)
  | 0, _ => .error .malformed
  | fuel + 1, t =>
    match t with
    | '[' :: u => do
      let (items, v) ← arrayItems fuel (← nextItem u)
      return (.array items, v)
    | '\x7b' :: u =>
      match skipBlanks u with
      | '\x7d' :: v => .ok (.table [], v)
      | v => do
        let (entries, w) ← tableEntries fuel ⟨[], []⟩ v
        return (.table entries, w)
    | _ => scalar t

/-- The items of an array up to its closing bracket. -/
def arrayItems : Nat → Text → Except Error (List Value × Text)
  | 0, _ => .error .malformed
  | fuel + 1, t =>
    match t with
    | ']' :: u => .ok ([], u)
    | _ => do
      let (item, u) ← value fuel t
      match ← nextItem u with
      | ']' :: v => return ([item], v)
      | ',' :: v =>
        let (items, w) ← arrayItems fuel (← nextItem v)
        return (item :: items, w)
      | _ => .error .malformed

/-- The entries of a table written as a value, up to its closing brace. -/
def tableEntries : Nat → InlineTable → Text → Except Error (Table × Text)
  | 0, _, _ => .error .malformed
  | fuel + 1, made, t => do
    let (k, u) ← key t
    let (v, w) ← value fuel (← afterEquals u)
    match made.assign? k v with
    | none => .error .malformed
    | some made' =>
      match skipBlanks w with
      | '\x7d' :: x => return (made'.entries, x)
      | ',' :: x => tableEntries fuel made' (skipBlanks x)
      | _ => .error .malformed

end

/-- A key, an equals sign and a value. -/
def keyValue (t : Text) : Except Error ((Key × Value) × Text) := do
  let (k, u) ← key t
  let v ← afterEquals u
  let (x, w) ← value (2 * v.length + 2) v
  return ((k, x), w)

/-- A step of a document that its rules may refuse. -/
def accept (d : Option Document) (t : Text) : Except Error (Document × Text) :=
  match d with
  | some d => .ok (d, t)
  | none => .error .malformed

/-- A header or a line with a value, up to where a comment may follow. -/
def statement (d : Document) (t : Text) : Except Error (Document × Text) :=
  match t with
  | '[' :: '[' :: u => do
    let (k, v) ← key (skipBlanks u)
    match v with
    | ']' :: ']' :: w => accept (d.closeSection.declareArray? k) w
    | _ => .error .malformed
  | '[' :: u => do
    let (k, v) ← key (skipBlanks u)
    match v with
    | ']' :: w => accept (d.closeSection.declareTable? k) w
    | _ => .error .malformed
  | '#' :: _ => .ok (d, t)
  | _ => do
    let ((k, v), w) ← keyValue t
    accept (d.assign? k v) w

/-- The lines of a document from here on. The fuel bounds their number. -/
def statements : Nat → Document → Text → Except Error Document
  | 0, _, _ => .error .malformed
  | fuel + 1, d, t =>
    match skipBlanks t with
    | [] => .ok d
    | '\n' :: u => statements fuel d u
    | u => do
      let (d', v) ← statement d u
      match ← skipComment (skipBlanks v) with
      | [] => return d'
      | '\n' :: w => statements fuel d' w
      | _ => .error .malformed

/-- The entries of a document. -/
def read (t : Text) : Except Error Table :=
  let t := Text.unifyCrLf t
  (statements (t.length + 1) .empty t).map Document.root

end Asl.Toml
