import Asl.Text

/-!
# TOML values and tables

The data a configuration document holds, and how statements add to it. A
table keeps its entries in the order they were written. Numbers with a
fractional part and dates are kept as they are spelled: nothing in this
library computes with them.

A key of several names leads through tables, which are made where they are
missing (`Table.modifyAt`). Where it meets an array of tables it goes on in
the last one; any other value bars the way.
-/

namespace Asl.Toml

/-- A value. -/
inductive Value where
  /-- A string, decoded. -/
  | string (t : Text)
  /-- A truth value. -/
  | boolean (b : Bool)
  /-- An integer. -/
  | integer (n : Int)
  /-- A floating-point number, as it is spelled. -/
  | float (spelling : Text)
  /-- A date, a time or both, as it is spelled. -/
  | moment (spelling : Text)
  /-- An array. -/
  | array (items : List Value)
  /-- A table, with its entries in order. -/
  | table (entries : List (Text × Value))
deriving Inhabited, Repr

/-- The entries of a table. -/
abbrev Table := List (Text × Value)

/-- A key: one name, or several joined by points. -/
abbrev Key := List Text

namespace Value

/-- Whether a value is an array or a table. -/
def isContainer : Value → Bool
  | array _ => true
  | table _ => true
  | _ => false

end Value

namespace Table

/-- The table with the value of an existing name replaced. -/
def replace (t : Table) (name : Text) (v : Value) : Table :=
  t.map fun e => if e.1 = name then (name, v) else e

/-- The table with a value added under a new name; a name is given one value
only. -/
def insertNew? (name : Text) (v : Value) (t : Table) : Option Table :=
  match t.lookup name with
  | none => some (t ++ [(name, v)])
  | some _ => none

/-- The table with one more table in the array under a name. -/
def appendTable? (name : Text) (t : Table) : Option Table :=
  match t.lookup name with
  | none => some (t ++ [(name, .array [.table []])])
  | some (.array items) => some (t.replace name (.array (items ++ [.table []])))
  | some _ => none

/-- The table changed by `f` at the end of a key. `throughArrays` says
whether an array of tables on the way stands for its last table. -/
def modifyAt (throughArrays : Bool) (f : Table → Option Table) : Key → Table → Option Table
  | [], t => f t
  | name :: key, t =>
    match t.lookup name with
    | none => (modifyAt throughArrays f key []).map fun s => t ++ [(name, .table s)]
    | some (.table s) =>
      (modifyAt throughArrays f key s).map fun s' => t.replace name (.table s')
    | some (.array items) =>
      match throughArrays, items.getLast? with
      | true, some (.table s) =>
        (modifyAt throughArrays f key s).map fun s' =>
          t.replace name (.array (items.dropLast ++ [.table s']))
      | _, _ => none
    | some _ => none

end Table

/-- A document being read: what it holds so far, and which of its tables may
still be added to. -/
structure Document where
  /-- The entries. -/
  root : Table
  /-- The table that key-value lines belong to. -/
  header : Key
  /-- The tables that have been declared, and cannot be again. -/
  declared : List Key
  /-- The tables that dotted keys made in this section, to be closed to
  declaration when the next one begins. -/
  opened : List Key
  /-- The arrays and tables written as values, which take no additions. -/
  sealed : List Key
deriving Inhabited, Repr

/-- Whether a key is, or lies below, one of some keys. -/
def liesIn (keys : List Key) (key : Key) : Bool := keys.any fun k => k.isPrefixOf key

namespace Document

/-- The document before its first line. -/
def empty : Document := ⟨[], [], [], [], []⟩

/-- The beginning of a section: tables opened by dotted keys count as
declared from here on. -/
def closeSection (d : Document) : Document :=
  { d with declared := d.opened ++ d.declared, opened := [] }

/-- The document after the header of a table. -/
def declareTable? (d : Document) (key : Key) : Option Document :=
  if d.declared.contains key || liesIn d.sealed key then none
  else
    (Table.modifyAt true some key d.root).map fun root =>
      { d with root := root, header := key, declared := key :: d.declared }

/-- The document after the header of a table in an array. What was declared
below the table before it may be declared anew. -/
def declareArray? (d : Document) (key : Key) : Option Document :=
  if liesIn d.sealed key then none
  else
    match key.getLast? with
    | none => none
    | some name =>
      (Table.modifyAt true (Table.appendTable? name) key.dropLast d.root).map fun root =>
        { d with
          root := root
          header := key
          declared := key :: d.declared.filter fun k => !key.isPrefixOf k
          sealed := d.sealed.filter fun k => !key.isPrefixOf k }

/-- The keys that lead to a dotted key, shortest first. -/
def stems : Key → List Key
  | [] => []
  | [_] => []
  | name :: key => [name] :: (stems key).map (name :: ·)

/-- The document after a line that gives a key its value. -/
def assign? (d : Document) (key : Key) (v : Value) : Option Document :=
  let above := (stems key).map (d.header ++ ·)
  match key.getLast? with
  | none => none
  | some name =>
    let parent := d.header ++ key.dropLast
    if above.any d.declared.contains || liesIn d.sealed parent then none
    else
      (Table.modifyAt true (Table.insertNew? name v) parent d.root).map fun root =>
        { d with
          root := root
          opened := above ++ d.opened
          sealed := if v.isContainer then (d.header ++ key) :: d.sealed else d.sealed }

end Document

/-- A table written as a value, being read. -/
structure InlineTable where
  /-- The entries so far. -/
  entries : Table
  /-- The arrays and tables among them, which take no additions. -/
  sealed : List Key
deriving Inhabited, Repr

namespace InlineTable

/-- The table with one more entry. -/
def assign? (d : InlineTable) (key : Key) (v : Value) : Option InlineTable :=
  match key.getLast? with
  | none => none
  | some name =>
    if liesIn d.sealed key then none
    else
      (Table.modifyAt false (Table.insertNew? name v) key.dropLast d.entries).map fun entries =>
        { entries := entries
          sealed := if v.isContainer then key :: d.sealed else d.sealed }

end InlineTable

end Asl.Toml
