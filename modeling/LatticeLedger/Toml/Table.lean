/-!
# Tables

A document is a tree of tables. What may still be added to a table depends on how it came to be:
an inline table is complete where it stands, a table with a header of its own takes no dotted keys
from outside and no second header, and a table that is only implied may yet get its header.
-/

namespace LatticeLedger.Toml

/-- How a table came to be. -/
inductive Origin
  /-- By a header of its own, or as the root. -/
  | header
  /-- As part of the path of a header. -/
  | implied
  /-- As part of a dotted key. -/
  | dotted
  /-- Between braces. -/
  | inline
  deriving DecidableEq, Repr

/-- A value of a document. Of floats and date-times nothing is kept but that they are valid. -/
inductive Value
  | string (text : String)
  | integer (n : Int)
  | float
  | boolean (b : Bool)
  | dateTime
  | array (items : List Value)
  /-- The tables that share a header in double brackets, latest first. -/
  | tables (latestFirst : List Value)
  | table (origin : Origin) (entries : List (String × Value))
  deriving Repr

/-- The entries of a table, in the order in which they were added. -/
abbrev Entries := List (String × Value)

namespace Entries

/-- Sets the value at a key. -/
def set (key : String) (value : Value) : Entries → Entries
  | [] => [(key, value)]
  | entry :: rest => if entry.1 = key then (key, value) :: rest else entry :: set key value rest

/-- Adds a value at a key that is not taken. -/
def add? (key : String) (value : Value) (entries : Entries) : Option Entries :=
  if (entries.lookup key).isNone then some (entries.set key value) else none

/-- Changes the table at the end of a path. Tables that are missing on the way are made; a path
of a dotted key does not lead through tables with a header of their own, and no path leads through
anything that is not open. -/
def descend (dotted : Bool) (change : Origin → Entries → Option Entries) :
    List String → Origin → Entries → Option Entries
  | [], origin, entries => change origin entries
  | key :: path, _, entries =>
    match entries.lookup key with
    | none => do
      let origin := if dotted then .dotted else .implied
      let inner ← descend dotted change path origin []
      return entries.set key (.table origin inner)
    | some (.table origin inner) =>
      if origin = .inline ∨ (dotted ∧ origin = .header) then none
      else do
        let inner ← descend dotted change path origin inner
        return entries.set key (.table origin inner)
    | some (.tables (.table origin inner :: earlier)) => do
      let inner ← descend dotted change path origin inner
      return entries.set key (.tables (.table origin inner :: earlier))
    | some _ => none

/-- Adds a value under a dotted key, seen from the table in which the key is written. A path of
several keys must end in a table that dotted keys made. -/
def assign? (path : List String) (key : String) (value : Value) (origin : Origin)
    (entries : Entries) : Option Entries :=
  descend true
    (fun origin entries =>
      if (origin == .dotted) == path.isEmpty then none else entries.add? key value)
    path origin entries

/-- Opens the table of a header. -/
def openTable? (path : List String) (key : String) (entries : Entries) : Option Entries :=
  descend false
    (fun _ entries =>
      match entries.lookup key with
      | none => some (entries.set key (.table .header []))
      | some (.table .implied inner) => some (entries.set key (.table .header inner))
      | some _ => none)
    path .header entries

/-- Opens a further table of a header in double brackets. -/
def openElement? (path : List String) (key : String) (entries : Entries) : Option Entries :=
  descend false
    (fun _ entries =>
      match entries.lookup key with
      | none => some (entries.set key (.tables [.table .header []]))
      | some (.tables earlier) => some (entries.set key (.tables (.table .header [] :: earlier)))
      | some _ => none)
    path .header entries

end Entries

/-- A line of a document that says something. -/
inductive Statement
  /-- A value under a dotted key, of which the last part is kept apart. -/
  | assign (path : List String) (key : String) (value : Value)
  /-- A header in brackets. -/
  | header (path : List String) (key : String)
  /-- A header in double brackets. -/
  | element (path : List String) (key : String)

/-- A document in the making: the root's entries, and the path of the table that is open. -/
structure Draft where
  root : Entries := []
  openPath : List String := []

namespace Draft

/-- Carries out a statement. -/
def follow? (draft : Draft) : Statement → Option Draft
  | .assign path key value => do
    let root ← draft.root.descend false (Entries.assign? path key value) draft.openPath .header
    return { draft with root }
  | .header path key => do return ⟨← draft.root.openTable? path key, path ++ [key]⟩
  | .element path key => do return ⟨← draft.root.openElement? path key, path ++ [key]⟩

end Draft

/-- The root table of a list of statements. -/
def Entries.ofStatements? (statements : List Statement) : Option Entries :=
  (statements.foldlM Draft.follow? {}).map (·.root)

/-- The inline table of a list of dotted keys with their values. -/
def Value.inlineTable? (pairs : List (List String × String × Value)) : Option Value :=
  (pairs.foldlM (fun entries (path, key, value) =>
    Entries.assign? path key value .inline entries) []).map (Value.table .inline)

end LatticeLedger.Toml
