import LatticeLedger.Ledger.Record
import LatticeLedger.Ordered.Set

/-!
# The append-only store

A store grows by one record at a time. Every record keeps its contract, positions never go
back, and no entry id occurs twice. There is no way to change or remove a record. Beside its
records a store keeps the two facts that decide about the next one, the last position and the
ids in use, so that no operation has to look through the records.

An operation is an `Update`: it changes the store step by step and may stop in between. Callers
who hold a store as a value run an update by `Update.attempt`.
-/

namespace LatticeLedger

/-- Why the store turns a record away. -/
inductive StoreError
  /-- The record breaks its contract. -/
  | violation (broken : Violation)
  /-- A guarded step has no position. -/
  | unplaced
  /-- The record's position lies before the last one. -/
  | outOfOrder (last got : UInt64)
  /-- The record's entry id is in use. -/
  | duplicateId (id : String)
  /-- Records are never overwritten. -/
  | appendOnly
  deriving DecidableEq, Repr

/-- The wording of a store error. -/
def StoreError.message : StoreError → String
  | violation broken => broken.message
  | unplaced => "ledger record guarded_context.t: committed steps must carry t"
  | outOfOrder last got => s!"ledger t={got.toNat} precedes last appended t={last.toNat}"
  | duplicateId id => "duplicate key in ledger_entries: " ++ id
  | appendOnly => "ledger_entries is append-only"

/-- A ledger in memory. -/
structure Store where
  /-- The records in the order in which they were appended. -/
  entries : List Record := []
  /-- The last position that a record carries. -/
  lastPosition? : Option UInt64 := none
  /-- The entry ids in use. -/
  ids : OrderedSet String := ∅
  deriving DecidableEq, Repr

namespace Store

/-- The store without records. -/
def empty : Store := {}

/-- The number of records. -/
def size (store : Store) : Nat := store.entries.length

/-- Asks that a position does not lie before the last one. -/
def checkPosition (store : Store) (t : UInt64) : Except StoreError Unit :=
  whenPresent (fun last => require (last ≤ t) (.outOfOrder last t)) store.lastPosition?

/-- Asks that an entry id is not in use. -/
def checkId (store : Store) (id : String) : Except StoreError Unit :=
  require (¬store.ids.contains id) (.duplicateId id)

/-- A change of a store that may stop with an error. What was changed before the error stays
changed. -/
abbrev Update (α : Type) := ExceptT StoreError (StateM Store) α

namespace Update

/-- The answer of an update to a store, and the store that it leaves behind. -/
def on {α : Type} (update : Update α) (store : Store) : Except StoreError α × Store :=
  update.run.run store

/-- Takes an entry id into use, unless it is in use already. -/
def reserveId (id : String) : Update Unit := do
  (← get).checkId id
  modify fun store => { store with ids := store.ids.insert id }

/-- Moves on to a position. -/
def moveTo (t : UInt64) : Update Unit :=
  modify fun store => { store with lastPosition? := some t }

/-- Adds a record at the end and gives the index at which it stands. The contract is checked
first, then the position, then the id. -/
def append (record : Record) : Update Nat := do
  record.check.mapError StoreError.violation
  whenPresent (← get).checkPosition record.t
  record.entryId.forM reserveId
  record.t.forM moveTo
  modify fun store => { store with entries := store.entries ++ [record] }
  return (← get).size - 1

/-- Logs a guarded step as committed; it must carry its position. -/
def appendStep (guarded : GuardedStep) (entryId : Option String) : Update Nat := do
  let t ← demand StoreError.unplaced guarded.t
  let record ← (Record.committedStep entryId t guarded).mapError StoreError.violation
  append record

/-- Logs the closing of a step. -/
def appendClosing (kind : String) (t : UInt64) (step : Option String) : Update Nat := do
  let record ← (Record.closing kind t step).mapError StoreError.violation
  append record

/-- Logs a checkpoint. -/
def appendCheckpoint (t : UInt64) : Update Nat := append (.checkpoint t)

/-- Replacing a record is refused, whatever the index and the record. -/
def attemptOverwrite (_index : Nat) (_record : Record) : Update Unit := throw .appendOnly

/-- Adds records one after the other, each of which must pass every rule of `append`. -/
def appendAll : List Record → Update Unit
  | [] => return
  | record :: rest => do
    let _ ← append record
    appendAll rest

/-- The answer of an update together with the changed store, unless there is an error. -/
def attempt {α : Type} (update : Update α) (store : Store) : Except StoreError (α × Store) :=
  match update.on store with
  | (.ok answer, changed) => .ok (answer, changed)
  | (.error error, _) => .error error

end Update

/-- The store with a record added at the end, and the index at which the record stands. -/
def append (store : Store) (record : Record) : Except StoreError (Nat × Store) :=
  (Update.append record).attempt store

/-- The store with a guarded step logged as committed. -/
def appendStep (store : Store) (guarded : GuardedStep) (entryId : Option String) :
    Except StoreError (Nat × Store) :=
  (Update.appendStep guarded entryId).attempt store

/-- The store with the closing of a step logged. -/
def appendClosing (store : Store) (kind : String) (t : UInt64) (step : Option String) :
    Except StoreError (Nat × Store) :=
  (Update.appendClosing kind t step).attempt store

/-- The store with a checkpoint logged. -/
def appendCheckpoint (store : Store) (t : UInt64) : Except StoreError (Nat × Store) :=
  (Update.appendCheckpoint t).attempt store

/-- No store has a record replaced. -/
def attemptOverwrite (store : Store) (index : Nat) (record : Record) : Except StoreError Store :=
  ((Update.attemptOverwrite index record).attempt store).map (·.2)

/-- The store of a list of records, each of which must pass every rule of `append`. -/
def ofRecords (records : List Record) : Except StoreError Store :=
  ((Update.appendAll records).attempt empty).map (·.2)

end Store

end LatticeLedger
