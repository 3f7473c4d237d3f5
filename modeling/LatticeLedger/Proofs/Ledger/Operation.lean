import LatticeLedger.Ledger.Store
import Mathlib.Data.List.Forall2

/-!
# What one operation does to a store

Each of the five operations first builds a record, without a look at the store, and then asks the
store to accept it. `Store.perform_cases` says that nothing else can happen: either the record is
accepted and becomes the last one, or there is an error and the store is left exactly as it was.
Every statement on runs rests on this case distinction.
-/

namespace LatticeLedger

/-- A record is accepted unchanged if it keeps its contract. -/
theorem Record.checked_eq_ok_iff {record found : Record} :
    record.checked = .ok found ↔ record.check = .ok () ∧ record = found :=
  bind_return_eq_ok_iff

namespace Store

/-- Whether a store accepts a record, said without changing anything. -/
def accept (store : Store) (record : Record) : Except StoreError Unit := do
  record.check.mapError .violation
  whenPresent store.checkPosition record.t
  whenPresent store.checkId record.entryId

/-- The store after an accepted record. -/
def push (store : Store) (record : Record) : Store where
  entries := store.entries ++ [record]
  lastPosition? := record.t.or store.lastPosition?
  ids := record.entryId.elim store.ids store.ids.insert

/-- A record is accepted if and only if it keeps its contract, does not lie before the last
position, and brings no id that is in use. -/
theorem accept_eq_ok_iff {store : Store} {record : Record} :
    store.accept record = .ok () ↔ record.check = .ok () ∧
      (∀ last t, store.lastPosition? = some last → record.t = some t → last ≤ t) ∧
      ∀ id, record.entryId = some id → id ∉ store.ids := by
  have hposition : whenPresent store.checkPosition record.t = .ok () ↔
      ∀ last t, store.lastPosition? = some last → record.t = some t → last ≤ t := by
    simp only [whenPresent_eq_ok_iff, checkPosition, require_eq_ok_iff]
    exact ⟨fun h last t hlast ht => h t ht last hlast, fun h t ht last hlast => h last t hlast ht⟩
  have hid : whenPresent store.checkId record.entryId = .ok () ↔
      ∀ id, record.entryId = some id → id ∉ store.ids := by
    simp only [whenPresent_eq_ok_iff, checkId, require_eq_ok_iff, OrderedSet.contains_iff_mem]
  rw [← hposition, ← hid, accept]
  constructor
  · intro h
    obtain ⟨_, hcheck, h⟩ := bind_eq_ok_iff.1 h
    obtain ⟨_, ht, h⟩ := bind_eq_ok_iff.1 h
    exact ⟨mapError_eq_ok_iff.1 hcheck, ht, h⟩
  · rintro ⟨hcheck, ht, h⟩
    refine bind_eq_ok_iff.2 ⟨(), mapError_eq_ok_iff.2 hcheck, ?_⟩
    exact bind_eq_ok_iff.2 ⟨(), ht, h⟩

namespace Update

variable {α β : Type}

/-- An answer leaves the store as it was. -/
theorem on_pure {answer : α} {store : Store} :
    (pure answer : Update α).on store = (.ok answer, store) := rfl

/-- What an update left behind is what the next one finds, unless there was an error. -/
theorem on_bind {update : Update α} {next : α → Update β} {store : Store} :
    (update >>= next).on store =
      match update.on store with
      | (.ok answer, changed) => (next answer).on changed
      | (.error error, changed) => (.error error, changed) := by
  simp only [on, ExceptT.run_bind, StateT.run_bind]
  rcases StateT.run update.run store with ⟨_ | _, _⟩ <;> rfl

/-- A check leaves the store as it was, also if it fails. -/
theorem on_lift {check : Except StoreError α} {store : Store} :
    (liftM check : Update α).on store = (check, store) := rfl

/-- Looking at the store leaves it as it was. -/
theorem on_get {store : Store} : (get : Update Store).on store = (.ok store, store) := rfl

/-- A change is made to the store and cannot fail. -/
theorem on_modify {change : Store → Store} {store : Store} :
    (modify change : Update PUnit).on store = (.ok ⟨⟩, change store) := rfl

/-- What is made of an answer does not matter to the store. -/
theorem on_map {f : α → β} {update : Update α} {store : Store} :
    (f <$> update).on store = ((update.on store).1.map f, (update.on store).2) := by
  rw [map_eq_pure_bind, on_bind]
  rcases update.on store with ⟨_ | _, _⟩ <;> rfl

/-- Taking a present id into use fails before anything is changed, or adds it. -/
theorem on_forM_reserveId {id? : Option String} {store : Store} :
    (id?.forM reserveId).on store =
      match whenPresent store.checkId id? with
      | .ok () => (.ok (), { store with ids := id?.elim store.ids store.ids.insert })
      | .error error => (.error error, store) := by
  cases id? with
  | none => rfl
  | some id =>
    change (reserveId id).on store = match store.checkId id with
      | .ok () => (.ok (), { store with ids := store.ids.insert id })
      | .error error => (.error error, store)
    simp only [reserveId, on_bind, on_get, on_lift]
    cases store.checkId id <;> rfl

/-- Moving to a present position sets it, and to an absent one does nothing. -/
theorem on_forM_moveTo {t? : Option UInt64} {store : Store} :
    (t?.forM moveTo).on store =
      (.ok (), { store with lastPosition? := t?.or store.lastPosition? }) := by
  cases t? <;> rfl

/-- Appending either adds an accepted record or changes nothing, although its changes are made
one after the other between its checks. -/
theorem on_append {store : Store} {record : Record} :
    (append record).on store =
      match store.accept record with
      | .ok () => (.ok store.size, store.push record)
      | .error error => (.error error, store) := by
  simp only [append, accept, on_bind, on_get, on_lift]
  cases record.check with
  | error broken => rfl
  | ok _ =>
    simp only [mapError_ok]
    cases whenPresent store.checkPosition record.t with
    | error error => rfl
    | ok _ =>
      simp only [on_forM_reserveId]
      cases whenPresent store.checkId record.entryId with
      | error error => rfl
      | ok _ =>
        simp only [on_forM_moveTo, on_modify, on_pure]
        have hsize : (store.push record).size - 1 = store.size := by simp [push, size]
        change (Except.ok ((store.push record).size - 1), store.push record) = _
        rw [hsize]
        rfl

end Update

end Store

/-- A call on a store with its arguments. -/
inductive Operation
  | append (record : Record)
  | appendStep (guarded : GuardedStep) (entryId : Option String)
  | appendClosing (kind : String) (t : UInt64) (step : Option String)
  | appendCheckpoint (t : UInt64)
  | attemptOverwrite (index : Nat) (record : Record)

namespace Operation

/-- The update that a call runs. It answers with the index of the record that it added. -/
def update : Operation → Store.Update (Option Nat)
  | append record => some <$> Store.Update.append record
  | appendStep guarded entryId => some <$> Store.Update.appendStep guarded entryId
  | appendClosing kind t step => some <$> Store.Update.appendClosing kind t step
  | appendCheckpoint t => some <$> Store.Update.appendCheckpoint t
  | attemptOverwrite index record =>
    (fun _ => none) <$> Store.Update.attemptOverwrite index record

/-- The record that a call means to add, or the error with which it ends before it looks at the
store. -/
def record : Operation → Except StoreError Record
  | append record => .ok record
  | appendStep guarded entryId => do
    let t ← demand .unplaced guarded.t
    (Record.committedStep entryId t guarded).mapError .violation
  | appendClosing kind t step => (Record.closing kind t step).mapError .violation
  | appendCheckpoint t => .ok (.checkpoint t)
  | attemptOverwrite _ _ => .error .appendOnly

end Operation

namespace Store

/-- The answer to a call, and the store after it. -/
def perform (store : Store) (operation : Operation) : Except StoreError (Option Nat) × Store :=
  operation.update.on store

/-- The store after a sequence of calls, whatever their answers. -/
def run (store : Store) (operations : List Operation) : Store :=
  operations.foldl (fun store operation => (store.perform operation).2) store

/-- Every call is an attempt to append the record that it builds. -/
theorem perform_eq {store : Store} {operation : Operation} :
    store.perform operation =
      match operation.record with
      | .ok record =>
        match store.accept record with
        | .ok () => (.ok (some store.size), store.push record)
        | .error error => (.error error, store)
      | .error error => (.error error, store) := by
  have happend (record : Record) :
      (some <$> Update.append record).on store =
        match store.accept record with
        | .ok () => (.ok (some store.size), store.push record)
        | .error error => (.error error, store) := by
    rw [Update.on_map, Update.on_append]
    cases store.accept record <;> rfl
  cases operation with
  | append record => exact happend record
  | appendCheckpoint t => exact happend (.checkpoint t)
  | attemptOverwrite index record => rfl
  | appendClosing kind t step =>
    simp only [perform, Operation.update, Operation.record, Update.appendClosing, map_bind,
      Update.on_bind, Update.on_lift]
    cases Record.closing kind t step with
    | error broken => rfl
    | ok record => exact happend record
  | appendStep guarded entryId =>
    simp only [perform, Operation.update, Operation.record, Update.appendStep, map_bind,
      Update.on_bind, Update.on_lift]
    cases guarded.t with
    | none => rfl
    | some t =>
      simp only [demand, bind, Except.bind]
      cases Record.committedStep entryId t guarded with
      | error broken => rfl
      | ok record => exact happend record

/-- A call adds its record at the end and answers with its index, or it changes nothing. -/
theorem perform_cases (store : Store) (operation : Operation) :
    (∃ record, operation.record = .ok record ∧ store.accept record = .ok () ∧
      store.perform operation = (.ok (some store.size), store.push record)) ∨
    ∃ error, store.perform operation = (.error error, store) := by
  rw [perform_eq]
  cases hrecord : operation.record with
  | error error => exact .inr ⟨error, rfl⟩
  | ok record =>
    cases haccept : store.accept record with
    | error error => exact .inr ⟨error, by simp only [haccept]⟩
    | ok _ => exact .inl ⟨record, rfl, haccept, by simp only [haccept]⟩

/-- Without operations the store stays as it was. -/
@[simp] theorem run_nil {store : Store} : store.run [] = store := rfl

/-- A run goes on with the store that its first operation left behind. -/
@[simp] theorem run_cons {store : Store} {operation : Operation} {rest : List Operation} :
    store.run (operation :: rest) = (store.perform operation).2.run rest := rfl

/-- A run in two parts goes on with the store that the first part left behind. -/
@[simp] theorem run_append {store : Store} {first second : List Operation} :
    store.run (first ++ second) = (store.run first).run second :=
  List.foldl_append

/-- A property that every accepted record keeps holds after every run. -/
theorem run_induction {p : Store → Prop} {store : Store}
    (hpush : ∀ store record, p store → store.accept record = .ok () → p (store.push record))
    (hstart : p store) (operations : List Operation) : p (store.run operations) := by
  induction operations generalizing store with
  | nil => exact hstart
  | cons operation rest ih =>
    rw [run_cons]
    apply ih
    rcases store.perform_cases operation with ⟨record, -, haccept, heq⟩ | ⟨error, heq⟩
    · rw [heq]
      exact hpush store record hstart haccept
    · rwa [heq]

/-- The calls of a sequence that succeed, in their order. -/
def accepted (store : Store) : List Operation → List Operation
  | [] => []
  | operation :: rest =>
    match store.perform operation with
    | (.ok _, changed) => operation :: changed.accepted rest
    | (.error _, changed) => changed.accepted rest

/-- Accepted operations are among those that were made. -/
theorem mem_of_mem_accepted {store : Store} {operations : List Operation} {operation : Operation}
    (h : operation ∈ store.accepted operations) : operation ∈ operations := by
  induction operations generalizing store with
  | nil => exact h
  | cons first rest ih =>
    rw [accepted] at h
    split at h
    · rcases List.mem_cons.1 h with rfl | h
      · exact List.mem_cons_self
      · exact List.mem_cons_of_mem _ (ih h)
    · exact List.mem_cons_of_mem _ (ih h)

/-- What a run adds to a store are the records of its successful calls, in their order. -/
theorem entries_run (store : Store) (operations : List Operation) :
    ∃ records, (store.run operations).entries = store.entries ++ records ∧
      List.Forall₂ (fun operation record => operation.record = .ok record)
        (store.accepted operations) records := by
  induction operations generalizing store with
  | nil => exact ⟨[], (List.append_nil _).symm, .nil⟩
  | cons operation rest ih =>
    rcases store.perform_cases operation with ⟨record, hrecord, -, heq⟩ | ⟨error, heq⟩
    · obtain ⟨records, hentries, hrecords⟩ := ih (store.push record)
      refine ⟨record :: records, ?_, ?_⟩
      · rw [run_cons, heq, hentries, push, List.append_assoc, List.singleton_append]
      · simp only [accepted, heq]
        exact .cons hrecord hrecords
    · obtain ⟨records, hentries, hrecords⟩ := ih store
      refine ⟨records, ?_, ?_⟩
      · rw [run_cons, heq, hentries]
      · simp only [accepted, heq]
        exact hrecords

/-- Appending records one after the other leaves behind what the calls would, unless one of them
is turned away. -/
theorem Update.changed_of_on_appendAll {records : List Record} {start changed : Store}
    (h : (Update.appendAll records).on start = (.ok (), changed)) :
    changed = start.run (records.map .append) := by
  induction records generalizing start with
  | nil => exact (Prod.mk.inj h).2.symm
  | cons record rest ih =>
    have hperform : (start.perform (.append record)).2 = ((append record).on start).2 := by
      rw [perform, Operation.update, on_map]
    rw [List.map_cons, run_cons, hperform]
    rw [appendAll, on_bind] at h
    rcases hon : (append record).on start with ⟨error | index, after⟩
    · simp only [hon, Prod.mk.injEq, reduceCtorEq, false_and] at h
    · simp only [hon] at h
      exact ih h

/-- A store made of a list of records is one that the empty store becomes by appending them. -/
theorem eq_run_of_ofRecords {records : List Record} {store : Store}
    (h : ofRecords records = .ok store) : store = empty.run (records.map .append) := by
  apply Update.changed_of_on_appendAll
  rw [ofRecords, Update.attempt] at h
  rcases hon : (Update.appendAll records).on empty with ⟨error | answer, changed⟩
  · simp only [hon, Except.map, reduceCtorEq] at h
  · simp only [hon, Except.map, Except.ok.injEq] at h
    rw [h]

end Store

end LatticeLedger
