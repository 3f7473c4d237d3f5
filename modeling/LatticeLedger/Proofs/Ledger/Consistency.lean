import LatticeLedger.Proofs.Ledger.Operation

/-!
# A store agrees with its records

The last position and the ids in use are kept beside the records. They are right only if every
operation updates them together with the records and none leaves one of them behind. This file
states the agreement as an invariant, proves that an accepted record keeps it, and concludes that
it holds after every sequence of calls, rejected ones included.
-/

namespace LatticeLedger

namespace Store

/-- The positions of the records that carry one, in storage order. -/
def positions (store : Store) : List UInt64 := store.entries.filterMap (·.t)

/-- The ids of the records that carry one, in storage order. -/
def entryIds (store : Store) : List String := store.entries.filterMap (·.entryId)

/-- Every record keeps its contract, positions never go back, no id occurs twice, and what is
kept beside the records is what they say. -/
structure Consistent (store : Store) : Prop where
  checked : ∀ record ∈ store.entries, record.check = .ok ()
  sorted : store.positions.Pairwise (· ≤ ·)
  unique : store.entryIds.Nodup
  last : store.lastPosition? = store.positions.getLast?
  ids : ∀ id, id ∈ store.ids ↔ id ∈ store.entryIds

/-- The position of a new record, if there is one, comes last. -/
theorem positions_push {store : Store} {record : Record} :
    (store.push record).positions = store.positions ++ record.t.toList := by
  simp only [positions, push, List.filterMap_append]
  cases h : record.t <;> simp [h]

/-- The id of a new record, if there is one, comes last. -/
theorem entryIds_push {store : Store} {record : Record} :
    (store.push record).entryIds = store.entryIds ++ record.entryId.toList := by
  simp only [entryIds, push, List.filterMap_append]
  cases h : record.entryId <;> simp [h]

/-- The ids in use after a new record are the old ones and its own. -/
theorem mem_ids_push {store : Store} {record : Record} {id : String} :
    id ∈ (store.push record).ids ↔ id ∈ store.ids ∨ id ∈ record.entryId.toList := by
  simp only [push]
  cases record.entryId with
  | none => simp
  | some used => simp [or_comm]

/-- The store without records is consistent. -/
theorem consistent_empty : Consistent empty where
  checked := by simp [empty]
  sorted := List.Pairwise.nil
  unique := List.Pairwise.nil
  last := rfl
  ids := by simp [empty, entryIds]

/-- In a consistent store the last position is the greatest. -/
theorem Consistent.le_last {store : Store} (h : store.Consistent) {last t : UInt64}
    (hlast : store.lastPosition? = some last) (ht : t ∈ store.positions) : t ≤ last := by
  rw [h.last] at hlast
  obtain ⟨earlier, heq⟩ := List.getLast?_eq_some_iff.1 hlast
  have hsorted := h.sorted
  rw [heq] at hsorted ht
  rcases List.mem_append.1 ht with hmem | hmem
  · exact (List.pairwise_append.1 hsorted).2.2 t hmem last (List.mem_singleton_self last)
  · exact UInt64.le_of_eq (List.mem_singleton.1 hmem)

/-- There is no last position exactly as long as no record carries one. -/
theorem Consistent.lastPosition?_eq_none_iff {store : Store} (h : store.Consistent) :
    store.lastPosition? = none ↔ ∀ record ∈ store.entries, record.t = none := by
  rw [h.last, List.getLast?_eq_none_iff, positions, List.filterMap_eq_nil_iff]

/-- An accepted record keeps a store consistent. -/
theorem Consistent.push {store : Store} {record : Record} (h : store.Consistent)
    (haccept : store.accept record = .ok ()) : (store.push record).Consistent := by
  obtain ⟨hcheck, hposition, hid⟩ := accept_eq_ok_iff.1 haccept
  constructor
  case checked =>
    intro other hmem
    rcases List.mem_append.1 hmem with hmem | hmem
    · exact h.checked other hmem
    · rwa [List.mem_singleton.1 hmem]
  case sorted =>
    rw [positions_push, List.pairwise_append]
    refine ⟨h.sorted, by cases record.t <;> simp, ?_⟩
    intro earlier hearlier t ht
    obtain ⟨last, hlast⟩ : ∃ last, store.lastPosition? = some last := by
      rw [h.last]
      exact Option.isSome_iff_exists.1 (List.getLast?_isSome.2 (List.ne_nil_of_mem hearlier))
    exact UInt64.le_trans (h.le_last hlast hearlier)
      (hposition last t hlast (Option.mem_toList.1 ht))
  case unique =>
    rw [entryIds_push, List.nodup_append]
    refine ⟨h.unique, by cases record.entryId <;> simp, ?_⟩
    rintro used hused id hnew rfl
    exact hid used (Option.mem_toList.1 hnew) ((h.ids used).2 hused)
  case last =>
    rw [positions_push]
    cases ht : record.t with
    | none => simp [Store.push, ht, h.last]
    | some t => simp [Store.push, ht]
  case ids =>
    intro id
    rw [mem_ids_push, entryIds_push, List.mem_append, h.ids]

/-- A consistent store stays consistent, whatever calls are made. -/
theorem Consistent.run {store : Store} (h : store.Consistent) (operations : List Operation) :
    (store.run operations).Consistent :=
  run_induction (fun _ _ hstore haccept => hstore.push haccept) h operations

/-- Records never leave their place. -/
theorem getElem?_run {store : Store} {index : Nat} {record : Record}
    (h : store.entries[index]? = some record) (operations : List Operation) :
    (store.run operations).entries[index]? = some record := by
  refine run_induction (p := fun store => store.entries[index]? = some record) ?_ h operations
  intro store added hindex _
  obtain ⟨hlt, -⟩ := List.getElem?_eq_some_iff.1 hindex
  rwa [push, List.getElem?_append_left hlt]

/-- The index with which a call answers is that of the record it built, now and ever after. -/
theorem getElem?_run_of_perform {store changed : Store} {operation : Operation} {index : Nat}
    (h : store.perform operation = (.ok (some index), changed)) (later : List Operation) :
    ∃ record, operation.record = .ok record ∧
      (changed.run later).entries[index]? = some record := by
  rcases store.perform_cases operation with ⟨record, hrecord, -, heq⟩ | ⟨error, heq⟩
  · rw [h] at heq
    obtain ⟨hindex, rfl⟩ := Prod.mk.inj heq
    obtain rfl : index = store.size := by simpa using hindex
    exact ⟨record, hrecord, getElem?_run (by simp [push, size]) later⟩
  · rw [h] at heq
    simp at heq

/-- Whatever calls are made, on an empty store or on one made of a list of records, the store
agrees with its records, its last position is the last and greatest one that a record carries,
and every index given out leads to the record that was then appended. -/
theorem consistent_run {start : Store}
    (hstart : start = empty ∨ ∃ records, ofRecords records = .ok start)
    (operations : List Operation) :
    (start.run operations).Consistent ∧
      ((start.run operations).lastPosition? = none ↔
        ∀ record ∈ (start.run operations).entries, record.t = none) ∧
      (∀ last, (start.run operations).lastPosition? = some last →
        (start.run operations).positions.getLast? = some last ∧
          ∀ t ∈ (start.run operations).positions, t ≤ last) ∧
      ∀ before operation after index, operations = before ++ operation :: after →
        ((start.run before).perform operation).1 = .ok (some index) →
        ∃ record, operation.record = .ok record ∧
          (start.run operations).entries[index]? = some record := by
  have hconsistent : start.Consistent := by
    rcases hstart with rfl | ⟨records, hrecords⟩
    · exact consistent_empty
    · rw [eq_run_of_ofRecords hrecords]
      exact consistent_empty.run _
  have hrun := hconsistent.run operations
  refine ⟨hrun, hrun.lastPosition?_eq_none_iff, ?_, ?_⟩
  · intro last hlast
    exact ⟨hrun.last ▸ hlast, fun t ht => hrun.le_last hlast ht⟩
  · rintro before operation after index rfl hindex
    rw [run_append, run_cons]
    apply getElem?_run_of_perform
    rw [← hindex]

/-- A store made of two records turns away a checkpoint in the past and an id in use, and gives
out index 2 for the record that follows them. -/
theorem consistent_run_after_rejections :
    let noted : Record := { kind := some "petc", entryId := some "a", context := some {} }
    let later : Record := { kind := some "petc", entryId := some "b", context := some {} }
    let start := (empty.push noted).push (.checkpoint 3)
    ofRecords [noted, .checkpoint 3] = .ok start ∧
      (start.run [.appendCheckpoint 2, .append noted, .append later]).Consistent ∧
      (start.run [.appendCheckpoint 2, .append noted, .append later]).entries[2]? =
        some later := by
  intro noted later start
  have hstart : ofRecords [noted, .checkpoint 3] = .ok start := by decide +kernel
  obtain ⟨hconsistent, -, -, hindex⟩ :=
    consistent_run (.inr ⟨_, hstart⟩) [.appendCheckpoint 2, .append noted, .append later]
  refine ⟨hstart, hconsistent, ?_⟩
  obtain ⟨record, hrecord, hget⟩ :=
    hindex [.appendCheckpoint 2, .append noted] (.append later) [] 2 rfl (by decide +kernel)
  rwa [← Except.ok.inj hrecord] at hget

end Store

end LatticeLedger
