import LatticeLedger.Proofs.Ledger.Operation

/-!
# A store only grows, and what fails leaves no trace

An operation may build its record, check the store and take an id into use before it fails, so it is
not plain that a failed call changes nothing. From the case distinction on one call follow the
statements on runs: what a store holds at one moment is the beginning of what it holds at every
later one, and a run is the run of its successful calls, each of which still succeeds when the
failed ones between them are left out.
-/

namespace LatticeLedger

namespace Store

variable {store changed : Store} {operation : Operation}

/-- A failed call leaves the records, the last position and the ids in use as they were. -/
theorem eq_of_perform_eq_error {error : StoreError}
    (h : store.perform operation = (.error error, changed)) : changed = store := by
  rcases store.perform_cases operation with ⟨record, -, -, heq⟩ | ⟨other, heq⟩
  · exact absurd (Prod.mk.inj (h.symm.trans heq)).1 nofun
  · exact (Prod.mk.inj (h.symm.trans heq)).2

/-- A successful call answers with the number of records before it and adds its record behind
them. -/
theorem entries_of_perform_eq_ok {answer : Option Nat}
    (h : store.perform operation = (.ok answer, changed)) :
    answer = some store.size ∧
      ∃ record, operation.record = .ok record ∧ changed.entries = store.entries ++ [record] := by
  rcases store.perform_cases operation with ⟨record, hrecord, -, heq⟩ | ⟨other, heq⟩
  · obtain ⟨hanswer, rfl⟩ := Prod.mk.inj (h.symm.trans heq)
    exact ⟨Except.ok.inj hanswer, record, hrecord, rfl⟩
  · exact absurd (Prod.mk.inj (h.symm.trans heq)).1 nofun

/-- What a store holds is the beginning of what it holds after further calls. -/
theorem entries_prefix_run (store : Store) (operations : List Operation) :
    store.entries <+: (store.run operations).entries := by
  obtain ⟨records, hentries, -⟩ := store.entries_run operations
  exact ⟨records, hentries.symm⟩

/-- The first of several calls is accepted, or the store is the same without it. -/
theorem accepted_cons_cases (store : Store) (operation : Operation) (rest : List Operation) :
    (∃ answer changed, store.perform operation = (.ok answer, changed) ∧
      store.accepted (operation :: rest) = operation :: changed.accepted rest) ∨
    (store.perform operation).2 = store ∧
      store.accepted (operation :: rest) = store.accepted rest := by
  rcases store.perform_cases operation with ⟨record, -, -, heq⟩ | ⟨error, heq⟩
  · exact .inl ⟨_, _, heq, by simp only [accepted, heq]⟩
  · exact .inr ⟨by rw [heq], by simp only [accepted, heq]⟩

/-- Leaving the failed calls out of a run leads to the same store. -/
theorem run_accepted (store : Store) (operations : List Operation) :
    store.run (store.accepted operations) = store.run operations := by
  induction operations generalizing store with
  | nil => rfl
  | cons operation rest ih =>
    rcases store.accepted_cons_cases operation rest with ⟨answer, changed, hperform, heq⟩ |
      ⟨hsame, heq⟩
    · rw [heq, run_cons, run_cons, hperform, ih]
    · rw [heq, run_cons, hsame, ih]

/-- The successful calls of a run all succeed when the failed ones are left out. -/
theorem accepted_accepted (store : Store) (operations : List Operation) :
    store.accepted (store.accepted operations) = store.accepted operations := by
  induction operations generalizing store with
  | nil => rfl
  | cons operation rest ih =>
    rcases store.accepted_cons_cases operation rest with ⟨answer, changed, hperform, heq⟩ |
      ⟨-, heq⟩
    · simp only [accepted, hperform, ih]
    · rw [heq, ih]

/-- A store is append-only and its errors are atomic. At every moment of a run, a call that fails
leaves the whole store as it was, and one that succeeds answers with the number of records so far
and adds exactly one record behind them. The records at any moment are the beginning of the records
at any later one. The failed calls of a run may be left out: the same store is reached, and all
other calls still succeed. No call replaces a record. -/
theorem append_only (start : Store) (calls later : List Operation) :
    (∀ operation error changed, (start.run calls).perform operation = (.error error, changed) →
      changed = start.run calls) ∧
    (∀ operation answer changed, (start.run calls).perform operation = (.ok answer, changed) →
      answer = some (start.run calls).size ∧ ∃ record, operation.record = .ok record ∧
        changed.entries = (start.run calls).entries ++ [record]) ∧
    (start.run calls).entries <+: (start.run (calls ++ later)).entries ∧
    start.run (start.accepted calls) = start.run calls ∧
    start.accepted (start.accepted calls) = start.accepted calls ∧
    ∀ index record, (start.run calls).perform (.attemptOverwrite index record) =
      (.error .appendOnly, start.run calls) := by
  refine ⟨?_, ?_, ?_, start.run_accepted calls, start.accepted_accepted calls, ?_⟩
  · intro operation error changed h
    exact eq_of_perform_eq_error h
  · intro operation answer changed h
    exact entries_of_perform_eq_ok h
  · rw [run_append]
    exact entries_prefix_run _ later
  · intro index record
    rw [perform_eq, Operation.record]

/-- A checkpoint that goes back fails again and changes nothing. One at the last position is taken
behind the two records so far. -/
theorem append_only_after_rejection :
    let noted : Record := { kind := some "petc", entryId := some "a", context := some {} }
    let store := empty.run [.append noted, .appendCheckpoint 3, .appendCheckpoint 2, .append noted]
    store.perform (.appendCheckpoint 2) = (.error (.outOfOrder 3 2), store) ∧
      ∃ record changed, store.perform (.appendCheckpoint 3) = (.ok (some 2), changed) ∧
        changed.entries = store.entries ++ [record] := by
  intro noted store
  have hback : (store.perform (.appendCheckpoint 2)).1 = .error (.outOfOrder 3 2) := by
    decide +kernel
  have hagain : (store.perform (.appendCheckpoint 3)).1 = .ok (some 2) := by decide +kernel
  obtain ⟨hfail, hsucceed, -⟩ := append_only empty
    [.append noted, .appendCheckpoint 3, .appendCheckpoint 2, .append noted] []
  constructor
  · rcases hperform : store.perform (.appendCheckpoint 2) with ⟨answer, changed⟩
    rw [hperform] at hback
    obtain rfl : answer = .error (.outOfOrder 3 2) := hback
    rw [hfail _ _ _ hperform]
  · rcases hperform : store.perform (.appendCheckpoint 3) with ⟨answer, changed⟩
    rw [hperform] at hagain
    obtain rfl : answer = .ok (some 2) := hagain
    obtain ⟨-, record, -, hentries⟩ := hsucceed _ _ _ hperform
    exact ⟨record, changed, rfl, hentries⟩

end Store

end LatticeLedger
