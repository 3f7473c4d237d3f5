import LatticeLedger.Proofs.Files.Loading
import LatticeLedger.Proofs.Ledger.FileRoundTrip
import LatticeLedger.Proofs.Ledger.Operation

/-!
# A store that is saved and reloaded

A file holds only the records. The last position and the ids in use are not saved; they come back
when the records are appended again, one after the other. This file proves that every record that
was ever accepted is accepted again at its place, so that a store is rebuilt field by field, and
that no later call can tell the rebuilt store from the one that was saved.
-/

namespace LatticeLedger

/-- Saving a ledger writes its text, or fails with the path and leaves the directory as it was. -/
theorem run_saveLedger {directory : Directory} {path : String} {records : List Record} :
    (saveLedger path records : StateM Directory _).run directory =
      match directory.writeText path (Ledger.text records) with
      | .ok saved => (.ok (), saved)
      | .error error => (.error (.file path error), directory) := by
  rw [saveLedger, StateT.run_bind, Directory.run_writeText]
  cases directory.writeText path (Ledger.text records) <;> rfl

/-- A file that holds the text of a ledger loads as that ledger, and loading changes no file. -/
theorem load_of_readText {directory : Directory} {path : String} {records : List Record}
    (h : directory.readText path = .ok (Ledger.text records)) :
    (load Ledger.ofFileText path : StateM Directory _).run directory =
      (.ok records, directory) := by
  have hparse : Ledger.ofFileText (Ledger.text records) = .ok records := by
    rw [Ledger.ofFileText, Ledger.parse?_text]
  exact run_load_eq_ok_iff.2 ⟨rfl, _, h, hparse⟩

namespace Store

/-- What further calls show of a store: each answer, and the records after it. -/
def observe (store : Store) : List Operation → List (Except StoreError (Option Nat) × List Record)
  | [] => []
  | operation :: rest =>
    let (answer, changed) := store.perform operation
    (answer, changed.entries) :: changed.observe rest

/-- Records are appended in parts, and the first error ends both. -/
theorem Update.on_appendAll_append {first second : List Record} {store : Store} :
    (appendAll (first ++ second)).on store =
      (do appendAll first; appendAll second : Update Unit).on store := by
  induction first generalizing store with
  | nil => rfl
  | cons record rest ih =>
    simp only [List.cons_append, appendAll, on_bind, ih]
    rcases (append record).on store with ⟨_ | _, _⟩ <;> rfl

/-- An accepted record is accepted again after the records that stood before it. -/
theorem on_appendAll_push {store : Store} {record : Record}
    (h : (Update.appendAll store.entries).on empty = (.ok (), store))
    (haccept : store.accept record = .ok ()) :
    (Update.appendAll (store.push record).entries).on empty = (.ok (), store.push record) := by
  have hlast : (Update.appendAll [record]).on store = (.ok (), store.push record) := by
    simp only [Update.appendAll, Update.on_bind, Update.on_append, haccept, Update.on_pure]
  rw [push, Update.on_appendAll_append, Update.on_bind, h]
  exact hlast

/-- Whatever calls were made, appending the records of a store one after the other rebuilds it. -/
theorem ofRecords_entries_run {start : Store}
    (hstart : start = empty ∨ ∃ records, ofRecords records = .ok start)
    (operations : List Operation) :
    ofRecords (start.run operations).entries = .ok (start.run operations) := by
  have hempty (operations : List Operation) :
      (Update.appendAll (empty.run operations).entries).on empty =
        (.ok (), empty.run operations) :=
    run_induction (p := fun store => (Update.appendAll store.entries).on empty = (.ok (), store))
      (fun _ _ => on_appendAll_push) rfl operations
  -- A store made of a list of records is itself one that the empty store becomes by calls.
  have hrun : ∃ calls, start.run operations = empty.run calls := by
    rcases hstart with rfl | ⟨records, hrecords⟩
    · exact ⟨operations, rfl⟩
    · exact ⟨_, by rw [eq_run_of_ofRecords hrecords, run_append]⟩
  obtain ⟨calls, hcalls⟩ := hrun
  rw [hcalls, ofRecords, Update.attempt, hempty calls]
  rfl

/-- A store that is saved and reloaded cannot be told from one that never stopped. Whatever calls
led to it, if a directory takes the text of its records and the file reads back as it was written,
then saving and loading succeed, the records are accepted in their order, and the rebuilt store
answers every further call as the saved one would, with the same records after each. -/
theorem reload_indistinguishable {start : Store}
    (hstart : start = empty ∨ ∃ records, ofRecords records = .ok start)
    (before : List Operation) {directory saved : Directory} {path : String}
    (hwrite : directory.writeText path (Ledger.text (start.run before).entries) = .ok saved)
    (hread : saved.readText path = .ok (Ledger.text (start.run before).entries)) :
    ∃ records rebuilt,
      (saveLedger path (start.run before).entries : StateM Directory _).run directory =
        (.ok (), saved) ∧
      (load Ledger.ofFileText path : StateM Directory _).run saved = (.ok records, saved) ∧
      ofRecords records = .ok rebuilt ∧ rebuilt.entries = (start.run before).entries ∧
      ∀ later, rebuilt.observe later = (start.run before).observe later := by
  have hsave : (saveLedger path (start.run before).entries : StateM Directory _).run directory =
      (.ok (), saved) := by rw [run_saveLedger, hwrite]
  have hload := load_of_readText hread
  have hrebuilt := ofRecords_entries_run hstart before
  exact ⟨_, start.run before, hsave, hload, hrebuilt, rfl, fun _ => rfl⟩

/-- A store that turned away a checkpoint in the past is saved in an empty directory. Rebuilt, it
still turns away positions before the last one and ids in use. -/
theorem reload_indistinguishable_after_rejections :
    let noted : Record := { kind := some "petc", entryId := some "a", context := some {} }
    let later : Record := { kind := some "petc", entryId := some "b", context := some {} }
    let before : List Operation := [.append noted, .appendCheckpoint 3, .appendCheckpoint 2]
    ∃ saved records rebuilt,
      (saveLedger "log.json" (empty.run before).entries : StateM Directory _).run {} =
        (.ok (), saved) ∧
      (load Ledger.ofFileText "log.json" : StateM Directory _).run saved =
        (.ok records, saved) ∧
      ofRecords records = .ok rebuilt ∧
      (rebuilt.observe
        [.appendCheckpoint 2, .append noted, .attemptOverwrite 0 later, .append later]).map (·.1) =
        [.error (.outOfOrder 3 2), .error (.duplicateId "a"), .error .appendOnly,
          .ok (some 2)] := by
  intro noted later before
  have hresolve : ({} : Directory).resolve "log.json" = .ok (.entry .here "log.json") := by
    have hname : "log.json".contains '\x00' = false := by simp
    rw [Directory.resolve, hname]
    decide +kernel
  have hwrite (text : String) : ({} : Directory).writeText "log.json" text =
      .ok ⟨OrderedMap.insert ∅ "log.json" text.toUTF8⟩ :=
    Directory.writeText_of_resolve hresolve (by decide +kernel) (by decide +kernel)
  obtain ⟨records, rebuilt, hsave, hload, hrebuilt, -, hobserve⟩ :=
    reload_indistinguishable (.inl rfl) before (hwrite _)
      (Directory.readText_of_writeText hresolve (hwrite _))
  refine ⟨_, records, rebuilt, hsave, hload, hrebuilt, ?_⟩
  rw [hobserve]
  decide +kernel

end Store

end LatticeLedger
