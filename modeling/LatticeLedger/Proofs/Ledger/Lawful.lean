import LatticeLedger.Proofs.Ledger.Consistency
import Mathlib.Data.List.Induction

/-!
# Which lists of records make a store

A list of records is lawful if every record keeps its contract, no position goes back, and no id
occurs twice. These are laws on pairs of records that may stand far apart, while a store looks at
one record after the other and remembers only the last position and the ids in use. This file proves
that a store is made of a list exactly if the list is lawful. Otherwise the error is that of the
first record that cannot follow the ones before it.
-/

namespace LatticeLedger

namespace Record

/-- A record that may stand behind others. -/
structure Follows (record : Record) (earlier : List Record) : Prop where
  checked : record.check = .ok ()
  ordered : ∀ last ∈ earlier.filterMap (·.t), ∀ t, record.t = some t → last ≤ t
  unused : ∀ id, record.entryId = some id → id ∉ earlier.filterMap (·.entryId)

/-- The error that tells why a record cannot stand behind others. A broken contract comes first,
then a position before the greatest earlier one, then an id in use. -/
inductive RefusedAfter (record : Record) (earlier : List Record) : StoreError → Prop
  | violation {broken : Violation} (hcheck : record.check = .error broken) :
    RefusedAfter record earlier (.violation broken)
  | outOfOrder {last got : UInt64} (hcheck : record.check = .ok ())
    (hlast : last ∈ earlier.filterMap (·.t)) (hgreatest : ∀ t ∈ earlier.filterMap (·.t), t ≤ last)
    (ht : record.t = some got) (hlt : got < last) :
    RefusedAfter record earlier (.outOfOrder last got)
  | duplicateId {id : String} (hcheck : record.check = .ok ())
    (hordered : ∀ last ∈ earlier.filterMap (·.t), ∀ t, record.t = some t → last ≤ t)
    (hid : record.entryId = some id) (hused : id ∈ earlier.filterMap (·.entryId)) :
    RefusedAfter record earlier (.duplicateId id)

variable {record : Record} {earlier : List Record} {error other : StoreError}

/-- A record that is refused after others cannot follow them. -/
theorem RefusedAfter.not_follows (h : record.RefusedAfter earlier error) :
    ¬record.Follows earlier := by
  intro hfollows
  cases h with
  | violation hcheck => exact absurd (hfollows.checked.symm.trans hcheck) nofun
  | outOfOrder _ hlast _ ht hlt =>
    exact UInt64.not_le.2 hlt (hfollows.ordered _ hlast _ ht)
  | duplicateId _ _ hid hused => exact hfollows.unused _ hid hused

/-- The greatest earlier position and the id of a record are unique, so its error is. -/
theorem RefusedAfter.unique (h : record.RefusedAfter earlier error)
    (hother : record.RefusedAfter earlier other) : error = other := by
  cases h with
  | violation hcheck =>
    cases hother with
    | violation hbroken => rw [Except.error.inj (hcheck.symm.trans hbroken)]
    | outOfOrder hok => exact absurd (hok.symm.trans hcheck) nofun
    | duplicateId hok => exact absurd (hok.symm.trans hcheck) nofun
  | outOfOrder hcheck hlast hgreatest ht hlt =>
    cases hother with
    | violation hbroken => exact absurd (hcheck.symm.trans hbroken) nofun
    | outOfOrder _ hlast' hgreatest' ht' _ =>
      rw [UInt64.le_antisymm (hgreatest' _ hlast) (hgreatest _ hlast'),
        Option.some.inj (ht.symm.trans ht')]
    | duplicateId _ hordered => exact absurd (hordered _ hlast _ ht) (UInt64.not_le.2 hlt)
  | duplicateId hcheck hordered hid =>
    cases hother with
    | violation hbroken => exact absurd (hcheck.symm.trans hbroken) nofun
    | outOfOrder _ hlast _ ht hlt => exact absurd (hordered _ hlast _ ht) (UInt64.not_le.2 hlt)
    | duplicateId _ _ hid' => rw [Option.some.inj (hid.symm.trans hid')]

end Record

namespace Ledger

/-- Every record keeps its contract, of two positions the later record has no smaller one, and no
two records carry the same id. -/
structure Lawful (records : List Record) : Prop where
  checked : ∀ record ∈ records, record.check = .ok ()
  ordered : records.Pairwise fun earlier later =>
    ∀ s, earlier.t = some s → ∀ t, later.t = some t → s ≤ t
  unique : records.Pairwise fun earlier later =>
    ∀ id, earlier.entryId = some id → ∀ other, later.entryId = some other → id ≠ other

/-- The first record that cannot follow the ones before it stands at `index`, and `error` tells
why. -/
structure StopsAt (records : List Record) (index : Nat) (error : StoreError) : Prop where
  here : ∃ record, records[index]? = some record ∧
    record.RefusedAfter (records.take index) error
  earlier : ∀ i < index, ∀ record, records[i]? = some record → record.Follows (records.take i)

variable {records earlier : List Record}

/-- A list stays lawful exactly if the record added at its end follows the others. -/
theorem lawful_append_singleton_iff {record : Record} :
    Lawful (earlier ++ [record]) ↔ Lawful earlier ∧ record.Follows earlier := by
  constructor
  · rintro ⟨hchecked, hordered, hunique⟩
    obtain ⟨hordered, -, hlast⟩ := List.pairwise_append.1 hordered
    obtain ⟨hunique, -, hnew⟩ := List.pairwise_append.1 hunique
    refine ⟨⟨fun other hmem => hchecked other (List.mem_append_left _ hmem), hordered, hunique⟩,
      ?_⟩
    constructor
    case checked => exact hchecked record (List.mem_append_right _ (List.mem_singleton_self _))
    case ordered =>
      intro last hmem t ht
      obtain ⟨other, hother, hlastt⟩ := List.mem_filterMap.1 hmem
      exact hlast other hother record (List.mem_singleton_self _) last hlastt t ht
    case unused =>
      intro id hid hmem
      obtain ⟨other, hother, hused⟩ := List.mem_filterMap.1 hmem
      exact hnew other hother record (List.mem_singleton_self _) id hused id hid rfl
  · rintro ⟨⟨hchecked, hordered, hunique⟩, hfollows⟩
    constructor
    case checked =>
      intro other hmem
      rcases List.mem_append.1 hmem with hmem | hmem
      · exact hchecked other hmem
      · rw [List.mem_singleton.1 hmem]
        exact hfollows.checked
    case ordered =>
      refine List.pairwise_append.2 ⟨hordered, List.pairwise_singleton _ _, ?_⟩
      intro other hother last hlast s hs t ht
      rw [List.mem_singleton.1 hlast] at ht
      exact hfollows.ordered s (List.mem_filterMap.2 ⟨other, hother, hs⟩) t ht
    case unique =>
      refine List.pairwise_append.2 ⟨hunique, List.pairwise_singleton _ _, ?_⟩
      rintro other hother last hlast id hid _ hsame rfl
      rw [List.mem_singleton.1 hlast] at hsame
      exact hfollows.unused id hsame (List.mem_filterMap.2 ⟨other, hother, hid⟩)

/-- A list is lawful exactly if each of its records follows the ones before it. -/
theorem lawful_iff_follows :
    Lawful records ↔
      ∀ i (record : Record), records[i]? = some record → record.Follows (records.take i) := by
  induction records using List.reverseRecOn with
  | nil =>
    have hnil : Lawful [] := ⟨by simp, .nil, .nil⟩
    simp [hnil]
  | append_singleton earlier last ih =>
    rw [lawful_append_singleton_iff, ih]
    constructor
    · rintro ⟨hearlier, hlast⟩ i record hget
      rcases Nat.lt_trichotomy i earlier.length with hlt | rfl | hgt
      · rw [List.getElem?_append_left hlt] at hget
        rw [List.take_append_of_le_length (Nat.le_of_lt hlt)]
        exact hearlier i record hget
      · rw [List.getElem?_concat_length] at hget
        rw [List.take_left, ← Option.some.inj hget]
        exact hlast
      · have hnone : (earlier ++ [last])[i]? = none := by
          rw [List.getElem?_eq_none_iff, List.length_append, List.length_singleton]
          omega
        rw [hnone] at hget
        cases hget
    · intro h
      constructor
      · intro i record hget
        have hlt : i < earlier.length := (List.getElem?_eq_some_iff.1 hget).1
        have hfollows := h i record (by rwa [List.getElem?_append_left hlt])
        rwa [List.take_append_of_le_length (Nat.le_of_lt hlt)] at hfollows
      · have hfollows := h earlier.length last List.getElem?_concat_length
        rwa [List.take_left] at hfollows

/-- A record that is refused behind lawful ones is the first of its list that is. -/
theorem stopsAt_length {record : Record} {later : List Record} {error : StoreError}
    (hearlier : Lawful earlier) (hrefused : record.RefusedAfter earlier error) :
    StopsAt (earlier ++ record :: later) earlier.length error where
  here := by
    refine ⟨record, ?_, by rwa [List.take_left]⟩
    rw [List.getElem?_append_right (Nat.le_refl _), Nat.sub_self, List.getElem?_cons_zero]
  earlier i hi other hget := by
    rw [List.getElem?_append_left hi] at hget
    rw [List.take_append_of_le_length (Nat.le_of_lt hi)]
    exact lawful_iff_follows.1 hearlier i other hget

/-- A list stops at one place and with one error. -/
theorem StopsAt.unique {index place : Nat} {error other : StoreError}
    (h : StopsAt records index error) (hother : StopsAt records place other) :
    index = place ∧ error = other := by
  obtain ⟨record, hget, hrefused⟩ := h.here
  obtain ⟨found, hfound, hrefused'⟩ := hother.here
  have hindex : index = place := by
    rcases Nat.lt_trichotomy index place with hlt | heq | hgt
    · exact absurd (hother.earlier index hlt record hget) hrefused.not_follows
    · exact heq
    · exact absurd (h.earlier place hgt found hfound) hrefused'.not_follows
  subst hindex
  obtain rfl := Option.some.inj (hget.symm.trans hfound)
  exact ⟨rfl, hrefused.unique hrefused'⟩

/-- A list with a record that cannot follow the earlier ones is not lawful. -/
theorem StopsAt.not_lawful {index : Nat} {error : StoreError} (h : StopsAt records index error) :
    ¬Lawful records := by
  obtain ⟨record, hget, hrefused⟩ := h.here
  exact fun hlawful => hrefused.not_follows (lawful_iff_follows.1 hlawful index record hget)

end Ledger

namespace Store

open Ledger

variable {store : Store} {record : Record}

/-- The records of a consistent store are lawful. -/
theorem Consistent.lawful (h : store.Consistent) : Lawful store.entries where
  checked := h.checked
  ordered := List.pairwise_filterMap.1 h.sorted
  unique := List.pairwise_filterMap.1 h.unique

/-- Of the positions in a consistent store only the last one has to be remembered. -/
theorem Consistent.checkPosition_eq_ok_iff (h : store.Consistent) {t? : Option UInt64} :
    whenPresent store.checkPosition t? = .ok () ↔
      ∀ earlier ∈ store.positions, ∀ t, t? = some t → earlier ≤ t := by
  simp only [whenPresent_eq_ok_iff, checkPosition, require_eq_ok_iff]
  constructor
  · intro hlater earlier hearlier t ht
    obtain ⟨last, hlast⟩ : ∃ last, store.positions.getLast? = some last :=
      Option.isSome_iff_exists.1 (List.getLast?_isSome.2 (List.ne_nil_of_mem hearlier))
    rw [← h.last] at hlast
    exact UInt64.le_trans (h.le_last hlast hearlier) (hlater t ht last hlast)
  · intro hlater t ht last hlast
    rw [h.last] at hlast
    exact hlater last (List.mem_of_getLast? hlast) t ht

/-- A consistent store that turns a record away gives the reason why it cannot follow. -/
theorem Consistent.refusedAfter_of_accept (h : store.Consistent) {error : StoreError}
    (haccept : store.accept record = .error error) :
    record.RefusedAfter store.entries error := by
  rcases bind_eq_error_iff.1 haccept with hcheck | ⟨_, hcheck, haccept⟩
  · obtain ⟨broken, hbroken, rfl⟩ := mapError_eq_error_iff.1 hcheck
    exact .violation hbroken
  have hcheck : record.check = .ok () := mapError_eq_ok_iff.1 hcheck
  rcases bind_eq_error_iff.1 haccept with hposition | ⟨_, hposition, hid⟩
  · obtain ⟨got, ht, hposition⟩ := whenPresent_eq_error_iff.1 hposition
    obtain ⟨last, hlast, hposition⟩ := whenPresent_eq_error_iff.1 hposition
    obtain ⟨hlt, rfl⟩ := require_eq_error_iff.1 hposition
    have hmem : last ∈ store.positions := List.mem_of_getLast? (h.last ▸ hlast)
    exact .outOfOrder hcheck hmem (fun t ht => h.le_last hlast ht) ht (UInt64.not_le.1 hlt)
  · obtain ⟨id, hsome, hid⟩ := whenPresent_eq_error_iff.1 hid
    obtain ⟨hused, rfl⟩ := require_eq_error_iff.1 hid
    have hused : id ∈ store.ids := OrderedSet.contains_iff_mem.1 (Decidable.not_not.1 hused)
    exact .duplicateId hcheck (h.checkPosition_eq_ok_iff.1 hposition) hsome ((h.ids id).1 hused)

/-- Appending a list to a consistent store either takes all of it, or stops at a record that cannot
follow what was taken before. -/
theorem Consistent.appendAll_cases (h : store.Consistent) (records : List Record) :
    (∃ changed, (Update.appendAll records).on store = (.ok (), changed) ∧ changed.Consistent ∧
      changed.entries = store.entries ++ records) ∨
    ∃ earlier stop later error changed, records = earlier ++ stop :: later ∧
      (Update.appendAll records).on store = (.error error, changed) ∧
      Lawful (store.entries ++ earlier) ∧ stop.RefusedAfter (store.entries ++ earlier) error := by
  induction records generalizing store with
  | nil => exact .inl ⟨store, rfl, h, (List.append_nil _).symm⟩
  | cons record rest ih =>
    cases haccept : store.accept record with
    | error error =>
      refine .inr ⟨[], record, rest, error, store, rfl, ?_, ?_, ?_⟩
      · simp only [Update.appendAll, Update.on_bind, Update.on_append, haccept]
      · rw [List.append_nil]
        exact h.lawful
      · rw [List.append_nil]
        exact h.refusedAfter_of_accept haccept
    | ok _ =>
      have hon : (Update.appendAll (record :: rest)).on store =
          (Update.appendAll rest).on (store.push record) := by
        simp only [Update.appendAll, Update.on_bind, Update.on_append, haccept]
      have hentries (more : List Record) :
          (store.push record).entries ++ more = store.entries ++ record :: more := by
        rw [Store.push, List.append_assoc, List.singleton_append]
      rcases ih (h.push haccept) with ⟨changed, hrest, hchanged, heq⟩ |
        ⟨earlier, stop, later, error, changed, rfl, hrest, hlawful, hrefused⟩
      · exact .inl ⟨changed, hon.trans hrest, hchanged, heq.trans (hentries rest)⟩
      · rw [hentries] at hlawful hrefused
        exact .inr ⟨record :: earlier, stop, later, error, changed, rfl, hon.trans hrest, hlawful,
          hrefused⟩

/-- Making a store of a list either takes the whole list, which then is lawful, or fails with the
error of the record at which the list stops. -/
theorem ofRecords_cases (records : List Record) :
    (∃ store, ofRecords records = .ok store ∧ store.entries = records ∧ Lawful records) ∨
    ∃ index error, ofRecords records = .error error ∧ StopsAt records index error := by
  rcases consistent_empty.appendAll_cases records with ⟨changed, hon, hchanged, hentries⟩ |
    ⟨earlier, stop, later, error, changed, rfl, hon, hlawful, hrefused⟩
  · have hentries : changed.entries = records := hentries
    refine .inl ⟨changed, ?_, hentries, hentries ▸ hchanged.lawful⟩
    rw [ofRecords, Update.attempt, hon]
    rfl
  · refine .inr ⟨earlier.length, error, ?_, stopsAt_length hlawful hrefused⟩
    rw [ofRecords, Update.attempt, hon]
    rfl

/-- A store is made of a list of records exactly if the list is lawful, and then holds the list
unchanged. Otherwise the error is that of the first record that cannot follow the ones before it:
the violation of its contract, or else the greatest earlier position with the record's own smaller
one, or else the id that is in use. -/
theorem ofRecords_decision (records : List Record) :
    ((∃ store, ofRecords records = .ok store) ↔ Lawful records) ∧
      (∀ store, ofRecords records = .ok store → store.entries = records) ∧
      ∀ error, ofRecords records = .error error ↔ ∃ index, StopsAt records index error := by
  rcases ofRecords_cases records with ⟨store, hok, hentries, hlawful⟩ |
    ⟨index, error, herror, hstops⟩
  · refine ⟨⟨fun _ => hlawful, fun _ => ⟨store, hok⟩⟩, ?_, fun error => ⟨?_, ?_⟩⟩
    · intro other hother
      rw [← Except.ok.inj (hok.symm.trans hother), hentries]
    · intro herror
      exact absurd (hok.symm.trans herror) nofun
    · rintro ⟨index, hstops⟩
      exact absurd hlawful hstops.not_lawful
  · refine ⟨⟨?_, ?_⟩, ?_, fun other => ⟨?_, ?_⟩⟩
    · rintro ⟨store, hok⟩
      exact absurd (hok.symm.trans herror) nofun
    · intro hlawful
      exact absurd hlawful hstops.not_lawful
    · intro store hok
      exact absurd (hok.symm.trans herror) nofun
    · intro hother
      rw [← Except.error.inj (herror.symm.trans hother)]
      exact ⟨index, hstops⟩
    · rintro ⟨place, hplace⟩
      rw [herror, (hstops.unique hplace).2]

/-- A record that both goes back and repeats an id is refused for its position, and the record
without a kind behind it plays no part. -/
theorem ofRecords_decision_of_regression :
    let noted : Record := { kind := some "petc", entryId := some "a", context := some {} }
    let lawful := [noted, .checkpoint 3]
    let broken := lawful ++ [{ noted with t := some 2 }, {}]
    (∃ store, ofRecords lawful = .ok store ∧ store.entries = lawful) ∧ Lawful lawful ∧
      ofRecords broken = .error (.outOfOrder 3 2) ∧
      (∃ index, StopsAt broken index (.outOfOrder 3 2)) ∧ ¬Lawful broken := by
  intro noted lawful broken
  have hkept : (ofRecords lawful).toOption.isSome = true := by decide +kernel
  have hrefused : ofRecords broken = .error (.outOfOrder 3 2) := by decide +kernel
  obtain ⟨haccepted, hentries, -⟩ := ofRecords_decision lawful
  obtain ⟨hbroken, -, hstops⟩ := ofRecords_decision broken
  have hstore : ∃ store, ofRecords lawful = .ok store := by
    cases hrecords : ofRecords lawful with
    | ok store => exact ⟨store, rfl⟩
    | error error =>
      rw [hrecords] at hkept
      cases hkept
  obtain ⟨store, hok⟩ := hstore
  refine ⟨⟨store, hok, hentries store hok⟩, haccepted.1 ⟨store, hok⟩, hrefused,
    (hstops _).1 hrefused, fun hlawful => ?_⟩
  obtain ⟨other, hother⟩ := hbroken.2 hlawful
  exact absurd (hrefused.symm.trans hother) nofun

end Store

end LatticeLedger
