import LatticeLedger.Audit.Report
import Mathlib.Algebra.BigOperators.Group.List.Lemmas
import Mathlib.Algebra.GroupWithZero.Nat
import Mathlib.Data.Finset.Card

/-!
# Counting numbers

A tally says how often each number of a list occurs, and says nothing of numbers that do not
occur, so its counts add up to the length of the list. The number of different elements is the size
of their ordered set.
-/

namespace LatticeLedger

/-- The tally of a list: every number that occurs, with the number of its occurrences. -/
def Tally.ofList (keys : List UInt32) : Tally :=
  OrderedMap.ofList ((OrderedSet.ofList keys).toList.map fun key => (key, keys.count key))

/-- Whether a tally counts the numbers of a list: every one that occurs, with the number of its
occurrences, and no other. -/
def Tally.Counts (tally : Tally) (numbers : List Nat) : Prop :=
  ∀ key n, tally.get? key = some n ↔ 0 < n ∧ n = numbers.count key.toNat

/-- A word stands for a number below `2 ^ 32` as often as the number occurs. -/
theorem count_map_ofNat {numbers : List Nat} (h : ∀ n ∈ numbers, n < UInt32.size)
    (key : UInt32) : (numbers.map UInt32.ofNat).count key = numbers.count key.toNat := by
  induction numbers with
  | nil => rfl
  | cons n rest ih =>
    obtain ⟨hn, hrest⟩ := List.forall_mem_cons.1 h
    have heq : UInt32.ofNat n = key ↔ n = key.toNat := by
      constructor
      · rintro rfl
        exact (UInt32.toNat_ofNat_of_lt hn).symm
      · rintro rfl
        exact UInt32.ofNat_toNat
    simp only [List.map_cons, List.count_cons, ih hrest, beq_iff_eq, heq]

/-- The entries of a tally are the numbers that occur, with their counts. -/
theorem Tally.mem_toList_ofList {keys : List UInt32} {entry : UInt32 × Nat} :
    entry ∈ (Tally.ofList keys).toList ↔ ∃ key ∈ keys, (key, keys.count key) = entry := by
  have hnodup : (((OrderedSet.ofList keys).toList.map
      fun key => (key, keys.count key)).map (·.1)).Nodup := by
    rw [List.map_map]
    exact (List.map_id _).symm ▸ (OrderedSet.ofList keys).nodup_toList
  rw [Tally.ofList, OrderedMap.mem_ofList hnodup, List.mem_map]
  simp only [OrderedSet.mem_toList, OrderedSet.mem_ofList]

/-- A tally answers with the number of occurrences of what occurs, and with nothing otherwise. -/
theorem Tally.get?_ofList (keys : List UInt32) (key : UInt32) :
    (Tally.ofList keys).get? key = if key ∈ keys then some (keys.count key) else none := by
  ext n
  rw [OrderedMap.get?_eq_some_iff, Tally.mem_toList_ofList]
  by_cases hmem : key ∈ keys
  · rw [if_pos hmem, Option.some.injEq]
    constructor
    · rintro ⟨other, -, heq⟩
      obtain ⟨rfl, rfl⟩ := Prod.mk.inj heq
      rfl
    · rintro rfl
      exact ⟨key, hmem, rfl⟩
  · rw [if_neg hmem]
    constructor
    · rintro ⟨other, hother, heq⟩
      obtain ⟨rfl, -⟩ := Prod.mk.inj heq
      exact absurd hother hmem
    · intro h
      cases h

/-- A tally has counted a number as often as it occurs. -/
theorem Tally.count_ofList (keys : List UInt32) (key : UInt32) :
    (Tally.ofList keys).count key = keys.count key := by
  rw [Tally.count, Tally.get?_ofList]
  split
  case isTrue => rfl
  case isFalse hnot => exact (List.count_eq_zero.2 hnot).symm

/-- One more number at the end of a list is counted once more in its tally. -/
theorem Tally.ofList_concat (keys : List UInt32) (key : UInt32) :
    Tally.ofList (keys ++ [key]) = (Tally.ofList keys).add key := by
  refine OrderedMap.ext_of_get? fun other => ?_
  rw [Tally.add, OrderedMap.get?_insert, Tally.get?_ofList, Tally.get?_ofList, Tally.count_ofList]
  by_cases heq : other = key
  · subst heq
    simp [List.count_append]
  · simp [heq, List.count_append, Ne.symm heq]

/-- The tally of the words of a list of numbers counts these numbers. -/
theorem Tally.counts_ofList {numbers : List Nat} (h : ∀ n ∈ numbers, n < UInt32.size) :
    (Tally.ofList (numbers.map UInt32.ofNat)).Counts numbers := by
  intro key n
  rw [← count_map_ofNat h, OrderedMap.get?_eq_some_iff, Tally.mem_toList_ofList]
  constructor
  · rintro ⟨other, hmem, heq⟩
    obtain ⟨rfl, rfl⟩ := Prod.mk.inj heq
    exact ⟨List.count_pos_iff.2 hmem, rfl⟩
  · rintro ⟨hpos, rfl⟩
    exact ⟨key, List.count_pos_iff.1 hpos, rfl⟩

/-- Every number that a tally knows occurs. -/
theorem Tally.Counts.mem_of_mem_keys {tally : Tally} {numbers : List Nat} {key : UInt32}
    (h : tally.Counts numbers) (hkey : key ∈ tally.keys) : key.toNat ∈ numbers := by
  obtain ⟨n, hn⟩ := OrderedMap.mem_keys_iff.1 hkey
  obtain ⟨hpos, rfl⟩ := (h key n).1 hn
  exact List.count_pos_iff.1 hpos

/-- The counts of a tally add up to the number of what was counted. -/
theorem Tally.sum_values_ofList (keys : List UInt32) :
    (Tally.ofList keys).values.sum = keys.length := by
  have hentries : (Tally.ofList keys).toList.Nodup := (OrderedMap.nodup_keys _).of_map
  have hcounted : (keys.dedup.map fun key => (key, keys.count key)).Nodup := by
    refine (List.nodup_dedup keys).map ?_
    intro a b h
    exact (Prod.mk.inj h).1
  have hperm : (Tally.ofList keys).toList.Perm
      (keys.dedup.map fun key => (key, keys.count key)) := by
    refine (List.perm_ext_iff_of_nodup hentries hcounted).2 fun entry => ?_
    rw [Tally.mem_toList_ofList]
    simp only [List.mem_map, List.mem_dedup]
  rw [OrderedMap.values, (hperm.map _).sum_eq, List.map_map]
  exact List.sum_map_count_dedup_eq_length keys

/-- The ordered set of a list has as many elements as the list has different ones. -/
theorem OrderedSet.size_ofList {κ : Type} [LT κ] [LE κ] [Std.LawfulOrderLT κ]
    [Std.IsLinearOrder κ] [DecidableLT κ] [DecidableEq κ] (elements : List κ) :
    (OrderedSet.ofList elements).size = elements.toFinset.card := by
  rw [size, ← List.toFinset_card_of_nodup (nodup_toList _)]
  congr 1
  ext element
  rw [List.mem_toFinset, List.mem_toFinset, mem_toList, mem_ofList]

end LatticeLedger
