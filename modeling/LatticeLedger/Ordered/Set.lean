import LatticeLedger.Ordered.Map

/-!
# Sets kept in order

An `OrderedSet` is the set of keys of an ordered map. Its elements are listed in ascending
order, each once, so equal sets are equal values.
-/

namespace LatticeLedger

/-- A finite set whose elements are listed in ascending order. -/
structure OrderedSet (κ : Type) [LT κ] where
  /-- The map that sends each element to nothing of interest. -/
  map : OrderedMap κ Unit
  deriving DecidableEq, Repr

namespace OrderedSet

variable {κ : Type} [LT κ]

/-- The elements, ascending. -/
def toList (set : OrderedSet κ) : List κ := set.map.keys

/-- The number of elements. -/
def size (set : OrderedSet κ) : Nat := set.toList.length

/-- The set without elements. -/
def empty : OrderedSet κ := ⟨∅⟩

instance : EmptyCollection (OrderedSet κ) := ⟨empty⟩

instance : Membership κ (OrderedSet κ) := ⟨fun set element => element ∈ set.toList⟩

/-- Whether an element belongs to a set. -/
def contains [DecidableEq κ] (set : OrderedSet κ) (element : κ) : Bool :=
  set.map.toList.any fun entry => entry.1 = element

/-- The elements of a set are those that it lists. -/
@[simp] theorem mem_toList {set : OrderedSet κ} {element : κ} :
    element ∈ set.toList ↔ element ∈ set := Iff.rfl

/-- The set without elements has none. -/
@[simp] theorem not_mem_empty {element : κ} : element ∉ (∅ : OrderedSet κ) := List.not_mem_nil

/-- The test for an element is exact. -/
@[simp] theorem contains_iff_mem [DecidableEq κ] {set : OrderedSet κ} {element : κ} :
    set.contains element = true ↔ element ∈ set := by
  simp only [contains, List.any_eq_true, decide_eq_true_eq]
  exact List.mem_map.symm

/-- The elements are listed in ascending order, each once. -/
theorem ascending_toList (set : OrderedSet κ) : set.toList.Pairwise (· < ·) :=
  List.pairwise_map.2 set.map.ascending

variable [LE κ] [Std.LawfulOrderLT κ]

/-- No element is listed twice. -/
theorem nodup_toList (set : OrderedSet κ) : set.toList.Nodup := set.map.nodup_keys

variable [Std.IsLinearOrder κ]

/-- The elements of a set have only one ascending list. -/
theorem eq_toList_of_ascending {set : OrderedSet κ} {list : List κ}
    (hascending : list.Pairwise (· < ·)) (hmem : ∀ element, element ∈ list ↔ element ∈ set) :
    list = set.toList :=
  OrderedMap.eq_of_ascending hascending set.ascending_toList hmem

/-- Sets with the same elements are equal. -/
theorem ext {first second : OrderedSet κ}
    (h : ∀ element, element ∈ first ↔ element ∈ second) : first = second := by
  have hkeys : first.map.toList.map (·.1) = second.map.toList.map (·.1) :=
    eq_toList_of_ascending first.ascending_toList h
  have hentry (a b : κ × Unit) (heq : a.1 = b.1) : a = b := Prod.ext heq rfl
  obtain ⟨⟨firstEntries, _⟩⟩ := first
  obtain ⟨⟨secondEntries, _⟩⟩ := second
  obtain rfl : firstEntries = secondEntries := (List.map_inj_right hentry).1 hkeys
  rfl

variable [DecidableLT κ]

/-- Adds an element. -/
def insert (set : OrderedSet κ) (element : κ) : OrderedSet κ := ⟨set.map.insert element ()⟩

/-- The set of the elements of a list, whatever their order and number. -/
def ofList (elements : List κ) : OrderedSet κ :=
  ⟨OrderedMap.ofList (elements.map fun element => (element, ()))⟩

/-- After an insertion a set has the new element and the old ones. -/
@[simp] theorem mem_insert [DecidableEq κ] {set : OrderedSet κ} {element other : κ} :
    other ∈ set.insert element ↔ other = element ∨ other ∈ set :=
  OrderedMap.mem_keys_insert

/-- The set of a list has the elements of the list. -/
@[simp] theorem mem_ofList [DecidableEq κ] {elements : List κ} {element : κ} :
    element ∈ ofList elements ↔ element ∈ elements := by
  refine OrderedMap.mem_keys_ofList.trans ?_
  rw [List.map_map]
  exact iff_of_eq (congrArg (element ∈ ·) (List.map_id elements))

/-- The order of a list does not matter to its set. -/
theorem ofList_perm [DecidableEq κ] {first second : List κ} (h : first.Perm second) :
    ofList first = ofList second :=
  ext fun element => by rw [mem_ofList, mem_ofList, h.mem_iff]

/-- One more element at the end of a list is one more element of its set. -/
theorem ofList_concat (elements : List κ) (element : κ) :
    ofList (elements ++ [element]) = (ofList elements).insert element := by
  rw [ofList, ofList, insert, List.map_append, OrderedMap.ofList, List.foldl_append]
  rfl

end OrderedSet

/-! ### Sets at the keys of a map -/

namespace OrderedMap

variable {κ α : Type} [LT κ] [DecidableEq κ] [LT α] [DecidableEq α]

/-- Whether an element belongs to the set at a key. One that is absent belongs to none. -/
def notes (map : OrderedMap κ (OrderedSet α)) (key : κ) (element? : Option α) : Bool :=
  element?.any fun element => (map.get? key).any fun set => set.contains element

/-- Nothing belongs to a set of the map without any. -/
@[simp] theorem notes_empty (key : κ) (element? : Option α) :
    notes (∅ : OrderedMap κ (OrderedSet α)) key element? = false := by
  cases element? <;> rfl

variable [LE κ] [Std.IsLinearOrder κ] [Std.LawfulOrderLT κ] [DecidableLT κ]
  [LE α] [Std.IsLinearOrder α] [Std.LawfulOrderLT α] [DecidableLT α]

/-- Adds an element to the set at a key. Nothing is added for one that is absent. -/
def note (map : OrderedMap κ (OrderedSet α)) (key : κ) : Option α → OrderedMap κ (OrderedSet α)
  | some element => map.insert key (((map.get? key).getD ∅).insert element)
  | none => map

/-- What belongs to the sets after an addition did so before, or it is what was added. -/
theorem notes_note (map : OrderedMap κ (OrderedSet α)) (key other : κ)
    (element? found? : Option α) :
    (map.note key element?).notes other found? =
      (map.notes other found? || (key == other && (element?.isSome && element? == found?))) := by
  rw [Bool.eq_iff_iff]
  cases element? with
  | none => simp [note]
  | some element =>
    cases found? with
    | none => simp [notes]
    | some found =>
      simp only [notes, note, Option.any_some, get?_insert]
      by_cases heq : other = key
      · subst heq
        cases map.get? other <;> simp [or_comm, eq_comm (a := element)]
      · simp [heq, Ne.symm heq]

end OrderedMap

end LatticeLedger
