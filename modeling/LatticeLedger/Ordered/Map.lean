/-!
# Maps kept in the order of their keys

An `OrderedMap` is a list of entries with strictly ascending keys. Two maps with the same
entries are equal, and what is written from one is written in the order of the keys.
-/

namespace LatticeLedger

/-- A finite map whose entries ascend strictly by key. -/
structure OrderedMap (κ ν : Type) [LT κ] where
  /-- The entries, keys ascending. -/
  toList : List (κ × ν)
  /-- No key occurs twice and none is out of order. -/
  ascending : toList.Pairwise fun a b => a.1 < b.1
  deriving DecidableEq, Repr

namespace OrderedMap

variable {κ ν : Type} [LT κ]

/-- The map without entries. -/
def empty : OrderedMap κ ν := ⟨[], .nil⟩

instance : EmptyCollection (OrderedMap κ ν) := ⟨empty⟩

instance : Inhabited (OrderedMap κ ν) := ⟨empty⟩

/-- Whether a map has no entries. -/
def isEmpty (map : OrderedMap κ ν) : Bool := map.toList.isEmpty

/-- The keys of a map, ascending. -/
def keys (map : OrderedMap κ ν) : List κ := map.toList.map (·.1)

/-- The values of a map, in the order of their keys. -/
def values (map : OrderedMap κ ν) : List ν := map.toList.map (·.2)

/-- The value at a key. -/
def get? [DecidableEq κ] (map : OrderedMap κ ν) (key : κ) : Option ν :=
  (map.toList.find? fun entry => entry.1 = key).map (·.2)

/-- Places an entry among ascending ones, in the stead of an entry with the same key. -/
def insertEntry [DecidableLT κ] (key : κ) (value : ν) : List (κ × ν) → List (κ × ν)
  | [] => [(key, value)]
  | entry :: rest =>
    if entry.1 < key then entry :: insertEntry key value rest
    else if key < entry.1 then (key, value) :: entry :: rest
    else (entry.1, value) :: rest

/-- What holds of the new key and of every old one holds of all keys after an insertion. -/
theorem forall_key_insertEntry [DecidableLT κ] {p : κ → Prop} {key : κ} {value : ν}
    {entries : List (κ × ν)} (hkey : p key) (hold : ∀ entry ∈ entries, p entry.1) :
    ∀ entry ∈ insertEntry key value entries, p entry.1 := by
  induction entries with
  | nil => simpa [insertEntry] using hkey
  | cons first rest ih =>
    simp only [List.mem_cons, forall_eq_or_imp] at hold
    intro entry hmem
    rw [insertEntry] at hmem
    split at hmem
    · rcases List.mem_cons.1 hmem with rfl | hmem
      · exact hold.1
      · exact ih hold.2 _ hmem
    · split at hmem
      · simp only [List.mem_cons] at hmem
        rcases hmem with rfl | rfl | hmem
        · exact hkey
        · exact hold.1
        · exact hold.2 _ hmem
      · rcases List.mem_cons.1 hmem with rfl | hmem
        · exact hold.1
        · exact hold.2 _ hmem

variable [LE κ] [Std.IsLinearOrder κ] [Std.LawfulOrderLT κ] [DecidableLT κ]

omit [DecidableLT κ] in
/-- What lies below the first of ascending keys lies below all of them. -/
theorem lt_key_of_lt_first {key : κ} {first : κ × ν} {rest : List (κ × ν)} (hlt : key < first.1)
    (hfirst : ∀ entry ∈ rest, first.1 < entry.1) : ∀ entry ∈ first :: rest, key < entry.1 :=
  List.forall_mem_cons.2 ⟨hlt, fun entry hmem => Std.lt_trans hlt (hfirst entry hmem)⟩

/-- Insertion keeps the keys ascending. -/
theorem ascending_insertEntry {key : κ} {value : ν} {entries : List (κ × ν)}
    (h : entries.Pairwise fun a b => a.1 < b.1) :
    (insertEntry key value entries).Pairwise fun a b => a.1 < b.1 := by
  induction entries with
  | nil => simp [insertEntry]
  | cons first rest ih =>
    obtain ⟨hfirst, hrest⟩ := List.pairwise_cons.1 h
    rw [insertEntry]
    split
    case isTrue hgt =>
      exact List.pairwise_cons.2 ⟨forall_key_insertEntry hgt hfirst, ih hrest⟩
    case isFalse =>
      split
      case isTrue hlt => exact List.pairwise_cons.2 ⟨lt_key_of_lt_first hlt hfirst, h⟩
      case isFalse => exact List.pairwise_cons.2 ⟨hfirst, hrest⟩

/-- Sets the value at a key. -/
def insert (map : OrderedMap κ ν) (key : κ) (value : ν) : OrderedMap κ ν :=
  ⟨insertEntry key value map.toList, ascending_insertEntry map.ascending⟩

/-- The map of a list of entries; of two entries with one key the later wins. -/
def ofList (entries : List (κ × ν)) : OrderedMap κ ν :=
  entries.foldl (fun map entry => map.insert entry.1 entry.2) empty

/-- Among entries with ascending keys, exactly those with another key survive an insertion. -/
theorem mem_insertEntry {key : κ} {value : ν} {entries : List (κ × ν)} {found : κ × ν}
    (h : entries.Pairwise fun a b => a.1 < b.1) :
    found ∈ insertEntry key value entries ↔
      found = (key, value) ∨ found ∈ entries ∧ found.1 ≠ key := by
  induction entries with
  | nil => simp [insertEntry]
  | cons first rest ih =>
    obtain ⟨hfirst, hrest⟩ := List.pairwise_cons.1 h
    rw [insertEntry]
    split
    case isTrue hgt =>
      have hne : first.1 ≠ key := fun heq => Std.lt_irrefl (heq ▸ hgt)
      simp only [List.mem_cons, ih hrest]
      constructor
      · rintro (rfl | rfl | ⟨hmem, hkey⟩)
        · exact .inr ⟨.inl rfl, hne⟩
        · exact .inl rfl
        · exact .inr ⟨.inr hmem, hkey⟩
      · rintro (rfl | ⟨rfl | hmem, hkey⟩)
        · exact .inr (.inl rfl)
        · exact .inl rfl
        · exact .inr (.inr ⟨hmem, hkey⟩)
    case isFalse hge =>
      split
      case isTrue hlt =>
        have hold : ∀ entry ∈ first :: rest, entry.1 ≠ key := fun entry hmem heq =>
          Std.lt_irrefl (heq ▸ lt_key_of_lt_first hlt hfirst entry hmem)
        rw [List.mem_cons]
        exact or_congr_right ⟨fun hmem => ⟨hmem, hold _ hmem⟩, And.left⟩
      case isFalse hle =>
        have heq : first.1 = key := Std.le_antisymm (Std.not_lt.1 hle) (Std.not_lt.1 hge)
        have hold : ∀ entry ∈ rest, entry.1 ≠ key := fun entry hmem hkey =>
          Std.lt_irrefl (heq ▸ hkey ▸ hfirst entry hmem)
        simp only [List.mem_cons, heq]
        constructor
        · rintro (rfl | hmem)
          · exact .inl rfl
          · exact .inr ⟨.inr hmem, hold _ hmem⟩
        · rintro (rfl | ⟨rfl | hmem, hkey⟩)
          · exact .inl rfl
          · exact absurd heq hkey
          · exact .inr hmem

/-- After setting a key, the entries are the new one and those with another key. -/
theorem mem_insert {map : OrderedMap κ ν} {key : κ} {value : ν} {entry : κ × ν} :
    entry ∈ (map.insert key value).toList ↔
      entry = (key, value) ∨ entry ∈ map.toList ∧ entry.1 ≠ key :=
  mem_insertEntry map.ascending

/-- The keys after setting one are that key and the old ones. -/
theorem mem_keys_insert [DecidableEq κ] {map : OrderedMap κ ν} {key other : κ} {value : ν} :
    other ∈ (map.insert key value).keys ↔ other = key ∨ other ∈ map.keys := by
  simp only [keys, List.mem_map, mem_insert]
  constructor
  · rintro ⟨entry, rfl | ⟨hmem, -⟩, rfl⟩
    · exact .inl rfl
    · exact .inr ⟨entry, hmem, rfl⟩
  · rintro (rfl | ⟨entry, hmem, rfl⟩)
    · exact ⟨_, .inl rfl, rfl⟩
    · by_cases heq : entry.1 = key
      · exact ⟨(key, value), .inl rfl, heq.symm⟩
      · exact ⟨entry, .inr ⟨hmem, heq⟩, rfl⟩

/-- Setting several keys in turn adds those keys. -/
theorem mem_keys_foldl_insert [DecidableEq κ] {entries : List (κ × ν)} {map : OrderedMap κ ν}
    {key : κ} :
    key ∈ (entries.foldl (fun map entry => map.insert entry.1 entry.2) map).keys ↔
      key ∈ map.keys ∨ key ∈ entries.map (·.1) := by
  induction entries generalizing map with
  | nil => simp
  | cons entry rest ih =>
    simp only [List.foldl_cons, ih, mem_keys_insert, List.map_cons, List.mem_cons]
    rw [or_comm (a := key = entry.1), or_assoc]

/-- The keys of the map of a list are the keys of the list. -/
theorem mem_keys_ofList [DecidableEq κ] {entries : List (κ × ν)} {key : κ} :
    key ∈ (ofList entries).keys ↔ key ∈ entries.map (·.1) := by
  rw [ofList, mem_keys_foldl_insert]
  simp [empty, keys]

/-- Setting several different keys in turn adds their entries in the stead of the old ones. -/
theorem mem_foldl_insert {entries : List (κ × ν)} {map : OrderedMap κ ν} {found : κ × ν}
    (h : (entries.map (·.1)).Nodup) :
    found ∈ (entries.foldl (fun map entry => map.insert entry.1 entry.2) map).toList ↔
      found ∈ entries ∨ found ∈ map.toList ∧ found.1 ∉ entries.map (·.1) := by
  induction entries generalizing map with
  | nil => simp
  | cons entry rest ih =>
    obtain ⟨hentry, hrest⟩ := List.nodup_cons.1 h
    simp only [List.foldl_cons, ih hrest, mem_insert, List.map_cons, List.mem_cons, not_or]
    constructor
    · rintro (hmem | ⟨rfl | ⟨hmem, hne⟩, hkeys⟩)
      · exact .inl (.inr hmem)
      · exact .inl (.inl rfl)
      · exact .inr ⟨hmem, hne, hkeys⟩
    · rintro ((rfl | hmem) | ⟨hmem, hne, hkeys⟩)
      · exact .inr ⟨.inl rfl, hentry⟩
      · exact .inl hmem
      · exact .inr ⟨.inr ⟨hmem, hne⟩, hkeys⟩

/-- The map of a list with different keys holds exactly the entries of the list. -/
theorem mem_ofList {entries : List (κ × ν)} {found : κ × ν} (h : (entries.map (·.1)).Nodup) :
    found ∈ (ofList entries).toList ↔ found ∈ entries := by
  rw [ofList, mem_foldl_insert h]
  simp [empty]

omit [Std.IsLinearOrder κ] [DecidableLT κ] in
/-- A key is looked up by its entry, since no key has two. -/
theorem get?_eq_some_iff [DecidableEq κ] {map : OrderedMap κ ν} {key : κ} {value : ν} :
    map.get? key = some value ↔ (key, value) ∈ map.toList := by
  obtain ⟨entries, hascending⟩ := map
  simp only [get?]
  induction entries with
  | nil => simp
  | cons first rest ih =>
    obtain ⟨hfirst, hrest⟩ := List.pairwise_cons.1 hascending
    rw [List.find?_cons, List.mem_cons]
    by_cases heq : first.1 = key
    · have hnot : (key, value) ∉ rest := fun hmem => Std.lt_irrefl (heq ▸ hfirst _ hmem)
      subst heq
      simp only [decide_true, Option.map_some, Option.some.injEq, hnot, or_false]
      exact ⟨fun h => h ▸ rfl, fun h => h ▸ rfl⟩
    · have hne : (key, value) ≠ first := fun h => heq (h ▸ rfl)
      simp only [decide_eq_false heq, hne, false_or]
      exact ih hrest

omit [LE κ] [Std.IsLinearOrder κ] [Std.LawfulOrderLT κ] [DecidableLT κ] in
/-- Nothing is found in the map without entries. -/
theorem get?_empty [DecidableEq κ] (key : κ) : (∅ : OrderedMap κ ν).get? key = none := rfl

/-- What is found after setting a key is the new value there and the old one elsewhere. -/
theorem get?_insert [DecidableEq κ] {map : OrderedMap κ ν} {key other : κ} {value : ν} :
    (map.insert key value).get? other = if other = key then some value else map.get? other := by
  ext found
  rw [get?_eq_some_iff, mem_insert]
  by_cases heq : other = key
  · simp [heq, eq_comm]
  · simp [heq, get?_eq_some_iff]

omit [Std.IsLinearOrder κ] [DecidableLT κ] in
/-- The keys are those at which a value is found. -/
theorem mem_keys_iff [DecidableEq κ] {map : OrderedMap κ ν} {key : κ} :
    key ∈ map.keys ↔ ∃ value, map.get? key = some value := by
  rw [keys, List.mem_map]
  constructor
  · rintro ⟨⟨_, value⟩, hmem, rfl⟩
    exact ⟨value, get?_eq_some_iff.2 hmem⟩
  · rintro ⟨value, hkey⟩
    exact ⟨(key, value), get?_eq_some_iff.1 hkey, rfl⟩

omit [Std.IsLinearOrder κ] [DecidableLT κ] in
/-- The values are those that are found at some key. -/
theorem mem_values_iff [DecidableEq κ] {map : OrderedMap κ ν} {value : ν} :
    value ∈ map.values ↔ ∃ key, map.get? key = some value := by
  rw [values, List.mem_map]
  constructor
  · rintro ⟨⟨key, _⟩, hmem, rfl⟩
    exact ⟨key, get?_eq_some_iff.2 hmem⟩
  · rintro ⟨key, hkey⟩
    exact ⟨(key, value), get?_eq_some_iff.1 hkey, rfl⟩

omit [Std.IsLinearOrder κ] [DecidableLT κ] in
/-- No key occurs twice. -/
theorem nodup_keys (map : OrderedMap κ ν) : map.keys.Nodup := by
  refine List.pairwise_map.2 (map.ascending.imp ?_)
  intro a b hlt heq
  exact Std.lt_irrefl (heq ▸ hlt)

omit [DecidableLT κ] in
/-- Lists that ascend by a key are equal if they have the same elements. -/
theorem eq_of_ascending {α : Type} {key : α → κ} {first second : List α}
    (hfirst : first.Pairwise fun a b => key a < key b)
    (hsecond : second.Pairwise fun a b => key a < key b)
    (hmem : ∀ a, a ∈ first ↔ a ∈ second) : first = second := by
  have hnodup {list : List α} (h : list.Pairwise fun a b => key a < key b) : list.Nodup := by
    refine h.imp ?_
    rintro a _ hlt rfl
    exact Std.lt_irrefl hlt
  have hperm : first.Perm second :=
    (List.perm_ext_iff_of_nodup (hnodup hfirst) (hnodup hsecond)).2 hmem
  refine hperm.eq_of_pairwise ?_ hfirst hsecond
  intro a b _ _ hlt hgt
  exact absurd hgt (Std.not_lt.2 (Std.le_of_lt hlt))

omit [DecidableLT κ] in
/-- Maps with the same entries are equal. -/
theorem ext_of_mem {first second : OrderedMap κ ν}
    (h : ∀ entry, entry ∈ first.toList ↔ entry ∈ second.toList) : first = second := by
  have heq : first.toList = second.toList := eq_of_ascending first.ascending second.ascending h
  obtain ⟨entries, _⟩ := first
  obtain rfl : entries = second.toList := heq
  rfl

omit [DecidableLT κ] in
/-- Maps in which the same is found at every key are equal. -/
theorem ext_of_get? [DecidableEq κ] {first second : OrderedMap κ ν}
    (h : ∀ key, first.get? key = second.get? key) : first = second :=
  ext_of_mem fun entry => by rw [← get?_eq_some_iff, ← get?_eq_some_iff, h]

/-- A map is the map of its own entries. -/
theorem ofList_toList (map : OrderedMap κ ν) : ofList map.toList = map :=
  ext_of_mem fun _ => mem_ofList map.nodup_keys

end OrderedMap

end LatticeLedger
