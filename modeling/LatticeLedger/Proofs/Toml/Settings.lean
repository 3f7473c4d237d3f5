import LatticeLedger.Toml.Reader

/-!
# Settings in the tables of a document

A section that is written as a table is read by the keys of its fields. What a reader makes of it is
a statement on the values that stand under two keys, that of the table and that of the field, so a
file of settings is described by a list of such pairs with the types that their values need. Where
a section is absent the reader does as if its table were there without entries.
-/

namespace LatticeLedger.Toml

namespace Value

/-- The value under a path of keys. -/
def at? : List String → Value → Option Value
  | [], value => some value
  | key :: path, .table _ entries => (entries.lookup key).bind (at? path)
  | _ :: _, _ => none

/-- Whether a value is a table, between braces or not. -/
def isTable : Value → Bool
  | .table _ _ => true
  | _ => false

/-- The natural number that a value is. -/
def natural? : Value → Option Nat
  | .integer (.ofNat n) => some n
  | _ => none

/-- The texts that a value lists. -/
def texts? : Value → Option (List String)
  | .array items => items.mapM text?
  | _ => none

/-- The natural number under a path. -/
def naturalAt? (root : Value) (path : List String) : Option Nat := (root.at? path).bind natural?

/-- The texts that are listed under a path. -/
def textsAt? (root : Value) (path : List String) : Option (List String) :=
  (root.at? path).bind texts?

end Value

/-- The types of settings. -/
inductive SettingType
  /-- A natural number below a bound. -/
  | natural (bound : Nat)
  /-- A list of texts. -/
  | texts

namespace SettingType

/-- Whether a value has a type. -/
def admits : SettingType → Value → Bool
  | natural bound, value => value.natural?.any fun n => n < bound
  | texts, value => value.texts?.isSome

/-- A natural number is admitted if it is below the bound. -/
theorem admits_natural_iff {bound : Nat} {value : Value} :
    (natural bound).admits value = true ↔ ∃ n, value.natural? = some n ∧ n < bound := by
  rw [admits]
  cases value.natural? <;> simp

/-- A list is admitted if it is one of texts. -/
theorem admits_texts_iff {value : Value} :
    texts.admits value = true ↔ ∃ found, value.texts? = some found :=
  Option.isSome_iff_exists

end SettingType

/-- A setting: the key of a table, a key in it, and the type of the value that stands there. -/
structure Setting where
  table : String
  key : String
  type : SettingType

namespace Setting

/-- The path to a setting. -/
def path (setting : Setting) : List String := [setting.table, setting.key]

/-- Whether a document writes the table of a setting as a table, and gives its value the right type,
as far as they are there. -/
def fits (setting : Setting) (root : Value) : Bool :=
  (root.at? [setting.table]).all Value.isTable && (root.at? setting.path).all setting.type.admits

end Setting

namespace Value

variable {root : Value}

/-- Whether a document fits all settings of a layout. -/
def wellTyped (layout : List Setting) (root : Value) : Bool :=
  layout.all fun setting => setting.fits root

/-- A document fits a layout if it fits each setting and each section is one. -/
theorem wellTyped_cons_iff {setting : Setting} {layout : List Setting} :
    root.wellTyped (setting :: layout) = true ↔
      ((root.at? [setting.table]).all isTable = true ∧
        (root.at? setting.path).all setting.type.admits = true) ∧
      root.wellTyped layout = true := by
  rw [wellTyped, List.all_cons, Bool.and_eq_true, Setting.fits, Bool.and_eq_true, wellTyped]

/-- The root of a document is a table. -/
theorem exists_table_of_parse? {text : String} (h : parse? text = some root) :
    ∃ tables, root = .table .header tables := by
  obtain ⟨_, -, h⟩ := Option.bind_eq_some_iff.1 h
  obtain ⟨tables, -, h⟩ := Option.bind_eq_some_iff.1 h
  exact ⟨tables, (Option.some.inj h).symm⟩

/-- A number of the right type is below the bound. -/
theorem lt_of_naturalAt? {path : List String} {bound n : Nat}
    (hadmits : (root.at? path).all (SettingType.natural bound).admits = true)
    (h : root.naturalAt? path = some n) : n < bound := by
  obtain ⟨value, hvalue, hn⟩ := Option.bind_eq_some_iff.1 h
  rw [hvalue, Option.all_some] at hadmits
  obtain ⟨m, hm, hlt⟩ := SettingType.admits_natural_iff.1 hadmits
  obtain rfl := Option.some.inj (hn.symm.trans hm)
  exact hlt

end Value

/-- Whether a text denotes a document that fits all settings of a layout. -/
structure Denotes (layout : List Setting) (text : String) (root : Value) : Prop where
  parse : parse? text = some root
  typed : root.wellTyped layout = true

/-- Whether two documents have the same values for all settings of a layout. -/
def SameSettings (layout : List Setting) (root other : Value) : Prop :=
  ∀ setting ∈ layout, root.at? setting.path = other.at? setting.path

/-- What can be read off a text by running the parser. -/
theorem exists_denotes {layout : List Setting} {text : String} {p : Value → Bool}
    (h : ((parse? text).any fun root => root.wellTyped layout && p root) = true) :
    ∃ root, Denotes layout text root ∧ p root = true := by
  cases hparse : parse? text with
  | none =>
    rw [hparse] at h
    cases h
  | some root =>
    rw [hparse, Option.any_some, Bool.and_eq_true] at h
    exact ⟨root, ⟨hparse, h.1⟩, h.2⟩

/-- A text can be one without any of the settings. -/
theorem exists_denotes_without (layout : List Setting) (text : String)
    (h : ((parse? text).any fun root => root.wellTyped layout &&
      layout.all fun setting => (root.at? setting.path).isNone) = true) :
    ∃ root, Denotes layout text root ∧ ∀ setting ∈ layout, root.at? setting.path = none := by
  obtain ⟨root, hroot, hnone⟩ := exists_denotes h
  exact ⟨root, hroot, fun setting hmem =>
    Option.isNone_iff_eq_none.1 (List.all_eq_true.1 hnone setting hmem)⟩

/-- Texts without any of the settings denote documents with the same settings. -/
theorem exists_sameSettings_without (layout : List Setting) (text other : String)
    (htext : ((parse? text).any fun root => root.wellTyped layout &&
      layout.all fun setting => (root.at? setting.path).isNone) = true)
    (hother : ((parse? other).any fun root => root.wellTyped layout &&
      layout.all fun setting => (root.at? setting.path).isNone) = true) :
    ∃ root otherRoot, Denotes layout text root ∧ Denotes layout other otherRoot ∧
      SameSettings layout root otherRoot := by
  obtain ⟨root, hroot, hnone⟩ := exists_denotes_without layout text htext
  obtain ⟨otherRoot, hotherRoot, hotherNone⟩ := exists_denotes_without layout other hother
  exact ⟨root, otherRoot, hroot, hotherRoot, fun setting hmem =>
    (hnone setting hmem).trans (hotherNone setting hmem).symm⟩

namespace SettingType

/-- Whether a reader makes of every value of a type what it makes of the meaning of the value. -/
def ReadBy {α β : Type} (type : SettingType) (read : Reader α) (meaning : Value → Option β)
    (make : β → α) : Prop :=
  ∀ value, type.admits value = true → ∃ b, meaning value = some b ∧ read value = some (make b)

/-- A natural number below the bound is read as it is written. -/
theorem readBy_natural {α : Type} {bound : Nat} {ofNat : Nat → α} :
    (natural bound).ReadBy (fun value => (Value.natBelow? bound value).map ofNat) Value.natural?
      ofNat := by
  intro value h
  obtain ⟨n, hn, hlt⟩ := admits_natural_iff.1 h
  have hread : Value.natBelow? bound value = some n := by
    cases value with
    | integer number =>
      cases number with
      | ofNat m =>
        obtain rfl : m = n := Option.some.inj hn
        exact if_pos ⟨Int.natCast_nonneg m, Int.ofNat_lt.2 hlt⟩
      | negSucc m => cases hn
    | _ => cases hn
  exact ⟨n, hn, congrArg (Option.map ofNat) hread⟩

/-- A list of texts is read as it is written. -/
theorem readBy_texts {α : Type} {ofList : List String → α} :
    texts.ReadBy (fun value => (value.list? Value.text?).map ofList) Value.texts? ofList := by
  intro value h
  obtain ⟨found, hfound⟩ := admits_texts_iff.1 h
  have hread : value.list? Value.text? = some found := by
    cases value with
    | array items => exact hfound
    | _ => cases hfound
  exact ⟨found, hfound, congrArg (Option.map ofList) hread⟩

end SettingType

namespace Entries

variable {α : Type} {root : Value} {default : α}

/-- A section that is absent or a table is read from the entries that stand under its key. -/
theorem exists_section {origin : Origin} {tables : Entries} {table : String} {read : Reader α}
    (hroot : root = .table origin tables) (htable : (root.at? [table]).all Value.isTable = true)
    (hempty : read (.table .implied []) = some default) :
    ∃ inner fields, tables.defaulted table default read = read (.table inner fields) ∧
      ∀ key, fields.lookup key = root.at? [table, key] := by
  subst hroot
  simp only [Value.at?, defaulted] at htable ⊢
  cases hlookup : tables.lookup table with
  | none => exact ⟨.implied, [], hempty.symm, fun _ => rfl⟩
  | some value =>
    rw [hlookup] at htable
    cases value with
    | table inner fields =>
      refine ⟨inner, fields, rfl, fun key => ?_⟩
      cases hfield : fields.lookup key <;> simp [Value.at?, hfield]
    | _ => cases htable

variable {β : Type} {fields : Entries} {key : String} {path : List String} {type : SettingType}
  {read : Reader α} {meaning : Value → Option β} {make : β → α}

/-- A field of the right type that may be absent is made of what its value means. -/
theorem optional_eq (hread : type.ReadBy read meaning make)
    (hfield : fields.lookup key = root.at? path)
    (hadmits : (root.at? path).all type.admits = true) :
    fields.optional key read = some (((root.at? path).bind meaning).map make) := by
  rw [optional, hfield]
  cases hvalue : root.at? path with
  | none => rfl
  | some value =>
    rw [hvalue, Option.all_some] at hadmits
    obtain ⟨b, hb, hmade⟩ := hread value hadmits
    simp only [hmade, Option.map_some, Option.bind_some, hb]

/-- A field with a default is one that may be absent. -/
theorem defaulted_eq_map : fields.defaulted key default read =
    (fields.optional key read).map fun found => found.getD default := by
  rw [defaulted, optional]
  cases fields.lookup key with
  | none => rfl
  | some value =>
    change read value = ((read value).map some).map fun found => found.getD default
    cases read value <;> rfl

/-- A field of the right type is made of what its value means, or else the default. -/
theorem defaulted_eq (hread : type.ReadBy read meaning make)
    (hfield : fields.lookup key = root.at? path)
    (hadmits : (root.at? path).all type.admits = true) :
    fields.defaulted key default read =
      some ((((root.at? path).bind meaning).map make).getD default) := by
  rw [defaulted_eq_map, optional_eq hread hfield hadmits, Option.map_some]

end Entries

end LatticeLedger.Toml
