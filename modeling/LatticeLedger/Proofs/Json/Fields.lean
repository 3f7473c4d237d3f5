import LatticeLedger.Json.Limits
import LatticeLedger.Json.Reader
import LatticeLedger.Proofs.Json.Layout

/-!
# Written fields are read back

A record value is written with those of its members that are present. Read under the same layout,
every field gives what was written for it, and an absent field gives nothing. Records whose fields
are all required are written with exactly the names of their layout. The lemmas are stated for any
layout, so each record of the library needs only its own list of members.
-/

namespace LatticeLedger.Json

/-! ### Scalars -/

namespace Value

/-- A text is read back from its string. -/
theorem text?_ofString (text : String) : (ofString text).text? = some text :=
  Body.text?_ofText text

/-- A number below the bound is read back. -/
theorem natBelow?_ofNat {n bound : Nat} (h : n < bound) : natBelow? bound (ofNat n) = some n := by
  simp [natBelow?, ofNat, Number.toNat?_ofNat, h]

/-- A number of 8 bits is read back. -/
theorem uint8?_ofNat (n : UInt8) : (ofNat n.toNat).uint8? = some n := by
  rw [uint8?, natBelow?_ofNat n.toNat_lt, Option.map_some, UInt8.ofNat_toNat]

/-- A number of 16 bits is read back. -/
theorem uint16?_ofNat (n : UInt16) : (ofNat n.toNat).uint16? = some n := by
  rw [uint16?, natBelow?_ofNat n.toNat_lt, Option.map_some, UInt16.ofNat_toNat]

/-- A number of 32 bits is read back. -/
theorem uint32?_ofNat (n : UInt32) : (ofNat n.toNat).uint32? = some n := by
  rw [uint32?, natBelow?_ofNat n.toNat_lt, Option.map_some, UInt32.ofNat_toNat]

/-- A number of 64 bits is read back. -/
theorem uint64?_ofNat (n : UInt64) : (ofNat n.toNat).uint64? = some n := by
  rw [uint64?, natBelow?_ofNat n.toNat_lt, Option.map_some, UInt64.ofNat_toNat]

/-- Elements that are all read back are read back together, in their order. -/
theorem mapM_map_eq_some {α β : Type} {read : β → Option α} {write : α → β} {list : List α}
    (h : ∀ a ∈ list, read (write a) = some a) : (list.map write).mapM read = some list := by
  induction list with
  | nil => rfl
  | cons a rest ih =>
    obtain ⟨hfirst, hrest⟩ := List.forall_mem_cons.1 h
    rw [List.map_cons, List.mapM_cons, hfirst, ih hrest]
    rfl

/-- A list is read back if each of its elements is. -/
theorem list?_map {α : Type} {read : Reader α} {write : α → Value}
    (h : ∀ a, read (write a) = some a) (list : List α) :
    list? read (.array (list.map write)) = some list :=
  mapM_map_eq_some fun a _ => h a

end Value

/-! ### Fields -/

section Present

variable {members : List (String × Option Value)} {name : String} {value : Value}

/-- The present members are those that have a value. -/
theorem mem_present : (name, value) ∈ present members ↔ (name, some value) ∈ members := by
  simp only [present, List.mem_filterMap, Prod.exists, Option.map_eq_some_iff, Prod.mk.injEq]
  constructor
  · rintro ⟨other, _, hmem, found, rfl, rfl, rfl⟩
    exact hmem
  · intro hmem
    exact ⟨name, some value, hmem, value, rfl, rfl, rfl⟩

/-- What is present keeps its order. -/
theorem names_present_sublist (members : List (String × Option Value)) :
    ((present members).map (·.1)).Sublist (members.map (·.1)) := by
  induction members with
  | nil => exact .slnil
  | cons member members ih =>
    obtain ⟨other, _ | found⟩ := member
    · exact ih.cons other
    · exact ih.cons_cons other

/-- A name is found among the present members if a value stands beside it. -/
theorem lookup_present (hnodup : (members.map (·.1)).Nodup) {value? : Option Value}
    (hmem : (name, value?) ∈ members) : (present members).lookup name = value? := by
  induction members with
  | nil => exact absurd hmem List.not_mem_nil
  | cons member members ih =>
    obtain ⟨other, other?⟩ := member
    obtain ⟨hfirst, hrest⟩ := List.nodup_cons.1 hnodup
    rcases List.mem_cons.1 hmem with heq | hlater
    · obtain ⟨rfl, rfl⟩ := Prod.mk.inj heq
      cases value? with
      | some value => exact List.lookup_cons_self
      | none =>
        refine List.lookup_eq_none_iff.2 fun found hfound => ?_
        have hname := (names_present_sublist members).subset (List.mem_map_of_mem hfound)
        exact bne_iff_ne.2 fun heq => hfirst (heq ▸ hname)
    · have hne : (name == other) = false := by
        rw [beq_eq_false_iff_ne]
        rintro rfl
        exact hfirst (List.mem_map.2 ⟨_, hlater, rfl⟩)
      cases other? with
      | none => exact ih hrest hlater
      | some found =>
        change ((other, found) :: present members).lookup name = value?
        rw [List.lookup_cons, hne]
        exact ih hrest hlater

end Present

/-- A text has one body, so members with other names or values are another object. -/
theorem ofMembers_inj {members others : List (String × Value)} :
    Value.ofMembers members = Value.ofMembers others ↔ members = others := by
  have hwrite : ∀ member other : String × Value,
      (Body.ofText member.1, member.2) = (Body.ofText other.1, other.2) → member = other := by
    intro member other heq
    obtain ⟨hname, hvalue⟩ := Prod.mk.inj heq
    have htext := Body.text?_ofText member.1
    rw [hname, Body.text?_ofText] at htext
    exact Prod.ext (Option.some.inj htext).symm hvalue
  rw [Value.ofMembers, Value.ofMembers, Value.object.injEq]
  exact List.map_inj_right hwrite

/-- Written members are the fields that a reader finds, provided that the layout has each of them
under the name with which it is written. -/
theorem fields?_ofMembers {layout : List FieldName} {members : List (String × Value)}
    (hlayout : ∀ member ∈ members,
      (layout.find? fun field => field.answersTo member.1).map (·.name) = some member.1)
    (hnodup : (members.map (·.1)).Nodup) :
    (Value.ofMembers members).fields? layout = some members := by
  have hnamed : (members.map fun member => (Body.ofText member.1, member.2)).mapM
      (fun member : Body × Value => member.1.text?.map fun name => (name, member.2)) =
        some members := by
    clear hlayout hnodup
    induction members with
    | nil => rfl
    | cons member members ih =>
      rw [List.map_cons, List.mapM_cons, ih, Body.text?_ofText]
      rfl
  have hknown : (members.filterMap fun member =>
      (layout.find? fun field => field.answersTo member.1).map fun field =>
        (field.name, member.2)) = members := by
    clear hnamed hnodup
    induction members with
    | nil => rfl
    | cons member members ih =>
      obtain ⟨hfirst, hrest⟩ := List.forall_mem_cons.1 hlayout
      obtain ⟨field, hfield, hname⟩ := Option.map_eq_some_iff.1 hfirst
      rw [List.filterMap_cons, ih hrest]
      simp [hfield, hname]
  simp only [Value.ofMembers, Value.fields?, hnamed, hknown, Option.bind_eq_bind,
    Option.bind_some, if_pos hnodup]

/-- The fields of a written record value, all of whose names the layout has. -/
theorem fields?_present {layout : List FieldName} {members : List (String × Option Value)}
    (hlayout : ∀ name ∈ members.map (·.1),
      (layout.find? fun field => field.answersTo name).map (·.name) = some name)
    (hnodup : (members.map (·.1)).Nodup) :
    (Value.ofMembers (present members)).fields? layout = some (present members) := by
  have hsublist := names_present_sublist members
  refine fields?_ofMembers (fun member hmem => ?_) (hnodup.sublist hsublist)
  exact hlayout member.1 (hsublist.subset (List.mem_map_of_mem hmem))

/-- An optional field that is present is read from its value, if that is not null. -/
theorem optional_of_lookup {α : Type} {fields : Fields} {name : String} {value : Value}
    (hlookup : fields.lookup name = some value) (hnull : value ≠ .null) (read : Reader α) :
    fields.optional name read = (read value).map some := by
  rw [Fields.optional, hlookup]
  split
  case h_1 heq => cases heq
  case h_2 heq => exact absurd (Option.some.inj heq) hnull
  case h_3 heq => rw [Option.some.inj heq]

/-- An optional field is read back, present or absent, since no value is written as null. -/
theorem optional_present {α : Type} {members : List (String × Option Value)}
    {name : String} {write : α → Value} {read : Reader α} {value? : Option α}
    (hnodup : (members.map (·.1)).Nodup) (hmem : (name, value?.map write) ∈ members)
    (hread : ∀ a, read (write a) = some a) (hnull : ∀ a, write a ≠ .null) :
    Fields.optional (present members) name read = some value? := by
  have hlookup := lookup_present hnodup hmem
  cases value? with
  | none => rw [Fields.optional, hlookup]; rfl
  | some a => rw [optional_of_lookup hlookup (hnull a), hread, Option.map_some]

/-! ### Records without optional fields -/

/-- The fields of a record value that is written with exactly the names of its layout. -/
theorem fields?_ofLayout {layout : List FieldName} {members : List (String × Value)}
    (hnames : members.map (·.1) = layout.map (·.name))
    (haliases : ∀ field ∈ layout, field.aliases = [])
    (hnodup : (layout.map (·.name)).Nodup) :
    (Value.ofMembers members).fields? layout = some members := by
  refine fields?_ofMembers (fun member hmem => ?_) (hnames ▸ hnodup)
  have hanswers : ∀ field ∈ layout, field.answersTo member.1 = true ↔ field.name = member.1 := by
    intro field hfield
    simp [FieldName.answersTo, haliases field hfield]
  have hname : member.1 ∈ layout.map (·.name) := hnames ▸ List.mem_map_of_mem hmem
  obtain ⟨field, hfield, heq⟩ := List.mem_map.1 hname
  have hsome : (layout.find? fun field => field.answersTo member.1).isSome := by
    rw [List.find?_isSome]
    exact ⟨field, hfield, (hanswers field hfield).2 heq⟩
  obtain ⟨found, hfound⟩ := Option.isSome_iff_exists.1 hsome
  have hanswer := List.find?_some hfound
  rw [hfound, Option.map_some, (hanswers found (List.mem_of_find?_eq_some hfound)).1 hanswer]

/-- A field that must be present is what is read from the value beside its name. -/
theorem required_of_lookup {α : Type} {fields : Fields} {name : String} {value : Value}
    {read : Reader α} {a : α} (hlookup : fields.lookup name = some value)
    (hread : read value = some a) : fields.required name read = some a := by
  rw [Fields.required, hlookup, Option.bind_some, hread]

end LatticeLedger.Json
