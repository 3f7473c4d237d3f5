import LatticeLedger.Proofs.Json.Limits

/-!
# Members of an object as fields

An object has as its fields those of its members to whose names a field of the layout answers. Two
objects with the same fields are read alike. So a name may be exchanged for another one to which
the same field answers, and members to which no field answers may come and go, as long as they are
within the limits of the reader and their names and strings have texts; two members that are the
same field make the object unreadable, whatever their values are.
-/

namespace LatticeLedger.Json

namespace Fields

/-- The field of a layout that a member is, if any. -/
def ofMember (layout : List FieldName) (name : String) (value : Value) : Fields :=
  ((layout.find? fun field => field.answersTo name).map fun field => (field.name, value)).toList

/-- The fields of a layout among the members of an object, in their order. All names must have a
text, those of other members as well. -/
def ofMembers? (layout : List FieldName) : List Member → Option Fields
  | [] => some []
  | (body, value) :: rest =>
    body.text?.bind fun name => (ofMembers? layout rest).map fun fields =>
      ofMember layout name value ++ fields

/-- These are the members that a reader takes for fields. -/
theorem ofMembers?_eq (layout : List FieldName) (members : List Member) :
    ofMembers? layout members =
      (members.mapM fun member : Body × Value =>
        member.1.text?.map fun name => (name, member.2)).map fun named =>
          named.filterMap fun member =>
            (layout.find? fun field => field.answersTo member.1).map fun field =>
              (field.name, member.2) := by
  induction members with
  | nil => rfl
  | cons member members ih =>
    obtain ⟨body, value⟩ := member
    rw [ofMembers?, List.mapM_cons, ih]
    cases body.text? with
    | none => rfl
    | some name =>
      cases members.mapM fun member : Body × Value =>
          member.1.text?.map fun name => (name, member.2) with
      | none => rfl
      | some named =>
        simp only [ofMember, Option.map_some, Option.bind_eq_bind, Option.bind_some,
          Option.pure_def, List.filterMap_cons]
        cases layout.find? fun field => field.answersTo name <;> rfl

variable {layout : List FieldName} {body : Body} {name : String} {field : FieldName}

/-- A member is the field that answers to its name. -/
theorem ofMember_of_find? (h : (layout.find? fun field => field.answersTo name) = some field)
    (value : Value) : ofMember layout name value = [(field.name, value)] := by
  rw [ofMember, h]
  rfl

/-- A member is no field if no field answers to its name. -/
theorem ofMember_of_unknown (h : ∀ field ∈ layout, field.answersTo name = false) (value : Value) :
    ofMember layout name value = [] := by
  rw [ofMember, List.find?_eq_none.2 fun field hfield => by simp [h field hfield]]
  rfl

/-- The fields among members are found in parts. -/
theorem ofMembers?_append (before after : List Member) :
    ofMembers? layout (before ++ after) =
      (ofMembers? layout before).bind fun first =>
        (ofMembers? layout after).map fun last => first ++ last := by
  induction before with
  | nil => simp [ofMembers?]
  | cons member before ih =>
    obtain ⟨body, value⟩ := member
    rw [List.cons_append, ofMembers?, ofMembers?, ih]
    cases body.text? <;> cases ofMembers? layout before <;> cases ofMembers? layout after <;> simp

/-- A member that is a field stands among the fields where it stands among the members. -/
theorem ofMembers?_middle (hname : body.text? = some name)
    (hfield : (layout.find? fun field => field.answersTo name) = some field)
    (before after : List Member) (value : Value) :
    ofMembers? layout (before ++ (body, value) :: after) =
      (ofMembers? layout before).bind fun first =>
        (ofMembers? layout after).map fun last => first ++ (field.name, value) :: last := by
  rw [ofMembers?_append, ofMembers?, hname, Option.bind_some]
  simp [ofMember_of_find? hfield, Function.comp_def]

/-- Every member that is a field is among the fields. -/
theorem name_mem_of_ofMembers? {members : List Member} {fields : Fields}
    (h : ofMembers? layout members = some fields) {value : Value} (hmem : (body, value) ∈ members)
    (hname : body.text? = some name)
    (hfield : (layout.find? fun field => field.answersTo name) = some field) :
    field.name ∈ fields.map (·.1) := by
  obtain ⟨before, after, rfl⟩ := List.append_of_mem hmem
  rw [ofMembers?_middle hname hfield] at h
  obtain ⟨first, -, h⟩ := Option.bind_eq_some_iff.1 h
  obtain ⟨last, -, rfl⟩ := Option.map_eq_some_iff.1 h
  simp

end Fields

namespace Value

variable {layout : List FieldName} {body other : Body} {name spelling : String} {field : FieldName}

/-- An object has the fields among its members, none of them twice. -/
theorem fields?_object (layout : List FieldName) (members : List Member) :
    (object members).fields? layout =
      (Fields.ofMembers? layout members).filter fun fields => (fields.map (·.1)).Nodup := by
  rw [Fields.ofMembers?_eq, fields?]
  cases members.mapM fun member : Body × Value =>
      member.1.text?.map fun name => (name, member.2) with
  | none => rfl
  | some named =>
    simp only [Option.bind_eq_bind, Option.bind_some, Option.map_some, Option.filter_some,
      decide_eq_true_eq]

/-- The names before and after a field decide whether an object with that field has any fields. -/
theorem fields?_middle (hname : body.text? = some name)
    (hfield : (layout.find? fun field => field.answersTo name) = some field)
    (before after : List Member) :
    (∀ value, (object (before ++ (body, value) :: after)).fields? layout = none) ∨
      ∃ first last : Fields, field.name ∉ first.map (·.1) ∧
        ∀ value, (object (before ++ (body, value) :: after)).fields? layout =
          some (first ++ (field.name, value) :: last) := by
  simp only [fields?_object, Fields.ofMembers?_middle hname hfield]
  cases Fields.ofMembers? layout before with
  | none => exact .inl fun _ => rfl
  | some first =>
    cases Fields.ofMembers? layout after with
    | none => exact .inl fun _ => rfl
    | some last =>
      simp only [Option.bind_some, Option.map_some, Option.filter_some, List.map_append,
        List.map_cons, decide_eq_true_eq]
      by_cases hnodup : (first.map (·.1) ++ field.name :: last.map (·.1)).Nodup
      · simp only [if_pos hnodup]
        exact .inr ⟨first, last, fun hmem => (List.nodup_append.1 hnodup).2.2 _ hmem _
          List.mem_cons_self rfl, fun _ => rfl⟩
      · simp only [if_neg hnodup]
        exact .inl fun _ => trivial

/-- The spelling of a name does not matter as long as the same field answers to it. -/
theorem fields?_respelled (hname : body.text? = some name) (hspelling : other.text? = some spelling)
    (hfield : (layout.find? fun field => field.answersTo name) = some field)
    (hother : (layout.find? fun field => field.answersTo spelling) = some field)
    (before after : List Member) (value : Value) :
    (object (before ++ (other, value) :: after)).fields? layout =
      (object (before ++ (body, value) :: after)).fields? layout := by
  rw [fields?_object, fields?_object, Fields.ofMembers?_middle hname hfield,
    Fields.ofMembers?_middle hspelling hother]

/-- An object in which two members are the same field has no fields. -/
theorem fields?_repeated {members : List Member} {value twin : Value}
    (hmem : (body, value) ∈ members) (hmemOther : (other, twin) ∈ members)
    (hne : (other, twin) ≠ (body, value)) (hname : body.text? = some name)
    (hspelling : other.text? = some spelling)
    (hfield : (layout.find? fun field => field.answersTo name) = some field)
    (hother : (layout.find? fun field => field.answersTo spelling) = some field) :
    (object members).fields? layout = none := by
  obtain ⟨before, after, rfl⟩ := List.append_of_mem hmem
  rw [fields?_object, Fields.ofMembers?_middle hname hfield, Option.filter_eq_none_iff]
  intro fields hfields hnodup
  obtain ⟨first, hfirst, hfields⟩ := Option.bind_eq_some_iff.1 hfields
  obtain ⟨last, hlast, rfl⟩ := Option.map_eq_some_iff.1 hfields
  rw [decide_eq_true_eq, List.map_append, List.map_cons, List.nodup_append] at hnodup
  rcases List.mem_append.1 hmemOther with hbefore | hafter
  · exact hnodup.2.2 _ (Fields.name_mem_of_ofMembers? hfirst hbefore hspelling hother) _
      List.mem_cons_self rfl
  · have hafter := (List.mem_cons.1 hafter).resolve_left hne
    exact (List.nodup_cons.1 hnodup.2.1).1
      (Fields.name_mem_of_ofMembers? hlast hafter hspelling hother)

end Value

/-- How an object may gain members that are no fields: what is added has a name that no field
answers to, and a value within the limits of a reader. Besides, neither its name nor any name or
string in its value has half a pair of code units: a reader looks at those as well. -/
inductive Extended (layout : List FieldName) (levels : Nat) : List Member → List Member → Prop
  | nil : Extended layout levels [] []
  | keep (member : Member) {members others : List Member}
    (hrest : Extended layout levels members others) :
    Extended layout levels (member :: members) (member :: others)
  | add {body : Body} {value : Value} {members others : List Member}
    (hunknown : ∀ name, body.text? = some name → ∀ field ∈ layout, field.answersTo name = false)
    (hwithin : value.Within levels) (hbody : body.Paired) (hvalue : value.Paired)
    (hrest : Extended layout levels members others) :
    Extended layout levels members ((body, value) :: others)

/-- Members that are no fields do not change the fields of an object. -/
theorem Extended.ofMembers?_eq {layout : List FieldName} {levels : Nat}
    {members others : List Member} (h : Extended layout levels members others) :
    Fields.ofMembers? layout others = Fields.ofMembers? layout members := by
  induction h with
  | nil => rfl
  | keep member hrest ih => rw [Fields.ofMembers?, Fields.ofMembers?, ih]
  | @add body value _ _ hunknown _ hbody _ _ ih =>
    obtain ⟨name, hname⟩ := Option.isSome_iff_exists.1 (Body.isSome_text?_iff.2 hbody)
    rw [Fields.ofMembers?, hname, Option.bind_some, ih,
      Fields.ofMember_of_unknown (hunknown name hname)]
    simp

/-- Members that keep the limits of a reader do not change whether the object does. -/
theorem Extended.membersKeepLimits_eq {layout : List FieldName} {levels : Nat}
    {members others : List Member} (h : Extended layout levels members others) :
    Value.membersKeepLimits levels others = Value.membersKeepLimits levels members := by
  induction h with
  | nil => rfl
  | keep member hrest ih => rw [Value.membersKeepLimits, Value.membersKeepLimits, ih]
  | add _ hwithin hbody hvalue _ ih =>
    rw [Value.membersKeepLimits, Body.isSome_text?_iff.2 hbody,
      Value.keepsLimits_iff.2 ⟨hwithin, hvalue⟩, ih]
    rfl

/-! ### Fields that may be absent -/

namespace Fields

variable {α : Type} {first last : Fields} {name other : String} {value twin : Value}

/-- Another field has no part in the reading of an optional one. -/
theorem optional_middle_of_ne (hne : name ≠ other) (read : Reader α) :
    optional (first ++ (other, value) :: last) name read =
      optional (first ++ (other, twin) :: last) name read := by
  rw [optional, optional, List.lookup_append, List.lookup_append, List.lookup_cons,
    List.lookup_cons, beq_eq_false_iff_ne.2 hne]

/-- An optional field is read from its value, if that is not null. -/
theorem optional_middle (hfirst : name ∉ first.map (·.1)) (hnull : value ≠ .null)
    (read : Reader α) :
    optional (first ++ (name, value) :: last) name read = (read value).map some := by
  have hlookup : (first ++ (name, value) :: last).lookup name = some value := by
    rw [List.lookup_append, List.lookup_cons_self, List.lookup_eq_none_iff.2, Option.none_or]
    intro field hfield
    exact bne_iff_ne.2 fun heq => hfirst (List.mem_map.2 ⟨field, hfield, heq.symm⟩)
  exact optional_of_lookup hlookup hnull read

end Fields

end LatticeLedger.Json
