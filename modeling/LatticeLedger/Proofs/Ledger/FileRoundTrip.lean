import LatticeLedger.Ledger.File
import LatticeLedger.Proofs.Json.Limits

/-!
# A ledger file holds exactly the ledger that was written

Any list of records survives the way through its file: absent fields stay absent, a context
without fields stays a context, and no text and no number is changed. The reader of a file holds
the whole text to its limits before it looks for records, so the proof has two parts: what is
written is within the limits, and its fields are those of the records.
-/

namespace LatticeLedger

open Json Value

namespace LoggedContext

/-- The fields of a context with their written values, if they have any. -/
def members (context : LoggedContext) : List (String × Option Value) :=
  [("class", context.classId.map fun n => ofNat n.toNat),
    ("coord", context.coord.map fun n => ofNat n.toNat),
    ("anchor", context.anchor.map fun n => ofNat n.toNat),
    ("v_bits", context.vBits.map fun n => ofNat n.toNat),
    ("row", context.row.map fun n => ofNat n.toNat),
    ("col", context.col.map fun n => ofNat n.toNat), ("ace", context.step.map ofString)]

/-- A context is written as the object of the members that are there. -/
theorem toJson_eq (context : LoggedContext) :
    context.toJson = ofMembers (present context.members) := rfl

/-- A written context is read back. -/
theorem ofJson?_toJson (context : LoggedContext) : ofJson? context.toJson = some context := by
  have hnodup : (context.members.map (·.1)).Nodup := by
    show ["class", "coord", "anchor", "v_bits", "row", "col", "ace"].Nodup
    decide
  have hlayout : ∀ name ∈ context.members.map (·.1),
      (layout.find? fun field => field.answersTo name).map (·.name) = some name := by
    show ∀ name ∈ ["class", "coord", "anchor", "v_bits", "row", "col", "ace"], _
    decide
  have hword (name : String) (n? : Option UInt32)
      (hmem : (name, n?.map fun n => ofNat n.toNat) ∈ context.members) :
      Fields.optional (present context.members) name uint32? = some n? :=
    optional_present hnodup hmem uint32?_ofNat (fun _ => nofun)
  have hstep : Fields.optional (present context.members) "ace" text? = some context.step :=
    optional_present hnodup (by simp [members]) text?_ofString (fun _ => nofun)
  rw [toJson_eq, ofJson?, fields?_present hlayout hnodup]
  simp only [hword "class" context.classId (by simp [members]),
    hword "coord" context.coord (by simp [members]),
    hword "anchor" context.anchor (by simp [members]),
    hword "v_bits" context.vBits (by simp [members]),
    hword "row" context.row (by simp [members]), hword "col" context.col (by simp [members]),
    hstep, Option.bind_eq_bind, Option.bind_some, Option.pure_def]

/-- A written context takes one level of nesting. -/
theorem readable_toJson (context : LoggedContext) (levels : Nat) :
    Readable (levels + 1) context.toJson := by
  have hword (n? : Option UInt32) {value : Value}
      (h : some value = n?.map fun n => ofNat n.toNat) : Readable levels value := by
    obtain ⟨n, -, rfl⟩ := Option.map_eq_some_iff.1 h.symm
    exact readable_ofNat (Nat.lt_trans n.toNat_lt (by decide))
  have htext (text? : Option String) {value : Value}
      (h : some value = text?.map ofString) : Readable levels value := by
    obtain ⟨text, -, rfl⟩ := Option.map_eq_some_iff.1 h.symm
    exact readable_ofString text
  rw [toJson_eq]
  refine readable_present fun name value hmem => ?_
  simp only [members, List.mem_cons, List.not_mem_nil, or_false, Prod.mk.injEq] at hmem
  rcases hmem with ⟨-, h⟩ | ⟨-, h⟩ | ⟨-, h⟩ | ⟨-, h⟩ | ⟨-, h⟩ | ⟨-, h⟩ | ⟨-, h⟩
  case inr.inr.inr.inr.inr.inr => exact htext _ h
  all_goals exact hword _ h

end LoggedContext

namespace Record

/-- The fields of a record with their written values, if they have any. -/
def members (record : Record) : List (String × Option Value) :=
  [("kind", record.kind.map ofString), ("status", record.status.map ofString),
    ("entry_id", record.entryId.map ofString), ("t", record.t.map fun t => ofNat t.toNat),
    ("context", record.context.map LoggedContext.toJson)]

/-- A record is written as the object of the members that are there. -/
theorem toJson_eq (record : Record) : record.toJson = ofMembers (present record.members) := rfl

/-- A written record is read back. -/
theorem ofJson?_toJson (record : Record) : ofJson? record.toJson = some record := by
  have hnodup : (record.members.map (·.1)).Nodup := by
    show ["kind", "status", "entry_id", "t", "context"].Nodup
    decide
  have hlayout : ∀ name ∈ record.members.map (·.1),
      (layout.find? fun field => field.answersTo name).map (·.name) = some name := by
    show ∀ name ∈ ["kind", "status", "entry_id", "t", "context"], _
    decide
  have htext (name : String) (note? : Option String)
      (hmem : (name, note?.map ofString) ∈ record.members) :
      Fields.optional (present record.members) name text? = some note? :=
    optional_present hnodup hmem text?_ofString (fun _ => nofun)
  have ht : Fields.optional (present record.members) "t" uint64? = some record.t :=
    optional_present hnodup (by simp [members]) uint64?_ofNat (fun _ => nofun)
  have hcontext : Fields.optional (present record.members) "context" LoggedContext.ofJson? =
      some record.context :=
    optional_present hnodup (by simp [members]) LoggedContext.ofJson?_toJson (fun _ => nofun)
  rw [toJson_eq, ofJson?, fields?_present hlayout hnodup]
  simp only [htext "kind" record.kind (by simp [members]),
    htext "status" record.status (by simp [members]),
    htext "entry_id" record.entryId (by simp [members]), ht, hcontext, Option.bind_eq_bind,
    Option.bind_some, Option.pure_def]

/-- A written record takes two levels of nesting, the second for its context. -/
theorem readable_toJson (record : Record) (levels : Nat) :
    Readable (levels + 2) record.toJson := by
  rw [toJson_eq]
  refine readable_present fun name value hmem => ?_
  simp only [members, List.mem_cons, List.not_mem_nil, or_false, Prod.mk.injEq] at hmem
  rcases hmem with ⟨-, h⟩ | ⟨-, h⟩ | ⟨-, h⟩ | ⟨-, h⟩ | ⟨-, h⟩
  case inr.inr.inr.inl =>
    obtain ⟨t, -, rfl⟩ := Option.map_eq_some_iff.1 h.symm
    exact readable_ofNat t.toNat_lt
  case inr.inr.inr.inr =>
    obtain ⟨context, -, rfl⟩ := Option.map_eq_some_iff.1 h.symm
    exact context.readable_toJson levels
  all_goals
    obtain ⟨text, -, rfl⟩ := Option.map_eq_some_iff.1 h.symm
    exact readable_ofString text

end Record

namespace Ledger

/-- A written ledger is read back from its value. -/
theorem ofJson?_toJson (records : List Record) : ofJson? (toJson records) = some records := by
  have hitems := list?_map Record.ofJson?_toJson records
  have hname : ((Body.ofText "entries").text? == some "entries") = true := by
    rw [Body.text?_ofText, beq_self_eq_true]
  rw [toJson, ofMembers, ofJson?]
  simp only [List.map_cons, List.map_nil, List.filter_cons, hname, if_true, List.filter_nil]
  exact hitems

/-- Every ledger is written within the limits of the reader. -/
theorem readable_toJson (records : List Record) : Readable nestingLimit (toJson records) := by
  refine readable_ofMembers fun member hmem => ?_
  rw [List.mem_singleton.1 hmem]
  refine readable_array fun item hmem => ?_
  obtain ⟨record, -, rfl⟩ := List.mem_map.1 hmem
  exact record.readable_toJson 123

/-- The text of a ledger is read as that ledger. -/
theorem parse?_text (records : List Record) : parse? (text records) = some records := by
  rw [parse?, text, ofLimitedText?_prettyText (readable_toJson records), Option.bind_some,
    ofJson?_toJson]

/-- Writing a ledger to a file and reading the file gives the same ledger, for every list of
records. -/
theorem ofFileText_text (records : List Record) : ofFileText (text records) = .ok records := by
  rw [ofFileText, parse?_text]

end Ledger

end LatticeLedger
