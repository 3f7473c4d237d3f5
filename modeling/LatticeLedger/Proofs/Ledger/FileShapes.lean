import LatticeLedger.Proofs.Json.Parts
import LatticeLedger.Proofs.Ledger.FileRoundTrip

/-!
# Both shapes of a ledger file

A ledger may stand in its file by itself, as an array, or in an object under the name `entries`.
Whether an array is a ledger, and of which records, is the same for both shapes: whatever else the
object has is passed over as long as it is within the limits of the reader and its names and strings
have texts. An object that does not say which array is meant is no ledger.
-/

namespace LatticeLedger.Ledger

open Json Value

/-- What a text says as a ledger is decided by its value. -/
theorem parse?_eq (text : String) :
    parse? text = (ofText? text).bind fun v =>
      if v.keepsLimits nestingLimit then ofJson? v else none := by
  rw [parse?, ofLimitedText?]
  cases ofText? text with
  | none => rfl
  | some v =>
    rw [Option.filter_some, Option.bind_some]
    split <;> rfl

/-- A text is no ledger file exactly if it does not say any ledger. -/
theorem ofFileText_eq_error_iff {text : String} :
    ofFileText text = .error .json ↔ parse? text = none := by
  rw [ofFileText]
  split
  case h_1 records hsome => simp [hsome]
  case h_2 hnone => simp [hnone]

/-- Texts that say the same are the same as files. -/
theorem ofFileText_congr {text other : String} (h : parse? text = parse? other) :
    ofFileText text = ofFileText other := by
  rw [ofFileText, ofFileText, h]

/-- A member of an object under whose name the entries of a ledger are looked for. -/
def IsEntries (member : Member) : Prop := member.1.text? = some "entries"

/-- The filter of the reader finds the members under the name of the entries. -/
theorem mem_filter_entries {members : List Member} {member : Member} :
    (member ∈ members.filter fun member => member.1.text? == some "entries") ↔
      member ∈ members ∧ IsEntries member := by
  simp [IsEntries]

/-- Members of an object that do not say which array is the ledger: none of them is called
`entries`, or two are, or one that is no array. -/
inductive Unfit (members : List Member) : Prop
  | missing (h : ∀ member ∈ members, ¬ IsEntries member)
  | repeated {first second : Member} (h : [first, second].Sublist members)
    (hfirst : IsEntries first) (hsecond : IsEntries second)
  | noArray {member : Member} (hmem : member ∈ members) (h : IsEntries member)
    (hvalue : ∀ items, member.2 ≠ .array items)

/-- Beside a member under `entries` there must not be another one. -/
theorem unfit_of_isEntries {before after : List Member} {member other : Member}
    (hmember : IsEntries member) (hmem : other ∈ before ++ after) (hother : IsEntries other) :
    Unfit (before ++ member :: after) := by
  rcases List.mem_append.1 hmem with hbefore | hafter
  · exact .repeated ((List.singleton_sublist.2 hbefore).append
      ((List.nil_sublist after).cons_cons member)) hother hmember
  · exact .repeated (((List.singleton_sublist.2 hafter).cons_cons member).trans
      (List.sublist_append_right before _)) hmember hother

/-- An object that does not say which array is the ledger is no ledger. -/
theorem ofJson?_of_unfit {members : List Member} (h : Unfit members) :
    ofJson? (.object members) = none := by
  rw [ofJson?]
  split
  case h_2 => rfl
  case h_1 name items hfilter =>
    have hmem : (name, Value.array items) ∈ members ∧ IsEntries (name, .array items) := by
      rw [← mem_filter_entries, hfilter]
      exact List.mem_singleton_self _
    cases h with
    | missing h => exact absurd hmem.2 (h _ hmem.1)
    | @repeated first second h hfirst hsecond =>
      have hboth := h.filter fun member => member.1.text? == some "entries"
      rw [hfilter, List.filter_eq_self.2 (by simp_all [IsEntries])] at hboth
      exact absurd hboth.length_le (by simp)
    | @noArray member hmember h hvalue =>
      have hfound := mem_filter_entries.2 ⟨hmember, h⟩
      rw [hfilter, List.mem_singleton] at hfound
      exact absurd (congrArg Prod.snd hfound) (hvalue items)

/-- The one array under `entries` is read as it would be by itself. -/
theorem ofJson?_of_entries {before after : List Member} {name : Body} {items : List Value}
    (hname : name.text? = some "entries")
    (hothers : ∀ member ∈ before ++ after, ¬ IsEntries member) :
    ofJson? (.object (before ++ (name, .array items) :: after)) = ofJson? (.array items) := by
  have hskip {members : List Member} (h : ∀ member ∈ members, ¬ IsEntries member) :
      (members.filter fun member => member.1.text? == some "entries") = [] :=
    List.eq_nil_iff_forall_not_mem.2 fun member hmem =>
      h member (mem_filter_entries.1 hmem).1 (mem_filter_entries.1 hmem).2
  rw [List.forall_mem_append] at hothers
  rw [ofJson?, List.filter_append, hskip hothers.1, List.filter_cons_of_pos (by simp [hname]),
    hskip hothers.2]
  rfl

end LatticeLedger.Ledger
