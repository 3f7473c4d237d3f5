import LatticeLedger.Proofs.Config.Contracts
import LatticeLedger.Proofs.Files.AuditCommand
import LatticeLedger.Proofs.Toml.Settings

/-!
# Loading a configuration

A document that gives every setting its type is read setting by setting: the value under its two
keys, or else the standard one. Nothing else in the document matters. Whether the result is accepted
is then a matter of the values alone, and what is refused is refused with the first reason in the
order of the checks. A schedule and a policy that were loaded are never refused by an audit.
-/

namespace LatticeLedger

open Toml

/-! ### Fields of a section -/

section Fields

variable {root : Value} {fields : Entries} {key : String} {path : List String}

/-- A setting of 32 bits that may be left out is read as its number, or as the standard one. -/
theorem defaulted_uint32 {default : UInt32} (hfield : fields.lookup key = root.at? path)
    (hadmits : (root.at? path).all (SettingType.natural UInt32.size).admits = true) :
    fields.defaulted key default Value.uint32? =
      some (((root.naturalAt? path).map UInt32.ofNat).getD default) :=
  Entries.defaulted_eq SettingType.readBy_natural hfield hadmits

/-- A setting of 64 bits that may be left out is read as its number, or as the standard one. -/
theorem defaulted_uint64 {default : UInt64} (hfield : fields.lookup key = root.at? path)
    (hadmits : (root.at? path).all (SettingType.natural UInt64.size).admits = true) :
    fields.defaulted key default Value.uint64? =
      some (((root.naturalAt? path).map UInt64.ofNat).getD default) :=
  Entries.defaulted_eq SettingType.readBy_natural hfield hadmits

/-- A setting of 32 bits without a standard value is read as its number if it is there. -/
theorem optional_uint32 (hfield : fields.lookup key = root.at? path)
    (hadmits : (root.at? path).all (SettingType.natural UInt32.size).admits = true) :
    fields.optional key Value.uint32? = some ((root.naturalAt? path).map UInt32.ofNat) :=
  Entries.optional_eq SettingType.readBy_natural hfield hadmits

/-- A setting of 32 bits loses nothing as a word. -/
theorem toNat_getD_uint32 {default : UInt32}
    (hadmits : (root.at? path).all (SettingType.natural UInt32.size).admits = true) :
    (((root.naturalAt? path).map UInt32.ofNat).getD default).toNat =
      (root.naturalAt? path).getD default.toNat := by
  cases hn : root.naturalAt? path with
  | none => rfl
  | some n => exact UInt32.toNat_ofNat_of_lt' (Value.lt_of_naturalAt? hadmits hn)

/-- A setting of 64 bits loses nothing as a word. -/
theorem toNat_getD_uint64 {default : UInt64}
    (hadmits : (root.at? path).all (SettingType.natural UInt64.size).admits = true) :
    (((root.naturalAt? path).map UInt64.ofNat).getD default).toNat =
      (root.naturalAt? path).getD default.toNat := by
  cases hn : root.naturalAt? path with
  | none => rfl
  | some n => exact UInt64.toNat_ofNat_of_lt' (Value.lt_of_naturalAt? hadmits hn)

end Fields

/-! ### Schedules -/

namespace Schedule

/-- The settings of a schedule file. -/
def settings : List Setting :=
  [⟨"schedule", "window_size", .natural UInt32.size⟩,
    ⟨"schedule", "window_count", .natural UInt32.size⟩,
    ⟨"schedule", "audit_interval", .natural UInt64.size⟩]

/-- The size of windows that a document asks for. -/
def sizeIn (root : Value) : Nat :=
  (root.naturalAt? ["schedule", "window_size"]).getD ({} : Schedule).windowSize.toNat

/-- The number of windows that a document asks for. -/
def countIn (root : Value) : Nat :=
  (root.naturalAt? ["schedule", "window_count"]).getD ({} : Schedule).windowCount.toNat

/-- Whether a schedule has the numbers of a document, and the standard ones where it has none. -/
structure Follows (root : Value) (schedule : Schedule) : Prop where
  windowSize : schedule.windowSize.toNat = sizeIn root
  windowCount : schedule.windowCount.toNat = countIn root
  auditInterval : schedule.auditInterval.toNat =
    (root.naturalAt? ["schedule", "audit_interval"]).getD ({} : Schedule).auditInterval.toNat

/-- What comes of a document as a schedule. -/
structure LoadsTo (root : Value) (outcome : Except ConfigError Schedule) : Prop where
  ok_iff : (∃ schedule, outcome = .ok schedule) ↔ WindowsAllowed (sizeIn root) (countIn root)
  follows : ∀ schedule, outcome = .ok schedule → Follows root schedule
  error_iff : ∀ error, outcome = .error error ↔
    ∃ broken, WindowsBreak (sizeIn root) (countIn root) broken ∧ .violation broken = error

/-- The schedule of a document before its contract is checked. -/
def settled (root : Value) : Schedule :=
  let standard : Schedule := {}
  { windowSize :=
      ((root.naturalAt? ["schedule", "window_size"]).map UInt32.ofNat).getD standard.windowSize
    windowCount :=
      ((root.naturalAt? ["schedule", "window_count"]).map UInt32.ofNat).getD standard.windowCount
    auditInterval :=
      ((root.naturalAt? ["schedule", "audit_interval"]).map UInt64.ofNat).getD
        standard.auditInterval }

variable {text : String} {root : Value}

/-- A schedule that is settled from a document has the numbers of the document. -/
theorem follows_settled (htyped : root.wellTyped settings = true) :
    Follows root (settled root) := by
  obtain ⟨⟨htable, hsize⟩, htyped⟩ := Value.wellTyped_cons_iff.1 htyped
  obtain ⟨⟨-, hcount⟩, htyped⟩ := Value.wellTyped_cons_iff.1 htyped
  obtain ⟨⟨-, hinterval⟩, -⟩ := Value.wellTyped_cons_iff.1 htyped
  constructor
  · exact toNat_getD_uint32 hsize
  · exact toNat_getD_uint32 hcount
  · exact toNat_getD_uint64 hinterval

/-- A document is read setting by setting. -/
theorem ofToml?_eq_settled {tables : Entries} (hroot : root = .table .header tables)
    (htyped : root.wellTyped settings = true) : ofToml? root = some (settled root) := by
  obtain ⟨⟨htable, hsize⟩, htyped⟩ := Value.wellTyped_cons_iff.1 htyped
  obtain ⟨⟨-, hcount⟩, htyped⟩ := Value.wellTyped_cons_iff.1 htyped
  obtain ⟨⟨-, hinterval⟩, -⟩ := Value.wellTyped_cons_iff.1 htyped
  have hempty : ofSection? (.table .implied []) = some {} := rfl
  obtain ⟨inner, fields, hsection, hlookup⟩ := Entries.exists_section hroot htable hempty
  have hfields : ofSection? (.table inner fields) = some (settled root) := by
    simp only [ofSection?, Value.fields?, Option.bind_eq_bind, Option.bind_some]
    rw [defaulted_uint32 (hlookup "window_size") hsize,
      defaulted_uint32 (hlookup "window_count") hcount,
      defaulted_uint64 (hlookup "audit_interval") hinterval]
    rfl
  calc ofToml? root
      _ = ofToml? (.table .header tables) := congrArg ofToml? hroot
      _ = ofSection? (.table inner fields) := hsection
      _ = some (settled root) := hfields

/-- The text of a document is read as the schedule settled from it, if that keeps its contract. -/
theorem ofFileText_eq_settled (hroot : Denotes settings text root) :
    ofFileText text = (settled root).checked.mapError .violation := by
  obtain ⟨tables, htable⟩ := Value.exists_table_of_parse? hroot.parse
  rw [ofFileText, hroot.parse, Option.bind_some, ofToml?_eq_settled htable hroot.typed]

/-- The text of a document loads to what the document says of windows. -/
theorem loadsTo_of_denotes (hroot : Denotes settings text root) :
    LoadsTo root (ofFileText text) := by
  have hfollows := follows_settled hroot.typed
  rw [ofFileText_eq_settled hroot]
  refine ⟨?_, ?_, fun error => ?_⟩
  · rw [← hfollows.windowSize, ← hfollows.windowCount, ← check_eq_ok_iff]
    simp only [mapError_eq_ok_iff, checked, bind_return_eq_ok_iff, exists_and_left, exists_eq',
      and_true]
  · intro schedule h
    obtain ⟨-, rfl⟩ := bind_return_eq_ok_iff.1 (mapError_eq_ok_iff.1 h)
    exact hfollows
  · rw [mapError_eq_error_iff]
    refine exists_congr fun broken => and_congr_left fun _ => ?_
    rw [checked, bind_return_eq_error_iff, check_eq_error_iff, hfollows.windowSize,
      hfollows.windowCount]

/-- The outcome of a schedule file depends on nothing but its settings. -/
theorem ofFileText_congr {other : String} {otherRoot : Value}
    (hroot : Denotes settings text root) (hother : Denotes settings other otherRoot)
    (h : SameSettings settings root otherRoot) :
    ofFileText text = ofFileText other := by
  simp only [SameSettings, settings, List.forall_mem_cons, Setting.path] at h
  obtain ⟨hsize, hcount, hinterval, -⟩ := h
  rw [ofFileText_eq_settled hroot, ofFileText_eq_settled hother]
  simp only [settled, Value.naturalAt?, hsize, hcount, hinterval]

end Schedule

/-! ### Policies -/

/-- Whether a size of the lattice is left out of a document or declared as it is. -/
def Indexing.Agrees (root : Value) (key : String) (size : Nat) : Prop :=
  ∀ n, root.naturalAt? ["indexing", key] = some n → n = size

namespace Policy

/-- The settings of an audit bundle. -/
def settings : List Setting :=
  [⟨"policy", "class_skew_tolerance", .natural UInt64.size⟩,
    ⟨"policy", "anchor_skew_tolerance", .natural UInt64.size⟩,
    ⟨"policy", "per_step_kinds", .texts⟩,
    ⟨"intervals", "audit_every", .natural UInt64.size⟩,
    ⟨"indexing", "classes", .natural UInt32.size⟩,
    ⟨"indexing", "anchors", .natural UInt32.size⟩]

/-- Whether a policy has the values of a document, and the standard ones where it has none. -/
structure Follows (root : Value) (policy : Policy) : Prop where
  classSkewTolerance : policy.classSkewTolerance.toNat =
    (root.naturalAt? ["policy", "class_skew_tolerance"]).getD
      ({} : Policy).classSkewTolerance.toNat
  anchorSkewTolerance : policy.anchorSkewTolerance.toNat =
    (root.naturalAt? ["policy", "anchor_skew_tolerance"]).getD
      ({} : Policy).anchorSkewTolerance.toNat
  auditEvery : policy.auditEvery.toNat =
    (root.naturalAt? ["intervals", "audit_every"]).getD ({} : Policy).auditEvery.toNat
  perStepKinds : ∀ kind, kind ∈ policy.perStepKinds ↔
    kind ∈ (root.textsAt? ["policy", "per_step_kinds"]).getD
      ({} : Policy).perStepKinds.toList

/-- Whether a document has the sizes of the lattice, and only kinds of closings. -/
structure Accepted (root : Value) : Prop where
  classes : Indexing.Agrees root "classes" 96
  anchors : Indexing.Agrees root "anchors" 6
  kinds : ∀ kinds, root.textsAt? ["policy", "per_step_kinds"] = some kinds →
    ∀ kind ∈ kinds, IsClosingKind kind

/-- The first reason to refuse a document. -/
inductive Fault (root : Value) : ConfigError → Prop
  | classes {n : Nat} (hdeclared : root.naturalAt? ["indexing", "classes"] = some n)
    (hne : n ≠ 96) : Fault root (.indexing "classes" n 96)
  | anchors {n : Nat} (hclasses : Indexing.Agrees root "classes" 96)
    (hdeclared : root.naturalAt? ["indexing", "anchors"] = some n)
    (hne : n ≠ 6) : Fault root (.indexing "anchors" n 6)
  | kind {kinds : List String} {kind : String} {flaw : Flaw}
    (hclasses : Indexing.Agrees root "classes" 96) (hanchors : Indexing.Agrees root "anchors" 6)
    (hkinds : root.textsAt? ["policy", "per_step_kinds"] = some kinds) (hmem : kind ∈ kinds)
    (hleast : ∀ other ∈ kinds, other < kind → IsClosingKind other) (hflaw : KindFlaw kind flaw) :
    Fault root (.violation (.flawed "audit_policy.per_step_kinds" flaw))

/-- What comes of a document as a policy. -/
structure LoadsTo (root : Value) (outcome : Except ConfigError Policy) : Prop where
  ok_iff : (∃ policy, outcome = .ok policy) ↔ Accepted root
  follows : ∀ policy, outcome = .ok policy → Follows root policy
  error_iff : ∀ error, outcome = .error error ↔ Fault root error

end Policy

/-! ### Reading a bundle -/

/-- The policy of a document before its contract is checked. -/
def Policy.settled (root : Value) : Policy :=
  let standard : Policy := {}
  { classSkewTolerance :=
      ((root.naturalAt? ["policy", "class_skew_tolerance"]).map UInt64.ofNat).getD
        standard.classSkewTolerance
    anchorSkewTolerance :=
      ((root.naturalAt? ["policy", "anchor_skew_tolerance"]).map UInt64.ofNat).getD
        standard.anchorSkewTolerance
    auditEvery :=
      ((root.naturalAt? ["intervals", "audit_every"]).map UInt64.ofNat).getD standard.auditEvery
    perStepKinds :=
      ((root.textsAt? ["policy", "per_step_kinds"]).map OrderedSet.ofList).getD
        standard.perStepKinds }

/-- The sizes that a document declares. -/
def Indexing.settled (root : Value) : Indexing where
  classes := (root.naturalAt? ["indexing", "classes"]).map UInt32.ofNat
  anchors := (root.naturalAt? ["indexing", "anchors"]).map UInt32.ofNat

namespace Bundle

variable {text : String} {root : Value} {tables : Entries}

/-- The section on intervals is read as the interval of the settled policy. -/
theorem defaulted_intervals (hroot : root = .table .header tables)
    (htable : (root.at? ["intervals"]).all Value.isTable = true)
    (hevery : (root.at? ["intervals", "audit_every"]).all
      (SettingType.natural UInt64.size).admits = true) :
    tables.defaulted "intervals" ({} : Policy).auditEvery auditEveryOfSection? =
      some (Policy.settled root).auditEvery := by
  have hempty : auditEveryOfSection? (.table .implied []) = some ({} : Policy).auditEvery := rfl
  obtain ⟨inner, fields, hsection, hlookup⟩ := Entries.exists_section hroot htable hempty
  exact hsection.trans (defaulted_uint64 (hlookup "audit_every") hevery)

/-- The section on the policy is read as the settled policy, for which the interval is known before.
-/
theorem defaulted_policy (hroot : root = .table .header tables)
    (htable : (root.at? ["policy"]).all Value.isTable = true)
    (hclass : (root.at? ["policy", "class_skew_tolerance"]).all
      (SettingType.natural UInt64.size).admits = true)
    (hanchor : (root.at? ["policy", "anchor_skew_tolerance"]).all
      (SettingType.natural UInt64.size).admits = true)
    (hkinds : (root.at? ["policy", "per_step_kinds"]).all SettingType.texts.admits = true) :
    tables.defaulted "policy"
        { ({} : Policy) with auditEvery := (Policy.settled root).auditEvery }
        (policyOfSection? (Policy.settled root).auditEvery) =
      some (Policy.settled root) := by
  have hempty : policyOfSection? (Policy.settled root).auditEvery (.table .implied []) =
    some { ({} : Policy) with auditEvery := (Policy.settled root).auditEvery } := rfl
  obtain ⟨inner, fields, hsection, hlookup⟩ := Entries.exists_section hroot htable hempty
  rw [hsection, policyOfSection?]
  simp only [Value.fields?, Option.bind_eq_bind, Option.bind_some]
  rw [defaulted_uint64 (hlookup "class_skew_tolerance") hclass,
    defaulted_uint64 (hlookup "anchor_skew_tolerance") hanchor,
    Entries.defaulted_eq SettingType.readBy_texts (hlookup "per_step_kinds") hkinds]
  rfl

/-- The section on indexing is read as the settled sizes. -/
theorem defaulted_indexing (hroot : root = .table .header tables)
    (htable : (root.at? ["indexing"]).all Value.isTable = true)
    (hclasses : (root.at? ["indexing", "classes"]).all
      (SettingType.natural UInt32.size).admits = true)
    (hanchors : (root.at? ["indexing", "anchors"]).all
      (SettingType.natural UInt32.size).admits = true) :
    tables.defaulted "indexing" {} Indexing.ofSection? = some (Indexing.settled root) := by
  have hempty : Indexing.ofSection? (.table .implied []) = some {} := rfl
  obtain ⟨inner, fields, hsection, hlookup⟩ := Entries.exists_section hroot htable hempty
  rw [hsection, Indexing.ofSection?]
  simp only [Value.fields?, Value.items?, Option.bind_eq_bind, Option.bind_some]
  rw [optional_uint32 (hlookup "classes") hclasses, optional_uint32 (hlookup "anchors") hanchors]
  rfl

/-- A document is read setting by setting, and the policy is put together from two sections. -/
theorem ofToml?_eq_settled (hroot : root = .table .header tables)
    (htyped : root.wellTyped Policy.settings = true) :
    ofToml? root = some { policy := .settled root, indexing := .settled root } := by
  obtain ⟨⟨hpolicy, hclass⟩, htyped⟩ := Value.wellTyped_cons_iff.1 htyped
  obtain ⟨⟨-, hanchor⟩, htyped⟩ := Value.wellTyped_cons_iff.1 htyped
  obtain ⟨⟨-, hkinds⟩, htyped⟩ := Value.wellTyped_cons_iff.1 htyped
  obtain ⟨⟨hintervals, hevery⟩, htyped⟩ := Value.wellTyped_cons_iff.1 htyped
  obtain ⟨⟨hindexing, hclasses⟩, htyped⟩ := Value.wellTyped_cons_iff.1 htyped
  obtain ⟨⟨-, hanchors⟩, -⟩ := Value.wellTyped_cons_iff.1 htyped
  calc ofToml? root
      _ = ofToml? (.table .header tables) := congrArg ofToml? hroot
      _ = some { policy := .settled root, indexing := .settled root } := ?_
  -- The interval is read first: it is a part of the default of the policy.
  simp only [ofToml?, Value.fields?, Option.bind_eq_bind, Option.bind_some]
  rw [defaulted_intervals hroot hintervals hevery]
  change (tables.defaulted "policy" _ _).bind _ = _
  rw [defaulted_policy hroot hpolicy hclass hanchor hkinds]
  change (tables.defaulted "indexing" _ _).bind _ = _
  rw [defaulted_indexing hroot hindexing hclasses hanchors]
  rfl

end Bundle

/-! ### Accepting a bundle -/

namespace Indexing

variable {root : Value} {key : String} {actual : Nat}

/-- A declared size passes if it is the actual one. -/
theorem checkSize_eq_ok_iff
    (hadmits : (root.at? ["indexing", key]).all (SettingType.natural UInt32.size).admits = true) :
    checkSize key ((root.naturalAt? ["indexing", key]).map UInt32.ofNat) actual = .ok () ↔
      Agrees root key actual := by
  rw [checkSize, whenPresent_eq_ok_iff, Agrees]
  simp only [require_eq_ok_iff, Option.map_eq_some_iff, forall_exists_index, and_imp,
    forall_apply_eq_imp_iff₂]
  refine forall₂_congr fun n hn => ?_
  rw [UInt32.toNat_ofNat_of_lt' (Value.lt_of_naturalAt? hadmits hn)]

/-- A declared size that is not the actual one is reported with it. -/
theorem checkSize_eq_error_iff {error : ConfigError}
    (hadmits : (root.at? ["indexing", key]).all (SettingType.natural UInt32.size).admits = true) :
    checkSize key ((root.naturalAt? ["indexing", key]).map UInt32.ofNat) actual = .error error ↔
      ∃ n, root.naturalAt? ["indexing", key] = some n ∧ n ≠ actual ∧
        .indexing key n actual = error := by
  rw [checkSize, whenPresent_eq_error_iff]
  simp only [require_eq_error_iff, Option.map_eq_some_iff, exists_exists_and_eq_and]
  refine exists_congr fun n => and_congr_right fun hn => ?_
  rw [UInt32.toNat_ofNat_of_lt' (Value.lt_of_naturalAt? hadmits hn)]

/-- The sizes that a document declares have their type. -/
theorem admits_of_wellTyped (htyped : root.wellTyped Policy.settings = true) :
    (root.at? ["indexing", "classes"]).all (SettingType.natural UInt32.size).admits = true ∧
      (root.at? ["indexing", "anchors"]).all (SettingType.natural UInt32.size).admits = true := by
  obtain ⟨-, htyped⟩ := Value.wellTyped_cons_iff.1 htyped
  obtain ⟨-, htyped⟩ := Value.wellTyped_cons_iff.1 htyped
  obtain ⟨-, htyped⟩ := Value.wellTyped_cons_iff.1 htyped
  obtain ⟨-, htyped⟩ := Value.wellTyped_cons_iff.1 htyped
  obtain ⟨⟨-, hclasses⟩, htyped⟩ := Value.wellTyped_cons_iff.1 htyped
  obtain ⟨⟨-, hanchors⟩, -⟩ := Value.wellTyped_cons_iff.1 htyped
  exact ⟨hclasses, hanchors⟩

/-- Settled sizes are accepted exactly if those that are declared are the sizes of the lattice. -/
theorem check_settled_eq_ok_iff (htyped : root.wellTyped Policy.settings = true) :
    (settled root).check = .ok () ↔ Agrees root "classes" 96 ∧ Agrees root "anchors" 6 := by
  obtain ⟨hclasses, hanchors⟩ := admits_of_wellTyped htyped
  rw [check, bind_eq_ok_iff]
  constructor
  · rintro ⟨_, hfirst, hsecond⟩
    exact ⟨(checkSize_eq_ok_iff hclasses).1 hfirst, (checkSize_eq_ok_iff hanchors).1 hsecond⟩
  · rintro ⟨hfirst, hsecond⟩
    exact ⟨(), (checkSize_eq_ok_iff hclasses).2 hfirst, (checkSize_eq_ok_iff hanchors).2 hsecond⟩

/-- The classes are compared first. -/
theorem check_settled_eq_error_iff {error : ConfigError}
    (htyped : root.wellTyped Policy.settings = true) :
    (settled root).check = .error error ↔
      (∃ n, root.naturalAt? ["indexing", "classes"] = some n ∧ n ≠ 96 ∧
        .indexing "classes" n 96 = error) ∨
      (Agrees root "classes" 96 ∧ ∃ n, root.naturalAt? ["indexing", "anchors"] = some n ∧ n ≠ 6 ∧
        .indexing "anchors" n 6 = error) := by
  obtain ⟨hclasses, hanchors⟩ := admits_of_wellTyped htyped
  rw [check, bind_eq_error_iff]
  refine or_congr (checkSize_eq_error_iff hclasses) ?_
  constructor
  · rintro ⟨_, hfirst, hsecond⟩
    exact ⟨(checkSize_eq_ok_iff hclasses).1 hfirst, (checkSize_eq_error_iff hanchors).1 hsecond⟩
  · rintro ⟨hfirst, hsecond⟩
    exact ⟨(), (checkSize_eq_ok_iff hclasses).2 hfirst,
      (checkSize_eq_error_iff hanchors).2 hsecond⟩

end Indexing

namespace Policy

variable {text : String} {root : Value}

/-- A policy that is settled from a document has the values of the document. -/
theorem follows_settled (htyped : root.wellTyped settings = true) :
    Follows root (settled root) := by
  obtain ⟨⟨-, hclass⟩, htyped⟩ := Value.wellTyped_cons_iff.1 htyped
  obtain ⟨⟨-, hanchor⟩, htyped⟩ := Value.wellTyped_cons_iff.1 htyped
  obtain ⟨-, htyped⟩ := Value.wellTyped_cons_iff.1 htyped
  obtain ⟨⟨-, hevery⟩, -⟩ := Value.wellTyped_cons_iff.1 htyped
  refine ⟨toNat_getD_uint64 hclass, toNat_getD_uint64 hanchor, toNat_getD_uint64 hevery,
    fun kind => ?_⟩
  rw [settled]
  cases root.textsAt? ["policy", "per_step_kinds"] with
  | none => rfl
  | some kinds => exact OrderedSet.mem_ofList

/-- The standard kinds are kinds of closings. -/
theorem isClosingKind_of_standard {kind : String} (h : kind ∈ ({} : Policy).perStepKinds) :
    IsClosingKind kind := by
  have hcheck : ({} : Policy).check = .ok () := by decide +kernel
  exact check_eq_ok_iff.1 hcheck kind h

/-- The kinds of a policy keep the contract if those that the document lists do. -/
theorem check_settled_eq_ok_iff (htyped : root.wellTyped settings = true) :
    (settled root).check = .ok () ↔
      ∀ kinds, root.textsAt? ["policy", "per_step_kinds"] = some kinds →
        ∀ kind ∈ kinds, IsClosingKind kind := by
  simp only [check_eq_ok_iff, (follows_settled htyped).perStepKinds]
  cases root.textsAt? ["policy", "per_step_kinds"] with
  | none =>
    refine ⟨fun _ kinds hkinds => ?_, fun _ kind hmem => isClosingKind_of_standard hmem⟩
    cases hkinds
  | some kinds => simp

/-- A policy of a document that breaks its contract is reported by a kind that the document
lists. -/
theorem check_settled_eq_error_iff {broken : Violation} (htyped : root.wellTyped settings = true) :
    (settled root).check = .error broken ↔
      ∃ kinds, root.textsAt? ["policy", "per_step_kinds"] = some kinds ∧
        ∃ kind ∈ kinds, (∀ other ∈ kinds, other < kind → IsClosingKind other) ∧
          ∃ flaw, KindFlaw kind flaw ∧ .flawed "audit_policy.per_step_kinds" flaw = broken := by
  have hkinds := (follows_settled htyped).perStepKinds
  cases hlisted : root.textsAt? ["policy", "per_step_kinds"] with
  | none =>
    simp only [hlisted, Option.getD_none, OrderedSet.mem_toList] at hkinds
    have hok := check_eq_ok_iff.2 fun kind h => isClosingKind_of_standard ((hkinds kind).1 h)
    simp [hok]
  | some kinds =>
    simp only [hlisted, Option.getD_some] at hkinds
    simp [check_eq_error_iff, hkinds]

/-- The text of a bundle gives the policy of its document if the checks of the sizes and then that
of the policy succeed. -/
theorem ofFileText_eq_settled (hroot : Denotes settings text root) :
    ofFileText text = (do
      (Indexing.settled root).check
      (settled root).checked.mapError .violation) := by
  obtain ⟨tables, htable⟩ := Value.exists_table_of_parse? hroot.parse
  rw [ofFileText, hroot.parse, Option.bind_some, Bundle.ofToml?_eq_settled htable hroot.typed]
  rfl

/-- What is accepted is accepted as it is settled. -/
theorem ofFileText_eq_ok_iff_accepted {policy : Policy} (hroot : Denotes settings text root) :
    ofFileText text = .ok policy ↔ Accepted root ∧ settled root = policy := by
  have hsizes := Indexing.check_settled_eq_ok_iff hroot.typed
  rw [ofFileText_eq_settled hroot, bind_eq_ok_iff]
  simp only [mapError_eq_ok_iff, checked, bind_return_eq_ok_iff,
    check_settled_eq_ok_iff hroot.typed]
  constructor
  · rintro ⟨_, hchecked, hkinds, hpolicy⟩
    obtain ⟨hclasses, hanchors⟩ := hsizes.1 hchecked
    exact ⟨⟨hclasses, hanchors, hkinds⟩, hpolicy⟩
  · rintro ⟨⟨hclasses, hanchors, hkinds⟩, hpolicy⟩
    exact ⟨(), hsizes.2 ⟨hclasses, hanchors⟩, hkinds, hpolicy⟩

/-- What is refused is refused with its first fault. -/
theorem ofFileText_eq_error_iff_fault {error : ConfigError} (hroot : Denotes settings text root) :
    ofFileText text = .error error ↔ Fault root error := by
  have hsizes := Indexing.check_settled_eq_ok_iff hroot.typed
  rw [ofFileText_eq_settled hroot, bind_eq_error_iff,
    Indexing.check_settled_eq_error_iff hroot.typed]
  simp only [mapError_eq_error_iff, checked, bind_return_eq_error_iff,
    check_settled_eq_error_iff hroot.typed]
  constructor
  · rintro ((⟨n, hn, hne, rfl⟩ | ⟨hclasses, n, hn, hne, rfl⟩) | ⟨_, hchecked, _, hbroken, rfl⟩)
    · exact .classes hn hne
    · exact .anchors hclasses hn hne
    · obtain ⟨hclasses, hanchors⟩ := hsizes.1 hchecked
      obtain ⟨kinds, hkinds, kind, hmem, hleast, flaw, hflaw, rfl⟩ := hbroken
      exact .kind hclasses hanchors hkinds hmem hleast hflaw
  · intro hfault
    cases hfault with
    | classes hn hne => exact .inl (.inl ⟨_, hn, hne, rfl⟩)
    | anchors hclasses hn hne => exact .inl (.inr ⟨hclasses, _, hn, hne, rfl⟩)
    | kind hclasses hanchors hkinds hmem hleast hflaw =>
      exact .inr ⟨(), hsizes.2 ⟨hclasses, hanchors⟩, _,
        ⟨_, hkinds, _, hmem, hleast, _, hflaw, rfl⟩, rfl⟩

/-- The text of a document loads to what the document says of sizes, kinds and tolerances. -/
theorem loadsTo_of_denotes (hroot : Denotes settings text root) :
    LoadsTo root (ofFileText text) := by
  refine ⟨?_, fun policy h => ?_, fun error => ofFileText_eq_error_iff_fault hroot⟩
  · simp only [ofFileText_eq_ok_iff_accepted hroot, exists_and_left, exists_eq', and_true]
  · obtain ⟨-, rfl⟩ := (ofFileText_eq_ok_iff_accepted hroot).1 h
    exact follows_settled hroot.typed

/-- The outcome of a bundle depends on nothing but its settings. -/
theorem ofFileText_congr {other : String} {otherRoot : Value}
    (hroot : Denotes settings text root) (hother : Denotes settings other otherRoot)
    (h : SameSettings settings root otherRoot) :
    ofFileText text = ofFileText other := by
  simp only [SameSettings, settings, List.forall_mem_cons, Setting.path] at h
  obtain ⟨hclass, hanchor, hkinds, hevery, hclasses, hanchors, -⟩ := h
  rw [ofFileText_eq_settled hroot, ofFileText_eq_settled hother]
  simp only [settled, Indexing.settled, Value.naturalAt?, Value.textsAt?, hclass, hanchor, hkinds,
    hevery, hclasses, hanchors]

end Policy

/-! ### Loaded configurations -/

/-- A schedule and a policy that were loaded are not refused by an audit, so what an audit comes to
depends on the records. -/
theorem audit_of_loaded {scheduleText policyText : String} {schedule : Schedule} {policy : Policy}
    (hschedule : Schedule.ofFileText scheduleText = .ok schedule)
    (hpolicy : Policy.ofFileText policyText = .ok policy) :
    schedule.check = .ok () ∧ policy.check = .ok () ∧
      ∀ ledger, audit ledger schedule policy =
        (entriesFrom policy 0 ledger).map (Report.ofEntries schedule policy) := by
  obtain ⟨-, hscheduleCheck⟩ := Schedule.ofFileText_eq_ok_iff.1 hschedule
  obtain ⟨_, -, -, -, hpolicyCheck⟩ := Policy.ofFileText_eq_ok_iff.1 hpolicy
  refine ⟨hscheduleCheck, hpolicyCheck, fun ledger => ?_⟩
  rw [audit_eq, hscheduleCheck, hpolicyCheck]
  cases entriesFrom policy 0 ledger <;> rfl

/-- A bundle that sets one tolerance and declares one size, among notes, is accepted. -/
theorem exists_denotes_lone_tolerance : ∃ root,
    Denotes Policy.settings
      "note = 1\n[policy]\nanchor_skew_tolerance = 3\n[indexing]\nclasses = 96\n" root ∧
    Policy.Accepted root ∧ root.naturalAt? ["policy", "class_skew_tolerance"] = none ∧
    root.naturalAt? ["policy", "anchor_skew_tolerance"] = some 3 := by
  obtain ⟨root, hroot, hvalues⟩ : ∃ root, Denotes Policy.settings
      "note = 1\n[policy]\nanchor_skew_tolerance = 3\n[indexing]\nclasses = 96\n" root ∧
      (root.naturalAt? ["policy", "class_skew_tolerance"] == none &&
        root.naturalAt? ["policy", "anchor_skew_tolerance"] == some 3 &&
        root.textsAt? ["policy", "per_step_kinds"] == none &&
        root.naturalAt? ["indexing", "classes"] == some 96 &&
        root.naturalAt? ["indexing", "anchors"] == none) = true :=
    exists_denotes (by decide +kernel)
  simp only [Bool.and_eq_true, beq_iff_eq] at hvalues
  obtain ⟨⟨⟨⟨hclass, hanchor⟩, hkinds⟩, hclasses⟩, hanchors⟩ := hvalues
  have haccepted : Policy.Accepted root :=
    { classes := fun n hn => (Option.some.inj (hclasses.symm.trans hn)).symm
      anchors := fun n hn => by rw [hanchors] at hn; cases hn
      kinds := fun kinds h => by rw [hkinds] at h; cases h }
  exact ⟨root, hroot, haccepted, hclass, hanchor⟩

/-- A schedule file that sets the number of windows alone leaves their size at the standard one. -/
theorem exists_denotes_lone_count : ∃ root,
    Denotes Schedule.settings "schedule.window_count = 8\n" root ∧
    Schedule.sizeIn root = 768 ∧ Schedule.countIn root = 8 := by
  obtain ⟨root, hroot, hnumbers⟩ : ∃ root, Denotes Schedule.settings
      "schedule.window_count = 8\n" root ∧
      (Schedule.sizeIn root == 768 && Schedule.countIn root == 8) = true :=
    exists_denotes (by decide +kernel)
  simp only [Bool.and_eq_true, beq_iff_eq] at hnumbers
  exact ⟨root, hroot, hnumbers⟩

/-- Of two sizes that are not those of the lattice the number of classes is the fault. -/
theorem exists_denotes_other_sizes : ∃ root,
    Denotes Policy.settings "[indexing]\nclasses = 48\nanchors = 7\n" root ∧
    Policy.Fault root (.indexing "classes" 48 96) := by
  obtain ⟨root, hroot, hclasses⟩ : ∃ root, Denotes Policy.settings
      "[indexing]\nclasses = 48\nanchors = 7\n" root ∧
      (root.naturalAt? ["indexing", "classes"] == some 48) = true :=
    exists_denotes (by decide +kernel)
  exact ⟨root, hroot, .classes (beq_iff_eq.1 hclasses) (by decide)⟩

/-- Windows of 1024 coordinates are too many in the standard number. -/
theorem exists_denotes_wide_windows : ∃ root,
    Denotes Schedule.settings "[schedule]\nwindow_size = 1024\n" root ∧
    WindowsBreak (Schedule.sizeIn root) (Schedule.countIn root)
      (.outside "schedule_config.window_size*window_count" 1 12288 16384) := by
  obtain ⟨root, hroot, hnumbers⟩ : ∃ root, Denotes Schedule.settings
      "[schedule]\nwindow_size = 1024\n" root ∧
      (Schedule.sizeIn root == 1024 && Schedule.countIn root == 16) = true :=
    exists_denotes (by decide +kernel)
  simp only [Bool.and_eq_true, beq_iff_eq] at hnumbers
  refine ⟨root, hroot, ?_⟩
  rw [hnumbers.1, hnumbers.2]
  exact .tooMany (by decide) (by decide) (by decide)

/-- **Configuration files are read fieldwise.** A bundle whose settings have their types is accepted
exactly if the sizes that it declares are those of the lattice and the kinds that it lists are kinds
of closings. Each field of the policy is then the value of the setting, or the standard one, and
otherwise the first reason in this order is given. A schedule file is accepted exactly if its
windows, with the standard numbers for those left out, are allowed. What is not a setting does not
matter, and whatever was loaded is accepted by every audit. -/
theorem configuration_fieldwise :
    (∀ text root, Denotes Policy.settings text root →
      Policy.LoadsTo root (Policy.ofFileText text)) ∧
    (∀ text root, Denotes Schedule.settings text root →
      Schedule.LoadsTo root (Schedule.ofFileText text)) ∧
    (∀ text root other otherRoot, Denotes Policy.settings text root →
      Denotes Policy.settings other otherRoot → SameSettings Policy.settings root otherRoot →
      Policy.ofFileText text = Policy.ofFileText other) ∧
    (∀ text root other otherRoot, Denotes Schedule.settings text root →
      Denotes Schedule.settings other otherRoot → SameSettings Schedule.settings root otherRoot →
      Schedule.ofFileText text = Schedule.ofFileText other) ∧
    (∀ scheduleText policyText schedule policy,
      Schedule.ofFileText scheduleText = .ok schedule →
      Policy.ofFileText policyText = .ok policy →
      schedule.check = .ok () ∧ policy.check = .ok () ∧
        ∀ ledger, audit ledger schedule policy =
          (entriesFrom policy 0 ledger).map (Report.ofEntries schedule policy)) := by
  refine ⟨?policy, ?schedule, ?samePolicy, ?sameSchedule, ?accepted⟩
  case policy => exact fun text root hroot => Policy.loadsTo_of_denotes hroot
  case schedule => exact fun text root hroot => Schedule.loadsTo_of_denotes hroot
  case samePolicy =>
    exact fun text root other otherRoot hroot hother h => Policy.ofFileText_congr hroot hother h
  case sameSchedule =>
    exact fun text root other otherRoot hroot hother h => Schedule.ofFileText_congr hroot hother h
  case accepted =>
    exact fun scheduleText policyText schedule policy hschedule hpolicy =>
      audit_of_loaded hschedule hpolicy

/-- A bundle and a schedule file with one setting each, a note aside, leave the other fields at
their standard values and are accepted by an audit of no records. Sizes and windows that are not
those of the lattice are refused, the number of classes before that of anchors, and keys outside of
their section are no settings. -/
theorem configuration_fieldwise_of_lone_settings :
    (∃ policy schedule,
      Policy.ofFileText
          "note = 1\n[policy]\nanchor_skew_tolerance = 3\n[indexing]\nclasses = 96\n" =
        .ok policy ∧
      policy.classSkewTolerance.toNat = 1 ∧ policy.anchorSkewTolerance.toNat = 3 ∧
      Schedule.ofFileText "schedule.window_count = 8\n" = .ok schedule ∧
      schedule.windowSize.toNat = 768 ∧ schedule.windowCount.toNat = 8 ∧
      audit [] schedule policy = .ok (Report.ofEntries schedule policy [])) ∧
    Policy.ofFileText "[indexing]\nclasses = 48\nanchors = 7\n" =
      .error (.indexing "classes" 48 96) ∧
    Schedule.ofFileText "[schedule]\nwindow_size = 1024\n" =
      .error (.violation
        (.outside "schedule_config.window_size*window_count" 1 12288 16384)) ∧
    Policy.ofFileText "" = Policy.ofFileText "classes = 5\n[policy]\naudit_every = true\n" ∧
    Schedule.ofFileText "" = Schedule.ofFileText "window_size = 0\n" := by
  obtain ⟨policyLoads, scheduleLoads, policySame, scheduleSame, accepted⟩ :=
    configuration_fieldwise
  refine ⟨?loaded, ?sizes, ?windows, ?policy, ?schedule⟩
  case loaded =>
    obtain ⟨root, hroot, haccepted, hclass, hanchor⟩ := exists_denotes_lone_tolerance
    obtain ⟨policy, hpolicy⟩ := (policyLoads _ root hroot).ok_iff.2 haccepted
    have hfollows := (policyLoads _ root hroot).follows policy hpolicy
    obtain ⟨other, hother, hsize, hcount⟩ := exists_denotes_lone_count
    have hallowed : WindowsAllowed (Schedule.sizeIn other) (Schedule.countIn other) := by
      rw [hsize, hcount]
      exact ⟨by decide, by decide, by decide⟩
    obtain ⟨schedule, hschedule⟩ := (scheduleLoads _ other hother).ok_iff.2 hallowed
    have hnumbers := (scheduleLoads _ other hother).follows schedule hschedule
    obtain ⟨-, -, haudit⟩ := accepted _ _ schedule policy hschedule hpolicy
    exact ⟨policy, schedule, hpolicy, by rw [hfollows.classSkewTolerance, hclass]; rfl,
      by rw [hfollows.anchorSkewTolerance, hanchor]; rfl, hschedule,
      hnumbers.windowSize.trans hsize, hnumbers.windowCount.trans hcount, haudit []⟩
  case sizes =>
    obtain ⟨root, hroot, hfault⟩ := exists_denotes_other_sizes
    exact ((policyLoads _ root hroot).error_iff _).2 hfault
  case windows =>
    obtain ⟨root, hroot, hbreak⟩ := exists_denotes_wide_windows
    exact ((scheduleLoads _ root hroot).error_iff _).2 ⟨_, hbreak, rfl⟩
  case policy =>
    obtain ⟨root, other, hroot, hother, hsame⟩ := exists_sameSettings_without Policy.settings ""
      "classes = 5\n[policy]\naudit_every = true\n" (by decide +kernel) (by decide +kernel)
    exact policySame _ root _ other hroot hother hsame
  case schedule =>
    obtain ⟨root, other, hroot, hother, hsame⟩ := exists_sameSettings_without Schedule.settings ""
      "window_size = 0\n" (by decide +kernel) (by decide +kernel)
    exact scheduleSame _ root _ other hroot hother hsame

end LatticeLedger
