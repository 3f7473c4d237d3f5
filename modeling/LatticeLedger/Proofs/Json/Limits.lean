import LatticeLedger.Proofs.Json.Fields

/-!
# What the library writes is within the limits of a careful reader

Numbers of 64 bits are far below the range of double precision, texts have texts, and an object
or a list is within the limits as soon as its parts are within them one level further down.
-/

namespace LatticeLedger

namespace Binary64

/-- Rounding adds less than one unit in the last place. -/
theorem round_le (n : Nat) : round n ≤ n + 1 <<< (n.log2 + 1 - 53) := by
  have hsplit := Nat.div_add_mod n (1 <<< (n.log2 + 1 - 53))
  simp only [round]
  split
  · rw [Nat.add_mul, Nat.mul_comm]
    omega
  · rw [Nat.mul_comm]
    omega

/-- A number of 64 bits stays far from the end of the range when it is rounded. -/
theorem round_lt {n : Nat} (h : n < UInt64.size) : round n < 2 * UInt64.size := by
  have hlog : n.log2 + 1 - 53 ≤ 11 := by
    rcases Nat.eq_zero_or_pos n with rfl | hpos
    · decide
    · have hlt : n.log2 < 64 := (Nat.log2_lt (Nat.ne_of_gt hpos)).2 h
      omega
  have hunit : 1 <<< (n.log2 + 1 - 53) ≤ 2048 := by
    rw [Nat.one_shiftLeft]
    exact Nat.pow_le_pow_right (by decide) hlog
  have hround := round_le n
  simp only [UInt64.size] at h ⊢
  omega

/-- The range of double precision ends far above the numbers of 64 bits. -/
theorem lt_threshold : 2 * UInt64.size < threshold := by decide +kernel

end Binary64

namespace Json

namespace Number

/-- Digits are collected whole as long as their number does not exceed the limit. -/
theorem collect_eq {digits : List Char} {significand : Nat}
    (h : Nat.ofDigitChars 10 digits significand ≤ significandLimit) :
    collect significand digits = (Nat.ofDigitChars 10 digits significand, []) := by
  induction digits generalizing significand with
  | nil => rfl
  | cons digit digits ih =>
    rw [Nat.ofDigitChars_cons, Nat.mul_comm] at h ⊢
    have hlonger : significand * 10 + (digit.toNat - '0'.toNat) ≤ significandLimit := by
      refine Nat.le_trans ?_ h
      rw [Nat.ofDigitChars_eq_ofDigitChars_zero]
      exact Nat.le_trans (Nat.le_mul_of_pos_left _ (Nat.pow_pos (by decide)))
        (Nat.le_add_right _ _)
    rw [collect]
    simp only [if_pos hlonger]
    exact ih h

/-- A number of 64 bits is in range. -/
theorem inRange_ofNat {n : Nat} (h : n < UInt64.size) : (ofNat n).inRange = true := by
  have hcollect : collect 0 (Nat.toDigits 10 n) = (n, []) := by
    have hdigits : Nat.ofDigitChars 10 (Nat.toDigits 10 n) 0 = n := Nat.ofDigitChars_ten_toDigits
    rw [collect_eq (by rw [hdigits, significandLimit]; omega), hdigits]
  have hparts : (ofNat n).parts = (n, .ofNat 0) := by
    simp only [parts, ofNat, hcollect, collect]
    rfl
  have hround := Binary64.round_lt h
  have hproduct : Binary64.round n * Binary64.round (Nat.pow 10 0) < Binary64.threshold := by
    have hone : Binary64.round (Nat.pow 10 0) = 1 := by decide
    have hthreshold := Binary64.lt_threshold
    rw [hone, Nat.mul_one]
    omega
  simp only [inRange, hparts, hproduct, decide_true, Nat.zero_le, Bool.and_self, Bool.or_true]

end Number

namespace Value

variable {levels : Nat}

/-- Items keep the limits if each of them does. -/
theorem itemsKeepLimits_iff {items : List Value} :
    itemsKeepLimits levels items = true ↔ ∀ item ∈ items, item.keepsLimits levels = true := by
  induction items with
  | nil => simp [itemsKeepLimits]
  | cons item rest ih => simp [itemsKeepLimits, ih]

/-- Members keep the limits if each name has a text and each value keeps them. -/
theorem membersKeepLimits_iff {members : List Member} :
    membersKeepLimits levels members = true ↔
      ∀ member ∈ members, member.1.text?.isSome = true ∧ member.2.keepsLimits levels = true := by
  induction members with
  | nil => simp [membersKeepLimits]
  | cons member rest ih => simp [membersKeepLimits, ih]

/-- An array keeps the limits if its items do with one container less. -/
theorem keepsLimits_array (h : 0 < levels) (items : List Value) :
    (array items).keepsLimits levels = itemsKeepLimits (levels - 1) items := by
  rw [keepsLimits, decide_eq_true h, Bool.true_and]

/-- An object keeps the limits if its members do with one container less. -/
theorem keepsLimits_object (h : 0 < levels) (members : List Member) :
    (object members).keepsLimits levels = membersKeepLimits (levels - 1) members := by
  rw [keepsLimits, decide_eq_true h, Bool.true_and]

/-- Items keep the limits in parts. -/
theorem itemsKeepLimits_append (first second : List Value) :
    itemsKeepLimits levels (first ++ second) =
      (itemsKeepLimits levels first && itemsKeepLimits levels second) := by
  induction first with
  | nil => rfl
  | cons item rest ih =>
    rw [List.cons_append, itemsKeepLimits, itemsKeepLimits, ih, Bool.and_assoc]

/-- Members keep the limits in parts. -/
theorem membersKeepLimits_append (first second : List Member) :
    membersKeepLimits levels (first ++ second) =
      (membersKeepLimits levels first && membersKeepLimits levels second) := by
  induction first with
  | nil => rfl
  | cons member rest ih =>
    obtain ⟨name, value⟩ := member
    rw [List.cons_append, membersKeepLimits, membersKeepLimits, ih]
    simp only [Bool.and_assoc]

mutual

/-- The number of containers of a value that stand within each other. -/
def nesting : Value → Nat
  | .array items => itemsNesting items + 1
  | .object members => membersNesting members + 1
  | .null | .bool _ | .number _ | .string _ => 0

/-- The deepest nesting of the items of an array. -/
def itemsNesting : List Value → Nat
  | [] => 0
  | item :: rest => max item.nesting (itemsNesting rest)

/-- The deepest nesting of the members of an object. -/
def membersNesting : List (Body × Value) → Nat
  | [] => 0
  | (_, value) :: rest => max value.nesting (membersNesting rest)

end

mutual

/-- The numbers of a value, those of its parts included. -/
def numbers : Value → List Number
  | .number literal => [literal]
  | .array items => itemNumbers items
  | .object members => memberNumbers members
  | .null | .bool _ | .string _ => []

/-- The numbers of the items of an array. -/
def itemNumbers : List Value → List Number
  | [] => []
  | item :: rest => item.numbers ++ itemNumbers rest

/-- The numbers of the members of an object. -/
def memberNumbers : List (Body × Value) → List Number
  | [] => []
  | (_, value) :: rest => value.numbers ++ memberNumbers rest

end

mutual

/-- The strings and the names of a value, those of its parts included. -/
def bodies : Value → List Body
  | .string body => [body]
  | .array items => itemBodies items
  | .object members => memberBodies members
  | .null | .bool _ | .number _ => []

/-- The strings and the names of the items of an array. -/
def itemBodies : List Value → List Body
  | [] => []
  | item :: rest => item.bodies ++ itemBodies rest

/-- The strings and the names of the members of an object. -/
def memberBodies : List (Body × Value) → List Body
  | [] => []
  | (name, value) :: rest => name :: (value.bodies ++ memberBodies rest)

end

/-- Whether a value is within the limits of nesting, when `levels` containers may be nested, and of
numbers. Nothing is asked of names and strings. -/
structure Within (levels : Nat) (value : Value) : Prop where
  nesting : value.nesting ≤ levels
  numbers : ∀ literal ∈ value.numbers, literal.inRange = true

/-- Whether no string and no name of a value has half a pair of code units. -/
def Paired (value : Value) : Prop := ∀ body ∈ value.bodies, body.Paired

mutual

/-- The one check of the reader asks for three things: a value keeps the limits if it is not nested
too deeply, if its numbers are in range and if its strings and names have texts. -/
theorem keepsLimits_iff_parts (v : Value) {levels : Nat} :
    v.keepsLimits levels = true ↔ v.nesting ≤ levels ∧
      (∀ literal ∈ v.numbers, literal.inRange = true) ∧ ∀ body ∈ v.bodies, body.Paired := by
  cases v with
  | null | bool _ => simp [keepsLimits, nesting, numbers, bodies]
  | number literal => simp [keepsLimits, nesting, numbers, bodies]
  | string body => simp [keepsLimits, nesting, numbers, bodies, Body.isSome_text?_iff]
  | array items =>
    have hlevels : itemsNesting items + 1 ≤ levels ↔
        0 < levels ∧ itemsNesting items ≤ levels - 1 := by omega
    rw [keepsLimits, Bool.and_eq_true, decide_eq_true_iff, itemsKeepLimits_iff_parts items, nesting,
      hlevels, numbers, bodies, and_assoc]
  | object members =>
    have hlevels : membersNesting members + 1 ≤ levels ↔
        0 < levels ∧ membersNesting members ≤ levels - 1 := by omega
    rw [keepsLimits, Bool.and_eq_true, decide_eq_true_iff, membersKeepLimits_iff_parts members,
      nesting, hlevels, numbers, bodies, and_assoc]

/-- The same for the items of an array. -/
theorem itemsKeepLimits_iff_parts (items : List Value) {levels : Nat} :
    itemsKeepLimits levels items = true ↔ itemsNesting items ≤ levels ∧
      (∀ literal ∈ itemNumbers items, literal.inRange = true) ∧
        ∀ body ∈ itemBodies items, body.Paired := by
  cases items with
  | nil => simp [itemsKeepLimits, itemsNesting, itemNumbers, itemBodies]
  | cons item rest =>
    rw [itemsKeepLimits, Bool.and_eq_true, keepsLimits_iff_parts item,
      itemsKeepLimits_iff_parts rest, itemsNesting, Nat.max_le, itemNumbers, itemBodies,
      List.forall_mem_append, List.forall_mem_append]
    constructor
    · rintro ⟨⟨hfirst, hnumbers, hbodies⟩, hothers, hmore, hmoreBodies⟩
      exact ⟨⟨hfirst, hothers⟩, ⟨hnumbers, hmore⟩, hbodies, hmoreBodies⟩
    · rintro ⟨⟨hfirst, hothers⟩, ⟨hnumbers, hmore⟩, hbodies, hmoreBodies⟩
      exact ⟨⟨hfirst, hnumbers, hbodies⟩, hothers, hmore, hmoreBodies⟩

/-- The same for the members of an object, whose names must have texts as well. -/
theorem membersKeepLimits_iff_parts (members : List Member) {levels : Nat} :
    membersKeepLimits levels members = true ↔ membersNesting members ≤ levels ∧
      (∀ literal ∈ memberNumbers members, literal.inRange = true) ∧
        ∀ body ∈ memberBodies members, body.Paired := by
  cases members with
  | nil => simp [membersKeepLimits, membersNesting, memberNumbers, memberBodies]
  | cons member rest =>
    obtain ⟨name, value⟩ := member
    rw [membersKeepLimits, Bool.and_eq_true, Bool.and_eq_true, Body.isSome_text?_iff,
      keepsLimits_iff_parts value, membersKeepLimits_iff_parts rest, membersNesting, Nat.max_le,
      memberNumbers, memberBodies, List.forall_mem_append, List.forall_mem_cons,
      List.forall_mem_append]
    constructor
    · rintro ⟨⟨hname, hfirst, hnumbers, hbodies⟩, hothers, hmore, hmoreBodies⟩
      exact ⟨⟨hfirst, hothers⟩, ⟨hnumbers, hmore⟩, hname, hbodies, hmoreBodies⟩
    · rintro ⟨⟨hfirst, hothers⟩, ⟨hnumbers, hmore⟩, hname, hbodies, hmoreBodies⟩
      exact ⟨⟨hname, hfirst, hnumbers, hbodies⟩, hothers, hmore, hmoreBodies⟩

end

/-- A value keeps the limits of the reader if it is within those of nesting and of numbers, and no
string and no name has half a pair of code units. -/
theorem keepsLimits_iff {v : Value} : v.keepsLimits levels = true ↔ v.Within levels ∧ v.Paired := by
  rw [keepsLimits_iff_parts]
  constructor
  · rintro ⟨hnesting, hnumbers, hpaired⟩
    exact ⟨⟨hnesting, hnumbers⟩, hpaired⟩
  · rintro ⟨⟨hnesting, hnumbers⟩, hpaired⟩
    exact ⟨hnesting, hnumbers, hpaired⟩

/-- Where a value is not nested too deeply, it does not matter how much deeper it might be. -/
theorem keepsLimits_eq (v : Value) {fewer more : Nat} (hfewer : v.nesting ≤ fewer)
    (hmore : v.nesting ≤ more) : v.keepsLimits fewer = v.keepsLimits more := by
  rw [Bool.eq_iff_iff, keepsLimits_iff_parts, keepsLimits_iff_parts]
  simp only [hfewer, hmore]

/-- A value as the library writes it that also keeps the limits below `levels` open containers:
what its layout says is read back by a careful reader. -/
structure Readable (levels : Nat) (value : Value) : Prop where
  written : value.Written
  keepsLimits : value.keepsLimits levels = true

/-- A text is within all limits. -/
theorem readable_ofString (text : String) : Readable levels (ofString text) where
  written := written_ofString text
  keepsLimits := by
    have htext := Body.text?_ofText text
    simp [ofString, keepsLimits, htext]

/-- A number of 64 bits is within all limits. -/
theorem readable_ofNat {n : Nat} (h : n < UInt64.size) : Readable levels (ofNat n) where
  written := written_ofNat n
  keepsLimits := Number.inRange_ofNat h

/-- An array is within the limits with one container more than its items. -/
theorem readable_array {items : List Value} (h : ∀ item ∈ items, Readable levels item) :
    Readable (levels + 1) (.array items) where
  written := written_array fun item hmem => (h item hmem).written
  keepsLimits := by
    rw [keepsLimits_array (Nat.zero_lt_succ levels)]
    exact itemsKeepLimits_iff.2 fun item hmem => (h item hmem).keepsLimits

/-- An object is within the limits with one container more than its values. -/
theorem readable_ofMembers {members : List (String × Value)}
    (h : ∀ member ∈ members, Readable levels member.2) :
    Readable (levels + 1) (ofMembers members) where
  written := written_ofMembers fun member hmem => (h member hmem).written
  keepsLimits := by
    rw [ofMembers, keepsLimits_object (Nat.zero_lt_succ levels)]
    refine membersKeepLimits_iff.2 fun member hmem => ?_
    obtain ⟨⟨name, value⟩, hsource, rfl⟩ := List.mem_map.1 hmem
    exact ⟨by rw [Body.text?_ofText]; rfl, (h _ hsource).keepsLimits⟩

/-- An object of present members is readable if every member is that is there at all. -/
theorem readable_present {members : List (String × Option Value)}
    (h : ∀ name value, (name, some value) ∈ members → Readable levels value) :
    Readable (levels + 1) (ofMembers (present members)) :=
  readable_ofMembers fun _ hmem => h _ _ (mem_present.1 hmem)

/-- A careful reader gets a readable value back from its layout. -/
theorem ofLimitedText?_prettyText {value : Value} (h : Readable nestingLimit value) :
    ofLimitedText? value.prettyText = some value := by
  rw [ofLimitedText?, ofText?_prettyText h.written, Option.filter_some, if_pos h.keepsLimits]

end Value

end Json

end LatticeLedger
