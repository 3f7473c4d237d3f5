import LatticeLedger.Audit.Config

/-!
# What the contracts of a configuration ask

A schedule is held to three conditions on its numbers, and a policy to conditions on the name of
every kind of closing. A contract that is broken is reported once: of the windows by the first
condition that fails, of the kinds by the least one that is not a name for closings, with the first
flaw of that name.
-/

namespace LatticeLedger

/-! ### Windows -/

/-- Whether windows of a size and a number are allowed. -/
structure WindowsAllowed (size count : Nat) : Prop where
  size_pos : 0 < size
  count_pos : 0 < count
  /-- Together the windows do not exceed the coordinates of a class. -/
  product_le : size * count ≤ 12288

/-- How windows that are not allowed are reported. -/
inductive WindowsBreak (size count : Nat) : Violation → Prop
  | noSize (hsize : size = 0) :
    WindowsBreak size count (.flawed "schedule_config.window_size" .notPositive)
  | noCount (hsize : 0 < size) (hcount : count = 0) :
    WindowsBreak size count (.flawed "schedule_config.window_count" .notPositive)
  | tooMany (hsize : 0 < size) (hcount : 0 < count) (hproduct : 12288 < size * count) :
    WindowsBreak size count
      (.outside "schedule_config.window_size*window_count" 1 12288 (size * count))

namespace Schedule

variable {schedule : Schedule}

/-- A schedule keeps its contract exactly if its windows are allowed. -/
theorem check_eq_ok_iff : schedule.check = .ok () ↔
    WindowsAllowed schedule.windowSize.toNat schedule.windowCount.toNat := by
  simp only [check, bind_eq_ok_iff, require_eq_ok_iff, UInt32.lt_iff_toNat_lt]
  constructor
  · rintro ⟨_, hsize, _, hcount, hproduct⟩
    exact ⟨hsize, hcount, hproduct⟩
  · rintro ⟨hsize, hcount, hproduct⟩
    exact ⟨(), hsize, (), hcount, hproduct⟩

/-- The first condition that fails is reported. -/
theorem check_eq_error_iff {broken : Violation} : schedule.check = .error broken ↔
    WindowsBreak schedule.windowSize.toNat schedule.windowCount.toNat broken := by
  simp only [check, bind_eq_error_iff, require_eq_ok_iff, require_eq_error_iff,
    UInt32.lt_iff_toNat_lt]
  constructor
  · rintro (⟨hsize, rfl⟩ | ⟨_, hsize, ⟨hcount, rfl⟩ | ⟨_, hcount, hproduct, rfl⟩⟩)
    · exact .noSize (Nat.eq_zero_of_not_pos hsize)
    · exact .noCount hsize (Nat.eq_zero_of_not_pos hcount)
    · exact .tooMany hsize hcount (Nat.lt_of_not_le hproduct)
  · rintro (hsize | ⟨hsize, hcount⟩ | ⟨hsize, hcount, hproduct⟩)
    · exact .inl ⟨by rw [hsize]; decide, rfl⟩
    · exact .inr ⟨(), hsize, .inl ⟨by rw [hcount]; decide, rfl⟩⟩
    · exact .inr ⟨(), hsize, .inr ⟨(), hcount, Nat.not_le.2 hproduct, rfl⟩⟩

end Schedule

/-! ### Names of kinds -/

/-- The first flaw of a value that is not a token. -/
inductive TokenFlaw (limit : Nat) (value : String) : Flaw → Prop
  | empty (hblank : ∀ c ∈ value.toList, isWhiteSpace c = true) : TokenFlaw limit value .empty
  | tooLong (hvisible : ∃ c ∈ value.toList, isWhiteSpace c = false)
    (hlong : limit < value.utf8ByteSize) : TokenFlaw limit value .tooLong
  | control (hvisible : ∃ c ∈ value.toList, isWhiteSpace c = false)
    (hfits : value.utf8ByteSize ≤ limit) (hcontrol : ∃ c ∈ value.toList, isControl c = true) :
    TokenFlaw limit value .control

section CheckToken

variable {field value : String} {limit : Nat}

/-- A text with a flaw is refused for that flaw. -/
theorem checkToken_of_flaw {flaw : Flaw} (h : TokenFlaw limit value flaw) :
    checkToken field limit value = .error (.flawed field flaw) := by
  have hnot (hvisible : ∃ c ∈ value.toList, isWhiteSpace c = false) :
      ¬value.toList.all isWhiteSpace = true := by
    simpa using hvisible
  cases h with
  | empty hblank => exact if_pos (List.all_eq_true.2 hblank)
  | tooLong hvisible hlong => rw [checkToken, if_neg (hnot hvisible), if_pos hlong]
  | control hvisible hfits hcontrol =>
    rw [checkToken, if_neg (hnot hvisible), if_neg (Nat.not_lt.2 hfits),
      if_pos (List.any_eq_true.2 hcontrol)]

/-- The field is named in the report and has no other part in it. -/
theorem checkToken_eq_error_iff {broken : Violation} :
    checkToken field limit value = .error broken ↔
      ∃ flaw, TokenFlaw limit value flaw ∧ .flawed field flaw = broken := by
  constructor
  · intro h
    rw [checkToken] at h
    split at h
    case isTrue hblank =>
      exact ⟨.empty, .empty (List.all_eq_true.1 hblank), Except.error.inj h⟩
    case isFalse hblank =>
      have hvisible : ∃ c ∈ value.toList, isWhiteSpace c = false := by simpa using hblank
      split at h
      case isTrue hlong => exact ⟨.tooLong, .tooLong hvisible hlong, Except.error.inj h⟩
      case isFalse hshort =>
        split at h
        case isTrue hcontrol =>
          exact ⟨.control, .control hvisible (Nat.not_lt.1 hshort) (List.any_eq_true.1 hcontrol),
            Except.error.inj h⟩
        case isFalse => cases h
  · rintro ⟨flaw, hflaw, rfl⟩
    exact checkToken_of_flaw hflaw

end CheckToken

/-- What is asked of the name of a kind of closing. -/
structure IsClosingKind (kind : String) : Prop where
  token : IsToken 64 kind
  not_step : kind ≠ "ace_step"
  not_checkpoint : kind ≠ "audit"

/-- The first flaw of a name that is not one for closings. -/
inductive KindFlaw (kind : String) : Flaw → Prop
  | token {flaw : Flaw} (hflaw : TokenFlaw 64 kind flaw) : KindFlaw kind flaw
  | reserved (htoken : IsToken 64 kind) (hreserved : kind = "ace_step" ∨ kind = "audit") :
    KindFlaw kind .reservedKind

namespace Policy

/-- The contract of a kind of closing. -/
def checkKind (kind : String) : Except Violation Unit := do
  checkToken "audit_policy.per_step_kinds" kindLimit kind
  require (kind ≠ stepKind ∧ kind ≠ checkpointKind)
    (.flawed "audit_policy.per_step_kinds" .reservedKind)

/-- A kind passes its check exactly if it is one for closings. -/
theorem checkKind_eq_ok_iff {kind : String} : checkKind kind = .ok () ↔ IsClosingKind kind := by
  rw [checkKind, bind_eq_ok_iff]
  constructor
  · rintro ⟨_, htoken, hreserved⟩
    obtain ⟨hstep, hcheckpoint⟩ := require_eq_ok_iff.1 hreserved
    exact ⟨checkToken_eq_ok_iff.1 htoken, hstep, hcheckpoint⟩
  · rintro ⟨htoken, hstep, hcheckpoint⟩
    exact ⟨(), checkToken_eq_ok_iff.2 htoken, require_eq_ok_iff.2 ⟨hstep, hcheckpoint⟩⟩

/-- A kind is refused for its first flaw. -/
theorem checkKind_eq_error_iff {kind : String} {broken : Violation} :
    checkKind kind = .error broken ↔
      ∃ flaw, KindFlaw kind flaw ∧ .flawed "audit_policy.per_step_kinds" flaw = broken := by
  rw [checkKind, bind_eq_error_iff]
  constructor
  · rintro (htoken | ⟨_, htoken, hreserved⟩)
    · obtain ⟨flaw, hflaw, rfl⟩ := checkToken_eq_error_iff.1 htoken
      exact ⟨flaw, .token hflaw, rfl⟩
    · obtain ⟨hnot, rfl⟩ := require_eq_error_iff.1 hreserved
      have hreserved : kind = "ace_step" ∨ kind = "audit" :=
        Decidable.or_iff_not_not_and_not.2 hnot
      exact ⟨.reservedKind, .reserved (checkToken_eq_ok_iff.1 htoken) hreserved, rfl⟩
  · rintro ⟨flaw, hflaw | ⟨htoken, hreserved⟩, rfl⟩
    · exact .inl (checkToken_of_flaw hflaw)
    · refine .inr ⟨(), checkToken_eq_ok_iff.2 htoken, require_eq_error_iff.2 ⟨?_, rfl⟩⟩
      rintro ⟨hstep, hcheckpoint⟩
      exact hreserved.elim hstep hcheckpoint

variable {policy : Policy}

/-- A policy keeps its contract exactly if all of its kinds are kinds of closings. -/
theorem check_eq_ok_iff :
    policy.check = .ok () ↔ ∀ kind ∈ policy.perStepKinds, IsClosingKind kind := by
  have hcheck : policy.check = policy.perStepKinds.toList.forM checkKind := rfl
  simp only [hcheck, forM_eq_ok_iff, checkKind_eq_ok_iff, OrderedSet.mem_toList]

/-- The least kind that is not one for closings is reported. -/
theorem check_eq_error_iff {broken : Violation} :
    policy.check = .error broken ↔
      ∃ kind ∈ policy.perStepKinds,
        (∀ other ∈ policy.perStepKinds, other < kind → IsClosingKind other) ∧
        ∃ flaw, KindFlaw kind flaw ∧ .flawed "audit_policy.per_step_kinds" flaw = broken := by
  have hcheck : policy.check = policy.perStepKinds.toList.forM checkKind := rfl
  have hascending := policy.perStepKinds.ascending_toList
  simp only [hcheck, forM_eq_error_iff, checkKind_eq_ok_iff, checkKind_eq_error_iff,
    ← OrderedSet.mem_toList]
  constructor
  · rintro ⟨before, kind, after, hsplit, hbefore, hflaw⟩
    -- What is less than the failing kind stands before it, since the kinds ascend.
    rw [hsplit] at hascending ⊢
    obtain ⟨-, hfrom, -⟩ := List.pairwise_append.1 hascending
    have hafter := (List.pairwise_cons.1 hfrom).1
    refine ⟨kind, by simp, fun other hmem hlt => ?_, hflaw⟩
    rcases List.mem_append.1 hmem with hmem | hmem
    · exact hbefore other hmem
    · rcases List.mem_cons.1 hmem with rfl | hmem
      · exact absurd hlt Std.lt_irrefl
      · exact absurd (Std.lt_trans hlt (hafter other hmem)) Std.lt_irrefl
  · rintro ⟨kind, hmem, hbefore, hflaw⟩
    obtain ⟨before, after, hsplit⟩ := List.append_of_mem hmem
    rw [hsplit] at hascending hbefore
    refine ⟨before, kind, after, hsplit, fun other hother => ?_, hflaw⟩
    refine hbefore other (List.mem_append_left _ hother) ?_
    exact (List.pairwise_append.1 hascending).2.2 other hother kind List.mem_cons_self

end Policy

end LatticeLedger
