/-!
# Contracts on values

A value that a caller supplies is held to a contract before it is used. A `Violation`
names the value and the flaw found in it. Names of kinds and entries are short tokens;
`checkToken` is their contract.
-/

namespace LatticeLedger

/-- What is wrong with a single value. -/
inductive Flaw
  | empty
  | tooLong
  | control
  | missing
  | contextMissing
  | stepMissing
  | notPositive
  | reservedKind
  | offAnchor
  | offCell
  deriving DecidableEq, Repr

/-- The wording of a flaw. -/
def Flaw.message : Flaw → String
  | empty => "must not be empty"
  | tooLong => "exceeds max length"
  | control => "must not contain control characters"
  | missing => "must be present"
  | contextMissing => "must be present for non-checkpoint entries"
  | stepMissing => "checkpoint entries must carry t"
  | notPositive => "must be > 0"
  | reservedKind => "must not name the step or checkpoint kind"
  | offAnchor => "must equal anchor * 2048 + v_bits"
  | offCell => "must equal row * 256 + col"

/-- A value that breaks its contract. -/
inductive Violation
  /-- The value of `field` has a flaw. -/
  | flawed (field : String) (flaw : Flaw)
  /-- The number `got` for `field` is not between `min` and `max`. -/
  | outside (field : String) (min max got : Nat)
  deriving DecidableEq, Repr

/-- The wording of a violation. -/
def Violation.message : Violation → String
  | flawed field flaw => field ++ ": " ++ flaw.message
  | outside field min max got => s!"{field}: {got} not within {min}..={max}"

/-- The characters with the Unicode property `White_Space`. -/
def isWhiteSpace (c : Char) : Bool :=
  let n := c.toNat
  (0x09 ≤ n && n ≤ 0x0D) || n == 0x20 || n == 0x85 || n == 0xA0 || n == 0x1680 ||
    (0x2000 ≤ n && n ≤ 0x200A) || n == 0x2028 || n == 0x2029 || n == 0x202F || n == 0x205F ||
    n == 0x3000

/-- The characters of the Unicode category `Cc`. -/
def isControl (c : Char) : Bool :=
  let n := c.toNat
  n < 0x20 || (0x7F ≤ n && n ≤ 0x9F)

/-- A token holds more than white space, takes at most `limit` bytes in UTF-8 and has no
control characters. The first of these that fails is reported. -/
def checkToken (field : String) (limit : Nat) (value : String) : Except Violation Unit :=
  if value.toList.all isWhiteSpace then .error (.flawed field .empty)
  else if limit < value.utf8ByteSize then .error (.flawed field .tooLong)
  else if value.toList.any isControl then .error (.flawed field .control)
  else .ok ()

/-- What is asked of a token. -/
structure IsToken (limit : Nat) (value : String) : Prop where
  /-- There is more than white space. -/
  visible : ∃ c ∈ value.toList, isWhiteSpace c = false
  fits : value.utf8ByteSize ≤ limit
  plain : ∀ c ∈ value.toList, isControl c = false

/-- Exactly the tokens pass, whatever the field is called. -/
theorem checkToken_eq_ok_iff {field value : String} {limit : Nat} {u : Unit} :
    checkToken field limit value = .ok u ↔ IsToken limit value := by
  rw [checkToken]
  split
  case isTrue hblank =>
    refine ⟨nofun, fun h => ?_⟩
    obtain ⟨c, hmem, hc⟩ := h.visible
    rw [List.all_eq_true.1 hblank c hmem] at hc
    cases hc
  split
  case isTrue hlong => exact ⟨nofun, fun h => absurd hlong (Nat.not_lt.2 h.fits)⟩
  split
  case isTrue hcontrol =>
    refine ⟨nofun, fun h => ?_⟩
    obtain ⟨c, hmem, hc⟩ := List.any_eq_true.1 hcontrol
    rw [h.plain c hmem] at hc
    cases hc
  case isFalse hvisible hshort hplain =>
    rw [List.all_eq_true] at hvisible
    rw [List.any_eq_true] at hplain
    refine ⟨fun _ => ⟨?_, Nat.not_lt.1 hshort, fun c hmem => ?_⟩, fun _ => rfl⟩
    · simpa using hvisible
    · rw [← Bool.not_eq_true]
      exact fun hc => hplain ⟨c, hmem, hc⟩

end LatticeLedger
