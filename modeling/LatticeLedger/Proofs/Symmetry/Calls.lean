import LatticeLedger.Proofs.Symmetry.Orbit

/-!
# A walk, call by call

A walk is asked for one step after another, and it may be asked again when nothing is left. It never
computes a code in order to move, and yet every answer is where the direct action of the code leads:
after any number of calls the walk is the one that has left just the indices of these calls behind,
and once the orbit is complete no call changes it any more. Neighbouring answers are therefore one
flip apart, and no code and no point is answered twice.
-/

namespace LatticeLedger.Symmetry

namespace Generator

/-- Whether a generator stands at the lowest set bit of a number. -/
def IsLowest (bits : Nat) (generator : Generator) : Prop :=
  bits.testBit generator.val = true ∧ ∀ i < generator.val, bits.testBit i = false

/-- Different generators lead to different points, whatever the point. -/
theorem apply_inj {first second : Generator} {point : GridPoint} :
    first.apply point = second.apply point ↔ first = second := by
  have hbits : ∀ first second : Generator,
      (1 <<< first.val) % orbitSize = (1 <<< second.val) % orbitSize → first = second := by
    decide
  rw [apply_eq_flip, apply_eq_flip, GridPoint.flip_eq_flip_iff]
  exact ⟨hbits first second, fun heq => heq ▸ rfl⟩

end Generator

namespace Walk

/-- The walk after a call. A call that finds nothing left does not change it. -/
def advance (walk : Walk) : Walk :=
  match walk.next? with
  | some (_, rest) => rest
  | none => walk

/-- The walk after a number of calls. -/
def afterCalls (walk : Walk) : Nat → Walk
  | 0 => walk
  | count + 1 => (walk.afterCalls count).advance

/-- What a walk answers after `count` earlier calls. -/
def answer? (walk : Walk) (count : Nat) : Option WalkStep :=
  (walk.afterCalls count).next?.map (·.1)

variable {start : GridPoint} {count : Nat}

/-- A walk that has left all indices behind has no further step. -/
theorem next?_before_orbitSize : (before start orbitSize).next? = none :=
  if_neg (Nat.lt_irrefl orbitSize)

/-- A call leaves one more index behind, as long as there is one. -/
theorem advance_before (h : count ≤ orbitSize) :
    (before start count).advance = before start (min (count + 1) orbitSize) := by
  rcases Nat.lt_or_eq_of_le h with hlt | rfl
  · rw [advance, next?_before hlt, Nat.min_eq_left (Nat.succ_le_of_lt hlt)]
  · rw [advance, next?_before_orbitSize, Nat.min_eq_right (Nat.le_succ orbitSize)]

/-- After any number of calls the indices of these calls are left behind. -/
theorem afterCalls_eq (start : GridPoint) (count : Nat) :
    (⟨start, 0⟩ : Walk).afterCalls count = before start (min count orbitSize) := by
  induction count with
  | zero => rw [afterCalls, Nat.zero_min, before_zero]
  | succ count ih =>
    have hnext : min (min count orbitSize + 1) orbitSize = min (count + 1) orbitSize := by omega
    rw [afterCalls, ih, advance_before (Nat.min_le_right count orbitSize), hnext]

/-- The first calls answer the steps of the orbit, one each, and all later calls nothing. -/
theorem answer?_eq (start : GridPoint) (count : Nat) :
    (⟨start, 0⟩ : Walk).answer? count =
      if count < orbitSize then some (stepAt start count) else none := by
  rw [answer?, afterCalls_eq]
  split
  case isTrue hlt => rw [Nat.min_eq_left (Nat.le_of_lt hlt), next?_before hlt, Option.map_some]
  case isFalse hge =>
    rw [Nat.min_eq_right (Nat.le_of_not_lt hge), next?_before_orbitSize, Option.map_none]

/-- A call that answers is one of the orbit, and it answers the step of its number. -/
theorem answer?_eq_some_iff {step : WalkStep} :
    (⟨start, 0⟩ : Walk).answer? count = some step ↔
      count < orbitSize ∧ stepAt start count = step := by
  rw [answer?_eq, Option.ite_none_right_eq_some, Option.some.injEq]

end Walk

/-- Whether the answers to consecutive calls compute the action on a start in the order of the Gray
codes. -/
structure ComputesAction (answer? : Nat → Option WalkStep) (start : GridPoint) : Prop where
  step : ∀ count < 2048,
    answer? count = some ⟨count, grayCode count, act start (grayCode count)⟩
  exhausted : ∀ count, 2048 ≤ count → answer? count = none
  /-- One generator leads from an answer to the next, and no other does: the one at the lowest set
  bit of the new index. -/
  flip : ∀ count first second, answer? count = some first → answer? (count + 1) = some second →
    ∃ generator : Generator, generator.IsLowest second.index ∧
      ∀ other : Generator, other.apply first.point = second.point ↔ other = generator
  decoded : ∀ count found, answer? count = some found → grayIndex found.code = found.index
  codes : ∀ i j first second, answer? i = some first → answer? j = some second →
    first.code = second.code → i = j
  points : ∀ i j first second, answer? i = some first → answer? j = some second →
    first.point = second.point → i = j

/-- A walk from any pair of bytes computes the action on it, and the walk of an anchor is the one
from the anchor's base. -/
theorem walk_computes_action :
    (∀ start : GridPoint, ComputesAction (Walk.answer? ⟨start, 0⟩) start) ∧
      ∀ anchor, Walk.ofAnchor anchor = (anchorBase anchor).map fun start => ⟨start, 0⟩ := by
  refine ⟨fun start => ?_, fun anchor => rfl⟩
  constructor
  case step => exact fun count hlt => Walk.answer?_eq_some_iff.2 ⟨hlt, rfl⟩
  case exhausted =>
    intro count hge
    rw [Walk.answer?_eq, if_neg (Nat.not_lt.2 hge)]
  case flip =>
    intro count first second hfirst hsecond
    obtain ⟨-, rfl⟩ := Walk.answer?_eq_some_iff.1 hfirst
    obtain ⟨hlt, rfl⟩ := Walk.answer?_eq_some_iff.1 hsecond
    obtain ⟨generator, hlowest⟩ := exists_lowest? (Nat.succ_pos count) hlt
    refine ⟨generator, lowest?_eq_some hlowest, fun other => ?_⟩
    simp only [stepAt]
    rw [act_grayCode_succ hlt hlowest, Generator.apply_inj]
  case decoded =>
    intro count found hfound
    obtain ⟨hlt, rfl⟩ := Walk.answer?_eq_some_iff.1 hfound
    exact grayIndex_grayCode hlt
  case codes =>
    intro i j first second hfirst hsecond hcode
    obtain ⟨hi, rfl⟩ := Walk.answer?_eq_some_iff.1 hfirst
    obtain ⟨hj, rfl⟩ := Walk.answer?_eq_some_iff.1 hsecond
    exact grayCode_inj hi hj hcode
  case points =>
    intro i j first second hfirst hsecond hpoint
    obtain ⟨hi, rfl⟩ := Walk.answer?_eq_some_iff.1 hfirst
    obtain ⟨hj, rfl⟩ := Walk.answer?_eq_some_iff.1 hsecond
    exact act_grayCode_inj hi hj hpoint

end LatticeLedger.Symmetry
