import LatticeLedger.Lattice.Basic

/-!
# Why an address is refused

Loose numbers become an address only if every one of them lies in its range and, where
a place is named twice, both names agree. A `Refusal` says which of these failed.
-/

namespace LatticeLedger

/-- What a step context leaves out. -/
inductive Gap
  /-- No class is given. -/
  | classId
  /-- Neither a coordinate nor an anchor with its offset is given. -/
  | coordinates
  /-- Only one of anchor and offset is given. -/
  | half
  deriving DecidableEq, Repr

/-- The wording of a gap. -/
def Gap.message : Gap → String
  | classId => "missing class in context"
  | coordinates => "context must include either coord or (anchor, v_bits)"
  | half => "anchor and v_bits must be supplied together"

/-- The reason why numbers do not make an address. -/
inductive Refusal
  /-- A single number is not below its bound. -/
  | outOfRange (field : AddressField) (got bound : Nat)
  /-- The class of a combined address is not a class. -/
  | noSuchClass (got : Nat)
  /-- The coordinate of a combined address is not a coordinate. -/
  | noSuchCoord (got : Nat)
  /-- Part of the context is missing. -/
  | incomplete (gap : Gap)
  /-- The coordinate and the anchor with its offset name different places. -/
  | disagreement (supplied encoded : Nat)
  deriving DecidableEq, Repr

/-- The wording of a refusal. -/
def Refusal.message : Refusal → String
  | outOfRange field got bound => s!"{field.name}={got} outside [0, {bound})"
  | noSuchClass got => s!"address rejected: class_id out of range (got {got}, limit {classCount})"
  | noSuchCoord got => s!"address rejected: coord_idx out of range (got {got}, limit {coordCount})"
  | incomplete gap => "incomplete step context: " ++ gap.message
  | disagreement supplied encoded =>
    s!"coord_idx={supplied} disagrees with anchor/v_bits encoding {encoded}"

/-- Accepts a number below `bound`. -/
def checkBelow (field : AddressField) (bound got : Nat) : Except Refusal (Fin bound) :=
  if h : got < bound then .ok ⟨got, h⟩ else .error (.outOfRange field got bound)

/-- An accepted number is not changed. -/
theorem checkBelow_eq_ok_iff {field : AddressField} {bound got : Nat} {n : Fin bound} :
    checkBelow field bound got = .ok n ↔ n.val = got := by
  rw [checkBelow]
  split
  case isTrue h => rw [Except.ok.injEq, Fin.ext_iff, eq_comm]
  case isFalse h =>
    have hne : n.val ≠ got := fun heq => h (heq ▸ n.isLt)
    simp [hne]

/-- A number is refused if it is not below the bound, and the refusal states both. -/
theorem checkBelow_eq_error_iff {field : AddressField} {bound got : Nat} {refusal : Refusal} :
    checkBelow field bound got = .error refusal ↔
      bound ≤ got ∧ .outOfRange field got bound = refusal := by
  rw [checkBelow]
  split
  case isTrue h => simp [Nat.not_le.2 h]
  case isFalse h => simp [Nat.not_lt.1 h]

namespace Coord

/-- The coordinate of an anchor and an offset; the anchor is looked at first. -/
def encode (anchor vBits : Nat) : Except Refusal Coord := do
  let anchor ← checkBelow .anchor anchorCount anchor
  let offset ← checkBelow .vBits orbitSize vBits
  return ofAnchor anchor offset

/-- The anchor and the offset of a coordinate. -/
def decode (coord : Nat) : Except Refusal (Anchor × Offset) := do
  let coord : Coord ← checkBelow .coord coordCount coord
  return (coord.anchor, coord.offset)

/-- The coordinate of a grid cell; the row is looked at first. -/
def flatten (row col : Nat) : Except Refusal Coord := do
  let row ← checkBelow .row rowCount row
  let col ← checkBelow .col colCount col
  return ofCell row col

/-- The grid point of a coordinate. -/
def fold (coord : Nat) : Except Refusal GridPoint := do
  let coord : Coord ← checkBelow .coord coordCount coord
  return coord.point

end Coord

/-- The address of a class and a coordinate; the class is looked at first. -/
def Address.locate (classId coord : Nat) : Except Refusal Address :=
  if hclass : classId < classCount then
    if hcoord : coord < coordCount then .ok ⟨⟨classId, hclass⟩, ⟨coord, hcoord⟩⟩
    else .error (.noSuchCoord coord)
  else .error (.noSuchClass classId)

end LatticeLedger
