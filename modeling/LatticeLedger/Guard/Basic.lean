import LatticeLedger.Lattice.Refusal
import LatticeLedger.Ordered.Map
import LatticeLedger.Requirement

/-!
# Guarding a step

A caller names the place of a step by a coordinate, by an anchor with an offset, or by both.
The guard turns such a loose context into an address, or says why there is none. It never
repairs a context: whatever is out of range or contradictory is refused.
-/

namespace LatticeLedger

/-- The ways in which a caller names a place within a class. -/
inductive Coordinates
  | linear (coord : UInt32)
  | anchorOffset (anchor vBits : UInt32)
  | both (coord anchor vBits : UInt32)
  deriving DecidableEq, Repr

namespace Coordinates

/-- The way that loosely supplied parts amount to. Anchor and offset go together. -/
def ofParts : Option UInt32 → Option UInt32 → Option UInt32 → Except Refusal Coordinates
  | some coord, some anchor, some vBits => .ok (.both coord anchor vBits)
  | some coord, none, none => .ok (.linear coord)
  | none, some anchor, some vBits => .ok (.anchorOffset anchor vBits)
  | none, none, none => .error (.incomplete .coordinates)
  | _, _, _ => .error (.incomplete .half)

end Coordinates

/-- What a caller knows of a step before it is guarded. -/
structure StepContext where
  classId : UInt32
  coordinates : Coordinates
  /-- The position of the step in its run. -/
  t : Option UInt64 := none
  /-- Notes of the caller, kept apart from the address. -/
  metadata : OrderedMap String String := ∅
  deriving DecidableEq, Repr

/-- A step whose place is settled. -/
structure GuardedStep where
  address : Address
  t : Option UInt64
  metadata : OrderedMap String String
  deriving DecidableEq, Repr

/-- The address of a class and the given coordinates. A coordinate is checked together with
the class; an anchor and an offset are checked on their own and come before the class unless
a coordinate is given as well. -/
def guardAddress (classId : UInt32) : Coordinates → Except Refusal Address
  | .linear coord => Address.locate classId.toNat coord.toNat
  | .anchorOffset anchor vBits => do
    let coord ← Coord.encode anchor.toNat vBits.toNat
    Address.locate classId.toNat coord.val
  | .both coord anchor vBits => do
    let address ← Address.locate classId.toNat coord.toNat
    let encoded ← Coord.encode anchor.toNat vBits.toNat
    require (encoded.val = coord.toNat) (.disagreement coord.toNat encoded.val)
    return address

/-- Settles the place of a step; everything else is carried over. -/
def guardStep (context : StepContext) : Except Refusal GuardedStep := do
  let address ← guardAddress context.classId context.coordinates
  return ⟨address, context.t, context.metadata⟩

end LatticeLedger
