import LatticeLedger.Lattice.Refusal

/-!
# Bit flips of the grid

Eleven involutions generate the symmetry group of an orbit. The first eight flip one bit of
the column. The other three flip one of the low bits of the row within its block of sixteen
rows, so the block, and with it the half of the block in which an anchor sits, stays fixed.
Bit `k` of an offset stands for generator `k`.
-/

namespace LatticeLedger.Symmetry

/-- How many generators act on the column. -/
abbrev columnFlips : Nat := 8

/-- How many rows make a block. -/
abbrev blockRows : UInt8 := 16

/-- The distance in rows between the bases of neighbouring anchors. -/
abbrev anchorStride : Nat := 8

/-- The order of the group: one element for each choice of generators. -/
def groupOrder : Nat := 1 <<< orbitRank

/-- The component of a grid point in which a generator flips a bit. -/
inductive Target
  | column
  | rowResidue
  deriving DecidableEq, Repr

/-- A generator of the group, by its index. -/
abbrev Generator := Fin orbitRank

namespace Generator

/-- All generators, in the order of their indices. -/
def all : List Generator := List.finRange orbitRank

/-- The generator of an index. -/
def ofIndex? (index : Nat) : Option Generator :=
  if h : index < orbitRank then some ⟨index, h⟩ else none

/-- The component on which a generator acts. -/
def target (generator : Generator) : Target :=
  if generator.val < columnFlips then .column else .rowResidue

/-- The position of the flipped bit within the target. -/
def bit (generator : Generator) : Nat :=
  match generator.target with
  | .column => generator.val
  | .rowResidue => generator.val - columnFlips

/-- The byte whose only set bit is the flipped one. -/
def mask (generator : Generator) : UInt8 := 1 <<< UInt8.ofNat generator.bit

/-- Flips the bit of a generator. -/
def apply (generator : Generator) (point : GridPoint) : GridPoint :=
  match generator.target with
  | .column => { point with col := point.col ^^^ generator.mask }
  | .rowResidue =>
    { point with
      row := point.row / blockRows * blockRows + ((point.row % blockRows) ^^^ generator.mask) }

/-- A generator in words. -/
def describe (generator : Generator) : String :=
  match generator.target with
  | .column => s!"col XOR (1 << {generator.bit})"
  | .rowResidue => s!"flip bit {generator.bit} of row mod 16, row div 16 fixed"

/-- The generator at the lowest set bit of a number, if it has one among the low eleven. -/
def lowest? (bits : Nat) : Option Generator :=
  all.find? fun generator => bits.testBit generator.val

end Generator

/-- Applies the group element that a number names: one generator for each set bit. -/
def act (point : GridPoint) (bits : Nat) : GridPoint :=
  (Generator.all.filter fun generator => bits.testBit generator.val).foldl
    (fun moved generator => generator.apply moved) point

/-- The grid point at which the orbit of an anchor starts. -/
def base (anchor : Anchor) : GridPoint := ⟨UInt8.ofNat (anchor.val * anchorStride), 0⟩

/-- The base of an anchor given by number. -/
def anchorBase (anchor : Nat) : Except Refusal GridPoint := do
  let anchor : Anchor ← checkBelow .anchor anchorCount anchor
  return base anchor

end LatticeLedger.Symmetry
