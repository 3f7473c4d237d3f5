import LatticeLedger.Symmetry.Generator

/-!
# Walking an orbit in Gray order

The reflected Gray code lists all offsets so that neighbours differ in one bit. A walk uses
this to visit an orbit with a single flip per step, without ever computing the code: the flip
that leads to step `k` is the one at the lowest set bit of `k`.
-/

namespace LatticeLedger.Symmetry

/-- The eleven bits of an offset. -/
abbrev offsetMask : Nat := orbitSize - 1

/-- The reflected Gray code of an index, in eleven bits. -/
def grayCode (index : Nat) : Nat := (index ^^^ (index >>> 1)) &&& offsetMask

/-- The index of a Gray code: every bit is the parity of the code bits at and above it. -/
def grayIndex (code : Nat) : Nat :=
  let code := code &&& offsetMask
  (List.range orbitRank).foldl (fun index shift => index ^^^ (code >>> (shift + 1))) code

/-- A place reached by a walk. -/
structure WalkStep where
  /-- How many steps were taken before. -/
  index : Nat
  /-- The Gray code of the index, which names the group element that leads here. -/
  code : Nat
  /-- The grid point reached. -/
  point : GridPoint
  deriving DecidableEq, Repr

/-- A walk in progress: the point last visited and the index of the next step. -/
structure Walk where
  point : GridPoint
  index : Nat := 0
  deriving DecidableEq, Repr

namespace Walk

/-- The walk over the orbit of an anchor. -/
def ofAnchor (anchor : Nat) : Except Refusal Walk := do
  let start ← anchorBase anchor
  return ⟨start, 0⟩

/-- The next step of a walk, and the walk after it. Nothing is left once the orbit is complete. -/
def next? (walk : Walk) : Option (WalkStep × Walk) :=
  if walk.index < orbitSize then
    let point :=
      match Generator.lowest? walk.index with
      | some generator => generator.apply walk.point
      | none => walk.point
    some (⟨walk.index, grayCode walk.index, point⟩, ⟨point, walk.index + 1⟩)
  else none

/-- At most `count` further steps of a walk. -/
def take : Nat → Walk → List WalkStep
  | 0, _ => []
  | count + 1, walk =>
    match walk.next? with
    | some (step, rest) => step :: take count rest
    | none => []

/-- All steps of a walk that are still to come. -/
def steps (walk : Walk) : List WalkStep := walk.take orbitSize

end Walk

end LatticeLedger.Symmetry
