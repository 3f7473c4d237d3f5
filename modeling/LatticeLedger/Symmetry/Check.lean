import LatticeLedger.Requirement
import LatticeLedger.Symmetry.Walk

/-!
# Checking the symmetry

The laws of the group are tried out on the points in question: every generator undoes itself,
generators commute, an orbit has as many points as the group has elements, and three ways to reach
a point of an orbit agree. A `Fault` says where one of these fails.
-/

namespace LatticeLedger.Symmetry

/-- What a check of the symmetry may find. -/
inductive Fault
  /-- There is no generator of this index. -/
  | noGenerator (index : Nat)
  /-- A generator does not undo itself. -/
  | notInvolution (generator : Generator) (anchor : Anchor)
  /-- Two generators do not commute. -/
  | notCommuting (first second : Generator) (anchor : Anchor)
  /-- There is no anchor to check. -/
  | noAnchors
  /-- An orbit has too few points. -/
  | orbitIncomplete (anchor : Anchor) (points : Nat)
  /-- A Gray code does not lead back to its index. -/
  | codeAstray (code index : Nat)
  /-- A walk and the direct action lead to different points. -/
  | walkAstray (anchor : Anchor) (index : Nat)
  /-- A walk and the fold of the coordinate lead to different points. -/
  | foldAstray (anchor : Anchor) (index : Nat) (walked folded : GridPoint)
  deriving DecidableEq, Repr

/-- The wording of a fault. -/
def Fault.message (fault : Fault) : String :=
  "certificate self-check failed: " ++
    match fault with
    | noGenerator index => s!"generator index {index} outside [0, {orbitRank})"
    | notInvolution generator anchor =>
      s!"generator {generator.val} is not an involution at anchor {anchor.val}"
    | notCommuting first second anchor =>
      s!"generators {first.val} and {second.val} do not commute at anchor {anchor.val}"
    | noAnchors => "anchor set must not be empty"
    | orbitIncomplete anchor points =>
      s!"orbit of anchor {anchor.val} has {points} points, expected {groupOrder}"
    | codeAstray code index => s!"gray code {code} does not invert to index {index}"
    | walkAstray anchor index =>
      s!"anchor {anchor.val} gray index {index}: walk and direct action disagree"
    | foldAstray anchor index walked folded =>
      s!"anchor {anchor.val} gray index {index}: walked ({walked.row}, {walked.col}) " ++
        s!"but fold gives ({folded.row}, {folded.col})"

/-- The generator of an index. -/
def Generator.ofIndex (index : Nat) : Except Fault Generator :=
  demand (.noGenerator index) (Generator.ofIndex? index)

/-- Tries out, at the base of an anchor, that a generator undoes itself. -/
def checkInvolution (anchor : Anchor) (generator : Generator) : Except Fault Unit :=
  require (generator.apply (generator.apply (base anchor)) = base anchor)
    (.notInvolution generator anchor)

/-- Tries out, at the base of an anchor, that two generators commute. -/
def checkCommuting (anchor : Anchor) (first second : Generator) : Except Fault Unit :=
  require
    (first.apply (second.apply (base anchor)) = second.apply (first.apply (base anchor)))
    (.notCommuting first second anchor)

/-- Tries out every generator at an anchor, and every pair of them once. -/
def checkGenerators (anchor : Anchor) : Except Fault Unit :=
  Generator.all.forM fun first => do
    checkInvolution anchor first
    (Generator.all.filter fun second => first < second).forM (checkCommuting anchor first)

/-- The walk over the orbit of an anchor, from its base. -/
def walkFrom (anchor : Anchor) : Walk := ⟨base anchor, 0⟩

/-- Tries out that the orbit of an anchor has as many points as the group has elements. -/
def checkOrbit (anchor : Anchor) : Except Fault Unit :=
  let points := ((walkFrom anchor).steps.map (·.point)).eraseDups.length
  require (points = groupOrder) (.orbitIncomplete anchor points)

/-- Tries out the laws at every anchor, and the first anchor's orbit. -/
def checkLaws (anchors : List Anchor) : Except Fault Unit := do
  anchors.forM checkGenerators
  let first ← demand .noAnchors anchors.head?
  checkOrbit first

/-- Tries out that the code of a step, the direct action, and the fold of the coordinate all
agree with the walk. The folded point is returned. -/
def checkStep (anchor : Anchor) (step : WalkStep) : Except Fault GridPoint := do
  require (grayIndex step.code = step.index) (.codeAstray step.code step.index)
  require (act (base anchor) step.code = step.point) (.walkAstray anchor step.index)
  let folded := (Coord.ofAnchor anchor (Fin.ofNat orbitSize step.code)).point
  require (folded = step.point) (.foldAstray anchor step.index step.point folded)
  return folded

end LatticeLedger.Symmetry
