import LatticeLedger.Proofs.Audit.Reading
import LatticeLedger.Proofs.Guard.Decision

/-!
# Where a committed step counts

A step counts for the class that its context names, for a coordinate if the context names one, and
for an anchor: that of the coordinate, or else the one that was logged. An audit settles this by
guarding the step once more. What is said here of the result refers to the logged numbers alone.
-/

namespace LatticeLedger

namespace LoggedContext

/-- The class that a step visits. -/
def visitedClass (context : LoggedContext) : Option Nat := context.classId.map (·.toNat)

/-- The coordinate that a step visits: the logged one, or that of the logged anchor and offset. -/
def visitedCoord (context : LoggedContext) : Option Nat :=
  match context.coord, context.anchor, context.vBits with
  | some coord, _, _ => some coord.toNat
  | none, some anchor, some vBits => some (anchor.toNat * 2048 + vBits.toNat)
  | none, _, _ => none

/-- The anchor that a step visits: that of its coordinate, or else the logged one. -/
def visitedAnchor (context : LoggedContext) : Option Nat :=
  match context.visitedCoord with
  | some coord => some (coord / 2048)
  | none => context.anchor.map (·.toNat)

/-- Parts that amount to coordinates name the place of these coordinates. -/
theorem visitedCoord_of_ofParts {context : LoggedContext} {coordinates : Coordinates}
    (h : Coordinates.ofParts context.coord context.anchor context.vBits = .ok coordinates) :
    context.visitedCoord = some coordinates.place := by
  rw [visitedCoord]
  generalize context.coord = coord?, context.anchor = anchor?, context.vBits = vBits? at h ⊢
  cases coord? <;> cases anchor? <;> cases vBits? <;> cases h <;> rfl

/-- A context without coordinates names no coordinate to visit. -/
theorem hasCoordinates_eq_false_iff {context : LoggedContext} :
    context.hasCoordinates = false ↔ context.visitedCoord = none := by
  rw [hasCoordinates, visitedCoord]
  cases context.coord <;> cases context.anchor <;> cases context.vBits <;> simp

/-- The step of a context has the logged class and the coordinates of the logged parts. -/
theorem fields_of_stepContext {context : LoggedContext} {t : Option UInt64} {step : StepContext}
    (h : context.stepContext t = .ok step) :
    context.classId = some step.classId ∧
      Coordinates.ofParts context.coord context.anchor context.vBits = .ok step.coordinates := by
  obtain ⟨classId, hclass, h⟩ := bind_eq_ok_iff.1 h
  obtain ⟨coordinates, hparts, h⟩ := bind_eq_ok_iff.1 h
  obtain rfl := Except.ok.inj h
  exact ⟨demand_eq_ok_iff.1 hclass, hparts⟩

/-- A step whose context names a place counts at the address to which it is guarded. -/
theorem visited_of_guardedCell {context : LoggedContext} {t : Option UInt64} {cell : Cell}
    (h : context.guardedCell t = .ok cell) :
    ∃ address : Address, cell = ⟨address.classId, address.anchor, some address.coord⟩ ∧
      context.visitedClass = some address.classId.val ∧
      context.visitedCoord = some address.coord.val := by
  obtain ⟨step, hstep, h⟩ := bind_eq_ok_iff.1 h
  obtain ⟨address, hguard, h⟩ := bind_eq_ok_iff.1 h
  obtain ⟨_, -, h⟩ := bind_eq_ok_iff.1 h
  obtain ⟨hclass, hparts⟩ := fields_of_stepContext (mapError_eq_ok_iff.1 hstep)
  obtain ⟨-, hval, hplace⟩ := guardAddress_eq_ok_iff.1 (mapError_eq_ok_iff.1 hguard)
  refine ⟨address, (Except.ok.inj h).symm, ?_, ?_⟩
  · rw [visitedClass, hclass, hval, Option.map_some]
  · rw [visitedCoord_of_ofParts hparts, hplace]

/-- A step whose context names no place counts for the class and the anchor that were logged. -/
theorem visited_of_anchorCell {context : LoggedContext} {cell : Cell}
    (h : context.anchorCell = .ok cell) :
    context.visitedClass = some cell.classId.val ∧
      context.anchor.map (·.toNat) = some cell.anchor.val ∧ cell.coord = none := by
  obtain ⟨classId, hclass, h⟩ := bind_eq_ok_iff.1 h
  obtain ⟨anchor, hanchor, h⟩ := bind_eq_ok_iff.1 h
  obtain ⟨knownClass, hknownClass, h⟩ := bind_eq_ok_iff.1 h
  obtain ⟨knownAnchor, hknownAnchor, h⟩ := bind_eq_ok_iff.1 h
  obtain rfl := Except.ok.inj h
  refine ⟨?_, ?_, rfl⟩
  · rw [visitedClass, demand_eq_ok_iff.1 hclass, Option.map_some,
      checkBelow_eq_ok_iff.1 (mapError_eq_ok_iff.1 hknownClass)]
  · rw [demand_eq_ok_iff.1 hanchor, Option.map_some,
      checkBelow_eq_ok_iff.1 (mapError_eq_ok_iff.1 hknownAnchor)]

/-- The cell of a context is what the context says of class, anchor and coordinate. -/
theorem visited_of_cell {context : LoggedContext} {t : Option UInt64} {cell : Cell}
    (h : context.cell t = .ok cell) :
    context.visitedClass = some cell.classId.val ∧
      context.visitedAnchor = some cell.anchor.val ∧
      context.visitedCoord = cell.coord.map (·.val) := by
  rw [LoggedContext.cell] at h
  by_cases hcoordinates : context.hasCoordinates
  · rw [if_pos hcoordinates] at h
    obtain ⟨address, rfl, hclass, hcoord⟩ := visited_of_guardedCell h
    refine ⟨hclass, ?_, hcoord⟩
    rw [visitedAnchor, hcoord]
    rfl
  · rw [if_neg hcoordinates] at h
    obtain ⟨hclass, hanchor, hcoord⟩ := visited_of_anchorCell h
    have hnone := hasCoordinates_eq_false_iff.1 (Bool.eq_false_iff.2 hcoordinates)
    refine ⟨hclass, ?_, ?_⟩
    · rw [visitedAnchor, hnone, hanchor]
    · rw [hnone, hcoord, Option.map_none]

end LoggedContext

namespace Record

/-- The class that a record names in its context. -/
def visitedClass (record : Record) : Option Nat := record.context.bind (·.visitedClass)

/-- The anchor for which a record counts if it is a committed step. -/
def visitedAnchor (record : Record) : Option Nat := record.context.bind (·.visitedAnchor)

/-- The coordinate for which a record counts if it is a committed step. -/
def visitedCoord (record : Record) : Option Nat := record.context.bind (·.visitedCoord)

/-- An audited step counts where its record says. -/
theorem visited_of_auditedStep {record : Record} {step : AuditedStep}
    (h : record.auditedStep = .ok step) :
    record.visitedClass = some step.cell.classId.val ∧
      record.visitedAnchor = some step.cell.anchor.val ∧
      record.visitedCoord = step.cell.coord.map (·.val) := by
  obtain ⟨context, cell, _, hcontext, hcell, -, rfl⟩ := auditedStep_eq_ok_iff.1 h
  rw [visitedClass, visitedAnchor, visitedCoord, hcontext]
  exact LoggedContext.visited_of_cell hcell

end Record

end LatticeLedger
