import LatticeLedger.Proofs.Audit.Cell
import LatticeLedger.Proofs.Guard.Numbers

/-!
# A logged step is guarded again

An audit takes the numbers of a step from the log, where each is a loose number, and guards the
place once more. The numbers that are logged beside it are compared with those of the address:
class, coordinate, anchor and offset whichever of them are present, row and column only if both
are. Nothing is refused if the context is that of a guarded step: all six numbers of its address
were logged, and they are small enough for the words they are logged in.
-/

namespace LatticeLedger

namespace LoggedContext

/-- The number that was logged for a field. -/
def number? (context : LoggedContext) : AddressField → Option UInt32
  | .classId => context.classId
  | .coord => context.coord
  | .anchor => context.anchor
  | .vBits => context.vBits
  | .row => context.row
  | .col => context.col

/-- A logged step, guarded once more. -/
def reguarded (context : LoggedContext) (t : Option UInt64) : Except Refusal GuardedStep := do
  let step ← context.stepContext t
  guardStep step

/-- Whether an audit compares a field of the context. It compares row and column together or not at
all. -/
def Compares (context : LoggedContext) (field : AddressField) : Prop :=
  field = .row ∨ field = .col → context.row.isSome ∧ context.col.isSome

/-- Whether every number that is compared is that of the address. -/
def Restates (context : LoggedContext) (address : Address) : Prop :=
  ∀ field n, context.number? field = some n → context.Compares field →
    n.toNat = address.number field

variable {context : LoggedContext} {t : Option UInt64} {step : StepContext} {address : Address}

/-- A step is guarded again to the address of its class and coordinates. -/
theorem reguarded_eq_ok {guarded : GuardedStep} (h : context.reguarded t = .ok guarded) :
    ∃ step, context.stepContext t = .ok step ∧
      guardAddress step.classId step.coordinates = .ok guarded.address := by
  obtain ⟨step, hstep, h⟩ := bind_eq_ok_iff.1 h
  obtain ⟨address, haddress, h⟩ := bind_eq_ok_iff.1 h
  obtain rfl := Except.ok.inj h
  exact ⟨step, hstep, haddress⟩

/-- A step whose class and coordinates are guarded to an address is guarded again to it. -/
theorem reguarded_of_guardAddress (hstep : context.stepContext t = .ok step)
    (haddress : guardAddress step.classId step.coordinates = .ok address) :
    context.reguarded t = .ok ⟨address, step.t, step.metadata⟩ :=
  bind_eq_ok_iff.2 ⟨step, hstep, bind_eq_ok_iff.2 ⟨address, haddress, rfl⟩⟩

/-- A logged cell agrees unless row and column are both there and one of them is another. -/
theorem cellAgrees_iff :
    context.cellAgrees address ↔ ∀ row col, context.row = some row → context.col = some col →
      row.toNat = address.row.val ∧ col.toNat = address.col.val := by
  rw [cellAgrees]
  cases context.row <;> cases context.col <;> simp

/-- Of a step that is guarded again, the numbers that make up its place are those of the address;
row and column are left. -/
theorem restates_iff_cellAgrees {guarded : GuardedStep} (h : context.reguarded t = .ok guarded) :
    context.Restates guarded.address ↔ context.cellAgrees guarded.address := by
  obtain ⟨step, hstep, haddress⟩ := reguarded_eq_ok h
  obtain ⟨hclass, hparts⟩ := fields_of_stepContext hstep
  obtain ⟨hcoord, hanchor, hvBits⟩ := Coordinates.ofParts_eq_ok_iff.1 hparts
  rw [cellAgrees_iff]
  constructor
  · intro hrestates row col hrow hcol
    have hboth : context.row.isSome ∧ context.col.isSome := by simp [hrow, hcol]
    exact ⟨hrestates .row row hrow fun _ => hboth, hrestates .col col hcol fun _ => hboth⟩
  · intro hagrees field n hn hcompares
    cases field with
    | classId =>
      obtain rfl := Option.some.inj (hclass.symm.trans hn)
      exact (guardAddress_eq_ok_iff.1 haddress).2.1.symm
    | coord => exact Coordinates.toNat_of_guardAddress haddress (hcoord.trans hn)
    | anchor => exact Coordinates.toNat_of_guardAddress haddress (hanchor.trans hn)
    | vBits => exact Coordinates.toNat_of_guardAddress haddress (hvBits.trans hn)
    | row =>
      obtain ⟨col, hcol⟩ := Option.isSome_iff_exists.1 (hcompares (.inl rfl)).2
      exact (hagrees n col hn hcol).1
    | col =>
      obtain ⟨row, hrow⟩ := Option.isSome_iff_exists.1 (hcompares (.inr rfl)).1
      exact (hagrees row n hrow hn).2

/-- A context with coordinates gives a cell exactly if it is guarded again to an address that it
restates, and the cell is that of the address. -/
theorem guardedCell_eq_ok_iff {cell : Cell} :
    context.guardedCell t = .ok cell ↔ ∃ guarded, context.reguarded t = .ok guarded ∧
      context.Restates guarded.address ∧
      ⟨guarded.address.classId, guarded.address.anchor, some guarded.address.coord⟩ = cell := by
  constructor
  · intro h
    obtain ⟨step, hstep, h⟩ := bind_eq_ok_iff.1 h
    obtain ⟨address, haddress, h⟩ := bind_eq_ok_iff.1 h
    obtain ⟨_, hagrees, h⟩ := bind_eq_ok_iff.1 h
    have hguarded :=
      reguarded_of_guardAddress (mapError_eq_ok_iff.1 hstep) (mapError_eq_ok_iff.1 haddress)
    exact ⟨_, hguarded, (restates_iff_cellAgrees hguarded).2 (require_eq_ok_iff.1 hagrees),
      Except.ok.inj h⟩
  · rintro ⟨guarded, hguarded, hrestates, rfl⟩
    obtain ⟨step, hstep, haddress⟩ := reguarded_eq_ok hguarded
    have hagrees := (restates_iff_cellAgrees hguarded).1 hrestates
    refine bind_eq_ok_iff.2 ⟨step, mapError_eq_ok_iff.2 hstep, ?_⟩
    refine bind_eq_ok_iff.2 ⟨guarded.address, mapError_eq_ok_iff.2 haddress, ?_⟩
    exact bind_eq_ok_iff.2 ⟨(), require_eq_ok_iff.2 hagrees, rfl⟩

/-- A context with coordinates has a cell exactly if it is guarded again to an address that it
restates. -/
theorem exists_cell_iff (hcoordinates : context.hasCoordinates) :
    (∃ cell, context.cell t = .ok cell) ↔
      ∃ guarded, context.reguarded t = .ok guarded ∧ context.Restates guarded.address := by
  rw [LoggedContext.cell, if_pos hcoordinates]
  constructor
  · rintro ⟨cell, hcell⟩
    obtain ⟨guarded, hguarded, hrestates, -⟩ := guardedCell_eq_ok_iff.1 hcell
    exact ⟨guarded, hguarded, hrestates⟩
  · rintro ⟨guarded, hguarded, hrestates⟩
    exact ⟨_, guardedCell_eq_ok_iff.2 ⟨guarded, hguarded, hrestates, rfl⟩⟩

/-- A row without a column, or a column without a row, has no influence on the cell. -/
theorem cell_of_lone (hlone : context.row = none ∨ context.col = none) :
    context.cell t = ({ context with row := none, col := none } : LoggedContext).cell t := by
  have hagrees (address : Address) : context.cellAgrees address = true := by
    rw [cellAgrees_iff]
    intro row col hrow hcol
    rcases hlone with hnone | hnone
    · exact absurd (hnone.symm.trans hrow) nofun
    · exact absurd (hnone.symm.trans hcol) nofun
  have hguarded : context.guardedCell t =
      ({ context with row := none, col := none } : LoggedContext).guardedCell t := by
    simp only [guardedCell, hagrees]
    rfl
  rw [LoggedContext.cell, LoggedContext.cell, hguarded]
  rfl

/-- A step context comes only from a context with coordinates. -/
theorem hasCoordinates_of_stepContext (h : context.stepContext t = .ok step) :
    context.hasCoordinates := by
  obtain ⟨-, hparts⟩ := fields_of_stepContext h
  have hplace := visitedCoord_of_ofParts hparts
  rw [← Bool.not_eq_false, hasCoordinates_eq_false_iff, hplace]
  exact Option.some_ne_none _

/-- A context that restates an address has the cell of the address. -/
theorem cell_of_restates (hstep : context.stepContext t = .ok step)
    (h : context.Restates address) :
    context.cell t = .ok ⟨address.classId, address.anchor, some address.coord⟩ := by
  obtain ⟨hclass, hparts⟩ := fields_of_stepContext hstep
  obtain ⟨hcoord, hanchor, hvBits⟩ := Coordinates.ofParts_eq_ok_iff.1 hparts
  have haddress : guardAddress step.classId step.coordinates = .ok address := by
    refine guardAddress_of_numbers (h .classId _ hclass nofun) fun field n hn => ?_
    cases field with
    | coord => exact h .coord n (hcoord.symm.trans hn) nofun
    | anchor => exact h .anchor n (hanchor.symm.trans hn) nofun
    | vBits => exact h .vBits n (hvBits.symm.trans hn) nofun
    | classId | row | col =>
      revert hn
      cases step.coordinates <;> exact nofun
  have hguarded := reguarded_of_guardAddress hstep haddress
  rw [cell, if_pos (hasCoordinates_of_stepContext hstep)]
  exact guardedCell_eq_ok_iff.2 ⟨_, hguarded, h, rfl⟩

/-- What is logged of a guarded step restates its address. -/
theorem restates_ofGuarded (guarded : GuardedStep) :
    (ofGuarded guarded).Restates guarded.address := by
  rintro field n hn -
  cases field <;> cases hn <;> exact toNat_ofNat_val (by decide) _

/-- The context under which a guarded step is logged gives the cell of its address. -/
theorem cell_ofGuarded (guarded : GuardedStep) (t : Option UInt64) :
    (ofGuarded guarded).cell t =
      .ok ⟨guarded.address.classId, guarded.address.anchor, some guarded.address.coord⟩ :=
  cell_of_restates rfl (restates_ofGuarded guarded)

end LoggedContext

end LatticeLedger
