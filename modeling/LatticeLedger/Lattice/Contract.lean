import LatticeLedger.Contract
import LatticeLedger.Lattice.Basic
import LatticeLedger.Requirement

/-!
# The contract of an address

Six numbers written out in full make an address only if each lies in its range and both
splits of the coordinate are respected. This is checked on the numbers alone, without the
conversions between the spellings.
-/

namespace LatticeLedger.Address

/-- Accepts a number below `bound`, as the contract of an address words its refusal. -/
private def checkRange (field : AddressField) (bound got : Nat) : Except Violation (Fin bound) :=
  if h : got < bound then .ok ⟨got, h⟩
  else .error (.outside ("lattice_address." ++ field.name) 0 (bound - 1) got)

/-- An accepted number is not changed. -/
private theorem checkRange_eq_ok_iff {field : AddressField} {bound got : Nat} {n : Fin bound} :
    checkRange field bound got = .ok n ↔ n.val = got := by
  rw [checkRange]
  split
  case isTrue h => rw [Except.ok.injEq, Fin.ext_iff, eq_comm]
  case isFalse h =>
    have hne : n.val ≠ got := fun heq => h (heq ▸ n.isLt)
    simp [hne]

/-- The address that six numbers describe. Ranges come first, in the order of the fields, then
the two relations; the column needs no check, since every byte is one. -/
def ofParts (classId : UInt8) (coord : UInt16) (anchor : UInt8) (vBits : UInt16)
    (row col : UInt8) : Except Violation Address := do
  let classId ← checkRange .classId classCount classId.toNat
  let place ← checkRange .coord coordCount coord.toNat
  let _ ← checkRange .anchor anchorCount anchor.toNat
  let _ ← checkRange .vBits orbitSize vBits.toNat
  let _ ← checkRange .row rowCount row.toNat
  require (coord.toNat = anchor.toNat * orbitSize + vBits.toNat)
    (.flawed "lattice_address.coord_idx" .offAnchor)
  require (coord.toNat = row.toNat * colCount + col.toNat)
    (.flawed "lattice_address.coord_idx" .offCell)
  return ⟨classId, place⟩

/-- Six numbers make an address if and only if they are in their ranges and name one coordinate
both by anchor and offset and by row and column; class and coordinate are then kept. -/
theorem ofParts_eq_ok_iff {classId : UInt8} {coord : UInt16} {anchor : UInt8} {vBits : UInt16}
    {row col : UInt8} {address : Address} :
    ofParts classId coord anchor vBits row col = .ok address ↔
      (address.classId.val = classId.toNat ∧ address.coord.val = coord.toNat) ∧
        (anchor.toNat < anchorCount ∧ vBits.toNat < orbitSize ∧ row.toNat < rowCount) ∧
        coord.toNat = anchor.toNat * orbitSize + vBits.toNat ∧
        coord.toNat = row.toNat * colCount + col.toNat := by
  simp only [ofParts, bind_eq_ok_iff, checkRange_eq_ok_iff, require_eq_ok_iff]
  constructor
  · rintro ⟨c, hc, k, hk, a, ha, v, hv, r, hr, _, hanchor, _, hcell, h⟩
    obtain rfl := Except.ok.inj h
    exact ⟨⟨hc, hk⟩, ⟨ha ▸ a.isLt, hv ▸ v.isLt, hr ▸ r.isLt⟩, hanchor, hcell⟩
  · rintro ⟨⟨hc, hk⟩, ⟨ha, hv, hr⟩, hanchor, hcell⟩
    exact ⟨_, hc, _, hk, ⟨_, ha⟩, rfl, ⟨_, hv⟩, rfl, ⟨_, hr⟩, rfl, (), hanchor, (), hcell, rfl⟩

end LatticeLedger.Address
