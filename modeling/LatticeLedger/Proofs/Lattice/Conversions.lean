import LatticeLedger.Lattice.Contract
import LatticeLedger.Lattice.Refusal
import LatticeLedger.Requirement

/-!
# When a conversion succeeds

A conversion between the spellings of a place succeeds exactly if its numbers are in range, and then
keeps them. A pair of numbers is the only one in range that names its coordinate, which is division
with remainder, and the six numbers of an address fit the bytes and words in which it is stored.
-/

namespace LatticeLedger

section CheckBelow

variable {field : AddressField} {bound : Nat} {numbers : List Nat}

/-- Numbers that are accepted one after the other are not changed. -/
theorem mapM_checkBelow_eq_ok {accepted : List (Fin bound)}
    (h : numbers.mapM (checkBelow field bound) = .ok accepted) :
    accepted.map (·.val) = numbers := by
  induction numbers generalizing accepted with
  | nil =>
    obtain rfl : [] = accepted := Except.ok.inj h
    rfl
  | cons got rest ih =>
    obtain ⟨first, others, hfirst, hothers, rfl⟩ := mapM_cons_eq_ok_iff.1 h
    rw [List.map_cons, ih hothers, checkBelow_eq_ok_iff.1 hfirst]

/-- Of several numbers the first one that is out of range is refused. -/
theorem mapM_checkBelow_eq_error_iff {refusal : Refusal} :
    numbers.mapM (checkBelow field bound) = .error refusal ↔
      ∃ got, numbers.find? (bound ≤ ·) = some got ∧ .outOfRange field got bound = refusal := by
  induction numbers with
  | nil => exact ⟨nofun, by simp⟩
  | cons got rest ih =>
    rw [mapM_cons_eq_error_iff, checkBelow_eq_error_iff, ih]
    by_cases hlt : got < bound
    · have hok : ∃ n, checkBelow field bound got = .ok n := ⟨⟨got, hlt⟩, checkBelow_eq_ok_iff.2 rfl⟩
      simp [hok, Nat.not_le.2 hlt]
    · have hge : bound ≤ got := Nat.le_of_not_lt hlt
      have hno : ¬∃ n, checkBelow field bound got = .ok n := by
        rintro ⟨n, hn⟩
        exact hlt (checkBelow_eq_ok_iff.1 hn ▸ n.isLt)
      simp [hge, hno]

end CheckBelow

namespace Coord

/-- The encoding looks at the anchor and at the offset, and multiplies only then. -/
theorem encode_eq_ok_iff {anchor vBits : Nat} {coord : Coord} :
    encode anchor vBits = .ok coord ↔
      anchor < anchorCount ∧ vBits < orbitSize ∧ coord.val = anchor * orbitSize + vBits := by
  simp only [encode, bind_eq_ok_iff, checkBelow_eq_ok_iff]
  constructor
  · rintro ⟨a, rfl, v, rfl, h⟩
    exact ⟨a.isLt, v.isLt, congrArg Fin.val (Except.ok.inj h).symm⟩
  · rintro ⟨ha, hv, hcoord⟩
    exact ⟨⟨anchor, ha⟩, rfl, ⟨vBits, hv⟩, rfl, congrArg Except.ok (Fin.ext hcoord.symm)⟩

/-- Every coordinate is decoded to its anchor and offset. -/
theorem decode_val (coord : Coord) : decode coord.val = .ok (coord.anchor, coord.offset) :=
  bind_eq_ok_iff.2 ⟨coord, checkBelow_eq_ok_iff.2 rfl, rfl⟩

/-- Every coordinate is folded to its point. -/
theorem fold_val (coord : Coord) : fold coord.val = .ok coord.point :=
  bind_eq_ok_iff.2 ⟨coord, checkBelow_eq_ok_iff.2 rfl, rfl⟩

/-- Only one anchor and one offset name a coordinate. -/
theorem eq_anchor_offset_iff {coord : Coord} {anchor offset : Nat} (h : offset < orbitSize) :
    coord.val = anchor * orbitSize + offset ↔
      anchor = coord.anchor.val ∧ offset = coord.offset.val := by
  simp only [Coord.anchor, Coord.offset, orbitSize] at *
  omega

/-- Only one row and one column name a coordinate. -/
theorem eq_row_col_iff {coord : Coord} {row col : Nat} (h : col < colCount) :
    coord.val = row * colCount + col ↔ row = coord.row.val ∧ col = coord.col.val := by
  simp only [Coord.row, Coord.col, colCount] at *
  omega

end Coord

namespace Address

/-- A class and a coordinate are located at the address that has them. -/
theorem locate_eq_ok_iff {classId coord : Nat} {address : Address} :
    locate classId coord = .ok address ↔
      address.classId.val = classId ∧ address.coord.val = coord := by
  obtain ⟨⟨c, hc⟩, ⟨k, hk⟩⟩ := address
  rw [locate]
  split
  case isFalse hclass =>
    have hne : c ≠ classId := fun heq => hclass (heq ▸ hc)
    simp [hne]
  case isTrue =>
    split
    case isFalse hcoord =>
      have hne : k ≠ coord := fun heq => hcoord (heq ▸ hk)
      simp [hne]
    case isTrue => simp [eq_comm]

/-- The class is refused first, and then the coordinate. -/
theorem locate_eq_error_iff {classId coord : Nat} {refusal : Refusal} :
    locate classId coord = .error refusal ↔
      (classCount ≤ classId ∧ .noSuchClass classId = refusal) ∨
        classId < classCount ∧ coordCount ≤ coord ∧ .noSuchCoord coord = refusal := by
  rw [locate]
  split
  case isFalse hclass => simp [hclass, Nat.not_lt.1 hclass]
  case isTrue hclass =>
    split
    case isFalse hcoord => simp [hclass, Nat.not_le.2 hclass, Nat.not_lt.1 hcoord]
    case isTrue hcoord => simp [hclass, Nat.not_le.2 hclass, Nat.not_le.2 hcoord]

/-- The numbers of an address fit their widths and keep the contract. -/
theorem ofParts_val (address : Address) :
    ofParts (UInt8.ofNat address.classId.val) (UInt16.ofNat address.coord.val)
      (UInt8.ofNat address.anchor.val) (UInt16.ofNat address.offset.val)
      address.coord.point.row address.coord.point.col = .ok address := by
  have hbyte {n : Nat} (h : n < 256) : (UInt8.ofNat n).toNat = n := UInt8.toNat_ofNat_of_lt h
  have hword {n : Nat} (h : n < 65536) : (UInt16.ofNat n).toNat = n := UInt16.toNat_ofNat_of_lt h
  have hclass := hbyte (Nat.lt_trans address.classId.isLt (by decide))
  have hcoord := hword (Nat.lt_trans address.coord.isLt (by decide))
  have hanchor := hbyte (Nat.lt_trans address.anchor.isLt (by decide))
  have hoffset := hword (Nat.lt_trans address.offset.isLt (by decide))
  have hrow := hbyte (Nat.lt_trans address.coord.row.isLt (by decide))
  have hcol := hbyte address.coord.col.isLt
  rw [ofParts_eq_ok_iff, Coord.point, hclass, hcoord, hanchor, hoffset, hrow, hcol]
  exact ⟨⟨rfl, rfl⟩, ⟨address.anchor.isLt, address.offset.isLt, address.coord.row.isLt⟩,
    (Coord.eq_anchor_offset_iff address.offset.isLt).2 ⟨rfl, rfl⟩,
    (Coord.eq_row_col_iff address.coord.col.isLt).2 ⟨rfl, rfl⟩⟩

end Address

end LatticeLedger
