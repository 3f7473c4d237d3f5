import LatticeLedger.Proofs.Lattice.Conversions
import Mathlib.Logic.ExistsUnique

/-!
# The contract and the conversions define one lattice

The contract of an address compares six numbers by multiplication and addition and converts nothing.
The conversions divide with remainder and know nothing of the contract. They agree all the same: six
numbers keep the contract exactly if the conversions lead from anchor and offset, and from row and
column, to the coordinate, and exactly if they lead back. So class and coordinate leave no choice of
the other four numbers.
-/

namespace LatticeLedger

/-- The two numbers of a grid point. -/
def GridPoint.numbers (point : GridPoint) : Nat × Nat := (point.row.toNat, point.col.toNat)

namespace Coord

/-! ### Conversions of numbers -/

/-- The cell of a coordinate is found by division by the number of columns. -/
theorem numbers_point (coord : Coord) :
    coord.point.numbers = (coord.val / 256, coord.val % 256) := by
  have hrow : coord.row.val < 256 := Nat.lt_trans coord.row.isLt (by decide)
  have hcol : coord.col.val < 256 := coord.col.isLt
  exact Prod.ext (UInt8.toNat_ofNat_of_lt hrow) (UInt8.toNat_ofNat_of_lt hcol)

variable {anchor vBits row col coord : Nat}

/-- An anchor and an offset in their ranges are encoded, and nothing else is. -/
theorem map_encode_eq_ok_iff :
    (encode anchor vBits).map Fin.val = .ok coord ↔
      (anchor < 6 ∧ vBits < 2048) ∧ coord = anchor * 2048 + vBits := by
  rw [map_eq_ok_iff]
  constructor
  · rintro ⟨place, hplace, rfl⟩
    obtain ⟨hanchor, hoffset, hval⟩ := encode_eq_ok_iff.1 hplace
    exact ⟨⟨hanchor, hoffset⟩, hval⟩
  · rintro ⟨⟨hanchor, hoffset⟩, rfl⟩
    let place : Coord := ⟨anchor * 2048 + vBits, ofAnchor_lt hanchor hoffset⟩
    have hplace : encode anchor vBits = .ok place := encode_eq_ok_iff.2 ⟨hanchor, hoffset, rfl⟩
    exact ⟨place, hplace, rfl⟩

/-- A row and a column in their ranges are flattened, and nothing else is. -/
theorem map_flatten_eq_ok_iff :
    (flatten row col).map Fin.val = .ok coord ↔
      (row < 48 ∧ col < 256) ∧ coord = row * 256 + col := by
  simp only [map_eq_ok_iff, flatten, bind_eq_ok_iff, checkBelow_eq_ok_iff]
  constructor
  · rintro ⟨place, ⟨r, rfl, k, rfl, h⟩, rfl⟩
    exact ⟨⟨r.isLt, k.isLt⟩, congrArg Fin.val (Except.ok.inj h).symm⟩
  · rintro ⟨⟨hrow, hcol⟩, rfl⟩
    exact ⟨ofCell ⟨row, hrow⟩ ⟨col, hcol⟩, ⟨⟨row, hrow⟩, rfl, ⟨col, hcol⟩, rfl, rfl⟩, rfl⟩

/-- A coordinate in its range is decoded by division by the size of an orbit. -/
theorem map_decode_eq_ok_iff :
    (decode coord).map (Prod.map Fin.val Fin.val) = .ok (anchor, vBits) ↔
      coord < 12288 ∧ anchor = coord / 2048 ∧ vBits = coord % 2048 := by
  simp only [map_eq_ok_iff, decode, bind_eq_ok_iff, checkBelow_eq_ok_iff]
  constructor
  · rintro ⟨_, ⟨place, rfl, h⟩, hparts⟩
    obtain rfl := Except.ok.inj h
    obtain ⟨rfl, rfl⟩ := Prod.mk.inj hparts
    exact ⟨place.isLt, rfl, rfl⟩
  · rintro ⟨hcoord, rfl, rfl⟩
    exact ⟨_, ⟨⟨coord, hcoord⟩, rfl, rfl⟩, rfl⟩

/-- A coordinate in its range is folded by division by the number of columns. -/
theorem map_fold_eq_ok_iff :
    (fold coord).map GridPoint.numbers = .ok (row, col) ↔
      coord < 12288 ∧ row = coord / 256 ∧ col = coord % 256 := by
  simp only [map_eq_ok_iff, fold, bind_eq_ok_iff, checkBelow_eq_ok_iff]
  constructor
  · rintro ⟨_, ⟨place, rfl, h⟩, hnumbers⟩
    obtain rfl := Except.ok.inj h
    rw [numbers_point] at hnumbers
    obtain ⟨rfl, rfl⟩ := Prod.mk.inj hnumbers
    exact ⟨place.isLt, rfl, rfl⟩
  · rintro ⟨hcoord, rfl, rfl⟩
    exact ⟨_, ⟨⟨coord, hcoord⟩, rfl, rfl⟩, numbers_point ⟨coord, hcoord⟩⟩

/-- Decoding is the inverse of encoding, also in what it refuses. -/
theorem encode_iff_decode :
    (encode anchor vBits).map Fin.val = .ok coord ↔
      (decode coord).map (Prod.map Fin.val Fin.val) = .ok (anchor, vBits) := by
  rw [map_encode_eq_ok_iff, map_decode_eq_ok_iff]
  omega

/-- Folding is the inverse of flattening, also in what it refuses. -/
theorem flatten_iff_fold :
    (flatten row col).map Fin.val = .ok coord ↔
      (fold coord).map GridPoint.numbers = .ok (row, col) := by
  rw [map_flatten_eq_ok_iff, map_fold_eq_ok_iff]
  omega

end Coord

namespace Address

variable {classId : UInt8} {coord : UInt16} {anchor : UInt8} {vBits : UInt16} {row col : UInt8}

/-- The contract is kept exactly if the address can be located and both spellings of its place are
converted to its coordinate. -/
theorem ofParts_iff_encode {address : Address} :
    ofParts classId coord anchor vBits row col = .ok address ↔
      locate classId.toNat coord.toNat = .ok address ∧
        (Coord.encode anchor.toNat vBits.toNat).map Fin.val = .ok coord.toNat ∧
        (Coord.flatten row.toNat col.toNat).map Fin.val = .ok coord.toNat := by
  have hcol : col.toNat < 256 := col.toNat_lt
  rw [ofParts_eq_ok_iff, locate_eq_ok_iff, Coord.map_encode_eq_ok_iff, Coord.map_flatten_eq_ok_iff]
  constructor
  · rintro ⟨hplace, ⟨hanchor, hoffset, hrow⟩, hencoded, hflattened⟩
    exact ⟨hplace, ⟨⟨hanchor, hoffset⟩, hencoded⟩, ⟨hrow, hcol⟩, hflattened⟩
  · rintro ⟨hplace, ⟨⟨hanchor, hoffset⟩, hencoded⟩, ⟨hrow, -⟩, hflattened⟩
    exact ⟨hplace, ⟨hanchor, hoffset, hrow⟩, hencoded, hflattened⟩

/-- Six numbers keep the contract exactly if the address can be located and its coordinate is
converted to both other spellings of its place. -/
theorem ofParts_iff_decode {address : Address} :
    ofParts classId coord anchor vBits row col = .ok address ↔
      locate classId.toNat coord.toNat = .ok address ∧
        (Coord.decode coord.toNat).map (Prod.map Fin.val Fin.val) =
          .ok (anchor.toNat, vBits.toNat) ∧
        (Coord.fold coord.toNat).map GridPoint.numbers = .ok (row.toNat, col.toNat) := by
  rw [ofParts_iff_encode, Coord.encode_iff_decode, Coord.flatten_iff_fold]

/-- The numbers that stand beside class and coordinate in an address that is written out. -/
structure Spelling where
  anchor : UInt8
  vBits : UInt16
  row : UInt8
  col : UInt8

/-- Whether class and coordinate keep the contract together with a spelling. -/
def Accepts (classId : UInt8) (coord : UInt16) (spelling : Spelling) : Prop :=
  ∃ address, ofParts classId coord spelling.anchor spelling.vBits spelling.row spelling.col =
    .ok address

/-- The conversions of a coordinate leave one spelling. -/
theorem Accepts.unique {first second : Spelling} (hfirst : Accepts classId coord first)
    (hsecond : Accepts classId coord second) : first = second := by
  obtain ⟨_, hfirst⟩ := hfirst
  obtain ⟨_, hsecond⟩ := hsecond
  obtain ⟨-, hdecode, hfold⟩ := ofParts_iff_decode.1 hfirst
  obtain ⟨-, hdecode', hfold'⟩ := ofParts_iff_decode.1 hsecond
  obtain ⟨hanchor, hoffset⟩ := Prod.mk.inj (Except.ok.inj (hdecode.symm.trans hdecode'))
  obtain ⟨hrow, hcol⟩ := Prod.mk.inj (Except.ok.inj (hfold.symm.trans hfold'))
  obtain ⟨anchor, vBits, row, col⟩ := first
  obtain rfl : anchor = second.anchor := UInt8.toNat_inj.1 hanchor
  obtain rfl : vBits = second.vBits := UInt16.toNat_inj.1 hoffset
  obtain rfl : row = second.row := UInt8.toNat_inj.1 hrow
  obtain rfl : col = second.col := UInt8.toNat_inj.1 hcol
  rfl

/-- Class and coordinate of an address keep the contract with the other four of its numbers. -/
theorem exists_accepts (hclass : classId.toNat < 96) (hcoord : coord.toNat < 12288) :
    ∃ spelling, Accepts classId coord spelling := by
  let address : Address := ⟨⟨classId.toNat, hclass⟩, ⟨coord.toNat, hcoord⟩⟩
  have h := ofParts_val address
  rw [UInt8.ofNat_toNat, UInt16.ofNat_toNat] at h
  exact ⟨⟨_, _, _, _⟩, address, h⟩

/-- The contract of an address and the conversions between the spellings of a place define the same
lattice. Six numbers make an address exactly if their class and coordinate can be located and the
conversions lead from both pairs to the coordinate, and exactly if they lead from the coordinate to
both pairs. Whatever numbers are converted, one direction leads back where the other came from. So
with a class and a coordinate in their ranges exactly one choice of the other four numbers makes an
address, and with others none does. -/
theorem ofParts_agrees_with_conversions :
    (∀ (classId : UInt8) (coord : UInt16) (anchor : UInt8) (vBits : UInt16) (row col : UInt8)
        (address : Address),
      (ofParts classId coord anchor vBits row col = .ok address ↔
        locate classId.toNat coord.toNat = .ok address ∧
          (Coord.encode anchor.toNat vBits.toNat).map Fin.val = .ok coord.toNat ∧
          (Coord.flatten row.toNat col.toNat).map Fin.val = .ok coord.toNat) ∧
      (ofParts classId coord anchor vBits row col = .ok address ↔
        locate classId.toNat coord.toNat = .ok address ∧
          (Coord.decode coord.toNat).map (Prod.map Fin.val Fin.val) =
            .ok (anchor.toNat, vBits.toNat) ∧
          (Coord.fold coord.toNat).map GridPoint.numbers = .ok (row.toNat, col.toNat))) ∧
    (∀ anchor vBits coord, (Coord.encode anchor vBits).map Fin.val = .ok coord ↔
      (Coord.decode coord).map (Prod.map Fin.val Fin.val) = .ok (anchor, vBits)) ∧
    (∀ row col coord, (Coord.flatten row col).map Fin.val = .ok coord ↔
      (Coord.fold coord).map GridPoint.numbers = .ok (row, col)) ∧
    ∀ classId coord, (∃! spelling, Accepts classId coord spelling) ↔
      classId.toNat < 96 ∧ coord.toNat < 12288 := by
  refine ⟨?_, ?_, ?_, ?_⟩
  · intro classId coord anchor vBits row col address
    exact ⟨ofParts_iff_encode, ofParts_iff_decode⟩
  · intro anchor vBits coord
    exact Coord.encode_iff_decode
  · intro row col coord
    exact Coord.flatten_iff_fold
  · intro classId coord
    constructor
    · rintro ⟨spelling, ⟨address, h⟩, -⟩
      obtain ⟨hclass, hcoord⟩ := locate_eq_ok_iff.1 (ofParts_iff_encode.1 h).1
      exact ⟨hclass ▸ address.classId.isLt, hcoord ▸ address.coord.isLt⟩
    · rintro ⟨hclass, hcoord⟩
      obtain ⟨spelling, hspelling⟩ := exists_accepts hclass hcoord
      exact ⟨spelling, hspelling, fun _ hother => hother.unique hspelling⟩

end Address

end LatticeLedger
