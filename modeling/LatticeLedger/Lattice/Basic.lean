/-!
# The boundary lattice

Every class carries 12,288 coordinates. A coordinate has two further spellings:
an anchor with an offset into that anchor's orbit, and a cell of a 48 x 256 grid.
Both are mixed-radix splits of the same number, so each determines the other two.
The class is an independent dimension, untouched by either relation.
-/

namespace LatticeLedger

/-- The number of classes. -/
abbrev classCount : Nat := 96

/-- The number of anchors of one class. -/
abbrev anchorCount : Nat := 6

/-- The number of independent bit flips that generate an orbit. -/
abbrev orbitRank : Nat := 11

/-- The number of offsets in the orbit of one anchor. -/
abbrev orbitSize : Nat := 2048

/-- The number of coordinates of one class. -/
abbrev coordCount : Nat := anchorCount * orbitSize

/-- The number of rows of the grid. -/
abbrev rowCount : Nat := 48

/-- The number of columns of the grid. -/
abbrev colCount : Nat := 256

/-- A class of the lattice. -/
abbrev ClassId := Fin classCount

/-- An anchor of a class. -/
abbrev Anchor := Fin anchorCount

/-- An offset into the orbit of an anchor; its bits name the generators to apply. -/
abbrev Offset := Fin orbitSize

/-- A coordinate of a class. -/
abbrev Coord := Fin coordCount

/-- A row of the grid. -/
abbrev Row := Fin rowCount

/-- A column of the grid. -/
abbrev Col := Fin colCount

/-- The six numbers that describe an address, as errors and files name them. -/
inductive AddressField
  | classId
  | coord
  | anchor
  | vBits
  | row
  | col
  deriving DecidableEq, Repr

namespace AddressField

/-- The written name of a field. -/
def name : AddressField → String
  | classId => "class_id"
  | coord => "coord_idx"
  | anchor => "anchor"
  | vBits => "v_bits"
  | row => "row"
  | col => "col"

/-- Every field, in the order in which an address is written. -/
def all : List AddressField := [classId, coord, anchor, vBits, row, col]

/-- The field of a written name. -/
def ofName? (text : String) : Option AddressField := all.find? fun field => field.name == text

/-- Every field is found by its own name. -/
theorem ofName?_name (field : AddressField) : ofName? field.name = some field := by
  cases field <;> rfl

end AddressField

/-- A point of the grid as a pair of bytes. Rows of 48 and above lie outside the lattice,
but the bit flips of the symmetry group act on them all the same. -/
structure GridPoint where
  row : UInt8
  col : UInt8
  deriving DecidableEq, Repr

namespace Coord

/-- An anchor and an offset stay below the number of coordinates. -/
theorem ofAnchor_lt {anchor offset : Nat} (ha : anchor < anchorCount) (ho : offset < orbitSize) :
    anchor * orbitSize + offset < coordCount := by
  simp only [anchorCount, orbitSize, coordCount] at *
  omega

/-- A row and a column stay below the number of coordinates. -/
theorem ofCell_lt {row col : Nat} (hr : row < rowCount) (hc : col < colCount) :
    row * colCount + col < coordCount := by
  simp only [rowCount, colCount, anchorCount, orbitSize, coordCount] at *
  omega

/-- Whole orbits below a coordinate are fewer than the anchors. -/
theorem anchor_lt {coord : Nat} (h : coord < coordCount) : coord / orbitSize < anchorCount := by
  simp only [anchorCount, orbitSize, coordCount] at *
  omega

/-- Whole rows below a coordinate are fewer than the rows. -/
theorem row_lt {coord : Nat} (h : coord < coordCount) : coord / colCount < rowCount := by
  simp only [rowCount, colCount, anchorCount, orbitSize, coordCount] at *
  omega

/-- The coordinate at an offset of an anchor's orbit. -/
def ofAnchor (anchor : Anchor) (offset : Offset) : Coord :=
  ⟨anchor.val * orbitSize + offset.val, ofAnchor_lt anchor.isLt offset.isLt⟩

/-- The coordinate of a grid cell, row by row. -/
def ofCell (row : Row) (col : Col) : Coord :=
  ⟨row.val * colCount + col.val, ofCell_lt row.isLt col.isLt⟩

/-- The anchor in whose orbit a coordinate lies. -/
def anchor (coord : Coord) : Anchor := ⟨coord.val / orbitSize, anchor_lt coord.isLt⟩

/-- The offset of a coordinate in its anchor's orbit. -/
def offset (coord : Coord) : Offset := ⟨coord.val % orbitSize, Nat.mod_lt _ (by decide)⟩

/-- The grid row of a coordinate. -/
def row (coord : Coord) : Row := ⟨coord.val / colCount, row_lt coord.isLt⟩

/-- The grid column of a coordinate. -/
def col (coord : Coord) : Col := ⟨coord.val % colCount, Nat.mod_lt _ (by decide)⟩

/-- The grid point of a coordinate. -/
def point (coord : Coord) : GridPoint :=
  ⟨UInt8.ofNat coord.row.val, UInt8.ofNat coord.col.val⟩

end Coord

/-- A place of the lattice: a class and a coordinate. Anchor, offset, row and column follow
from the coordinate, so an address cannot contradict itself. -/
structure Address where
  classId : ClassId
  coord : Coord
  deriving DecidableEq, Repr

namespace Address

/-- The anchor of an address. -/
def anchor (address : Address) : Anchor := address.coord.anchor

/-- The offset of an address in its anchor's orbit. -/
def offset (address : Address) : Offset := address.coord.offset

/-- The grid row of an address. -/
def row (address : Address) : Row := address.coord.row

/-- The grid column of an address. -/
def col (address : Address) : Col := address.coord.col

end Address

end LatticeLedger
