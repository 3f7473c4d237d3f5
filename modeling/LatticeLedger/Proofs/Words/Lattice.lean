import LatticeLedger.Proofs.Guard.Numbers
import LatticeLedger.Proofs.Lattice.Agreement
import LatticeLedger.Proofs.Words.Checked
import LatticeLedger.Symmetry.Generator

/-!
# Addresses in words

The conversions between the spellings of a place take words of 32 bits and give words of 8 and 16
bits. What makes them exact is the order of their steps: a word is multiplied, added to or cut only
behind the check that it is in range.
-/

namespace LatticeLedger.Words

/-- A word that must be below a bound, as a number of the lattice is. -/
def checked (field : AddressField) (bound : Nat) (a : BitVec 32) : Run Refusal Unit :=
  below bound (.outOfRange field a.toNat bound) a

/-- The check of a word against a bound follows that of its number. -/
theorem follows_checked {field : AddressField} {bound : Nat} {a : BitVec 32} :
    Follows (fun _ n => n.val = a.toNat) (checked field bound a) (checkBelow field bound a.toNat) :=
  follows_below

/-- A byte is settled by its number. -/
theorem ofBitVec_eq_ofNat {byte : BitVec 8} {n : Nat} (h : byte.toNat = n) :
    UInt8.ofBitVec byte = UInt8.ofNat n := by
  rw [← h]
  exact UInt8.toNat_inj.1 (by simp)

/-! ### Conversions -/

/-- The word that counts blocks of a size and then single places. -/
def place {ε : Type} (size blocks rest : BitVec 32) : Run ε (BitVec 32) := do
  let start ← mul blocks size
  add start rest

/-- The coordinate of two words, of which the first counts blocks of a size. -/
def joined (blocksField restField : AddressField) (count : Nat) (size blocks rest : BitVec 32) :
    Run Refusal (BitVec 16) := do
  checked blocksField count blocks
  checked restField size.toNat rest
  let coord ← place size blocks rest
  resize 16 coord

/-- The coordinate of an anchor and an offset. -/
def encode (anchor vBits : BitVec 32) : Run Refusal (BitVec 16) :=
  joined .anchor .vBits anchorCount 2048#32 anchor vBits

/-- The coordinate of a row and a column. -/
def flatten (row col : BitVec 32) : Run Refusal (BitVec 16) :=
  joined .row .col rowCount 256#32 row col

/-- The blocks of a size below a coordinate and the rest, in a byte and a word of another width. -/
def parted (size : BitVec 32) (width : Nat) (coord : BitVec 32) :
    Run Refusal (BitVec 8 × BitVec width) := do
  checked .coord coordCount coord
  let blocks ← resize 8 (coord / size)
  let rest ← resize width (coord % size)
  return (blocks, rest)

/-- The anchor and the offset of a coordinate. -/
def decode (coord : BitVec 32) : Run Refusal (BitVec 8 × BitVec 16) := parted 2048#32 16 coord

/-- The grid point of a coordinate. -/
def fold (coord : BitVec 32) : Run Refusal GridPoint := do
  let (row, col) ← parted 256#32 8 coord
  return ⟨.ofBitVec row, .ofBitVec col⟩

/-- The grid point at which the orbit of an anchor starts. -/
def anchorBase (anchor : BitVec 32) : Run Refusal GridPoint := do
  checked .anchor anchorCount anchor
  let byte ← resize 8 anchor
  let row ← mul byte 8#8
  return ⟨.ofBitVec row, 0⟩

/-- A place that is a coordinate of the lattice is computed without loss. -/
theorem place_eq_ok {ε : Type} {size blocks rest coord : BitVec 32}
    (hcoord : coord.toNat = blocks.toNat * size.toNat + rest.toNat) :
    (place size blocks rest : Run ε _) = .ok coord := by
  have hlt := coord.isLt
  obtain ⟨start, hstart⟩ : ∃ start : BitVec 32, start.toNat = blocks.toNat * size.toNat :=
    exists_word 32 (by omega)
  refine bind_eq_ok_iff.2 ⟨start, mul_eq_ok_iff.2 hstart, add_eq_ok_iff.2 ?_⟩
  rw [hstart, hcoord]

/-- Two words in range are joined without loss, since a coordinate of the lattice fits half a
word. -/
theorem follows_joined {blocksField restField : AddressField} {count : Nat}
    (size : BitVec 32) {blocks rest : BitVec 32} (make : Fin count → Fin size.toNat → Coord)
    (hmake : ∀ b r, (make b r).val = b.val * size.toNat + r.val) :
    Follows (fun word coord => word.toNat = coord.val)
      (joined blocksField restField count size blocks rest)
      (do
        let b ← checkBelow blocksField count blocks.toNat
        let r ← checkBelow restField size.toNat rest.toNat
        return make b r) := by
  refine follows_checked.bind fun _ b hblocks => ?_
  refine follows_checked.bind fun _ r hrest => ?_
  have hcoord := hmake b r
  rw [hblocks, hrest] at hcoord
  have hlt : (make b r).val < 12288 := (make b r).isLt
  obtain ⟨word, hword⟩ := exists_word 32 (n := (make b r).val) (by omega)
  obtain ⟨half, hhalf⟩ := exists_word 16 (n := (make b r).val) (by omega)
  refine .after (place_eq_ok (hword.trans hcoord)) ?_
  rw [resize_eq_ok_iff.2 (hhalf.trans hword.symm)]
  exact .ok hhalf

/-- Encoding on words follows encoding on numbers. -/
theorem follows_encode (anchor vBits : BitVec 32) :
    Follows (fun word coord => word.toNat = coord.val) (encode anchor vBits)
      (Coord.encode anchor.toNat vBits.toNat) :=
  follows_joined 2048#32 Coord.ofAnchor fun _ _ => rfl

/-- Flattening on words follows flattening on numbers. -/
theorem follows_flatten (row col : BitVec 32) :
    Follows (fun word coord => word.toNat = coord.val) (flatten row col)
      (Coord.flatten row.toNat col.toNat) :=
  follows_joined 256#32 Coord.ofCell fun _ _ => rfl

/-- A coordinate is parted without loss if its blocks are fewer than bytes and the rest of a block
fits the width. -/
theorem follows_parted {size : BitVec 32} {width : Nat} {coord : BitVec 32}
    (hblocks : coordCount ≤ size.toNat * (1 <<< 8)) (hrest : size.toNat ≤ 1 <<< width) :
    Follows
      (fun words n => words.1.toNat = n.val / size.toNat ∧ words.2.toNat = n.val % size.toNat)
      (parted size width coord) (checkBelow .coord coordCount coord.toNat) := by
  rw [← bind_pure (checkBelow _ _ _)]
  refine follows_checked.bind fun _ (number : Coord) hcoord => ?_
  have hlt : number.val < size.toNat * (1 <<< 8) := Nat.lt_of_lt_of_le number.isLt hblocks
  have hpos : 0 < size.toNat := Nat.pos_of_mul_pos_right (Nat.zero_lt_of_lt hlt)
  obtain ⟨blocks, hblocks⟩ := exists_word 8 (Nat.div_lt_of_lt_mul hlt)
  obtain ⟨rest, hrest⟩ :=
    exists_word width (Nat.lt_of_lt_of_le (Nat.mod_lt number.val hpos) hrest)
  have hquotient : blocks.toNat = (coord / size).toNat := by
    rw [hblocks, BitVec.toNat_udiv, hcoord]
  have hremainder : rest.toNat = (coord % size).toNat := by
    rw [hrest, BitVec.toNat_umod, hcoord]
  refine .after (resize_eq_ok_iff.2 hquotient) (.after (resize_eq_ok_iff.2 hremainder) ?_)
  exact .ok ⟨hblocks, hrest⟩

/-- Decoding on words follows decoding on numbers. -/
theorem follows_decode (coord : BitVec 32) :
    Follows (fun words parts => words.1.toNat = parts.1.val ∧ words.2.toNat = parts.2.val)
      (decode coord) (Coord.decode coord.toNat) := by
  rw [← bind_pure (decode coord)]
  exact (follows_parted (by decide) (by decide)).bind fun _ _ h => .ok h

/-- Folding on words follows folding on numbers. -/
theorem follows_fold (coord : BitVec 32) :
    Follows Eq (fold coord) (Coord.fold coord.toNat) := by
  refine (follows_parted (by decide) (by decide)).bind fun words number ⟨hrow, hcol⟩ => .ok ?_
  rw [ofBitVec_eq_ofNat hrow, ofBitVec_eq_ofNat hcol]
  rfl

/-- The first coordinate of an anchor on words follows that on numbers. -/
theorem follows_anchorBase (anchor : BitVec 32) :
    Follows Eq (anchorBase anchor)
      (Symmetry.anchorBase anchor.toNat) := by
  refine follows_checked.bind fun _ number hanchor => ?_
  have hlt : number.val < 6 := number.isLt
  obtain ⟨byte, hbyte⟩ := exists_word 8 (n := number.val) (by omega)
  obtain ⟨row, hrow⟩ := exists_word 8 (n := number.val * 8) (by omega)
  refine .after (resize_eq_ok_iff.2 (hbyte.trans hanchor)) ?_
  refine .after (mul_eq_ok_iff.2 (hrow.trans ?_)) ?_
  · rw [hbyte]
    rfl
  refine .ok ?_
  rw [ofBitVec_eq_ofNat hrow]
  rfl

/-! ### Addresses -/

/-- The words in which an address is stored. -/
structure Parts where
  classId : BitVec 8
  coord : BitVec 16
  anchor : BitVec 8
  vBits : BitVec 16
  row : BitVec 8
  col : BitVec 8

namespace Parts

/-- The number of a part. -/
def number (parts : Parts) : AddressField → Nat
  | .classId => parts.classId.toNat
  | .coord => parts.coord.toNat
  | .anchor => parts.anchor.toNat
  | .vBits => parts.vBits.toNat
  | .row => parts.row.toNat
  | .col => parts.col.toNat

/-- Whether parts are those of an address. -/
def Denote (parts : Parts) (address : Address) : Prop :=
  ∀ field, parts.number field = address.number field

/-- The address that parts describe, or how they break its contract. -/
def address (parts : Parts) : Except Violation Address :=
  Address.ofParts (.ofBitVec parts.classId) (.ofBitVec parts.coord) (.ofBitVec parts.anchor)
    (.ofBitVec parts.vBits) (.ofBitVec parts.row) (.ofBitVec parts.col)

end Parts

/-- The coordinate that a step context names, as it is given or as it follows from the others. -/
def named (classId : BitVec 32) : Coordinates → Run Refusal (BitVec 32)
  | .linear coord => do
    let _ ← (Address.locate classId.toNat coord.toNat).mapError Stop.refused
    return coord.toBitVec
  | .anchorOffset anchor vBits => do
    let encoded ← encode anchor.toBitVec vBits.toBitVec
    let coord ← resize 32 encoded
    let _ ← (Address.locate classId.toNat coord.toNat).mapError Stop.refused
    return coord
  | .both coord anchor vBits => do
    let _ ← (Address.locate classId.toNat coord.toNat).mapError Stop.refused
    let encoded ← encode anchor.toBitVec vBits.toBitVec
    let encoded ← resize 32 encoded
    require (encoded = coord.toBitVec) (.refused (.disagreement coord.toNat encoded.toNat))
    return coord.toBitVec

/-- The parts of the address of a class and the given coordinates. -/
def guardAddress (classId : BitVec 32) (coordinates : Coordinates) : Run Refusal Parts := do
  let coord ← named classId coordinates
  let (anchor, vBits) ← decode coord
  let point ← fold coord
  let classId ← resize 8 classId
  let coord ← resize 16 coord
  return ⟨classId, coord, anchor, vBits, point.row.toBitVec, point.col.toBitVec⟩

/-- A part that must be below a bound. -/
def within {w : Nat} (field : AddressField) (bound : Nat) (a : BitVec w) : Run Violation Unit :=
  below bound (.outside ("lattice_address." ++ field.name) 0 (bound - 1) a.toNat) a

/-- One of the two relations between a coordinate and a pair of other parts. -/
def related {u v : Nat} (size coord : BitVec 32) (blocks : BitVec u) (rest : BitVec v)
    (flaw : Flaw) : Run Violation Unit := do
  let blocks ← resize 32 blocks
  let rest ← resize 32 rest
  let expected ← place size blocks rest
  require (coord = expected) (.refused (.flawed "lattice_address.coord_idx" flaw))

/-- The contract of an address on its parts. -/
def contract (parts : Parts) : Run Violation Unit := do
  within .classId classCount parts.classId
  within .coord coordCount parts.coord
  within .anchor anchorCount parts.anchor
  within .vBits orbitSize parts.vBits
  within .row rowCount parts.row
  let coord ← resize 32 parts.coord
  related 2048#32 coord parts.anchor parts.vBits .offAnchor
  related 256#32 coord parts.row parts.col .offCell

/-- Locating an address makes no computation on words, so there is nothing to overflow. -/
theorem follows_locate (classId coord : Nat) :
    Follows (fun _ address => address.classId.val = classId ∧ address.coord.val = coord)
      ((Address.locate classId coord).mapError Stop.refused) (Address.locate classId coord) := by
  cases h : Address.locate classId coord with
  | ok address => exact .ok (Address.locate_eq_ok_iff.1 h)
  | error => exact .refused

/-- The coordinate that is named is that of the address. -/
theorem follows_named (classId : UInt32) (coordinates : Coordinates) :
    Follows
      (fun coord address => address.classId.val = classId.toNat ∧ address.coord.val = coord.toNat)
      (named classId.toBitVec coordinates) (LatticeLedger.guardAddress classId coordinates) := by
  cases coordinates with
  | linear coord => exact (follows_locate _ _).andReturn fun _ _ h => h
  | anchorOffset anchor vBits =>
    refine (follows_encode anchor.toBitVec vBits.toBitVec).bind fun half coord hcoord => ?_
    obtain ⟨word, hresize, hword⟩ := exists_resize 32 (by decide) half
    refine .after hresize ?_
    rw [← hcoord, ← hword]
    exact (follows_locate _ _).andReturn fun _ _ h => h
  | both coord anchor vBits =>
    refine (follows_locate _ _).bind fun _ address haddress => ?_
    refine (follows_encode anchor.toBitVec vBits.toBitVec).bind fun half encoded hencoded => ?_
    obtain ⟨word, hresize, hword⟩ := exists_resize 32 (by decide) half
    refine .after hresize ?_
    rw [← hencoded, ← hword]
    refine (follows_require ?_).bind fun _ _ _ => .ok haddress
    exact BitVec.toNat_inj.symm

/-- The guard on words follows the guard on numbers. -/
theorem follows_guardAddress (classId : UInt32) (coordinates : Coordinates) :
    Follows Parts.Denote (guardAddress classId.toBitVec coordinates)
      (LatticeLedger.guardAddress classId coordinates) := by
  rw [← bind_pure (LatticeLedger.guardAddress classId coordinates)]
  refine (follows_named classId coordinates).bind fun coord address ⟨hclass, hcoord⟩ => ?_
  obtain ⟨parts, hparts, hanchor, hoffset⟩ : ∃ parts, decode coord = .ok parts ∧
      parts.1.toNat = address.anchor.val ∧ parts.2.toNat = address.offset.val := by
    have h := follows_decode coord
    rw [← hcoord, Coord.decode_val] at h
    exact h.exists_ok
  obtain ⟨point, hpoint, rfl⟩ : ∃ point, fold coord = .ok point ∧ point = address.coord.point := by
    have h := follows_fold coord
    rw [← hcoord, Coord.fold_val] at h
    exact h.exists_ok
  -- Class and coordinate are cut only now that the numbers have been located.
  have hclassLt : classId.toNat < 96 := hclass ▸ address.classId.isLt
  have hcoordLt : coord.toNat < 12288 := hcoord ▸ address.coord.isLt
  obtain ⟨byte, hbyte⟩ := exists_word 8 (n := classId.toNat) (by omega)
  obtain ⟨half, hhalf⟩ := exists_word 16 (n := coord.toNat) (by omega)
  refine .after hparts (.after hpoint ?_)
  refine .after (resize_eq_ok_iff.2 hbyte) (.after (resize_eq_ok_iff.2 hhalf) ?_)
  refine .ok fun field => ?_
  obtain ⟨hrow, hcol⟩ := Prod.mk.inj address.coord.numbers_point
  cases field with
  | classId => exact hbyte.trans hclass.symm
  | coord => exact hhalf.trans hcoord.symm
  | anchor => exact hanchor
  | vBits => exact hoffset
  | row => exact hrow
  | col => exact hcol

/-- The contract of a field on words follows that on numbers. -/
theorem follows_within {w bound : Nat} {field : AddressField} {a : BitVec w} :
    Follows (fun _ n => n.val = a.toNat) (within field bound a)
      (if h : a.toNat < bound then .ok (⟨a.toNat, h⟩ : Fin bound)
        else .error (.outside ("lattice_address." ++ field.name) 0 (bound - 1) a.toNat)) :=
  follows_below

/-- A relation is checked without overflow if the coordinate that it asks for is a word. -/
theorem follows_related {u v : Nat} {size coord : BitVec 32} {blocks : BitVec u} {rest : BitVec v}
    {flaw : Flaw} (hu : u ≤ 32) (hv : v ≤ 32)
    (hsum : blocks.toNat * size.toNat + rest.toNat < 1 <<< 32) :
    Follows (fun _ _ => coord.toNat = blocks.toNat * size.toNat + rest.toNat)
      (related size coord blocks rest flaw)
      (require (coord.toNat = blocks.toNat * size.toNat + rest.toNat)
        (.flawed "lattice_address.coord_idx" flaw)) := by
  obtain ⟨wide, hresize, hwide⟩ := exists_resize 32 hu blocks
  obtain ⟨wideRest, hresizeRest, hwideRest⟩ := exists_resize 32 hv rest
  obtain ⟨expected, hexpected⟩ := exists_word 32 hsum
  have hplace : expected.toNat = wide.toNat * size.toNat + wideRest.toNat := by
    rw [hexpected, hwide, hwideRest]
  refine .after hresize (.after hresizeRest (.after (place_eq_ok hplace) ?_))
  have hiff : coord = expected ↔ coord.toNat = blocks.toNat * size.toNat + rest.toNat := by
    rw [← BitVec.toNat_inj, hexpected]
  exact (follows_require hiff).mono fun _ _ => hiff.1

/-- The contract is checked without overflow, whatever the parts are. -/
theorem follows_contract (parts : Parts) :
    Follows (fun _ address => parts.Denote address) (contract parts) parts.address := by
  refine follows_within.bind fun _ classId hclass => ?_
  refine follows_within.bind fun _ (coord : Coord) hcoord => ?_
  refine follows_within.bind fun _ anchor hanchor => ?_
  refine follows_within.bind fun _ offset hoffset => ?_
  refine follows_within.bind fun _ row hrow => ?_
  -- Behind the range checks both sums are below the number of coordinates.
  have hvBits : parts.vBits.toNat < 2048 := hoffset ▸ offset.isLt
  have hanchor : parts.anchor.toNat < 6 := hanchor ▸ anchor.isLt
  have hrow : parts.row.toNat < 48 := hrow ▸ row.isLt
  have hcol : parts.col.toNat < 256 := parts.col.isLt
  have hanchorSum : parts.anchor.toNat * (2048#32).toNat + parts.vBits.toNat < 1 <<< 32 := by
    change parts.anchor.toNat * 2048 + parts.vBits.toNat < _
    omega
  have hcellSum : parts.row.toNat * (256#32).toNat + parts.col.toNat < 1 <<< 32 := by
    change parts.row.toNat * 256 + parts.col.toNat < _
    omega
  obtain ⟨word, hresize, hword⟩ := exists_resize 32 (by decide) parts.coord
  have hval : word.toNat = (UInt16.ofBitVec parts.coord).toNat := hword
  refine .after hresize ?_
  rw [← hval]
  refine (follows_related (by decide) (by decide) hanchorSum).bind fun _ _ hbyAnchor => ?_
  rw [← bind_pure (related 256#32 word parts.row parts.col .offCell)]
  refine (follows_related (by decide) (by decide) hcellSum).bind fun _ _ hbyCell => ?_
  rw [hword, ← hcoord] at hbyAnchor hbyCell
  obtain ⟨heqAnchor, heqOffset⟩ := (Coord.eq_anchor_offset_iff hvBits).1 hbyAnchor
  obtain ⟨heqRow, heqCol⟩ := (Coord.eq_row_col_iff hcol).1 hbyCell
  refine .ok fun field => ?_
  cases field with
  | classId => exact hclass.symm
  | coord => exact hcoord.symm
  | anchor => exact heqAnchor
  | vBits => exact heqOffset
  | row => exact heqRow
  | col => exact heqCol

/-- The parts of an address keep its contract. -/
theorem Parts.Denote.address_eq {parts : Parts} {address : Address} (h : parts.Denote address) :
    parts.address = .ok address := by
  have hclass : parts.classId.toNat = address.classId.val := h .classId
  have hcoord : parts.coord.toNat = address.coord.val := h .coord
  have hanchor : parts.anchor.toNat = address.coord.anchor.val := h .anchor
  have hoffset : parts.vBits.toNat = address.coord.offset.val := h .vBits
  have hrow : parts.row.toNat = address.coord.row.val := h .row
  have hcol : parts.col.toNat = address.coord.col.val := h .col
  have hvBits : parts.vBits.toNat < orbitSize := hoffset ▸ address.coord.offset.isLt
  refine Address.ofParts_eq_ok_iff.2 ⟨⟨hclass.symm, hcoord.symm⟩, ⟨?_, hvBits, ?_⟩, ?_, ?_⟩
  · exact Nat.lt_of_le_of_lt (Nat.le_of_eq hanchor) address.coord.anchor.isLt
  · exact Nat.lt_of_le_of_lt (Nat.le_of_eq hrow) address.coord.row.isLt
  · exact hcoord.trans ((Coord.eq_anchor_offset_iff hvBits).2 ⟨hanchor, hoffset⟩)
  · exact hcoord.trans ((Coord.eq_row_col_iff parts.col.isLt).2 ⟨hrow, hcol⟩)

/-- A guarded address keeps the contract when it is checked again. -/
theorem contract_of_guardAddress {classId : UInt32} {coordinates : Coordinates} {parts : Parts}
    (h : guardAddress classId.toBitVec coordinates = .ok parts) : contract parts = .ok () := by
  have hguard := follows_guardAddress classId coordinates
  rw [h] at hguard
  obtain ⟨address, -, hparts⟩ := hguard.exists_number
  have hcontract := follows_contract parts
  rw [hparts.address_eq] at hcontract
  obtain ⟨_, hok, -⟩ := hcontract.exists_ok
  exact hok

end LatticeLedger.Words
