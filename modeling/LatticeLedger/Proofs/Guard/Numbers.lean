import LatticeLedger.Proofs.Guard.Decision

/-!
# The numbers of an address

An address has six numbers. Coordinates give one, two or three of them, each in a field. The guard
turns coordinates into an address exactly if the class and all numbers that they give are those of
the address.
-/

namespace LatticeLedger

/-- A number below a bound that fits a word is kept by the word. -/
theorem toNat_ofNat_val {bound : Nat} (h : bound ≤ UInt32.size) (n : Fin bound) :
    (UInt32.ofNat n.val).toNat = n.val :=
  UInt32.toNat_ofNat_of_lt (Nat.lt_of_lt_of_le n.isLt h)

/-- The number of an address in a field. -/
def Address.number (address : Address) : AddressField → Nat
  | .classId => address.classId.val
  | .coord => address.coord.val
  | .anchor => address.anchor.val
  | .vBits => address.offset.val
  | .row => address.row.val
  | .col => address.col.val

namespace Coordinates

/-- The number that coordinates give for a field. -/
def number? : Coordinates → AddressField → Option UInt32
  | linear coord, .coord => some coord
  | anchorOffset anchor _, .anchor => some anchor
  | anchorOffset _ vBits, .vBits => some vBits
  | both coord _ _, .coord => some coord
  | both _ anchor _, .anchor => some anchor
  | both _ _ vBits, .vBits => some vBits
  | _, _ => none

/-- Parts amount to the coordinates that give just these parts. -/
theorem ofParts_eq_ok_iff {coord anchor vBits : Option UInt32} {coordinates : Coordinates} :
    ofParts coord anchor vBits = .ok coordinates ↔ coordinates.number? .coord = coord ∧
      coordinates.number? .anchor = anchor ∧ coordinates.number? .vBits = vBits := by
  constructor
  · intro h
    cases coord <;> cases anchor <;> cases vBits <;> cases h <;> exact ⟨rfl, rfl, rfl⟩
  · rintro ⟨rfl, rfl, rfl⟩
    cases coordinates <;> rfl

/-- Coordinates that are guarded give numbers of their address. -/
theorem toNat_of_guardAddress {classId : UInt32} {coordinates : Coordinates} {address : Address}
    (h : guardAddress classId coordinates = .ok address) {field : AddressField} {n : UInt32}
    (hn : coordinates.number? field = some n) : n.toNat = address.number field := by
  obtain ⟨hwithin, -, hplace⟩ := guardAddress_eq_ok_iff.1 h
  cases coordinates with
  | linear coord =>
    cases field <;> cases hn
    exact hplace.symm
  | anchorOffset anchor vBits =>
    have hpair := (Coord.eq_anchor_offset_iff hwithin.2).1 hplace
    cases field <;> cases hn
    · exact hpair.1
    · exact hpair.2
  | both coord anchor vBits =>
    obtain ⟨-, -, hoffset, hagree⟩ := hwithin
    have hpair := (Coord.eq_anchor_offset_iff hoffset).1 (hplace.trans hagree)
    cases field <;> cases hn
    · exact hplace.symm
    · exact hpair.1
    · exact hpair.2

end Coordinates

/-- Coordinates are guarded to an address if the class and all their numbers are those of the
address. -/
theorem guardAddress_of_numbers {classId : UInt32} {coordinates : Coordinates} {address : Address}
    (hclass : classId.toNat = address.number .classId)
    (h : ∀ field n, coordinates.number? field = some n → n.toNat = address.number field) :
    guardAddress classId coordinates = .ok address := by
  have hpair : address.coord.val = address.anchor.val * 2048 + address.offset.val :=
    (Coord.eq_anchor_offset_iff address.offset.isLt).2 ⟨rfl, rfl⟩
  cases coordinates with
  | linear coord =>
    have hcoord : coord.toNat = address.coord.val := h .coord coord rfl
    have hwithin : coord.toNat < 12288 := hcoord ▸ address.coord.isLt
    exact guardAddress_eq_ok_iff.2 ⟨hwithin, hclass.symm, hcoord.symm⟩
  | anchorOffset anchor vBits =>
    have hanchor : anchor.toNat = address.anchor.val := h .anchor anchor rfl
    have hoffset : vBits.toNat = address.offset.val := h .vBits vBits rfl
    have hwithin : anchor.toNat < 6 ∧ vBits.toNat < 2048 :=
      ⟨hanchor ▸ address.anchor.isLt, hoffset ▸ address.offset.isLt⟩
    rw [← hanchor, ← hoffset] at hpair
    exact guardAddress_eq_ok_iff.2 ⟨hwithin, hclass.symm, hpair⟩
  | both coord anchor vBits =>
    have hcoord : coord.toNat = address.coord.val := h .coord coord rfl
    have hanchor : anchor.toNat = address.anchor.val := h .anchor anchor rfl
    have hoffset : vBits.toNat = address.offset.val := h .vBits vBits rfl
    have hcoordlt : coord.toNat < 12288 := hcoord ▸ address.coord.isLt
    have hwithin : anchor.toNat < 6 ∧ vBits.toNat < 2048 :=
      ⟨hanchor ▸ address.anchor.isLt, hoffset ▸ address.offset.isLt⟩
    rw [← hcoord, ← hanchor, ← hoffset] at hpair
    exact guardAddress_eq_ok_iff.2
      ⟨⟨hcoordlt, hwithin.1, hwithin.2, hpair⟩, hclass.symm, hcoord.symm⟩

end LatticeLedger
