import LatticeLedger.Proofs.Lattice.Conversions
import LatticeLedger.Proofs.Symmetry.Orbit

/-!
# The action is free, and its orbits are bands of eight rows

Eleven flips generate a group of `2048` elements, one for each choice of bits. It acts on all pairs
of bytes, also on those that lie outside the lattice. Since an element only flips the bits that its
number names, elements are composed by the exclusive or of their numbers, and no element but the
first leaves a point where it is. Since it flips all bits of a column and the low three bits of a
row, a point is led exactly to the points of its band of eight rows. The bands below row 48 are the
orbits of the anchors.
-/

namespace LatticeLedger

namespace GridPoint

variable {point goal : GridPoint} {bits : Nat}

/-- A flip does not leave the band of eight rows. -/
theorem row_div_flip : (point.flip bits).row.toNat / 8 = point.row.toNat / 8 := by
  have hmask : (UInt8.ofNat (bits / colCount % Symmetry.anchorStride)).toNat =
      bits / colCount % 8 := by
    refine UInt8.toNat_ofNat_of_lt (Nat.lt_trans (Nat.mod_lt _ ?_) ?_) <;> decide
  have hdiv : (point.row.toNat ^^^ bits / colCount % 8) / 8 =
      point.row.toNat / 8 ^^^ bits / colCount % 8 / 8 := Nat.xor_div_two_pow (n := 3)
  have hzero : bits / colCount % 8 / 8 = 0 := by omega
  rw [flip, UInt8.toNat_xor, hmask, hdiv, hzero, Nat.xor_zero]

/-- The number of the bits in which two points differ, if they lie in one band. -/
def offsetTo (point goal : GridPoint) : Nat :=
  (point.row ^^^ goal.row).toNat * colCount + (point.col ^^^ goal.col).toNat

/-- Rows of one band differ in their low three bits alone. -/
theorem row_xor_lt (h : point.row.toNat / 8 = goal.row.toNat / 8) :
    (point.row ^^^ goal.row).toNat < 8 := by
  have hdiv : (point.row.toNat ^^^ goal.row.toNat) / 8 =
      point.row.toNat / 8 ^^^ goal.row.toNat / 8 := Nat.xor_div_two_pow (n := 3)
  rw [h, Nat.xor_self] at hdiv
  rw [UInt8.toNat_xor]
  omega

/-- Within a band the offset from one point to another is a code of the orbit. -/
theorem offsetTo_lt (h : point.row.toNat / 8 = goal.row.toNat / 8) :
    point.offsetTo goal < orbitSize := by
  have hrow := row_xor_lt h
  have hcol := (point.col ^^^ goal.col).toNat_lt
  simp only [offsetTo, colCount, orbitSize]
  omega

/-- Flipping the bits in which a point differs from another one of its band leads there. -/
theorem flip_offsetTo (h : point.row.toNat / 8 = goal.row.toNat / 8) :
    point.flip (point.offsetTo goal) = goal := by
  have hrow := row_xor_lt h
  have hcol := (point.col ^^^ goal.col).toNat_lt
  have hhigh : point.offsetTo goal / colCount % Symmetry.anchorStride =
      (point.row ^^^ goal.row).toNat := by
    simp only [offsetTo, colCount, Symmetry.anchorStride]
    omega
  have hlow : point.offsetTo goal % colCount = (point.col ^^^ goal.col).toNat := by
    simp only [offsetTo, colCount]
    omega
  have hself (a b : UInt8) : a ^^^ (a ^^^ b) = b := by
    rw [← UInt8.xor_assoc, UInt8.xor_self, UInt8.zero_xor]
  rw [flip, hhigh, hlow, UInt8.ofNat_toNat, UInt8.ofNat_toNat, hself, hself]

end GridPoint

namespace Symmetry

/-- Whether moves on all pairs of bytes, named by numbers, are a free action of eleven flips whose
orbits are the bands of eight rows. -/
structure ActsFreely (move : GridPoint → Nat → GridPoint) : Prop where
  zero : ∀ point, move point 0 = point
  /-- Moves are composed by the exclusive or of their numbers. -/
  xor : ∀ point first second, move (move point first) second = move point (first ^^^ second)
  /-- Only the low eleven bits count. -/
  low : ∀ point bits, move point bits = move point (bits % 2048)
  /-- Different low bits lead to different points, whatever the point. -/
  free : ∀ point first second,
    move point first = move point second ↔ first % 2048 = second % 2048
  band : ∀ point bits, (move point bits).row.toNat / 8 = point.row.toNat / 8
  /-- Every point of the band is reached. -/
  transitive : ∀ start goal : GridPoint, start.row.toNat / 8 = goal.row.toNat / 8 →
    ∃ bits < 2048, move start bits = goal

/-- The action on bytes is free. -/
theorem actsFreely_act : ActsFreely act where
  zero point := by rw [act_eq_flip, GridPoint.flip_zero]
  xor point first second := by simp only [act_eq_flip, GridPoint.flip_flip]
  low point bits := by rw [act_eq_flip, act_eq_flip, GridPoint.flip_mod]
  free point first second := by rw [act_eq_flip, act_eq_flip, GridPoint.flip_eq_flip_iff]
  band point bits := by rw [act_eq_flip, GridPoint.row_div_flip]
  transitive start goal h := by
    refine ⟨start.offsetTo goal, GridPoint.offsetTo_lt h, ?_⟩
    rw [act_eq_flip, GridPoint.flip_offsetTo h]

/-- The order in which the generators of an element are applied does not matter. -/
theorem foldl_apply_of_perm {generators : List Generator} {bits : Nat}
    (h : generators.Perm (Generator.all.filter fun generator => bits.testBit generator.val))
    (point : GridPoint) :
    generators.foldl (fun moved generator => generator.apply moved) point = act point bits :=
  h.foldl_eq' (fun first _ second _ moved => second.apply_comm first moved) point

/-- The base of an anchor is led to the coordinates of the anchor's orbit. -/
theorem act_anchorBase {anchor : Nat} (h : anchor < anchorCount) (bits : Nat) :
    ∃ start coord, anchorBase anchor = .ok start ∧
      Coord.encode anchor (bits % orbitSize) = .ok coord ∧
      Coord.fold coord.val = .ok (act start bits) := by
  refine ⟨base ⟨anchor, h⟩, Coord.ofAnchor ⟨anchor, h⟩ (Fin.ofNat orbitSize bits), ?_, ?_, ?_⟩
  · exact bind_eq_ok_iff.2 ⟨⟨anchor, h⟩, checkBelow_eq_ok_iff.2 rfl, rfl⟩
  · exact Coord.encode_eq_ok_iff.2 ⟨h, Nat.mod_lt bits (by decide), rfl⟩
  · rw [Coord.fold_val, act_base]

/-- The group acts freely on all pairs of bytes, with the bands of eight rows as its orbits, so it
keeps the rows of the lattice among themselves. The generators of an element may be applied in any
order. From the base of an anchor, an element leads to the place of the coordinate whose offset is
named by the element's low eleven bits. -/
theorem act_free_on_bytes :
    ActsFreely act ∧
      (∀ point bits, point.row < 48 → (act point bits).row < 48) ∧
      (∀ (point : GridPoint) (bits : Nat) (generators : List Generator),
        generators.Perm (Generator.all.filter fun generator => bits.testBit generator.val) →
          generators.foldl (fun moved generator => generator.apply moved) point = act point bits) ∧
      ∀ anchor < 6, ∀ bits, ∃ start coord, anchorBase anchor = .ok start ∧
        Coord.encode anchor (bits % 2048) = .ok coord ∧
        Coord.fold coord.val = .ok (act start bits) := by
  refine ⟨actsFreely_act, ?_, fun point _ _ h => foldl_apply_of_perm h point,
    fun _ h bits => act_anchorBase h bits⟩
  intro point bits h
  have hband := actsFreely_act.band point bits
  have hrow : point.row.toNat < 48 := UInt8.lt_iff_toNat_lt.1 h
  refine UInt8.lt_iff_toNat_lt.2 (show (act point bits).row.toNat < 48 from ?_)
  omega

/-- A point of the last band, far outside the lattice, is led to another one of its band and back by
one element, and three flips may be applied to it in another order. A point of the last row of the
lattice stays in it. The highest word names the last point of the last anchor's orbit. -/
theorem act_free_on_bytes_of_last_band :
    let point : GridPoint := ⟨250, 17⟩
    let goal : GridPoint := ⟨255, 1⟩
    (∃ bits < 2048, act point bits = goal ∧ act goal bits = point) ∧
      (act ⟨47, 255⟩ 65535).row < 48 ∧
      ([10, 0, 4] : List Generator).foldl (fun moved generator => generator.apply moved) point =
        act point 1041 ∧
      ∃ start coord, anchorBase 5 = .ok start ∧ Coord.encode 5 2047 = .ok coord ∧
        Coord.fold coord.val = .ok (act start 65535) ∧ act start 65535 = ⟨47, 255⟩ := by
  intro point goal
  obtain ⟨hacts, hrows, horder, hanchors⟩ := act_free_on_bytes
  obtain ⟨bits, hlt, hthere⟩ := hacts.transitive point goal (by decide)
  have hback : act goal bits = point := by
    rw [← hthere, hacts.xor, Nat.xor_self, hacts.zero]
  obtain ⟨start, coord, hbase, hencode, hfold⟩ := hanchors 5 (by decide) 65535
  obtain rfl : base 5 = start := Except.ok.inj hbase
  exact ⟨⟨bits, hlt, hthere, hback⟩, hrows _ 65535 (by decide), horder point 1041 _ (by decide),
    base 5, coord, hbase, hencode, hfold, by decide⟩

end Symmetry

end LatticeLedger
