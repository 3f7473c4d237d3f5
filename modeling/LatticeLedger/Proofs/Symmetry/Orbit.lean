import LatticeLedger.Proofs.Symmetry.Action
import LatticeLedger.Proofs.Symmetry.GrayCode
import LatticeLedger.Symmetry.Check

/-!
# A walk visits an orbit once, and every check of it passes

A walk moves by one flip per step. It stands, after every step, where the code of the last index
leads, so it visits the whole orbit in the order of the codes and no point twice. This holds from
every start, and it is all that the checks of the symmetry ask for: they are tried out at single
points, but pass at all of them.
-/

namespace LatticeLedger.Symmetry

/-! ### Walks -/

/-- The step that a walk takes at an index of its orbit. -/
def stepAt (start : GridPoint) (index : Nat) : WalkStep :=
  ⟨index, grayCode index, act start (grayCode index)⟩

/-- Different indices of the orbit lead to different points. -/
theorem act_grayCode_inj {start : GridPoint} {first second : Nat} (hfirst : first < orbitSize)
    (hsecond : second < orbitSize) (h : act start (grayCode first) = act start (grayCode second)) :
    first = second := by
  rw [act_eq_flip, act_eq_flip, GridPoint.flip_eq_flip_iff, Nat.mod_eq_of_lt (grayCode_lt first),
    Nat.mod_eq_of_lt (grayCode_lt second)] at h
  exact grayCode_inj hfirst hsecond h

/-- The point of a step is one flip away from that of the step before. -/
theorem act_grayCode_succ {start : GridPoint} {index : Nat} {generator : Generator}
    (h : index + 1 < orbitSize) (hlowest : Generator.lowest? (index + 1) = some generator) :
    act start (grayCode (index + 1)) = generator.apply (act start (grayCode index)) := by
  rw [act_eq_flip, act_eq_flip, Generator.apply_eq_flip, GridPoint.flip_flip,
    grayCode_succ h hlowest]

namespace Walk

/-- The walk that has left the indices below `index` behind. -/
def before (start : GridPoint) (index : Nat) : Walk := ⟨act start (grayCode (index - 1)), index⟩

variable {start : GridPoint} {index : Nat}

/-- A walk that has left nothing behind stands at its start. -/
theorem before_zero (start : GridPoint) : before start 0 = ⟨start, 0⟩ := by
  have hcode : grayCode (0 - 1) = 0 := by decide
  rw [before, hcode, act_eq_flip, GridPoint.flip_zero]

/-- The flip that a walk finds leads to where the next code leads. -/
theorem next?_before (h : index < orbitSize) :
    (before start index).next? = some (stepAt start index, before start (index + 1)) := by
  have hindex : (before start index).index < orbitSize := h
  rw [next?, if_pos hindex]
  cases index with
  | zero =>
    have hlowest : Generator.lowest? 0 = none := by decide
    simp only [before, hlowest, stepAt]
  | succ index =>
    obtain ⟨generator, hlowest⟩ := exists_lowest? (Nat.succ_pos index) h
    simp only [before, Nat.add_sub_cancel, hlowest, ← act_grayCode_succ h hlowest, stepAt]

/-- The further steps of a walk are those of the further indices. -/
theorem take_before (count : Nat) (h : index + count ≤ orbitSize) :
    (before start index).take count = (List.range' index count).map (stepAt start) := by
  induction count generalizing index with
  | zero => rfl
  | succ count ih =>
    have hindex : index < orbitSize := by omega
    rw [take, next?_before hindex, List.range'_succ, List.map_cons, ← ih (by omega)]

/-- A whole walk takes one step for each index of the orbit. -/
theorem steps_eq (start : GridPoint) :
    (⟨start, 0⟩ : Walk).steps = (List.range orbitSize).map (stepAt start) := by
  rw [steps, ← before_zero, take_before orbitSize (Nat.le_of_eq (Nat.zero_add orbitSize)),
    List.range_eq_range']

/-- No two steps of a walk reach the same point. -/
theorem nodup_points (start : GridPoint) :
    ((⟨start, 0⟩ : Walk).steps.map (·.point)).Nodup := by
  rw [steps_eq, List.map_map]
  refine List.pairwise_map.2 (List.nodup_range.imp_of_mem ?_)
  intro first second hfirst hsecond hne heq
  exact hne (act_grayCode_inj (List.mem_range.1 hfirst) (List.mem_range.1 hsecond) heq)

end Walk

/-! ### Folding -/

/-- The grid point of a coordinate, said with the anchor and the offset: an anchor's orbit takes
eight rows, and an offset runs through them row by row. -/
theorem point_ofAnchor (anchor : Anchor) (offset : Offset) :
    (Coord.ofAnchor anchor offset).point =
      ⟨UInt8.ofNat (anchor.val * anchorStride + offset.val / colCount),
        UInt8.ofNat (offset.val % colCount)⟩ := by
  have hrow : (Coord.ofAnchor anchor offset).row.val =
      anchor.val * anchorStride + offset.val / colCount := by
    simp only [Coord.ofAnchor, Coord.row, anchorStride, orbitSize, colCount]
    omega
  have hcol : (Coord.ofAnchor anchor offset).col.val = offset.val % colCount := by
    simp only [Coord.ofAnchor, Coord.col, orbitSize, colCount]
    omega
  rw [Coord.point, hrow, hcol]

/-- Acting on the base of an anchor leads to the coordinate whose offset names the element. -/
theorem act_base (anchor : Anchor) (bits : Nat) :
    act (base anchor) bits = (Coord.ofAnchor anchor (Fin.ofNat orbitSize bits)).point := by
  have hlow : bits % orbitSize % colCount = bits % colCount := by
    simp only [orbitSize, colCount]
    omega
  have hhigh : bits % orbitSize / colCount = bits / colCount % anchorStride := by
    simp only [orbitSize, colCount, anchorStride]
    omega
  -- The rows below the base of an anchor and those of its orbit share no bit.
  have hrow : anchor.val * anchorStride ^^^ bits / colCount % anchorStride =
      anchor.val * anchorStride + bits / colCount % anchorStride := by
    have hdiv : (anchor.val * 8 ^^^ bits / colCount % 8) / 8 =
        anchor.val * 8 / 8 ^^^ bits / colCount % 8 / 8 := Nat.xor_div_two_pow (n := 3)
    have hmod : (anchor.val * 8 ^^^ bits / colCount % 8) % 8 =
        anchor.val * 8 % 8 ^^^ bits / colCount % 8 % 8 := Nat.xor_mod_two_pow (n := 3)
    have hzero : bits / colCount % 8 / 8 = 0 := by omega
    rw [hzero, Nat.xor_zero] at hdiv
    rw [Nat.mul_mod_left, Nat.zero_xor] at hmod
    simp only [anchorStride]
    omega
  rw [act_eq_flip, point_ofAnchor, GridPoint.flip, base, ← UInt8.ofNat_xor, hrow,
    UInt8.zero_xor, Fin.val_ofNat, hlow, hhigh]

/-! ### Checks -/

/-- A list without repetitions has nothing to erase. -/
theorem eraseDups_of_nodup {α : Type} [BEq α] [LawfulBEq α] {list : List α} (h : list.Nodup) :
    list.eraseDups = list := by
  induction list with
  | nil => rfl
  | cons first rest ih =>
    obtain ⟨hnew, hrest⟩ := List.nodup_cons.1 h
    have hfilter : (rest.filter fun other => !other == first) = rest := by
      refine List.filter_eq_self.2 fun other hmem => ?_
      have hne : other ≠ first := fun heq => hnew (heq ▸ hmem)
      simp [hne]
    rw [List.eraseDups_cons, hfilter, ih hrest]

/-- The generators pass at every anchor. -/
theorem checkGenerators_eq_ok (anchor : Anchor) : checkGenerators anchor = .ok () := by
  refine forM_eq_ok_iff.2 fun first _ => ?_
  refine bind_eq_ok_iff.2 ⟨(), require_eq_ok_iff.2 (first.apply_apply _), ?_⟩
  refine forM_eq_ok_iff.2 fun second _ => ?_
  exact require_eq_ok_iff.2 (first.apply_comm second _)

/-- The orbit of every anchor has as many points as the group has elements. -/
theorem checkOrbit_eq_ok (anchor : Anchor) : checkOrbit anchor = .ok () := by
  refine require_eq_ok_iff.2 ?_
  rw [walkFrom, eraseDups_of_nodup (Walk.nodup_points _), List.length_map, Walk.steps_eq,
    List.length_map, List.length_range]
  rfl

/-- The laws hold for every choice of at least one anchor. -/
theorem checkLaws_eq_ok {anchors : List Anchor} (h : anchors ≠ []) :
    checkLaws anchors = .ok () := by
  obtain ⟨first, rest, rfl⟩ := List.exists_cons_of_ne_nil h
  refine bind_eq_ok_iff.2 ⟨(), forM_eq_ok_iff.2 fun anchor _ => checkGenerators_eq_ok anchor, ?_⟩
  exact bind_eq_ok_iff.2 ⟨first, rfl, checkOrbit_eq_ok first⟩

/-- Code, direct action and fold agree with every step of the walk from an anchor. -/
theorem checkStep_eq_ok (anchor : Anchor) {index : Nat} (h : index < orbitSize) :
    checkStep anchor (stepAt (base anchor) index) = .ok (act (base anchor) (grayCode index)) := by
  have hfold : (Coord.ofAnchor anchor (Fin.ofNat orbitSize (grayCode index))).point =
      act (base anchor) (grayCode index) := (act_base anchor _).symm
  refine bind_eq_ok_iff.2 ⟨(), require_eq_ok_iff.2 (grayIndex_grayCode h), ?_⟩
  refine bind_eq_ok_iff.2 ⟨(), require_eq_ok_iff.2 rfl, ?_⟩
  refine bind_eq_ok_iff.2 ⟨(), require_eq_ok_iff.2 hfold, ?_⟩
  exact congrArg Except.ok hfold

end LatticeLedger.Symmetry
