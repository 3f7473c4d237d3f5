import LatticeLedger.Proofs.Symmetry.GrayCode
import LatticeLedger.Proofs.Words.Checked

/-!
# The symmetry group in words

A generator flips a bit of a byte, and one of the row puts the byte together again from two parts.
Its index says how far a one is shifted, so it matters that no index is too large: those that a walk
finds are numbers of trailing zeros of an index below 2048.
-/

namespace LatticeLedger.Words

open Symmetry

/-! ### Generators -/

/-- The position of the bit that a generator flips, by its index. -/
def flippedBit (index : BitVec 8) : Run Empty (BitVec 8) :=
  if index.toNat < columnFlips then .ok index else sub index 8#8

/-- Flips the bit of the generator of an index. -/
def apply (index : BitVec 8) (point : GridPoint) : Run Empty GridPoint := do
  require (index.toNat < orbitRank) .noGenerator
  let place ← flippedBit index
  let mask ← bit 8 place
  if index.toNat < columnFlips then
    return { point with col := .ofBitVec (point.col.toBitVec ^^^ mask) }
  else
    let start ← mul (point.row.toBitVec / 16#8) 16#8
    let row ← add start ((point.row.toBitVec % 16#8) ^^^ mask)
    return { point with row := .ofBitVec row }

/-- Applies a generator if its bit is set in a word. -/
def applyAt (vBits : BitVec 16) (point : GridPoint) (generator : Generator) :
    Run Empty GridPoint := do
  let index := BitVec.ofNat 8 generator.val
  let mask ← bit 16 index
  if vBits &&& mask ≠ 0#16 then apply index point else return point

/-- Applies the group element that the bits of a word name. -/
def act (vBits : BitVec 16) (point : GridPoint) : Run Empty GridPoint :=
  Generator.all.foldlM (applyAt vBits) point

/-- Every generator has an index. -/
theorem toNat_index (generator : Generator) :
    (BitVec.ofNat 8 generator.val).toNat = generator.val := by
  have hlt : generator.val < 11 := generator.isLt
  rw [BitVec.toNat_ofNat, Nat.mod_eq_of_lt (by omega)]

section Apply

variable {index : BitVec 8} {generator : Generator}

/-- The bit that a generator flips is found without overflow. -/
theorem flippedBit_eq_ok {place : BitVec 8} (hindex : index.toNat = generator.val)
    (hplace : place.toNat = generator.bit) : flippedBit index = .ok place := by
  rw [flippedBit]
  split
  case isTrue h =>
    have htarget : generator.target = .column := if_pos (hindex ▸ h)
    simp only [Generator.bit, htarget] at hplace
    rw [BitVec.eq_of_toNat_eq (hindex.trans hplace.symm)]
  case isFalse h =>
    have htarget : generator.target = .rowResidue := if_neg (hindex ▸ h)
    simp only [Generator.bit, htarget] at hplace
    rw [sub_eq_ok_iff, hplace, hindex]
    change generator.val - 8 + 8 = generator.val
    have hle : 8 ≤ generator.val := Nat.not_lt.1 (hindex ▸ h)
    omega

/-- The shift of a generator stays within a byte, and so does the row that it puts together. -/
theorem apply_eq_ok (hindex : index.toNat = generator.val) (point : GridPoint) :
    apply index point = .ok (generator.apply point) := by
  have hbit : ∀ generator : Generator, generator.bit < 8 := by decide
  have hmask : ∀ generator : Generator, generator.mask.toNat = 1 <<< generator.bit := by decide
  have hblock : ∀ generator : Generator, ¬generator.val < 8 → generator.mask.toNat < 16 := by decide
  have hrank : index.toNat < orbitRank := hindex ▸ generator.isLt
  obtain ⟨place, hplace⟩ := exists_word 8 (n := generator.bit)
    (Nat.lt_trans (hbit generator) (by decide))
  have hone : (bit 8 place : Run Empty _) = .ok generator.mask.toBitVec := by
    rw [bit_eq_ok_iff, hplace]
    exact hmask generator
  refine bind_eq_ok_iff.2 ⟨(), require_eq_ok_iff.2 hrank, ?_⟩
  refine bind_eq_ok_iff.2 ⟨place, flippedBit_eq_ok hindex hplace, ?_⟩
  refine bind_eq_ok_iff.2 ⟨generator.mask.toBitVec, hone, ?_⟩
  split
  case isTrue h =>
    have htarget : generator.target = .column := if_pos (hindex ▸ h)
    simp only [Generator.apply, htarget]
    rfl
  case isFalse h =>
    have htarget : generator.target = .rowResidue := if_neg (hindex ▸ h)
    have hmaskLt : generator.mask.toBitVec.toNat < 16 := hblock generator (hindex ▸ h)
    have hrow : point.row.toBitVec.toNat < 256 := point.row.toBitVec.isLt
    have hblocks : (point.row.toBitVec / 16#8).toNat = point.row.toBitVec.toNat / 16 :=
      BitVec.toNat_udiv
    -- The blocks are at most fifteen, and the flipped place stays below the size of a block.
    have hstart : (point.row.toBitVec / 16#8 * 16#8).toNat =
        (point.row.toBitVec / 16#8).toNat * 16 := by
      apply BitVec.toNat_mul_of_lt
      change (point.row.toBitVec / 16#8).toNat * 16 < _
      omega
    have hflipped : (point.row.toBitVec % 16#8 ^^^ generator.mask.toBitVec).toNat < 16 := by
      rw [BitVec.toNat_xor, BitVec.toNat_umod]
      exact Nat.xor_lt_two_pow (n := 4) (Nat.mod_lt _ (by decide)) hmaskLt
    refine bind_eq_ok_iff.2 ⟨_, mul_eq_ok_iff.2 hstart, ?_⟩
    refine bind_eq_ok_iff.2 ⟨_, add_eq_ok_iff.2 (BitVec.toNat_add_of_lt ?_), ?_⟩
    · rw [hstart]
      omega
    · simp only [Generator.apply, htarget]
      rfl

/-- A bit of a word is tested by the mask of its place. -/
theorem and_ne_zero_iff {vBits mask : BitVec 16} {i : Nat} (hmask : mask.toNat = 1 <<< i) :
    vBits &&& mask ≠ 0#16 ↔ vBits.toNat.testBit i = true := by
  have hbit (j : Nat) : (vBits &&& mask).toNat.testBit j =
      (vBits.toNat.testBit j && decide (i = j)) := by
    rw [BitVec.toNat_and, Nat.testBit_and, hmask, Nat.one_shiftLeft, Nat.testBit_two_pow]
  constructor
  · intro h
    have hpos : (vBits &&& mask).toNat ≠ 0 := fun hzero => h (BitVec.eq_of_toNat_eq hzero)
    obtain ⟨j, hj⟩ := Nat.exists_testBit_of_ne_zero hpos
    rw [hbit, Bool.and_eq_true, decide_eq_true_eq] at hj
    exact hj.2 ▸ hj.1
  · intro h hzero
    have hset := hbit i
    rw [h, hzero] at hset
    simp at hset

/-- A generator is applied on words if its bit is set in the offset. -/
theorem applyAt_eq_ok (vBits : BitVec 16) (point : GridPoint) (generator : Generator) :
    applyAt vBits point generator =
      .ok (if vBits.toNat.testBit generator.val = true then generator.apply point else point) := by
  have hsize : ∀ generator : Generator, 1 <<< generator.val < 1 <<< 16 := by decide
  have hindex := toNat_index generator
  obtain ⟨mask, hmask⟩ := exists_word 16 (hsize generator)
  refine bind_eq_ok_iff.2 ⟨mask, bit_eq_ok_iff.2 (hindex.symm ▸ hmask), ?_⟩
  simp only [and_ne_zero_iff hmask]
  split
  · exact apply_eq_ok hindex point
  · rfl

/-- The action on words is the action on numbers. -/
theorem act_eq_ok (vBits : BitVec 16) (point : GridPoint) :
    act vBits point = .ok (Symmetry.act point vBits.toNat) := by
  have hstep : applyAt vBits = fun moved generator => pure
      (if vBits.toNat.testBit generator.val = true then generator.apply moved else moved) :=
    funext fun moved => funext fun generator => applyAt_eq_ok vBits moved generator
  rw [act, hstep, List.foldlM_pure, Symmetry.act, List.foldl_filter]
  rfl

end Apply

/-! ### Walks -/

/-- A walk in progress, whose index is a word. -/
structure Walk where
  point : GridPoint
  index : BitVec 32

namespace Walk

/-- The walk with its index as a number. -/
def exact (walk : Walk) : Symmetry.Walk := ⟨walk.point, walk.index.toNat⟩

/-- The point to which the lowest set bit of an index leads. -/
def moved (point : GridPoint) (index : BitVec 16) : Run Empty GridPoint :=
  if index = 0#16 then return point
  else do
    let generator ← resize 8 index.ctz
    apply generator point

/-- The next step of a walk, and the walk after it. -/
def next? (walk : Walk) : Run Empty (Option (WalkStep × Walk)) :=
  if walk.index.toNat < orbitSize then do
    let index ← resize 16 walk.index
    let point ← moved walk.point index
    let later ← add walk.index 1#32
    let code := (index ^^^ (index >>> 1)) &&& 2047#16
    return some (⟨index.toNat, code.toNat, point⟩, ⟨point, later⟩)
  else return none

/-- At most `count` further steps of a walk. -/
def take : Nat → Walk → Run Empty (List WalkStep)
  | 0, _ => return []
  | count + 1, walk => do
    match ← walk.next? with
    | some (step, rest) =>
      let others ← take count rest
      return step :: others
    | none => return []

/-- The trailing zeros of an index of the orbit are counted by a generator, its lowest one. -/
theorem toNat_ctz {index : BitVec 16} {generator : Generator}
    (hlowest : Generator.lowest? index.toNat = some generator) :
    index.ctz.toNat = generator.val := by
  obtain ⟨hbit, hlow⟩ := lowest?_eq_some hlowest
  have hne : index ≠ 0#16 := by
    rintro rfl
    simp at hbit
  have hctz : index.toNat.testBit index.ctz.toNat = true := BitVec.getLsbD_true_ctz_of_ne_zero hne
  rcases Nat.lt_trichotomy index.ctz.toNat generator.val with hlt | heq | hgt
  · rw [hlow _ hlt] at hctz
    cases hctz
  · exact heq
  · have hnot : index.toNat.testBit generator.val = false := BitVec.getLsbD_false_of_lt_ctz hgt
    rw [hbit] at hnot
    cases hnot

/-- Every index of the orbit but the first is led on by a generator. -/
theorem moved_eq_ok {index : BitVec 16} (h : index.toNat < orbitSize) (point : GridPoint) :
    moved point index =
      .ok ((Generator.lowest? index.toNat).elim point fun generator => generator.apply point) := by
  rw [moved]
  split
  case isTrue hzero =>
    have hnone : Generator.lowest? 0 = none := by decide
    rw [hzero, BitVec.toNat_zero, hnone]
    rfl
  case isFalse hne =>
    have hpos : 0 < index.toNat := Nat.pos_of_ne_zero fun hzero => hne (BitVec.eq_of_toNat_eq hzero)
    obtain ⟨generator, hlowest⟩ := exists_lowest? hpos h
    have hrank : generator.val < 11 := generator.isLt
    obtain ⟨byte, hbyte⟩ := exists_word 8 (n := generator.val) (by omega)
    rw [hlowest]
    refine bind_eq_ok_iff.2 ⟨byte, resize_eq_ok_iff.2 ?_, apply_eq_ok hbyte point⟩
    rw [hbyte, toNat_ctz hlowest]

/-- The code of an index on words is its Gray code. -/
theorem toNat_code (index : BitVec 16) :
    ((index ^^^ (index >>> 1)) &&& 2047#16).toNat = grayCode index.toNat := by
  rw [BitVec.toNat_and, BitVec.toNat_xor, BitVec.toNat_ushiftRight]
  rfl

/-- A step of a walk overflows nowhere, whatever the walk is. -/
theorem next?_eq_ok (walk : Walk) :
    ∃ found, walk.next? = .ok found ∧ found.map (Prod.map id exact) = walk.exact.next? := by
  rw [next?, Symmetry.Walk.next?]
  split
  case isFalse h => exact ⟨none, rfl, (if_neg h).symm⟩
  case isTrue h =>
    have hindex : walk.index.toNat < 2048 := h
    obtain ⟨index, hval⟩ := exists_word 16 (n := walk.index.toNat) (by omega)
    obtain ⟨later, hlater⟩ := exists_word 32 (n := walk.index.toNat + 1) (by omega)
    let point := (Generator.lowest? index.toNat).elim walk.point fun generator =>
      generator.apply walk.point
    let code := (index ^^^ (index >>> 1)) &&& 2047#16
    refine ⟨some (⟨index.toNat, code.toNat, point⟩, ⟨point, later⟩), ?_, ?_⟩
    · refine bind_eq_ok_iff.2 ⟨index, resize_eq_ok_iff.2 hval, ?_⟩
      refine bind_eq_ok_iff.2 ⟨point, moved_eq_ok (hval ▸ h) walk.point, ?_⟩
      exact bind_eq_ok_iff.2 ⟨later, add_eq_ok_iff.2 hlater, rfl⟩
    · have hexact : walk.exact.index < orbitSize := h
      rw [if_pos hexact]
      simp only [point, code, Option.map_some, Prod.map, exact, toNat_code, hval, hlater, id]
      cases Generator.lowest? walk.index.toNat <;> rfl

/-- So does a whole walk. -/
theorem take_eq_ok (count : Nat) (walk : Walk) :
    walk.take count = .ok (walk.exact.take count) := by
  -- The step holds of every state, so the walk need not be one that started at an anchor.
  induction count generalizing walk with
  | zero => rfl
  | succ count ih =>
    obtain ⟨found, hfound, hexact⟩ := next?_eq_ok walk
    rw [take, Symmetry.Walk.take, ← hexact]
    refine bind_eq_ok_iff.2 ⟨found, hfound, ?_⟩
    cases found with
    | none => rfl
    | some pair =>
      obtain ⟨step, rest⟩ := pair
      exact bind_eq_ok_iff.2 ⟨_, ih rest, rfl⟩

end Walk

end LatticeLedger.Words
