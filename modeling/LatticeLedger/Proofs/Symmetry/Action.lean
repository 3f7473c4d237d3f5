import LatticeLedger.Symmetry.Generator

/-!
# The group acts by flipping bits

A generator of the row splits the row into its block and its place in the block, flips a bit of the
place and puts both together again. This is the same as flipping that bit of the row, so every
generator flips one bit of a grid point, and an element of the group flips the bits that its number
names. The laws of the action are those of the exclusive or.
-/

namespace LatticeLedger

namespace GridPoint

/-- Flips the bits of a grid point that the low eleven bits of a number name: the lower eight in the
column, the upper three in the row. -/
def flip (point : GridPoint) (bits : Nat) : GridPoint :=
  ⟨point.row ^^^ UInt8.ofNat (bits / colCount % Symmetry.anchorStride),
    point.col ^^^ UInt8.ofNat (bits % colCount)⟩

variable {point : GridPoint} {bits other : Nat}

/-- No flip leaves a point where it is. -/
theorem flip_zero : point.flip 0 = point := by
  simp [flip]

/-- Flipping twice flips the bits in which the two numbers differ. -/
theorem flip_flip : (point.flip bits).flip other = point.flip (bits ^^^ other) := by
  have hlow : (bits ^^^ other) % colCount = bits % colCount ^^^ other % colCount :=
    Nat.xor_mod_two_pow (n := 8)
  have hdiv : (bits ^^^ other) / colCount = bits / colCount ^^^ other / colCount :=
    Nat.xor_div_two_pow (n := 8)
  have hhigh : (bits ^^^ other) / colCount % Symmetry.anchorStride =
      bits / colCount % Symmetry.anchorStride ^^^ other / colCount % Symmetry.anchorStride := by
    rw [hdiv]
    exact Nat.xor_mod_two_pow (n := 3)
  simp only [flip, hlow, hhigh, UInt8.ofNat_xor, UInt8.xor_assoc]

/-- Only the low eleven bits count. -/
theorem flip_mod : point.flip (bits % orbitSize) = point.flip bits := by
  have hlow : bits % orbitSize % colCount = bits % colCount := by
    simp only [orbitSize, colCount]
    omega
  have hhigh : bits % orbitSize / colCount % Symmetry.anchorStride =
      bits / colCount % Symmetry.anchorStride := by
    simp only [orbitSize, colCount, Symmetry.anchorStride]
    omega
  simp only [flip, hlow, hhigh]

/-- Different bits lead to different points, whatever the point. -/
theorem flip_eq_flip_iff : point.flip bits = point.flip other ↔
    bits % orbitSize = other % orbitSize := by
  constructor
  · intro h
    have hbyte {m n : Nat} (heq : UInt8.ofNat m = UInt8.ofNat n) : m % 256 = n % 256 := by
      have htoNat := congrArg UInt8.toNat heq
      rwa [UInt8.toNat_ofNat', UInt8.toNat_ofNat'] at htoNat
    obtain ⟨hrow, hcol⟩ := GridPoint.mk.inj h
    have hhigh := hbyte ((UInt8.xor_right_inj point.row).1 hrow)
    have hlow := hbyte ((UInt8.xor_right_inj point.col).1 hcol)
    simp only [orbitSize, colCount, Symmetry.anchorStride] at hhigh hlow ⊢
    omega
  · intro h
    rw [← flip_mod, h, flip_mod]

end GridPoint

namespace Symmetry

/-- A bit below the size of a block is flipped within the block. -/
theorem block_add_xor {row mask : UInt8} (h : mask.toNat < 16) :
    row / blockRows * blockRows + ((row % blockRows) ^^^ mask) = row ^^^ mask := by
  have hmod : (row.toNat ^^^ mask.toNat) % 16 = row.toNat % 16 ^^^ mask.toNat := by
    have hsplit : (row.toNat ^^^ mask.toNat) % 16 = row.toNat % 16 ^^^ mask.toNat % 16 :=
      Nat.xor_mod_two_pow (n := 4)
    rw [hsplit, Nat.mod_eq_of_lt h]
  have hdiv : (row.toNat ^^^ mask.toNat) / 16 = row.toNat / 16 := by
    have hsplit : (row.toNat ^^^ mask.toNat) / 16 = row.toNat / 16 ^^^ mask.toNat / 16 :=
      Nat.xor_div_two_pow (n := 4)
    rw [hsplit, Nat.div_eq_of_lt h, Nat.xor_zero]
  have hbyte : row.toNat ^^^ mask.toNat < 256 := by
    rw [← UInt8.toNat_xor]
    exact (row ^^^ mask).toNat_lt
  apply UInt8.toNat_inj.1
  simp only [UInt8.toNat_add, UInt8.toNat_mul, UInt8.toNat_div, UInt8.toNat_xor, UInt8.toNat_mod]
  change (row.toNat / 16 * 16 % 256 + (row.toNat % 16 ^^^ mask.toNat)) % 256 = _
  omega

namespace Generator

/-- A generator flips the bit of its index. -/
theorem apply_eq_flip (generator : Generator) (point : GridPoint) :
    generator.apply point = point.flip (1 <<< generator.val) := by
  have hcolumn : ∀ generator : Generator, generator.target = .column →
      UInt8.ofNat ((1 <<< generator.val) / colCount % anchorStride) = 0 ∧
        UInt8.ofNat ((1 <<< generator.val) % colCount) = generator.mask := by decide
  have hrow : ∀ generator : Generator, generator.target = .rowResidue →
      UInt8.ofNat ((1 <<< generator.val) / colCount % anchorStride) = generator.mask ∧
        UInt8.ofNat ((1 <<< generator.val) % colCount) = 0 ∧ generator.mask.toNat < 16 := by
    decide
  cases htarget : generator.target with
  | column =>
    obtain ⟨hhigh, hlow⟩ := hcolumn generator htarget
    simp only [apply, htarget, GridPoint.flip, hhigh, hlow, UInt8.xor_zero]
  | rowResidue =>
    obtain ⟨hhigh, hlow, hmask⟩ := hrow generator htarget
    simp only [apply, htarget, GridPoint.flip, hhigh, hlow, UInt8.xor_zero, block_add_xor hmask]

/-- A generator undoes itself, on every pair of bytes. -/
theorem apply_apply (generator : Generator) (point : GridPoint) :
    generator.apply (generator.apply point) = point := by
  rw [apply_eq_flip, apply_eq_flip, GridPoint.flip_flip, Nat.xor_self, GridPoint.flip_zero]

/-- Generators may be applied in any order. -/
theorem apply_comm (first second : Generator) (point : GridPoint) :
    first.apply (second.apply point) = second.apply (first.apply point) := by
  simp only [apply_eq_flip, GridPoint.flip_flip, Nat.xor_comm]

/-- The number in which every generator of a list flips its bit. -/
def bitsOf : List Generator → Nat
  | [] => 0
  | generator :: rest => 1 <<< generator.val ^^^ bitsOf rest

/-- Applying generators in turn flips the bits of all of them. -/
theorem foldl_apply (generators : List Generator) (point : GridPoint) :
    generators.foldl (fun moved generator => generator.apply moved) point =
      point.flip (bitsOf generators) := by
  induction generators generalizing point with
  | nil => exact GridPoint.flip_zero.symm
  | cons generator rest ih =>
    rw [List.foldl_cons, ih, apply_eq_flip, GridPoint.flip_flip, bitsOf]

/-- Different generators flip different bits. -/
theorem testBit_bitsOf {generators : List Generator} (h : generators.Nodup) (i : Nat) :
    (bitsOf generators).testBit i = true ↔ ∃ generator ∈ generators, generator.val = i := by
  induction generators with
  | nil => simp [bitsOf]
  | cons generator rest ih =>
    obtain ⟨hnew, hrest⟩ := List.nodup_cons.1 h
    have hbit : (1 <<< generator.val).testBit i = decide (generator.val = i) := by
      rw [Nat.one_shiftLeft, Nat.testBit_two_pow]
    rw [bitsOf, Nat.testBit_xor, hbit]
    by_cases heq : generator.val = i
    · have hnot : ¬∃ other ∈ rest, other.val = i := by
        rintro ⟨other, hmem, hother⟩
        exact hnew (Fin.ext (heq.trans hother.symm) ▸ hmem)
      rw [← ih hrest, Bool.not_eq_true] at hnot
      simp [heq, hnot]
    · simp [heq, ih hrest]

/-- The generators at the set bits of a number stand for its low eleven bits. -/
theorem bitsOf_filter (bits : Nat) :
    bitsOf (all.filter fun generator => bits.testBit generator.val) = bits % orbitSize := by
  have hnodup : (all.filter fun generator => bits.testBit generator.val).Nodup :=
    (List.nodup_finRange orbitRank).filter _
  apply Nat.eq_of_testBit_eq
  intro i
  have hmod : (bits % orbitSize).testBit i = (decide (i < orbitRank) && bits.testBit i) :=
    Nat.testBit_mod_two_pow bits orbitRank i
  rw [Bool.eq_iff_iff, testBit_bitsOf hnodup, hmod, Bool.and_eq_true, decide_eq_true_eq]
  constructor
  · rintro ⟨generator, hmem, rfl⟩
    exact ⟨generator.isLt, (List.mem_filter.1 hmem).2⟩
  · rintro ⟨hlt, hbit⟩
    exact ⟨⟨i, hlt⟩, List.mem_filter.2 ⟨List.mem_finRange _, hbit⟩, rfl⟩

end Generator

/-- An element of the group flips the bits that its number names. -/
theorem act_eq_flip (point : GridPoint) (bits : Nat) : act point bits = point.flip bits := by
  rw [act, Generator.foldl_apply, Generator.bitsOf_filter, GridPoint.flip_mod]

end Symmetry

end LatticeLedger
