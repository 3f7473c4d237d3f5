import LatticeLedger.Symmetry.Walk

/-!
# The Gray code and its neighbours

The code of an index is the exclusive or of the index with its half. Decoding takes the exclusive or
of all shifts of a code, a sum in which neighbouring terms cancel. Counting up by one flips the
lowest set bit of the new index and all bits below, and in the code of these only the lowest set bit
remains: that is why a walk finds its next flip without computing any code.
-/

namespace LatticeLedger.Symmetry

/-- Masking an offset keeps its low eleven bits. -/
theorem and_offsetMask (n : Nat) : n &&& offsetMask = n % orbitSize :=
  Nat.and_two_pow_sub_one_eq_mod n orbitRank

/-- A code has as many bits as there are generators. -/
theorem grayCode_lt (index : Nat) : grayCode index < orbitSize := by
  rw [grayCode, and_offsetMask]
  exact Nat.mod_lt _ (by decide)

/-- The code of an index of the orbit needs no mask. -/
theorem grayCode_eq {index : Nat} (h : index < orbitSize) :
    grayCode index = index ^^^ (index >>> 1) := by
  have hhalf : index >>> 1 < orbitSize := Nat.lt_of_le_of_lt (Nat.shiftRight_le index 1) h
  rw [grayCode, and_offsetMask, Nat.mod_eq_of_lt]
  exact Nat.xor_lt_two_pow (n := orbitRank) h hhalf

/-- In the exclusive or of the first shifts of a code all but the first and the last term cancel. -/
theorem foldl_shiftRight_code (index count : Nat) :
    (List.range count).foldl
        (fun decoded shift => decoded ^^^ ((index ^^^ index >>> 1) >>> (shift + 1)))
        (index ^^^ index >>> 1) =
      index ^^^ index >>> (count + 1) := by
  induction count with
  | zero => rfl
  | succ count ih =>
    have hnext : index >>> 1 >>> (count + 1) = index >>> (count + 1 + 1) := by
      rw [← Nat.shiftRight_add, Nat.add_comm 1]
    rw [List.range_succ, List.foldl_append, ih, List.foldl_cons, List.foldl_nil,
      Nat.shiftRight_xor_distrib, hnext, Nat.xor_assoc, ← Nat.xor_assoc (index >>> (count + 1)),
      Nat.xor_self, Nat.zero_xor]

/-- A code leads back to its index. -/
theorem grayIndex_grayCode {index : Nat} (h : index < orbitSize) :
    grayIndex (grayCode index) = index := by
  have hcode : grayCode index &&& offsetMask = index ^^^ index >>> 1 := by
    rw [and_offsetMask, Nat.mod_eq_of_lt (grayCode_lt index), grayCode_eq h]
  have hzero : index >>> (orbitRank + 1) = 0 := by
    rw [Nat.shiftRight_eq_div_pow, Nat.div_eq_of_lt]
    exact Nat.lt_trans h (by decide)
  simp only [grayIndex, hcode]
  rw [foldl_shiftRight_code, hzero, Nat.xor_zero]

/-- Different indices of the orbit have different codes. -/
theorem grayCode_inj {first second : Nat} (hfirst : first < orbitSize)
    (hsecond : second < orbitSize)
    (h : grayCode first = grayCode second) : first = second := by
  rw [← grayIndex_grayCode hfirst, h, grayIndex_grayCode hsecond]

/-- Counting up to a number flips its lowest set bit and every bit below. -/
theorem testBit_succ_of_lowest {n k : Nat} (hbit : (n + 1).testBit k = true)
    (hlow : ∀ i < k, (n + 1).testBit i = false) (i : Nat) :
    (n + 1).testBit i = (n.testBit i ^^ decide (i ≤ k)) := by
  induction k generalizing n i with
  | zero =>
    have hodd : (n + 1) % 2 = 1 := by simpa [Nat.testBit_zero] using hbit
    cases i with
    | zero =>
      have heven : n % 2 = 0 := by omega
      simp [Nat.testBit_zero, hodd, heven]
    | succ i =>
      have hhalf : (n + 1) / 2 = n / 2 := by omega
      simp [Nat.testBit_succ, hhalf]
  | succ k ih =>
    have heven : (n + 1) % 2 = 0 := by
      have hzero := hlow 0 (Nat.succ_pos k)
      rw [Nat.testBit_zero, decide_eq_false_iff_not] at hzero
      omega
    have hhalf : (n + 1) / 2 = n / 2 + 1 := by omega
    cases i with
    | zero =>
      have hodd : n % 2 = 1 := by omega
      simp [Nat.testBit_zero, heven, hodd]
    | succ i =>
      have hbit' : (n / 2 + 1).testBit k = true := by rwa [← hhalf, ← Nat.testBit_succ]
      have hlow' : ∀ j < k, (n / 2 + 1).testBit j = false := by
        intro j hj
        rw [← hhalf, ← Nat.testBit_succ]
        exact hlow (j + 1) (Nat.succ_lt_succ hj)
      rw [Nat.testBit_succ, Nat.testBit_succ, hhalf, ih hbit' hlow' i]
      simp

/-- The lowest generator of a number is at its lowest set bit. -/
theorem lowest?_eq_some {bits : Nat} {generator : Generator}
    (h : Generator.lowest? bits = some generator) :
    bits.testBit generator.val = true ∧ ∀ i < generator.val, bits.testBit i = false := by
  obtain ⟨hbit, position, hposition, rfl, hbefore⟩ := List.find?_eq_some_iff_getElem.1 h
  refine ⟨hbit, fun i hi => ?_⟩
  simp only [Generator.all, List.getElem_finRange] at hi hbefore
  simpa using hbefore i hi

/-- Every index of the orbit but the first has a lowest generator. -/
theorem exists_lowest? {index : Nat} (hpos : 0 < index) (h : index < orbitSize) :
    ∃ generator, Generator.lowest? index = some generator := by
  obtain ⟨i, hbit⟩ := Nat.exists_testBit_of_ne_zero (Nat.ne_of_gt hpos)
  have hlt : i < orbitRank := by
    rcases Nat.lt_or_ge i orbitRank with hlt | hge
    · exact hlt
    · have hsize := Nat.lt_of_lt_of_le h (Nat.pow_le_pow_right (by decide : 0 < 2) hge)
      rw [Nat.testBit_lt_two_pow hsize] at hbit
      cases hbit
  refine Option.isSome_iff_exists.1 (List.find?_isSome.2 ?_)
  exact ⟨⟨i, hlt⟩, List.mem_finRange _, hbit⟩

/-- Neighbouring codes differ in one bit, the lowest set bit of the new index. -/
theorem grayCode_succ {index : Nat} {generator : Generator} (h : index + 1 < orbitSize)
    (hlowest : Generator.lowest? (index + 1) = some generator) :
    grayCode (index + 1) = grayCode index ^^^ 1 <<< generator.val := by
  obtain ⟨hbit, hlow⟩ := lowest?_eq_some hlowest
  have hcount := testBit_succ_of_lowest hbit hlow
  rw [grayCode_eq h, grayCode_eq (Nat.lt_of_succ_lt h)]
  apply Nat.eq_of_testBit_eq
  intro i
  -- Of the bits that counting flips, the halved index flips all but the highest.
  have hflips : (decide (i ≤ generator.val) ^^ decide (i + 1 ≤ generator.val)) =
      decide (generator.val = i) := by
    rcases Nat.lt_trichotomy i generator.val with hlt | heq | hgt
    · simp [Nat.le_of_lt hlt, Nat.succ_le_of_lt hlt, Nat.ne_of_gt hlt]
    · simp [heq]
    · simp [Nat.not_le.2 hgt, Nat.not_le.2 (Nat.lt_succ_of_lt hgt), Nat.ne_of_lt hgt]
  simp only [Nat.testBit_xor, Nat.testBit_shiftRight, Nat.one_shiftLeft, Nat.testBit_two_pow,
    Nat.add_comm 1 i, hcount, ← hflips]
  rw [Bool.xor_assoc, Bool.xor_assoc, Bool.xor_left_comm (decide (i ≤ generator.val))]

end LatticeLedger.Symmetry
