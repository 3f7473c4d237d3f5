import LatticeLedger.Proofs.Audit.Checkpoints
import LatticeLedger.Proofs.Audit.Fairness
import LatticeLedger.Proofs.Words.Lattice
import LatticeLedger.Proofs.Words.Symmetry

/-!
# No arithmetic overflows

An audit multiplies once and subtracts in two places. The windows of a schedule are numbers of 32
bits that are multiplied in 64, the lowest count is not above the highest, and checkpoints are
sorted and none of those that count lies after the end. So with the conversions of addresses and the
action of the group every operation of the core is the one for numbers.
-/

namespace LatticeLedger

namespace Words

/-- The coordinates that a run means to visit in each class. -/
def coords (schedule : Schedule) : Run Empty (BitVec 64) := do
  let size ← resize 64 schedule.windowSize.toBitVec
  let count ← resize 64 schedule.windowCount.toBitVec
  mul size count

/-- By how much two counts of a tally differ at most. -/
def skew (tally : Tally) : Run Empty Nat := difference tally.highest tally.lowest

/-- Whether no two neighbours in `last`, the positions, and the end are too far apart. -/
def spaced (interval total : Nat) : Nat → List Nat → Run Empty Bool
  | last, [] => do
    let gap ← difference total last
    return gap ≤ interval
  | last, position :: rest => do
    let gap ← difference position last
    if gap ≤ interval then spaced interval total position rest else return false

/-- Whether no stretch of more than `interval` steps is without a checkpoint. -/
def checkpointsCover (checkpoints : List Nat) (total interval : Nat) : Run Empty Bool :=
  if interval = 0 then return true
  else
    spaced interval total 0
      (OrderedSet.ofList (checkpoints.filter fun position => position ≤ total)).toList

/-- Two words of 32 bits have a product of 64. -/
theorem exists_coords (schedule : Schedule) :
    ∃ word, coords schedule = .ok word ∧ word.toNat = schedule.coords := by
  have hsizeLt : schedule.windowSize.toNat < 1 <<< 32 := schedule.windowSize.toNat_lt
  have hcountLt : schedule.windowCount.toNat < 1 <<< 32 := schedule.windowCount.toNat_lt
  have hproduct : schedule.coords < (1 <<< 32) * (1 <<< 32) := Nat.mul_lt_mul'' hsizeLt hcountLt
  obtain ⟨size, hresize, hsize⟩ := exists_resize 64 (by decide) schedule.windowSize.toBitVec
  obtain ⟨count, hresizeCount, hcount⟩ := exists_resize 64 (by decide) schedule.windowCount.toBitVec
  obtain ⟨word, hword⟩ := exists_word 64 (n := schedule.coords) (by omega)
  refine ⟨word, bind_eq_ok_iff.2 ⟨size, hresize, ?_⟩, hword⟩
  refine bind_eq_ok_iff.2 ⟨count, hresizeCount, ?_⟩
  rw [mul_eq_ok_iff, hword, hsize, hcount]
  rfl

/-- The lowest count is not above the highest. -/
theorem skew_eq_ok (tally : Tally) : skew tally = .ok tally.skew := by
  have hle : tally.lowest ≤ tally.highest := by
    by_cases hne : tally.values = []
    · rw [Tally.lowest, Tally.highest, hne]
      decide
    · exact (Tally.isLeast_lowest hne).2 (Tally.isGreatest_highest hne).1
  rw [skew, difference_eq_ok_iff, Tally.skew]
  exact Nat.sub_add_cancel hle

/-- Neighbours of ascending positions are subtracted in the right order. -/
theorem spaced_eq_ok {interval total last : Nat} {positions : List Nat} (hlast : last ≤ total)
    (hascending : positions.Pairwise (· < ·))
    (hbetween : ∀ position ∈ positions, last ≤ position ∧ position ≤ total) :
    spaced interval total last positions =
      .ok (LatticeLedger.spaced interval total last positions) := by
  -- Each position becomes the next `last`, so the bounds are carried along the list.
  induction positions generalizing last with
  | nil =>
    refine bind_eq_ok_iff.2 ⟨total - last, difference_eq_ok_iff.2 (Nat.sub_add_cancel hlast), ?_⟩
    rw [LatticeLedger.spaced]
    rfl
  | cons first rest ih =>
    obtain ⟨hafter, hrest⟩ := List.pairwise_cons.1 hascending
    obtain ⟨⟨hfirst, htotal⟩, hothers⟩ := List.forall_mem_cons.1 hbetween
    have hbetween' : ∀ position ∈ rest, first ≤ position ∧ position ≤ total :=
      fun position hmem => ⟨Nat.le_of_lt (hafter position hmem), (hothers position hmem).2⟩
    refine bind_eq_ok_iff.2 ⟨first - last, difference_eq_ok_iff.2 (Nat.sub_add_cancel hfirst), ?_⟩
    rw [LatticeLedger.spaced]
    split
    case isTrue hgap => rw [ih htotal hrest hbetween', decide_eq_true hgap, Bool.true_and]
    case isFalse hgap =>
      rw [decide_eq_false hgap, Bool.false_and]
      rfl

/-- No checkpoint that counts lies after the end. -/
theorem checkpointsCover_eq_ok (checkpoints : List Nat) (total interval : Nat) :
    checkpointsCover checkpoints total interval =
      .ok (LatticeLedger.checkpointsCover checkpoints total interval) := by
  let sorted := OrderedSet.ofList (checkpoints.filter fun position => position ≤ total)
  have hbetween : ∀ position ∈ sorted.toList, 0 ≤ position ∧ position ≤ total := by
    intro position hmem
    rw [OrderedSet.mem_toList, OrderedSet.mem_ofList, List.mem_filter, decide_eq_true_iff] at hmem
    exact ⟨Nat.zero_le position, hmem.2⟩
  rw [checkpointsCover, LatticeLedger.checkpointsCover]
  split
  case isTrue hzero => rw [hzero]; rfl
  case isFalse hne =>
    rw [beq_false_of_ne hne, Bool.false_or]
    exact spaced_eq_ok (Nat.zero_le total) sorted.ascending_toList hbetween

end Words

open Words in
/-- **No arithmetic overflows.** In words of the sizes in which they are stored and computed,
conversions of addresses, their contract, the guard, the action of the group, walks and the products
and differences of an audit come to exactly what they come to with numbers. They refuse the same and
never lose a carry or a bit, go below zero, shift a one out of its word or ask for a generator that
does not exist. -/
theorem word_arithmetic_exact :
    -- Conversions of all words of 32 bits.
    (∀ anchor vBits, Follows (fun word coord => word.toNat = coord.val)
      (encode anchor vBits) (Coord.encode anchor.toNat vBits.toNat)) ∧
    (∀ row col, Follows (fun word coord => word.toNat = coord.val)
      (flatten row col) (Coord.flatten row.toNat col.toNat)) ∧
    (∀ coord, Follows (fun words parts => words.1.toNat = parts.1.val ∧ words.2.toNat = parts.2.val)
      (decode coord) (Coord.decode coord.toNat)) ∧
    (∀ coord, Follows Eq (fold coord) (Coord.fold coord.toNat)) ∧
    (∀ anchor, Follows Eq (anchorBase anchor) (Symmetry.anchorBase anchor.toNat)) ∧
    -- The guard, and the contract on all bytes and half words.
    (∀ classId coordinates, Follows Parts.Denote
      (Words.guardAddress classId.toBitVec coordinates) (guardAddress classId coordinates)) ∧
    (∀ parts, Follows (fun _ address => parts.Denote address) (contract parts)
      (Address.ofParts (.ofBitVec parts.classId) (.ofBitVec parts.coord) (.ofBitVec parts.anchor)
        (.ofBitVec parts.vBits) (.ofBitVec parts.row) (.ofBitVec parts.col))) ∧
    (∀ (classId : UInt32) coordinates parts,
      Words.guardAddress classId.toBitVec coordinates = .ok parts → contract parts = .ok ()) ∧
    -- The group on all pairs of bytes, and walks from all of their states.
    (∀ (generator : Symmetry.Generator) point,
      apply (BitVec.ofNat 8 generator.val) point = .ok (generator.apply point)) ∧
    (∀ vBits point, act vBits point = .ok (Symmetry.act point vBits.toNat)) ∧
    (∀ (walk : Words.Walk) count, walk.take count = .ok (walk.exact.take count)) ∧
    -- The audit: all schedules, all tallies, all lists of checkpoints, and so all ledgers.
    (∀ schedule, ∃ word, coords schedule = .ok word ∧ word.toNat = schedule.coords) ∧
    (∀ tally, skew tally = .ok tally.skew) ∧
    (∀ checkpoints total interval, Words.checkpointsCover checkpoints total interval =
      .ok (checkpointsCover checkpoints total interval)) ∧
    (∀ ledger schedule policy report, audit ledger schedule policy = .ok report →
      skew report.classDistribution = .ok report.classSkew ∧
        skew report.anchorDistribution = .ok report.anchorSkew ∧
        Words.checkpointsCover (checkpointPositions ledger) (ledger.countP (·.isCommittedStep))
          (policy.interval schedule).toNat = .ok report.auditCompliance) := by
  refine ⟨follows_encode, follows_flatten, follows_decode, follows_fold, follows_anchorBase,
    follows_guardAddress, follows_contract, fun _ _ _ h => contract_of_guardAddress h,
    fun generator point => apply_eq_ok (toNat_index generator) point, act_eq_ok,
    fun walk count => walk.take_eq_ok count, exists_coords, skew_eq_ok, checkpointsCover_eq_ok, ?_⟩
  intro ledger schedule policy report h
  obtain ⟨-, -, entries, hentries, rfl⟩ := audit_eq_ok_iff.1 h
  rw [hentries.auditCompliance_eq]
  exact ⟨skew_eq_ok _, skew_eq_ok _, checkpointsCover_eq_ok _ _ _⟩

open Words in
/-- The last place of the lattice is computed in words, and so are the verdicts on two steps with a
checkpoint behind them that lies after the end. -/
theorem word_arithmetic_exact_of_last_place :
    let committed (t : UInt64) : Record :=
      { kind := some "ace_step", status := some "committed", t := some t,
        context := some { classId := some 7, coord := some 2050 } }
    let ledger : List Record := [committed 0, committed 1, .checkpoint 99]
    (∃ word, encode 5#32 2047#32 = .ok word ∧ word.toNat = 12287) ∧
    (∃ parts, Words.guardAddress (95 : UInt32).toBitVec (.anchorOffset 5 2047) = .ok parts ∧
      contract parts = .ok ()) ∧
    ∃ report, audit ledger { auditInterval := 2 } { auditEvery := 0 } = .ok report ∧
      skew report.classDistribution = .ok 0 ∧
      Words.checkpointsCover (checkpointPositions ledger) (ledger.countP (·.isCommittedStep)) 2 =
        .ok true := by
  intro committed ledger
  obtain ⟨hencode, -, -, -, -, hguard, -, hcontract, -, -, -, -, -, -, haudit⟩ :=
    word_arithmetic_exact
  refine ⟨?_, ?_, ?_⟩
  · have hlast : Coord.encode (5#32).toNat (2047#32).toNat = .ok ⟨12287, by decide⟩ := by decide
    have hfollows := hencode 5#32 2047#32
    rw [hlast] at hfollows
    exact hfollows.exists_ok
  · have hlast : guardAddress 95 (.anchorOffset 5 2047) =
        .ok ⟨⟨95, by decide⟩, ⟨12287, by decide⟩⟩ := by decide
    have hfollows := hguard 95 (.anchorOffset 5 2047)
    rw [hlast] at hfollows
    obtain ⟨parts, hparts, -⟩ := hfollows.exists_ok
    exact ⟨parts, hparts, hcontract _ _ _ hparts⟩
  · have hreport : (audit ledger { auditInterval := 2 } { auditEvery := 0 }).map
        (fun report => (report.classSkew, report.auditCompliance)) = .ok (0, true) := by
      decide +kernel
    obtain ⟨report, hreport, hverdicts⟩ := map_eq_ok_iff.1 hreport
    obtain ⟨hskew, hcompliance⟩ := Prod.mk.inj hverdicts
    obtain ⟨hclasses, -, hcover⟩ := haudit _ _ _ _ hreport
    exact ⟨report, hreport, hskew ▸ hclasses, hcompliance ▸ hcover⟩

end LatticeLedger
