import LatticeLedger.Proofs.Audit.Presence

/-!
# Every stretch of steps holds a checkpoint

The audit sorts the checkpoints that do not lie after the end and compares neighbours. What this
decides is a statement on all stretches of as many steps as the interval: each that ends before the
end of the run holds a checkpoint. Only which checkpoints there are matters, and of these only the
ones strictly between the start and the end.
-/

namespace LatticeLedger

/-- Whether every stretch of `interval` steps that ends before `total` holds a checkpoint. The
interval zero asks for nothing. -/
def Covered (checkpoints : List Nat) (total interval : Nat) : Prop :=
  interval = 0 ∨
    ∀ x, x + interval < total → ∃ position ∈ checkpoints, x + 1 ≤ position ∧ position ≤ x + interval

/-- Whether this holds of the stretches that begin behind `last` or later. -/
def CoveredFrom (interval total last : Nat) (positions : List Nat) : Prop :=
  ∀ x, last ≤ x → x + interval < total →
    ∃ position ∈ positions, x + 1 ≤ position ∧ position ≤ x + interval

namespace CoveredFrom

variable {interval total last first : Nat} {rest : List Nat}

/-- Without positions there must be no such stretch. -/
theorem nil_iff : CoveredFrom interval total last [] ↔ total - last ≤ interval := by
  constructor
  · intro h
    by_contra hend
    obtain ⟨_, hmem, -⟩ := h last (Nat.le_refl last) (by omega)
    exact absurd hmem List.not_mem_nil
  · intro hend x hx hlt
    omega

/-- The first of ascending positions must be close, or else the stretch right behind `last` is
empty. It covers the stretches that begin before it, and the others have to cover the rest. -/
theorem cons_iff (hlast : last ≤ first) (htotal : first ≤ total)
    (hafter : ∀ position ∈ rest, first < position) :
    CoveredFrom interval total last (first :: rest) ↔
      first - last ≤ interval ∧ CoveredFrom interval total first rest := by
  constructor
  · intro h
    constructor
    · by_contra hgap
      obtain ⟨position, hmem, hlow, hhigh⟩ := h last (Nat.le_refl last) (by omega)
      rcases List.mem_cons.1 hmem with rfl | hmem
      · omega
      · have hlater := hafter position hmem
        omega
    · intro x hx hlt
      obtain ⟨position, hmem, hlow, hhigh⟩ := h x (by omega) hlt
      rcases List.mem_cons.1 hmem with rfl | hmem
      · omega
      · exact ⟨position, hmem, hlow, hhigh⟩
  · rintro ⟨hgap, hlater⟩ x hx hlt
    by_cases hbefore : x < first
    · exact ⟨first, List.mem_cons_self, by omega, by omega⟩
    · obtain ⟨position, hmem, hwithin⟩ := hlater x (by omega) hlt
      exact ⟨position, List.mem_cons_of_mem first hmem, hwithin⟩

end CoveredFrom

/-- Comparing neighbours decides whether all stretches are covered. -/
theorem spaced_iff_coveredFrom {interval total last : Nat} {positions : List Nat}
    (hascending : positions.Pairwise (· < ·))
    (hbetween : ∀ position ∈ positions, last ≤ position ∧ position ≤ total) :
    spaced interval total last positions = true ↔ CoveredFrom interval total last positions := by
  induction positions generalizing last with
  | nil => rw [spaced, decide_eq_true_iff, CoveredFrom.nil_iff]
  | cons first rest ih =>
    obtain ⟨hafter, hrest⟩ := List.pairwise_cons.1 hascending
    obtain ⟨⟨hlast, htotal⟩, hothers⟩ := List.forall_mem_cons.1 hbetween
    have hbetween' : ∀ position ∈ rest, first ≤ position ∧ position ≤ total :=
      fun position hmem => ⟨Nat.le_of_lt (hafter position hmem), (hothers position hmem).2⟩
    rw [spaced, Bool.and_eq_true, decide_eq_true_iff, ih hrest hbetween',
      CoveredFrom.cons_iff hlast htotal hafter]

/-- What the audit asks of checkpoints is that they cover all stretches. -/
theorem checkpointsCover_iff {checkpoints : List Nat} {total interval : Nat} :
    checkpointsCover checkpoints total interval = true ↔ Covered checkpoints total interval := by
  let sorted := OrderedSet.ofList (checkpoints.filter fun position => position ≤ total)
  have hmem (position : Nat) :
      position ∈ sorted.toList ↔ position ∈ checkpoints ∧ position ≤ total := by
    rw [OrderedSet.mem_toList, OrderedSet.mem_ofList, List.mem_filter, decide_eq_true_iff]
  have hbetween : ∀ position ∈ sorted.toList, 0 ≤ position ∧ position ≤ total :=
    fun position hposition => ⟨Nat.zero_le position, ((hmem position).1 hposition).2⟩
  rw [checkpointsCover, Bool.or_eq_true, beq_iff_eq, Covered,
    spaced_iff_coveredFrom sorted.ascending_toList hbetween]
  refine or_congr_right (forall_congr' fun x => ?_)
  constructor
  · intro h hlt
    obtain ⟨position, hposition, hwithin⟩ := h (Nat.zero_le x) hlt
    exact ⟨position, ((hmem position).1 hposition).1, hwithin⟩
  · intro h _ hlt
    obtain ⟨position, hposition, hlow, hhigh⟩ := h hlt
    exact ⟨position, (hmem position).2 ⟨hposition, by omega⟩, hlow, hhigh⟩

/-- Only the checkpoints strictly between the start and the end matter. -/
theorem Covered.congr {checkpoints others : List Nat} {total interval : Nat}
    (h : ∀ position, 0 < position → position < total →
      (position ∈ checkpoints ↔ position ∈ others)) :
    Covered checkpoints total interval ↔ Covered others total interval := by
  refine or_congr_right (forall_congr' fun x => forall_congr' fun hlt => ?_)
  refine exists_congr fun position => and_congr_left fun hwithin => ?_
  exact h position (by omega) (by omega)

/-- Checkpoints that cover the stretches of an interval cover those of a wider one. -/
theorem Covered.of_le {checkpoints : List Nat} {total interval wider : Nat}
    (hle : wider = 0 ∨ interval ≠ 0 ∧ interval ≤ wider)
    (h : Covered checkpoints total interval) : Covered checkpoints total wider := by
  rcases hle with hnone | ⟨hne, hle⟩
  · exact .inl hnone
  · refine .inr fun x hlt => ?_
    obtain ⟨position, hmem, hlow, hhigh⟩ := h.resolve_left hne x (by omega)
    exact ⟨position, hmem, hlow, by omega⟩

/-- The positions of the checkpoints of a ledger. -/
def checkpointPositions (ledger : List Record) : List Nat :=
  (ledger.filter fun record => record.kind = some "audit").filterMap fun record =>
    record.t.map (·.toNat)

/-- The audit measures the checkpoints of the ledger against its committed steps. -/
theorem Record.EntriesOf.auditCompliance_eq {schedule : Schedule} {policy : Policy}
    {ledger : List Record} {entries : List Entry} (h : EntriesOf policy ledger entries) :
    (Report.ofEntries schedule policy entries).auditCompliance =
      checkpointsCover (checkpointPositions ledger) (ledger.countP (·.isCommittedStep))
        (policy.interval schedule).toNat := by
  have hpositions : (Entry.checkpoints entries).map (·.toNat) = checkpointPositions ledger := by
    rw [← List.filterMap_eq_map]
    refine (filterMap_eq_of_forall₂ h.checkpoints ?_).symm
    intro record t ht
    rw [ht, Option.map_some, Function.comp_apply]
  have hsteps : (Entry.steps entries).length = ledger.countP (·.isCommittedStep) := by
    rw [List.countP_eq_length_filter, h.steps.length_eq]
  rw [← hpositions, ← hsteps]
  rfl

/-- Entry by entry, the verdict on checkpoints says whether those of the ledger leave no stretch
uncovered. -/
theorem Record.EntriesOf.covered_iff {schedule : Schedule} {policy : Policy} {ledger : List Record}
    {entries : List Entry} (h : EntriesOf policy ledger entries) :
    (Report.ofEntries schedule policy entries).auditCompliance = true ↔
      Covered (checkpointPositions ledger) (ledger.countP (·.isCommittedStep))
        (policy.interval schedule).toNat := by
  rw [h.auditCompliance_eq, checkpointsCover_iff]

/-- Checkpoints are close enough if and only if every stretch of `interval` steps that ends before
the end of the run holds one of them. In which order they come, how often, and which of them lie
after the end is of no account. The verdict of an audit is this statement on the positions of the
checkpoints of its ledger and the number of the committed steps, under the interval of the policy
or, if that is zero, of the schedule. -/
theorem audit_compliance_exact :
    (∀ checkpoints total interval, checkpointsCover checkpoints total interval = true ↔
      Covered checkpoints total interval) ∧
    (∀ checkpoints others total interval,
      (∀ position ≤ total, position ∈ checkpoints ↔ position ∈ others) →
        checkpointsCover checkpoints total interval = checkpointsCover others total interval) ∧
    ∀ ledger schedule policy report, audit ledger schedule policy = .ok report →
      (report.auditCompliance = true ↔
        Covered (checkpointPositions ledger) (ledger.countP (·.isCommittedStep))
          (if 0 < policy.auditEvery then policy.auditEvery.toNat
            else schedule.auditInterval.toNat)) := by
  refine ⟨fun _ _ _ => checkpointsCover_iff, ?_, ?_⟩
  · intro checkpoints others total interval h
    rw [Bool.eq_iff_iff, checkpointsCover_iff, checkpointsCover_iff]
    exact Covered.congr fun position _ hlt => h position (Nat.le_of_lt hlt)
  · intro ledger schedule policy report h
    obtain ⟨-, -, entries, hentries, rfl⟩ := audit_eq_ok_iff.1 h
    rw [hentries.covered_iff, Policy.interval, apply_ite UInt64.toNat]

/-- Five steps are audited under the interval of the schedule, which is two. Checkpoints at two and
four are enough, although the first to be logged lies after the end and one is logged twice. Without
the checkpoint at four no checkpoint is among the steps three and four. -/
theorem audit_compliance_exact_of_unsorted :
    let committed (t : UInt64) : Record :=
      { kind := some "ace_step", status := some "committed", t := some t,
        context := some { classId := some 7, coord := some 2050 } }
    let ledger : List Record :=
      [.checkpoint 99, committed 0, committed 1, .checkpoint 4, committed 2, committed 3,
        .checkpoint 2, .checkpoint 2, committed 4]
    let shorter : List Record := ledger.filter (· ≠ .checkpoint 4)
    let schedule : Schedule := { auditInterval := 2 }
    let policy : Policy := { auditEvery := 0 }
    checkpointsCover [99, 4, 2, 2] 5 2 = checkpointsCover [2, 4] 5 2 ∧
      ∃ report found, audit ledger schedule policy = .ok report ∧
        audit shorter schedule policy = .ok found ∧
        report.auditCompliance = true ∧ Covered [99, 4, 2, 2] 5 2 ∧
        found.auditCompliance = false ∧ ¬Covered [99, 2, 2] 5 2 := by
  intro committed ledger shorter schedule policy
  obtain ⟨-, hcongr, hverdict⟩ := audit_compliance_exact
  have hcomplies : (audit ledger schedule policy).map (·.auditCompliance) = .ok true := by
    decide +kernel
  have hfails : (audit shorter schedule policy).map (·.auditCompliance) = .ok false := by
    decide +kernel
  obtain ⟨report, hreport, htrue⟩ := map_eq_ok_iff.1 hcomplies
  obtain ⟨found, hfound, hfalse⟩ := map_eq_ok_iff.1 hfails
  have hcovered : Covered [99, 4, 2, 2] 5 2 := (hverdict _ _ _ _ hreport).1 htrue
  have hgap : ¬Covered [99, 2, 2] 5 2 := by
    intro h
    rw [(hverdict _ _ _ _ hfound).2 h] at hfalse
    cases hfalse
  exact ⟨hcongr _ _ 5 2 (by decide), report, found, hreport, hfound, htrue, hcovered, hfalse, hgap⟩

end LatticeLedger
