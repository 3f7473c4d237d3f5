import LatticeLedger.Proofs.Audit.Cell
import LatticeLedger.Proofs.Audit.Presence
import LatticeLedger.Proofs.Audit.Tally

/-!
# What a report counts

The distributions of a report are counts of the committed steps of the ledger, taken from what was
logged: of the steps in a class, of the steps at an anchor, and of the coordinates that occur. No
step is left out, whichever way its place was logged, and no step counts twice, so each distribution
adds up to the number of steps. Checkpoints are counted by their kind.
-/

namespace LatticeLedger

/-- The committed steps of a ledger, in its order. -/
def committedSteps (ledger : List Record) : List Record := ledger.filter (·.isCommittedStep)

/-- Whether a tally says for each number below a bound how many steps visit it, and nothing of
numbers that no step visits; every step visits one. -/
structure Tally.Distributes (tally : Tally) (bound : Nat) (steps : List Record)
    (visits : Record → Option Nat) : Prop where
  visited : ∀ step ∈ steps, ∃ n < bound, visits step = some n
  counts : ∀ key n, tally.get? key = some n ↔
    0 < n ∧ n = steps.countP fun step => visits step = some key.toNat
  key_lt : ∀ key ∈ tally.keys, key.toNat < bound
  sum : tally.values.sum = steps.length

/-- What a report counts of a ledger under a schedule. -/
structure Report.Reckons (report : Report) (schedule : Schedule) (ledger : List Record) :
    Prop where
  totalSteps : report.totalSteps = (committedSteps ledger).length
  classes : report.classDistribution.Distributes 96 (committedSteps ledger) Record.visitedClass
  anchors : report.anchorDistribution.Distributes 6 (committedSteps ledger) Record.visitedAnchor
  coords : report.coordsVisited =
    ((committedSteps ledger).filterMap Record.visitedCoord).toFinset.card
  coords_le : report.coordsVisited ≤ 12288
  coords_le_steps : report.coordsVisited ≤ report.totalSteps
  auditEntries : report.auditEntries = ledger.countP fun record => record.kind = some "audit"
  coverage : report.coverageComplete ↔
    schedule.windowSize.toNat * schedule.windowCount.toNat ≤ report.coordsVisited

/-- The tally of what audited steps visit distributes the records that were audited. -/
theorem Tally.distributes_ofList {bound : Nat} {records : List Record}
    {steps : List AuditedStep} {visits : Record → Option Nat} {number : AuditedStep → Fin bound}
    (h : List.Forall₂ (fun record step => visits record = some (number step).val) records steps)
    (hbound : bound ≤ UInt32.size) :
    (Tally.ofList (steps.map fun step => UInt32.ofNat (number step).val)).Distributes bound
      records visits := by
  have hvisits : records.map visits = (steps.map fun step => (number step).val).map some := by
    rw [List.map_map]
    exact map_eq_of_forall₂ h fun _ _ heq => heq
  have hwords : (steps.map fun step => UInt32.ofNat (number step).val) =
      (steps.map fun step => (number step).val).map UInt32.ofNat := by
    rw [List.map_map]
    rfl
  have hlength : records.length = (steps.map fun step => (number step).val).length := by
    rw [List.length_map, h.length_eq]
  have hlt : ∀ n ∈ steps.map fun step => (number step).val, n < bound :=
    List.forall_mem_map.2 fun step _ => (number step).isLt
  -- From here on the audited steps are only the numbers that they visit.
  rw [hwords]
  generalize (steps.map fun step => (number step).val) = numbers at hvisits hlength hlt
  have hcounts : (Tally.ofList (numbers.map UInt32.ofNat)).Counts numbers :=
    Tally.counts_ofList fun n hn => Nat.lt_of_lt_of_le (hlt n hn) hbound
  constructor
  case visited =>
    intro record hmem
    obtain ⟨n, hn, heq⟩ := List.mem_map.1 (hvisits ▸ List.mem_map_of_mem hmem)
    exact ⟨n, hlt n hn, heq.symm⟩
  case counts =>
    intro key n
    have hcount : numbers.count key.toNat =
        records.countP fun record => visits record = some key.toNat := by
      rw [← List.count_map_of_injective numbers some (Option.some_injective Nat), ← hvisits,
        List.count_eq_countP, List.countP_map]
      refine List.countP_congr fun record _ => ?_
      rw [Function.comp_apply, beq_iff_eq, decide_eq_true_iff]
    rw [← hcount]
    exact hcounts key n
  case key_lt =>
    intro key hkey
    exact hlt _ (hcounts.mem_of_mem_keys hkey)
  case sum => rw [Tally.sum_values_ofList, List.length_map, hlength]

namespace Record.EntriesOf

variable {policy : Policy} {ledger : List Record} {entries : List Entry}

/-- The checkpoints among the entries are as many as the records of their kind. -/
theorem length_checkpoints (h : EntriesOf policy ledger entries) :
    (Entry.checkpoints entries).length =
      ledger.countP fun record => record.kind = some checkpointKind := by
  rw [List.countP_eq_length_filter, h.checkpoints.length_eq]

end Record.EntriesOf

/-- A report reckons with every committed step and every checkpoint of the ledger. -/
theorem distribution_exact {ledger : List Record} {schedule : Schedule} {policy : Policy}
    {report : Report} (h : audit ledger schedule policy = .ok report) :
    report.Reckons schedule ledger := by
  obtain ⟨-, -, entries, hentries, rfl⟩ := audit_eq_ok_iff.1 h
  have hsteps : List.Forall₂ (fun record step => record.auditedStep = .ok step)
      (committedSteps ledger) (Entry.steps entries) := hentries.steps
  have hcoords : (committedSteps ledger).filterMap Record.visitedCoord =
      (Entry.steps entries).filterMap fun step => step.cell.coord.map (·.val) :=
    filterMap_eq_of_forall₂ hsteps fun _ _ hstep => (Record.visited_of_auditedStep hstep).2.2
  have hvisited : (Report.ofEntries schedule policy entries).coordsVisited =
      ((committedSteps ledger).filterMap Record.visitedCoord).toFinset.card := by
    rw [hcoords]
    exact OrderedSet.size_ofList _
  constructor
  case totalSteps => exact hsteps.length_eq.symm
  case classes =>
    refine Tally.distributes_ofList (hsteps.imp fun _ _ hstep => ?_) (by decide)
    exact (Record.visited_of_auditedStep hstep).1
  case anchors =>
    refine Tally.distributes_ofList (hsteps.imp fun _ _ hstep => ?_) (by decide)
    exact (Record.visited_of_auditedStep hstep).2.1
  case coords => exact hvisited
  case coords_le =>
    have hsubset : ((committedSteps ledger).filterMap Record.visitedCoord).toFinset ⊆
        Finset.range 12288 := by
      intro n hn
      rw [List.mem_toFinset, hcoords, List.mem_filterMap] at hn
      obtain ⟨step, -, hcoord⟩ := hn
      obtain ⟨coord, -, rfl⟩ := Option.map_eq_some_iff.1 hcoord
      exact Finset.mem_range.2 coord.isLt
    rw [hvisited]
    exact (Finset.card_le_card hsubset).trans_eq (Finset.card_range 12288)
  case coords_le_steps =>
    rw [hvisited]
    refine (List.toFinset_card_le _).trans ((List.length_filterMap_le _ _).trans_eq ?_)
    exact hsteps.length_eq
  case auditEntries => exact hentries.length_checkpoints
  case coverage => exact decide_eq_true_iff

/-- Three steps visit one coordinate under its three names, and a fourth is logged by its class and
anchor alone. The aborted step is not counted, wherever it claims to be. -/
theorem distribution_exact_of_four_shapes :
    let committed (t : UInt64) (context : LoggedContext) : Record :=
      { kind := some "ace_step", status := some "committed", t := some t, context := some context }
    let ledger : List Record :=
      [committed 0 { classId := some 4, coord := some 2050 },
        committed 1 { classId := some 4, anchor := some 1, vBits := some 2 },
        { kind := some "ace_step", status := some "aborted",
          context := some { classId := some 4, coord := some 2050 } },
        committed 2 { classId := some 7, coord := some 2050, anchor := some 1, vBits := some 2 },
        .checkpoint 9, committed 3 { classId := some 95, anchor := some 5 }]
    ∃ report, audit ledger {} {} = .ok report ∧ report.Reckons {} ledger ∧
      report.classDistribution.toList = [(4, 2), (7, 1), (95, 1)] ∧
      report.anchorDistribution.toList = [(1, 3), (5, 1)] ∧
      report.totalSteps = 4 ∧ report.coordsVisited = 1 ∧ report.auditEntries = 1 := by
  intro committed ledger
  have hok : (audit ledger {} {}).toOption.map (fun report =>
      (report.classDistribution.toList, report.anchorDistribution.toList, report.totalSteps,
        report.coordsVisited, report.auditEntries)) =
      some ([(4, 2), (7, 1), (95, 1)], [(1, 3), (5, 1)], 4, 1, 1) := by
    decide +kernel
  cases hreport : audit ledger {} {} with
  | error error =>
    rw [hreport] at hok
    cases hok
  | ok report =>
    rw [hreport] at hok
    simp only [Except.toOption, Option.map_some, Option.some.injEq, Prod.mk.injEq] at hok
    exact ⟨report, rfl, distribution_exact hreport, hok⟩

end LatticeLedger
