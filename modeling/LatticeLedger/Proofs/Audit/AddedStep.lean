import LatticeLedger.Proofs.Audit.Distribution
import LatticeLedger.Proofs.Audit.Reordering
import LatticeLedger.Proofs.Ledger.CommittedStep

/-!
# One more guarded step

A guarded step outlives its log. Guarded again from what was logged it has the same address,
position and link, and an audit that finds its record in a ledger counts one step more than
without it, in the class, at the anchor and at the coordinate to which the step was guarded. The
record stops no audit, wherever in the ledger it stands.
-/

namespace LatticeLedger

/-- Whether a step is recovered from its log: the logged context names the place in both ways, is
guarded to the same address and position, and of the notes the link alone is left. Logging the
recovered step and guarding it again changes nothing. -/
structure GuardedStep.Recovered (guarded again : GuardedStep) : Prop where
  both : ∃ step coord anchor vBits,
    (LoggedContext.ofGuarded guarded).stepContext guarded.t = .ok step ∧
      step.coordinates = .both coord anchor vBits
  reguarded : (LoggedContext.ofGuarded guarded).reguarded guarded.t = .ok again
  address : again.address = guarded.address
  t : again.t = guarded.t
  metadata : ∀ key,
    again.metadata.get? key = if key = "ace" then guarded.metadata.get? key else none
  settled : (LoggedContext.ofGuarded again).reguarded again.t = .ok again

/-- A step is recovered as the same one with the notes that were logged. -/
theorem GuardedStep.recovered (guarded : GuardedStep) :
    guarded.Recovered ⟨guarded.address, guarded.t, loggedNotes guarded.metadata⟩ where
  both := ⟨_, _, _, _, LoggedContext.stepContext_ofGuarded guarded guarded.t, rfl⟩
  reguarded := LoggedContext.reguarded_ofGuarded guarded guarded.t
  address := rfl
  t := rfl
  metadata := get?_loggedNotes guarded.metadata
  settled := by rw [LoggedContext.reguarded_ofGuarded, loggedNotes_loggedNotes]

/-- A tally that counts a list has counted each number as often as it occurs, be it never. -/
theorem Tally.Counts.count_eq {tally : Tally} {numbers : List Nat} (h : tally.Counts numbers)
    (key : UInt32) : tally.count key = numbers.count key.toNat := by
  rw [count]
  cases hkey : tally.get? key with
  | some n => exact ((h key n).1 hkey).2
  | none =>
    have hzero : ¬0 < numbers.count key.toNat := by
      intro hpos
      rw [(h key _).2 ⟨hpos, rfl⟩] at hkey
      cases hkey
    exact (Nat.eq_zero_of_not_pos hzero).symm

/-- Whether a report counts one step more than another, in the class and at the anchor of an
address, and the coordinate of the address unless it is among those visited anyway. -/
structure Report.CountsOneMore (report rest : Report) (address : Address) (visited : List Nat) :
    Prop where
  totalSteps : report.totalSteps = rest.totalSteps + 1
  classes : ∀ key, report.classDistribution.count key =
    rest.classDistribution.count key + if key.toNat = address.classId.val then 1 else 0
  anchors : ∀ key, report.anchorDistribution.count key =
    rest.anchorDistribution.count key + if key.toNat = address.anchor.val then 1 else 0
  coords : report.coordsVisited =
    rest.coordsVisited + if address.coord.val ∈ visited then 0 else 1

/-- A tally of one element more counts this element once more. -/
theorem Tally.count_ofList_cons {bound : Nat} (hbound : bound ≤ UInt32.size)
    {steps : List AuditedStep} (number : AuditedStep → Fin bound) (step : AuditedStep)
    (key : UInt32) :
    (Tally.ofList ((step :: steps).map fun step => UInt32.ofNat (number step).val)).count key =
      (Tally.ofList (steps.map fun step => UInt32.ofNat (number step).val)).count key +
        if key.toNat = (number step).val then 1 else 0 := by
  have hcount (steps : List AuditedStep) :
      (Tally.ofList (steps.map fun step => UInt32.ofNat (number step).val)).count key =
        (steps.map fun step => (number step).val).count key.toNat := by
    have hlt : ∀ n ∈ steps.map fun step => (number step).val, n < UInt32.size :=
      List.forall_mem_map.2 fun step _ => Nat.lt_of_lt_of_le (number step).isLt hbound
    have hcounts := Tally.counts_ofList hlt
    rw [List.map_map] at hcounts
    exact hcounts.count_eq key
  rw [hcount, hcount, List.map_cons, List.count_cons]
  simp only [beq_iff_eq]
  exact congrArg _ (if_congr eq_comm rfl rfl)

/-- A report on one step more counts this step. -/
theorem Report.countsOneMore_ofEntries (schedule : Schedule) (policy : Policy)
    (entries : List Entry) {step : AuditedStep} {address : Address}
    (hcell : step.cell = ⟨address.classId, address.anchor, some address.coord⟩) :
    (ofEntries schedule policy (.step step :: entries)).CountsOneMore
      (ofEntries schedule policy entries) address
      ((Entry.steps entries).filterMap fun step => step.cell.coord.map (·.val)) := by
  have hsteps : Entry.steps (.step step :: entries) = step :: Entry.steps entries := rfl
  constructor
  case totalSteps => rfl
  case classes =>
    intro key
    simp only [ofEntries, hsteps]
    rw [Tally.count_ofList_cons (by decide) (·.cell.classId), hcell]
  case anchors =>
    intro key
    simp only [ofEntries, hsteps]
    rw [Tally.count_ofList_cons (by decide) (·.cell.anchor), hcell]
  case coords =>
    have hcoord : step.cell.coord.map (·.val) = some address.coord.val := by rw [hcell]; rfl
    simp only [ofEntries, hsteps, List.filterMap_cons, hcoord]
    rw [OrderedSet.size_ofList, OrderedSet.size_ofList, List.toFinset_cons,
      Finset.card_insert_eq_ite]
    simp only [List.mem_toFinset]
    split <;> rfl

namespace Record

/-- Whether audits under a schedule and a policy accept a record and count it at an address: alone,
and in every ledger, at every place, exactly if they accept the other records. -/
structure AcceptedAt (record : Record) (address : Address) (schedule : Schedule) (policy : Policy) :
    Prop where
  alone : ∃ report, audit [record] schedule policy = .ok report
  among : ∀ earlier later,
    (∃ report, audit (earlier ++ record :: later) schedule policy = .ok report) ↔
      ∃ rest, audit (earlier ++ later) schedule policy = .ok rest
  counted : ∀ earlier later report rest,
    audit (earlier ++ record :: later) schedule policy = .ok report →
    audit (earlier ++ later) schedule policy = .ok rest →
    report.CountsOneMore rest address
      ((committedSteps (earlier ++ later)).filterMap Record.visitedCoord)

variable {record : Record} {ledger : List Record} {schedule : Schedule} {policy : Policy}
  {report rest : Report}

/-- The coordinates that an audit counts are those that the steps visit. -/
theorem EntriesOf.visitedCoords {entries : List Entry} (h : EntriesOf policy ledger entries) :
    (committedSteps ledger).filterMap Record.visitedCoord =
      (Entry.steps entries).filterMap fun step => step.cell.coord.map (·.val) := by
  have hsteps : List.Forall₂ (fun record step => record.auditedStep = .ok step)
      (committedSteps ledger) (Entry.steps entries) := h.steps
  exact filterMap_eq_of_forall₂ hsteps fun _ _ hstep => (visited_of_auditedStep hstep).2.2

/-- A ledger has no other entries. -/
theorem EntriesOf.unique {entries others : List Entry} (h : EntriesOf policy ledger entries)
    (hothers : EntriesOf policy ledger others) : entries = others := by
  have hentries : entriesFrom policy 0 ledger = .ok entries := entriesFrom_eq_ok_iff.2 h
  rw [entriesFrom_eq_ok_iff.2 hothers] at hentries
  exact (Except.ok.inj hentries).symm

/-- A record with an entry, at the head of a ledger, does not decide whether there is a report. -/
theorem exists_audit_cons_iff {entry : Entry} (hentry : record.entry policy = .ok entry) :
    (∃ report, audit (record :: ledger) schedule policy = .ok report) ↔
      ∃ rest, audit ledger schedule policy = .ok rest := by
  constructor
  · rintro ⟨report, h⟩
    obtain ⟨hschedule, hpolicy, entries, hentries, -⟩ := audit_eq_ok_iff.1 h
    obtain ⟨_, others, -, hothers, rfl⟩ := List.forall₂_cons_left_iff.1 hentries
    exact ⟨_, audit_eq_ok_iff.2 ⟨hschedule, hpolicy, others, hothers, rfl⟩⟩
  · rintro ⟨rest, h⟩
    obtain ⟨hschedule, hpolicy, entries, hentries, -⟩ := audit_eq_ok_iff.1 h
    exact ⟨_, audit_eq_ok_iff.2 ⟨hschedule, hpolicy, entry :: entries, .cons hentry hentries, rfl⟩⟩

/-- A step at the head of a ledger is counted. -/
theorem countsOneMore_of_audit_cons {step : AuditedStep} {address : Address}
    (hentry : record.entry policy = .ok (.step step))
    (hcell : step.cell = ⟨address.classId, address.anchor, some address.coord⟩)
    (h : audit (record :: ledger) schedule policy = .ok report)
    (hrest : audit ledger schedule policy = .ok rest) :
    report.CountsOneMore rest address ((committedSteps ledger).filterMap Record.visitedCoord) := by
  obtain ⟨-, -, entries, hentries, rfl⟩ := audit_eq_ok_iff.1 h
  obtain ⟨-, -, others, hothers, rfl⟩ := audit_eq_ok_iff.1 hrest
  obtain rfl := EntriesOf.unique hentries (.cons hentry hothers)
  rw [hothers.visitedCoords]
  exact Report.countsOneMore_ofEntries schedule policy others hcell

/-- A record that is read as a step is accepted wherever it stands, since an audit does not depend
on the order of a ledger. -/
theorem acceptedAt_of_entry {step : AuditedStep} {address : Address}
    (hschedule : schedule.check = .ok ()) (hpolicy : policy.check = .ok ())
    (hentry : record.entry policy = .ok (.step step))
    (hcell : step.cell = ⟨address.classId, address.anchor, some address.coord⟩) :
    record.AcceptedAt address schedule policy := by
  have hmiddle (earlier later : List Record) :
      (earlier ++ record :: later).Perm (record :: (earlier ++ later)) := List.perm_middle
  constructor
  case alone =>
    exact ⟨_, audit_eq_ok_iff.2 ⟨hschedule, hpolicy, _, .cons hentry .nil, rfl⟩⟩
  case among =>
    intro earlier later
    have hmoved : (∃ report, audit (earlier ++ record :: later) schedule policy = .ok report) ↔
        ∃ report, audit (record :: (earlier ++ later)) schedule policy = .ok report := by
      constructor
      · rintro ⟨report, h⟩
        obtain ⟨found, hfound, -⟩ := exists_audit_of_perm (hmiddle earlier later) h
        exact ⟨found, hfound⟩
      · rintro ⟨report, h⟩
        obtain ⟨found, hfound, -⟩ := exists_audit_of_perm (hmiddle earlier later).symm h
        exact ⟨found, hfound⟩
    exact hmoved.trans (exists_audit_cons_iff hentry)
  case counted =>
    intro earlier later report rest h hrest
    obtain ⟨found, hfound, hsame⟩ := exists_audit_of_perm (hmiddle earlier later) h
    have hcounted := countsOneMore_of_audit_cons hentry hcell hfound hrest
    rw [hsame.others] at hcounted
    exact ⟨hcounted.totalSteps, hcounted.classes, hcounted.anchors, hcounted.coords⟩

end Record

/-- Logging a guarded step loses nothing of it but the notes that are no link to a step, and these
only once. Its record fails for no other reason than an id that is no token of at most 128 bytes.
Otherwise the record keeps its contract and is a committed step, at whatever position it is logged,
and every audit under a valid schedule and policy accepts it and counts it in the class, at the
anchor and at the coordinate of the guarded address. -/
theorem guarded_step_outlives_log (guarded : GuardedStep) :
    (∃ again, guarded.Recovered again) ∧
    ∀ (entryId : Option String) (t : UInt64),
      ((∃ violation, Record.committedStep entryId t guarded = .error violation) ↔
        ∃ id, entryId = some id ∧ ¬IsToken 128 id) ∧
      ∀ record, Record.committedStep entryId t guarded = .ok record →
        record.check = .ok () ∧ record.isCommittedStep ∧
        ∀ schedule policy, schedule.check = .ok () → policy.check = .ok () →
          record.AcceptedAt guarded.address schedule policy := by
  refine ⟨⟨_, guarded.recovered⟩, fun entryId t => ?_⟩
  refine ⟨Record.exists_committedStep_eq_error_iff, fun record h => ?_⟩
  refine ⟨Record.check_of_committedStep h, Record.isCommittedStep_of_committedStep h, ?_⟩
  intro schedule policy hschedule hpolicy
  obtain ⟨ref, -, hentry⟩ := Record.exists_entry_of_committedStep policy h
  exact Record.acceptedAt_of_entry hschedule hpolicy hentry rfl

/-- A step with a link and another note, guarded at its anchor and offset. The log keeps the link
and drops the other note. The step is logged under an id at a later position, between a checkpoint
and another step at the same coordinate: one step more, in a class that was not visited before, and
no coordinate more. Under an empty id it is not logged. -/
theorem guarded_step_outlives_log_of_foreign_note :
    let notes : OrderedMap String String := (OrderedMap.empty.insert "ace" "a").insert "note" "x"
    let context : StepContext := ⟨5, .anchorOffset 1 2, some 3, notes⟩
    let guarded : GuardedStep := ⟨⟨5, 2050⟩, some 3, notes⟩
    let other : Record :=
      { kind := some "ace_step", status := some "committed", t := some 9,
        context := some { classId := some 4, coord := some 2050 } }
    guardStep context = .ok guarded ∧
      (∃ again, guarded.Recovered again ∧ again.metadata.get? "ace" = some "a" ∧
        again.metadata.get? "note" = none) ∧
      (∃ record report rest, Record.committedStep (some "b") 7 guarded = .ok record ∧
        audit [.checkpoint 8, record, other] {} {} = .ok report ∧
        audit [.checkpoint 8, other] {} {} = .ok rest ∧ report.totalSteps = 2 ∧
        report.classDistribution.count 5 = 1 ∧ report.coordsVisited = rest.coordsVisited) ∧
      ∃ violation, Record.committedStep (some "") 7 guarded = .error violation := by
  intro notes context guarded other
  have hguarded : guardStep context = .ok guarded := by decide +kernel
  have htoken : IsToken 128 "b" := checkToken_eq_ok_iff.1
    (show checkToken "ledger_record.entry_id" 128 "b" = .ok () by decide +kernel)
  have hrest : (audit [.checkpoint 8, other] {} {}).map (fun rest =>
      (rest.totalSteps, rest.classDistribution.count 5)) = .ok (1, 0) := by
    decide +kernel
  have hvisited : 2050 ∈ (committedSteps [.checkpoint 8, other]).filterMap Record.visitedCoord := by
    decide +kernel
  obtain ⟨⟨again, hagain⟩, hlogged⟩ := guarded_step_outlives_log guarded
  obtain ⟨record, hrecord⟩ : ∃ record, Record.committedStep (some "b") 7 guarded = .ok record :=
    ⟨_, Record.committedStep_eq_ok_iff.2 ⟨fun id hid => Option.some.inj hid ▸ htoken, rfl⟩⟩
  obtain ⟨rest, hrest, heq⟩ := map_eq_ok_iff.1 hrest
  obtain ⟨htotal, hclass⟩ := Prod.mk.inj heq
  have haccepted : record.AcceptedAt ⟨5, 2050⟩ {} {} :=
    ((hlogged (some "b") 7).2 record hrecord).2.2 {} {} (by decide +kernel) (by decide +kernel)
  obtain ⟨report, hreport⟩ := (haccepted.among [.checkpoint 8] [other]).2 ⟨rest, hrest⟩
  have hcounted := haccepted.counted [.checkpoint 8] [other] report rest hreport hrest
  refine ⟨hguarded, ⟨again, hagain, ?_, ?_⟩,
    ⟨record, report, rest, hrecord, hreport, hrest, ?_, ?_, ?_⟩,
    (hlogged (some "") 7).1.2 ⟨"", rfl, ?_⟩⟩
  · rw [hagain.metadata, if_pos rfl]
    decide +kernel
  · rw [hagain.metadata, if_neg (by decide)]
  · rw [hcounted.totalSteps, htotal]
  · rw [hcounted.classes, hclass]
    decide
  · exact hcounted.coords.trans (congrArg (rest.coordsVisited + ·) (if_pos hvisited))
  · intro hempty
    obtain ⟨c, hmem, -⟩ := hempty.visible
    cases hmem

end LatticeLedger
