import LatticeLedger.Audit.Run
import LatticeLedger.Proofs.Audit.Tally

/-!
# What the pass over a ledger gathers

The pass of an audit keeps counters, sets and an index that change with every record. What they
hold in the end is said here without them: the entries of the ledger as a list, the tallies of the
classes and anchors in it, and for each step the kinds of which no closing in it belongs to the
step. One step of the pass preserves this relation between what was gathered and the entries that
were read, and so the report of an audit is the report on the entries of its ledger.
-/

namespace LatticeLedger

/-! ### The entries of a ledger and the report on them -/

/-- The entries of the records that stand from `index` on; the first fault ends the reading. -/
def entriesFrom (policy : Policy) (index : Nat) : List Record → Except AuditError (List Entry)
  | [] => .ok []
  | record :: rest => do
    let entry ← (record.entry policy).mapError (.record index)
    let entries ← entriesFrom policy (index + 1) rest
    return entry :: entries

namespace Entry

/-- The steps among entries, in their order. -/
def steps (entries : List Entry) : List AuditedStep :=
  entries.filterMap fun
    | .step logged => some logged
    | _ => none

/-- The positions of the checkpoints among entries. -/
def checkpoints (entries : List Entry) : List UInt64 :=
  entries.filterMap fun
    | .checkpoint t => some t
    | _ => none

/-- The closings among entries. -/
def closings (entries : List Entry) : List Closing :=
  entries.filterMap fun
    | .closing logged => some logged
    | _ => none

end Entry

/-- Whether a closing belongs to a step: both carry the same position, or the closing names
the step's id. -/
def Closing.closes (closing : Closing) (step : AuditedStep) : Bool :=
  (closing.t.isSome && closing.t == step.t) ||
    (closing.step.isSome && closing.step == step.entryId)

/-- The required kinds for which a step has no closing, ascending. -/
def Policy.missingFor (policy : Policy) (closings : List Closing) (step : AuditedStep) :
    List String :=
  policy.perStepKinds.toList.filter fun kind =>
    !closings.any fun closing => closing.kind == kind && closing.closes step

/-- The steps that lack a closing, each with the kinds that it lacks. -/
def Policy.missing (policy : Policy) (closings : List Closing) (steps : List AuditedStep) :
    List MissingKinds :=
  (steps.map fun step => MissingKinds.mk step.ref (policy.missingFor closings step)).filter
    fun missing => !missing.kinds.isEmpty

/-- The report on the entries of a ledger. -/
def Report.ofEntries (schedule : Schedule) (policy : Policy) (entries : List Entry) : Report :=
  let steps := Entry.steps entries
  let checkpoints := Entry.checkpoints entries
  let classes := Tally.ofList (steps.map fun step => UInt32.ofNat step.cell.classId.val)
  let anchors := Tally.ofList (steps.map fun step => UInt32.ofNat step.cell.anchor.val)
  let missing := policy.missing (Entry.closings entries) steps
  let visited := (OrderedSet.ofList (steps.filterMap fun step => step.cell.coord.map (·.val))).size
  { totalSteps := steps.length
    classDistribution := classes
    anchorDistribution := anchors
    classSkew := classes.skew
    anchorSkew := anchors.skew
    fairClasses := classes.skew ≤ policy.classSkewTolerance.toNat
    fairAnchors := anchors.skew ≤ policy.anchorSkewTolerance.toNat
    badClasses := classes.culprits policy.classSkewTolerance.toNat
    badAnchors := anchors.culprits policy.anchorSkewTolerance.toNat
    missing := missing.map (·.step)
    missingKinds := missing
    auditEntries := checkpoints.length
    auditCompliance :=
      checkpointsCover (checkpoints.map (·.toNat)) steps.length (policy.interval schedule).toNat
    coordsVisited := visited
    scheduledCoords := schedule.coords
    coverageComplete := schedule.coords ≤ visited }

/-! ### One step of the pass -/

/-- After an insertion the index has what it had before and what the new closing belongs to. -/
theorem LinkIndex.has_insert (index : LinkIndex) (closing : Closing) (kind : String)
    (step : AuditedStep) :
    (index.insert closing).has kind step =
      (index.has kind step || (closing.kind == kind && closing.closes step)) := by
  rw [has, insert, OrderedMap.notes_note, OrderedMap.notes_note, has, Closing.closes,
    Bool.and_or_distrib_left]
  ac_rfl

namespace AuditPass

/-- Whether a pass holds what it should after some steps, closings and checkpoints: the tallies and
the coordinates of the steps, both lists, and an index that finds the closings of every step. -/
structure Reflects (pass : AuditPass) (steps : List AuditedStep) (closings : List Closing)
    (checkpoints : List UInt64) : Prop where
  classes : pass.classes = Tally.ofList (steps.map fun step => UInt32.ofNat step.cell.classId.val)
  anchors : pass.anchors = Tally.ofList (steps.map fun step => UInt32.ofNat step.cell.anchor.val)
  visited : pass.visited = .ofList (steps.filterMap fun step => step.cell.coord.map (·.val))
  committed : pass.committed.toList = steps
  links : ∀ kind step, pass.links.has kind step =
    closings.any fun closing => closing.kind == kind && closing.closes step
  checkpoints : pass.checkpoints.toList = checkpoints

/-- Before the first record nothing is gathered. -/
theorem reflects_nil : ({} : AuditPass).Reflects [] [] [] where
  classes := rfl
  anchors := rfl
  visited := rfl
  committed := rfl
  links kind step := by
    rw [LinkIndex.has, OrderedMap.notes_empty, OrderedMap.notes_empty]
    rfl
  checkpoints := rfl

variable {pass : AuditPass} {steps : List AuditedStep} {closings : List Closing}
  {checkpoints : List UInt64}

/-- A committed step is counted in its class and at its anchor, and at its coordinate if it has
one. -/
theorem Reflects.count (h : pass.Reflects steps closings checkpoints) (step : AuditedStep) :
    (pass.count step).Reflects (steps ++ [step]) closings checkpoints where
  classes := by
    rw [List.map_append, List.map_singleton, Tally.ofList_concat, ← h.classes]
    rfl
  anchors := by
    rw [List.map_append, List.map_singleton, Tally.ofList_concat, ← h.anchors]
    rfl
  visited := by
    rw [AuditPass.count, List.filterMap_append, List.filterMap_cons, List.filterMap_nil]
    cases step.cell.coord with
    | none => simpa using h.visited
    | some coord => simp only [Option.map_some, OrderedSet.ofList_concat, ← h.visited]
  committed := by rw [AuditPass.count, Array.toList_push, h.committed]
  links := h.links
  checkpoints := h.checkpoints

/-- A closing is entered into the index. -/
theorem Reflects.insert (h : pass.Reflects steps closings checkpoints) (closing : Closing) :
    { pass with links := pass.links.insert closing }.Reflects steps (closings ++ [closing])
      checkpoints :=
  { h with
    links := fun kind step => by
      rw [LinkIndex.has_insert, h.links, List.any_append, List.any_cons, List.any_nil,
        Bool.or_false] }

/-- A checkpoint is the last one so far. -/
theorem Reflects.push (h : pass.Reflects steps closings checkpoints) (t : UInt64) :
    { pass with checkpoints := pass.checkpoints.push t }.Reflects steps closings
      (checkpoints ++ [t]) :=
  { h with checkpoints := by rw [Array.toList_push, h.checkpoints] }

/-- Whether a pass holds what it should after the records with these entries. -/
abbrev Summarizes (pass : AuditPass) (entries : List Entry) : Prop :=
  pass.Reflects (Entry.steps entries) (Entry.closings entries) (Entry.checkpoints entries)

variable {entries : List Entry}

/-- One step of the pass: what it holds agrees with the entries read so far, the next included. -/
theorem Summarizes.take (h : pass.Summarizes entries) (entry : Entry) :
    (pass.take entry).Summarizes (entries ++ [entry]) := by
  have hsteps : Entry.steps (entries ++ [entry]) = Entry.steps entries ++ Entry.steps [entry] :=
    List.filterMap_append
  have hclosings : Entry.closings (entries ++ [entry]) =
      Entry.closings entries ++ Entry.closings [entry] := List.filterMap_append
  have hcheckpoints : Entry.checkpoints (entries ++ [entry]) =
      Entry.checkpoints entries ++ Entry.checkpoints [entry] := List.filterMap_append
  rw [Summarizes, hsteps, hclosings, hcheckpoints]
  -- Of the three lists an entry makes one longer, or none.
  cases entry with
  | step step =>
    change (pass.count step).Reflects (_ ++ [step]) (_ ++ []) (_ ++ [])
    rw [List.append_nil, List.append_nil]
    exact h.count step
  | checkpoint t =>
    change Reflects _ (_ ++ []) (_ ++ []) (_ ++ [t])
    rw [List.append_nil, List.append_nil]
    exact h.push t
  | closing closing =>
    change Reflects _ (_ ++ []) (_ ++ [closing]) (_ ++ [])
    rw [List.append_nil, List.append_nil]
    exact h.insert closing
  | other =>
    change Reflects _ (_ ++ []) (_ ++ []) (_ ++ [])
    rw [List.append_nil, List.append_nil, List.append_nil]
    exact h

/-! ### The whole pass -/

/-- Going over a ledger is taking its entries one after the other. -/
theorem run_eq (policy : Policy) (index : Nat) (pass : AuditPass) (ledger : List Record) :
    run policy index pass ledger =
      (entriesFrom policy index ledger).map fun entries => entries.foldl take pass := by
  induction ledger generalizing index pass with
  | nil => rfl
  | cons record rest ih =>
    rw [run, entriesFrom]
    cases record.entry policy with
    | error fault => rfl
    | ok entry =>
      change run policy (index + 1) (pass.take entry) rest = _
      rw [ih]
      cases entriesFrom policy (index + 1) rest <;> rfl

/-- What a pass holds after several records agrees with all of their entries. -/
theorem Summarizes.foldl (h : pass.Summarizes entries) (others : List Entry) :
    (others.foldl AuditPass.take pass).Summarizes (entries ++ others) := by
  induction others generalizing pass entries with
  | nil => simpa using h
  | cons entry rest ih => simpa using ih (h.take entry)

/-- After a whole ledger the pass holds what it should of its entries. -/
theorem summarizes_foldl (entries : List Entry) :
    (entries.foldl take {}).Summarizes entries := by
  have hnil : ({} : AuditPass).Summarizes [] := reflects_nil
  exact hnil.foldl entries

/-- The steps with missing closings that the index finds are those of the list of closings. -/
theorem Summarizes.missing_eq (h : pass.Summarizes entries) (policy : Policy) :
    pass.missing policy = policy.missing (Entry.closings entries) (Entry.steps entries) := by
  rw [AuditPass.missing, h.committed, Policy.missing]
  generalize Entry.steps entries = steps
  have hkinds (step : AuditedStep) :
      (policy.perStepKinds.toList.filter fun kind => !pass.links.has kind step) =
        policy.missingFor (Entry.closings entries) step := by
    simp only [h.links, Policy.missingFor]
  simp only [hkinds]
  induction steps with
  | nil => rfl
  | cons step rest ih =>
    rw [List.filterMap_cons, List.map_cons, List.filter_cons, ih]
    cases policy.missingFor (Entry.closings entries) step <;> rfl

/-- The report on a pass is the report on the entries that it has taken. -/
theorem Summarizes.report_eq (h : pass.Summarizes entries) (schedule : Schedule)
    (policy : Policy) :
    pass.report schedule policy = Report.ofEntries schedule policy entries := by
  have hsteps : pass.committed.size = (Entry.steps entries).length := by
    rw [← h.committed, Array.length_toList]
  have hcheckpoints : pass.checkpoints.size = (Entry.checkpoints entries).length := by
    rw [← h.checkpoints, Array.length_toList]
  rw [report, Report.ofEntries, h.missing_eq, h.classes, h.anchors, h.visited, hsteps,
    hcheckpoints, h.checkpoints]

end AuditPass

/-- An audit reports on the entries of its ledger: in one pass it gathers what the report on all
of them says. -/
theorem audit_eq (ledger : List Record) (schedule : Schedule) (policy : Policy) :
    audit ledger schedule policy = do
      schedule.check.mapError .violation
      policy.check.mapError .violation
      let entries ← entriesFrom policy 0 ledger
      return Report.ofEntries schedule policy entries := by
  rw [audit, AuditPass.run_eq]
  cases entriesFrom policy 0 ledger with
  | error error => rfl
  | ok entries =>
    have hreport := (AuditPass.summarizes_foldl entries).report_eq schedule policy
    simp only [Except.map, bind, Except.bind, hreport]

end LatticeLedger
