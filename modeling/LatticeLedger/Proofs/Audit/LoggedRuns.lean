import LatticeLedger.Proofs.Audit.Presence
import LatticeLedger.Proofs.Audit.Tally
import LatticeLedger.Proofs.Ledger.CommittedStep
import LatticeLedger.Proofs.Ledger.Consistency

/-!
# The audit of a logged run

A run has its steps guarded and logs them, with closings and checkpoints, in a store that may turn
away any of its calls. Whatever was turned away, the ledger that comes of it can be audited, and
the report counts the accepted calls and nothing else. The link is `Operation.Contributes`: what
the audit reads from the record of an accepted call is what the call was made with.
-/

namespace LatticeLedger

/-- A step as a run hands it to the store. -/
structure StepCall where
  guarded : GuardedStep
  entryId : Option String

namespace StepCall

/-- The address of a step, to which it was guarded. -/
def address (call : StepCall) : Address := call.guarded.address

/-- The id of a step, or else its position. -/
def ref? (call : StepCall) : Option StepRef :=
  (call.entryId.map .entryId).or (call.guarded.t.map .position)

end StepCall

/-- A closing as a run hands it to the store. -/
structure ClosingCall where
  kind : String
  t : UInt64
  step : Option String

/-- Whether a closing carries the position of a step or names its id. -/
def ClosingCall.Closes (closing : ClosingCall) (step : StepCall) : Prop :=
  some closing.t = step.guarded.t ∨ (closing.step.isSome ∧ closing.step = step.entryId)

instance (closing : ClosingCall) (step : StepCall) : Decidable (closing.Closes step) :=
  inferInstanceAs (Decidable (_ ∨ _))

/-- A required kind of which no closing was logged for the step. -/
def StepCall.Lacks (step : StepCall) (policy : Policy) (closings : List ClosingCall)
    (kind : String) : Prop :=
  kind ∈ policy.perStepKinds ∧ ∀ closing ∈ closings, closing.kind = kind → ¬closing.Closes step

instance (step : StepCall) (policy : Policy) (closings : List ClosingCall) :
    Decidable (∃ kind, step.Lacks policy closings kind) :=
  inferInstanceAs (Decidable (∃ kind ∈ policy.perStepKinds.toList,
    ∀ closing ∈ closings, closing.kind = kind → ¬closing.Closes step))

namespace Operation

/-- The step that a call logs. -/
def step? : Operation → Option StepCall
  | appendStep guarded entryId => some ⟨guarded, entryId⟩
  | _ => none

/-- The closing that a call logs. -/
def closing? : Operation → Option ClosingCall
  | appendClosing kind t step => some ⟨kind, t, step⟩
  | _ => none

/-- The position of the checkpoint that a call logs. -/
def checkpoint? : Operation → Option UInt64
  | appendCheckpoint t => some t
  | _ => none

/-- The calls of a run: steps that the guard has settled, closings of required kinds or of the
standard one, and checkpoints. -/
def Logs (policy : Policy) : Operation → Prop
  | appendStep guarded _ => ∃ context, guardStep context = .ok guarded
  | appendClosing kind _ _ => kind ∈ policy.perStepKinds ∨ kind = closingKind
  | appendCheckpoint _ => True
  | append _ => False
  | attemptOverwrite _ _ => False

/-- What an accepted call contributes to an audit. A closing that is not required counts as
nothing. -/
inductive Contributes (policy : Policy) : Operation → Entry → Prop
  | step {guarded : GuardedStep} {entryId : Option String} {ref : StepRef}
    (href : StepCall.ref? ⟨guarded, entryId⟩ = some ref) :
    Contributes policy (.appendStep guarded entryId)
      (.step ⟨ref, guarded.t, entryId, ⟨guarded.address.classId, guarded.address.anchor,
        some guarded.address.coord⟩⟩)
  | closing {kind : String} {t : UInt64} {step : Option String}
    (hrequired : kind ∈ policy.perStepKinds) :
    Contributes policy (.appendClosing kind t step) (.closing ⟨kind, some t, step⟩)
  | other {kind : String} {t : UInt64} {step : Option String}
    (hnot : kind ∉ policy.perStepKinds) : Contributes policy (.appendClosing kind t step) .other
  | checkpoint {t : UInt64} : Contributes policy (.appendCheckpoint t) (.checkpoint t)

variable {policy : Policy}

/-- A guarded step is read back as it was guarded. -/
theorem exists_contributes_step {guarded : GuardedStep} {entryId : Option String}
    {record : Record} (h : (appendStep guarded entryId).record = .ok record) :
    ∃ entry, record.entry policy = .ok entry ∧
      (appendStep guarded entryId).Contributes policy entry := by
  obtain ⟨t, hdemand, h⟩ := bind_eq_ok_iff.1 h
  have ht := demand_eq_ok_iff.1 hdemand
  obtain ⟨ref, href, hentry⟩ :=
    Record.exists_entry_of_committedStep policy (mapError_eq_ok_iff.1 h)
  rw [← ht] at hentry
  refine ⟨_, hentry, .step ?_⟩
  rw [StepCall.ref?, ht]
  exact href

/-- A closing is read back as it was logged, if it is required. -/
theorem exists_contributes_closing {kind : String} {t : UInt64} {step : Option String}
    {record : Record} (hpolicy : policy.check = .ok ())
    (hlogs : kind ∈ policy.perStepKinds ∨ kind = closingKind)
    (h : (appendClosing kind t step).record = .ok record) :
    ∃ entry, record.entry policy = .ok entry ∧
      (appendClosing kind t step).Contributes policy entry := by
  obtain ⟨hcheck, rfl⟩ := Record.checked_eq_ok_iff.1 (mapError_eq_ok_iff.1 h)
  have hne : kind ≠ checkpointKind := by
    rcases hlogs with hrequired | rfl
    · exact (policy.not_reserved hpolicy hrequired).2
    · decide
  have hknown : policy.recognizes kind := by
    rw [Policy.recognizes_iff]
    rcases hlogs with hrequired | rfl
    · exact .inr (.inr (.inr hrequired))
    · exact .inr (.inl rfl)
  have hother : ¬(Record.mk (some kind) none none (some t) (some { step })).isCommittedStep :=
    Record.not_isCommittedStep_of_status rfl
  by_cases hrequired : kind ∈ policy.perStepKinds
  · exact ⟨_, Record.entry_of_gives hcheck rfl hknown (.closing rfl hne hrequired hother),
      .closing hrequired⟩
  · exact ⟨_, Record.entry_of_gives hcheck rfl hknown (.other rfl hne hrequired hother),
      .other hrequired⟩

/-- The audit accepts the record of every call of a run and reads from it what the call
contributes. -/
theorem exists_contributes {operation : Operation} {record : Record}
    (hpolicy : policy.check = .ok ()) (hlogs : operation.Logs policy)
    (h : operation.record = .ok record) :
    ∃ entry, record.entry policy = .ok entry ∧ operation.Contributes policy entry := by
  cases operation with
  | append record => exact hlogs.elim
  | attemptOverwrite index record => exact hlogs.elim
  | appendStep guarded entryId => exact exists_contributes_step h
  | appendClosing kind t step => exact exists_contributes_closing hpolicy hlogs h
  | appendCheckpoint t =>
    obtain rfl := Except.ok.inj h
    refine ⟨_, ?_, .checkpoint⟩
    refine Record.entry_of_gives ?_ rfl (Policy.recognizes_iff.2 (.inr (.inr (.inl rfl))))
      (.checkpoint rfl rfl ?_)
    · rfl
    · exact Record.not_isCommittedStep_of_status rfl

end Operation

/-- An audited step is that of a call if it refers to it, carries its position and its id, and
counts at its address. -/
structure StepCall.SeenAs (call : StepCall) (step : AuditedStep) : Prop where
  ref : call.ref? = some step.ref
  t : step.t = call.guarded.t
  entryId : step.entryId = call.entryId
  cell : step.cell = ⟨call.address.classId, call.address.anchor, some call.address.coord⟩

section Contributions

variable {policy : Policy} {calls : List Operation} {entries : List Entry}

/-- The steps of an audit are those that were logged. -/
theorem steps_of_contributes (h : List.Forall₂ (Operation.Contributes policy) calls entries) :
    List.Forall₂ StepCall.SeenAs (calls.filterMap Operation.step?) (Entry.steps entries) := by
  induction h with
  | nil => exact .nil
  | cons hcall _ ih =>
    cases hcall with
    | step href => exact .cons ⟨href, rfl, rfl, rfl⟩ ih
    | closing => exact ih
    | other => exact ih
    | checkpoint => exact ih

/-- The checkpoints among the entries are the positions at which the calls made one. -/
theorem checkpoints_of_contributes
    (h : List.Forall₂ (Operation.Contributes policy) calls entries) :
    Entry.checkpoints entries = calls.filterMap Operation.checkpoint? := by
  induction h with
  | nil => rfl
  | cons hcall _ ih =>
    cases hcall with
    | step => exact ih
    | closing => exact ih
    | other => exact ih
    | checkpoint => exact congrArg (_ :: ·) ih

/-- The closings of an audit are the required ones among those that were logged. -/
theorem mem_closings_of_contributes
    (h : List.Forall₂ (Operation.Contributes policy) calls entries) {closing : Closing} :
    closing ∈ Entry.closings entries ↔ closing.kind ∈ policy.perStepKinds ∧
      ∃ call ∈ calls.filterMap Operation.closing?,
        closing = ⟨call.kind, some call.t, call.step⟩ := by
  induction h with
  | nil => simp [Entry.closings]
  | @cons _ _ others rest hcall _ ih =>
    cases hcall with
    | step => exact ih
    | checkpoint => exact ih
    | @closing kind t step hrequired =>
      change closing ∈ ⟨kind, some t, step⟩ :: Entry.closings rest ↔ _ ∧
        ∃ call ∈ ⟨kind, t, step⟩ :: others.filterMap Operation.closing?, _
      rw [List.mem_cons, List.exists_mem_cons_iff, and_or_left, ih]
      refine or_congr_left (iff_and_self.2 ?_)
      rintro rfl
      exact hrequired
    | @other kind t step hnot =>
      change closing ∈ Entry.closings rest ↔ _ ∧
        ∃ call ∈ ⟨kind, t, step⟩ :: others.filterMap Operation.closing?, _
      rw [List.exists_mem_cons_iff, and_or_left, ih, or_iff_right]
      rintro ⟨hrequired, rfl⟩
      exact hnot hrequired

/-- What the audit misses for a step is what was not logged for it. -/
theorem mem_missingFor_iff_call (h : List.Forall₂ (Operation.Contributes policy) calls entries)
    {call : StepCall} {step : AuditedStep} (hseen : call.SeenAs step) (kind : String) :
    kind ∈ policy.missingFor (Entry.closings entries) step ↔
      call.Lacks policy (calls.filterMap Operation.closing?) kind := by
  rw [Policy.mem_missingFor_iff, StepCall.Lacks]
  refine and_congr_right fun hrequired => ?_
  have hcloses (closing : ClosingCall) :
      (Closing.mk closing.kind (some closing.t) closing.step).closes step ↔
        closing.Closes call := by
    rw [Closing.closes_iff, hseen.t, hseen.entryId, ClosingCall.Closes, Option.isSome_some]
    exact or_congr_left (and_iff_right rfl)
  constructor
  · rintro hnone closing hmem rfl
    rw [← hcloses]
    exact hnone _ ((mem_closings_of_contributes h).2 ⟨hrequired, closing, hmem, rfl⟩) rfl
  · rintro hnone closing hmem rfl
    obtain ⟨-, logged, hlogged, heq⟩ := (mem_closings_of_contributes h).1 hmem
    rw [heq, hcloses]
    exact hnone logged hlogged (heq ▸ rfl)

/-- The audit reads an entry from every record that calls of a run have built. -/
theorem exists_entries (hpolicy : policy.check = .ok ()) {records : List Record}
    (hlogs : ∀ call ∈ calls, call.Logs policy)
    (hrecords : List.Forall₂ (fun call record => call.record = .ok record) calls records) :
    ∃ entries, Record.EntriesOf policy records entries ∧
      List.Forall₂ (Operation.Contributes policy) calls entries := by
  induction hrecords with
  | nil => exact ⟨[], .nil, .nil⟩
  | cons hrecord _ ih =>
    obtain ⟨hcall, hrest⟩ := List.forall_mem_cons.1 hlogs
    obtain ⟨entry, hentry, hcontributes⟩ := Operation.exists_contributes hpolicy hcall hrecord
    obtain ⟨entries, hentries, hothers⟩ := ih hrest
    exact ⟨entry :: entries, .cons hentry hentries, .cons hcontributes hothers⟩

end Contributions

/-- Of the records that a run builds, only those of steps have an id. -/
theorem entryId_of_logs {policy : Policy} {call : Operation} {record : Record}
    (hlogs : call.Logs policy) (h : call.record = .ok record) :
    record.entryId = call.step?.bind (·.entryId) := by
  cases call with
  | append record => exact hlogs.elim
  | attemptOverwrite index record => exact hlogs.elim
  | appendStep guarded entryId =>
    obtain ⟨t, -, h⟩ := bind_eq_ok_iff.1 h
    obtain ⟨-, rfl⟩ := Record.checked_eq_ok_iff.1 (mapError_eq_ok_iff.1 h)
    rfl
  | appendClosing kind t step =>
    obtain ⟨-, rfl⟩ := Record.checked_eq_ok_iff.1 (mapError_eq_ok_iff.1 h)
    rfl
  | appendCheckpoint t =>
    obtain rfl := Except.ok.inj h
    rfl

/-- The ids in the records of logging calls are those of the calls that log a step. -/
theorem entryIds_of_logs {policy : Policy} {calls : List Operation} {records : List Record}
    (hlogs : ∀ call ∈ calls, call.Logs policy)
    (hrecords : List.Forall₂ (fun call record => call.record = .ok record) calls records) :
    records.filterMap (·.entryId) = (calls.filterMap Operation.step?).filterMap (·.entryId) := by
  rw [List.filterMap_filterMap]
  refine (filterMap_eq_of_forall₂ ((List.forall₂_and_left _ _).2 ⟨hlogs, hrecords⟩) ?_).symm
  rintro call record ⟨hcall, hrecord⟩
  exact (entryId_of_logs hcall hrecord).symm

/-- Steps with different ids are referred to differently. -/
theorem nodup_refs {steps : List StepCall} (hids : ∀ call ∈ steps, call.entryId.isSome)
    (h : (steps.filterMap (·.entryId)).Nodup) : (steps.map StepCall.ref?).Nodup := by
  rw [List.Nodup, List.pairwise_filterMap] at h
  rw [List.Nodup, List.pairwise_map]
  refine h.imp_of_mem fun {first second} hfirst hsecond hne heq => ?_
  obtain ⟨id, hid⟩ := Option.isSome_iff_exists.1 (hids first hfirst)
  obtain ⟨other, hother⟩ := Option.isSome_iff_exists.1 (hids second hsecond)
  rw [StepCall.ref?, StepCall.ref?, hid, hother] at heq
  exact hne id hid other hother (StepRef.entryId.inj (Option.some.inj heq))

/-- What a report says of the steps, closings and checkpoints of a run: how many steps there are,
how often each class and each anchor was visited, how many different coordinates, how many
checkpoints there are, and, in order, to which steps no closing of some required kind belongs. -/
structure Report.Accounts (report : Report) (policy : Policy) (steps : List StepCall)
    (closings : List ClosingCall) (checkpoints : List UInt64) : Prop where
  totalSteps : report.totalSteps = steps.length
  classes : report.classDistribution.Counts (steps.map fun call => call.address.classId.val)
  anchors : report.anchorDistribution.Counts (steps.map fun call => call.address.anchor.val)
  coords : report.coordsVisited = (steps.map fun call => call.address.coord.val).toFinset.card
  auditEntries : report.auditEntries = checkpoints.length
  missing : report.missing.map some =
    (steps.filter fun call => ∃ kind, call.Lacks policy closings kind).map StepCall.ref?

/-- What is counted of the steps of a run is counted of the steps of its audit. -/
theorem counts_of_seenAs {steps : List StepCall} {audited : List AuditedStep}
    {number : StepCall → Nat} {place : AuditedStep → Nat}
    (h : List.Forall₂ StepCall.SeenAs steps audited)
    (heq : ∀ call step, call.SeenAs step → number call = place step)
    (hlt : ∀ call, number call < UInt32.size) :
    (Tally.ofList (audited.map fun step => UInt32.ofNat (place step))).Counts
      (steps.map number) := by
  have hwords : (steps.map number).map UInt32.ofNat =
      audited.map fun step => UInt32.ofNat (place step) := by
    rw [List.map_map]
    exact map_eq_of_forall₂ h fun call step hseen => congrArg UInt32.ofNat (heq call step hseen)
  rw [← hwords]
  exact Tally.counts_ofList (List.forall_mem_map.2 fun call _ => hlt call)

/-- The report on the entries of a run accounts for its calls. -/
theorem accounts_of_contributes (schedule : Schedule) {policy : Policy} {calls : List Operation}
    {entries : List Entry} (h : List.Forall₂ (Operation.Contributes policy) calls entries) :
    (Report.ofEntries schedule policy entries).Accounts policy
      (calls.filterMap Operation.step?) (calls.filterMap Operation.closing?)
      (calls.filterMap Operation.checkpoint?) := by
  have hsteps := steps_of_contributes h
  constructor
  case totalSteps => exact hsteps.length_eq.symm
  case auditEntries => exact congrArg List.length (checkpoints_of_contributes h)
  case classes =>
    refine counts_of_seenAs hsteps (fun _ _ hseen => by rw [hseen.cell]) fun call => ?_
    exact Nat.lt_trans call.address.classId.isLt (by decide)
  case anchors =>
    refine counts_of_seenAs hsteps (fun _ _ hseen => by rw [hseen.cell]) fun call => ?_
    exact Nat.lt_trans call.address.anchor.isLt (by decide)
  case coords =>
    have hcoords : ((calls.filterMap Operation.step?).map fun call => call.address.coord.val) =
        (Entry.steps entries).filterMap fun step => step.cell.coord.map (·.val) := by
      rw [← List.filterMap_eq_map]
      refine filterMap_eq_of_forall₂ hsteps fun call step hseen => ?_
      rw [hseen.cell]
      rfl
    rw [hcoords]
    exact OrderedSet.size_ofList _
  case missing =>
    have hmissing := Policy.missing_rel hsteps fun _ _ hseen => mem_missingFor_iff_call h hseen
    change ((policy.missing _ _).map _).map some = _
    rw [List.map_map]
    refine (map_eq_of_forall₂ hmissing ?_).symm
    rintro call _ ⟨step, hseen, rfl⟩
    exact hseen.ref

namespace Store

/-- Guard, store and audit fit together. Whichever calls of a run the store turns away, the audit
of what it holds succeeds and accounts for exactly the accepted calls. If all accepted steps have
ids, no step is reported twice as lacking a closing. -/
theorem audit_run {schedule : Schedule} {policy : Policy} (hschedule : schedule.check = .ok ())
    (hpolicy : policy.check = .ok ()) {operations : List Operation}
    (hlogs : ∀ operation ∈ operations, operation.Logs policy) :
    ∃ report, audit (empty.run operations).entries schedule policy = .ok report ∧
      report.Accounts policy ((empty.accepted operations).filterMap Operation.step?)
        ((empty.accepted operations).filterMap Operation.closing?)
        ((empty.accepted operations).filterMap Operation.checkpoint?) ∧
      ((∀ call ∈ (empty.accepted operations).filterMap Operation.step?, call.entryId.isSome) →
        report.missing.Nodup) := by
  obtain ⟨records, hledger, hrecords⟩ := empty.entries_run operations
  have hcalls : ∀ call ∈ empty.accepted operations, call.Logs policy :=
    fun call hmem => hlogs call (mem_of_mem_accepted hmem)
  obtain ⟨entries, hentries, hcontributes⟩ := exists_entries hpolicy hcalls hrecords
  have haccounts := accounts_of_contributes schedule hcontributes
  refine ⟨_, audit_eq_ok_iff.2 ⟨hschedule, hpolicy, entries, ?_, rfl⟩, haccounts, ?_⟩
  · rw [hledger]
    exact hentries
  · intro hids
    have hunique := (consistent_empty.run operations).unique
    rw [entryIds, hledger] at hunique
    have hrefs := nodup_refs hids (entryIds_of_logs hcalls hrecords ▸ hunique)
    refine List.Nodup.of_map some ?_
    rw [haccounts.missing]
    exact hrefs.sublist (List.filter_sublist.map _)

/-- A run of two steps. The store turns away the second step under the id of the first and a
checkpoint in the past; the second step then lacks a review, and the first lacks nothing, as its
closing `petc` names it by id. -/
theorem audit_run_after_rejections :
    let policy : Policy := { perStepKinds := .ofList ["review", "petc"] }
    let first : GuardedStep := ⟨⟨4, 2050⟩, some 1, ∅⟩
    let second : GuardedStep := ⟨⟨5, 2050⟩, some 2, ∅⟩
    let operations : List Operation :=
      [.appendStep first (some "a"), .appendClosing "review" 1 none,
        .appendStep second (some "a"), .appendCheckpoint 0, .appendStep second (some "b"),
        .appendClosing "petc" 2 (some "a")]
    Schedule.check {} = .ok () ∧ policy.check = .ok () ∧
      (∀ operation ∈ operations, operation.Logs policy) ∧
      ∃ report, audit (empty.run operations).entries {} policy = .ok report ∧
        report.totalSteps = 2 ∧ report.coordsVisited = 1 ∧ report.auditEntries = 0 ∧
        report.missing.map some = [some (.entryId "b")] ∧ report.missing.Nodup := by
  intro policy first second operations
  have hschedule : Schedule.check {} = .ok () := by decide +kernel
  have hpolicy : policy.check = .ok () := by decide +kernel
  have hfirst : guardStep ⟨4, .linear 2050, some 1, ∅⟩ = .ok first := by decide +kernel
  have hsecond : guardStep ⟨5, .linear 2050, some 2, ∅⟩ = .ok second := by decide +kernel
  have hreview : "review" ∈ policy.perStepKinds :=
    OrderedSet.contains_iff_mem.1 (by decide +kernel)
  have hlogs : ∀ operation ∈ operations, operation.Logs policy := by
    simp only [operations, List.forall_mem_cons]
    exact ⟨⟨_, hfirst⟩, .inl hreview, ⟨_, hsecond⟩, trivial, ⟨_, hsecond⟩, .inr rfl,
      List.forall_mem_nil _⟩
  obtain ⟨report, hreport, haccounts, hnodup⟩ := audit_run hschedule hpolicy hlogs
  refine ⟨hschedule, hpolicy, hlogs, report, hreport, ?_, ?_, ?_, ?_, hnodup ?_⟩
  · exact haccounts.totalSteps.trans (by decide +kernel)
  · exact haccounts.coords.trans (by decide +kernel)
  · exact haccounts.auditEntries.trans (by decide +kernel)
  · exact haccounts.missing.trans (by decide +kernel)
  · decide +kernel

end Store

end LatticeLedger
