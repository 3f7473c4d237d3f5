import LatticeLedger.Proofs.Audit.Reading

/-!
# Which record stops an audit

A record is malformed for a policy if it breaks its contract, is of a kind that the policy does not
know, or is a committed step without a place or without a name. An audit whose schedule and policy
keep their contracts fails exactly if the ledger holds a malformed record. It then names the first
one by its place among all records, those that count for nothing included, and what follows that
record has no influence on the error.
-/

namespace LatticeLedger

/-- A context gives no cell if the guard refuses it, if its row and column are not those of its
coordinate, or if it names no class or no place. -/
theorem LoggedContext.fault_of_cell {t : Option UInt64} {fault : RecordFault}
    (context : LoggedContext) (h : context.cell t = .error fault) :
    (∃ refusal, fault = .refused refusal) ∨ fault = .wrongCell ∨ fault = .noClass ∨
      fault = .noPlace := by
  have hrefused {α : Type} {check : Except Refusal α}
      (h : check.mapError RecordFault.refused = .error fault) :
      ∃ refusal, fault = .refused refusal :=
    (mapError_eq_error_iff.1 h).imp fun _ hfound => hfound.2.symm
  rw [cell] at h
  split at h
  case isTrue =>
    rcases bind_eq_error_iff.1 h with h | ⟨_, -, h⟩
    · exact .inl (hrefused h)
    rcases bind_eq_error_iff.1 h with h | ⟨_, -, h⟩
    · exact .inl (hrefused h)
    rcases bind_eq_error_iff.1 h with h | ⟨_, -, h⟩
    · exact .inr (.inl (require_eq_error_iff.1 h).2.symm)
    · cases h
  case isFalse =>
    rcases bind_eq_error_iff.1 h with h | ⟨_, -, h⟩
    · exact .inr (.inr (.inl (demand_eq_error_iff.1 h).2.symm))
    rcases bind_eq_error_iff.1 h with h | ⟨_, -, h⟩
    · exact .inr (.inr (.inr (demand_eq_error_iff.1 h).2.symm))
    rcases bind_eq_error_iff.1 h with h | ⟨_, -, h⟩
    · exact .inl (hrefused h)
    rcases bind_eq_error_iff.1 h with h | ⟨_, -, h⟩
    · exact .inl (hrefused h)
    · cases h

namespace Record

/-- A record that no audit under the policy accepts. -/
inductive Malformed (policy : Policy) (record : Record) : Prop
  /-- The record breaks its contract. -/
  | broken {violation : Violation} (hcheck : record.check = .error violation)
  /-- The policy does not know the record's kind. -/
  | unknown {kind : String} (hkind : record.kind = some kind) (hnot : ¬policy.recognizes kind)
  /-- The context of a committed step gives no cell. -/
  | misplaced {context : LoggedContext} {fault : RecordFault} (hcommitted : record.isCommittedStep)
    (hcontext : record.context = some context) (hcell : context.cell record.t = .error fault)
  /-- A committed step has neither an id nor a position. -/
  | unnamed (hcommitted : record.isCommittedStep) (hid : record.entryId = none)
    (ht : record.t = none)

/-- A record that keeps its contract has a context, unless it is a checkpoint. -/
theorem context_of_check {record : Record} (h : record.check = .ok ())
    (hne : record.kind ≠ some checkpointKind) : ∃ context, record.context = some context := by
  obtain ⟨kind, hkind, h⟩ := bind_eq_ok_iff.1 h
  obtain ⟨_, -, h⟩ := bind_eq_ok_iff.1 h
  obtain ⟨_, -, h⟩ := bind_eq_ok_iff.1 h
  obtain ⟨_, -, h⟩ := bind_eq_ok_iff.1 h
  obtain ⟨_, hcontext, -⟩ := bind_eq_ok_iff.1 h
  have hkind := demand_eq_ok_iff.1 hkind
  refine Option.isSome_iff_exists.1 ((require_eq_ok_iff.1 hcontext).resolve_left ?_)
  rintro rfl
  exact hne hkind

/-- A committed step that keeps its contract has a context. -/
theorem context_of_isCommittedStep {record : Record} (hcheck : record.check = .ok ())
    (hcommitted : record.isCommittedStep) : ∃ context, record.context = some context := by
  refine context_of_check hcheck ?_
  rw [kind_of_isCommittedStep hcommitted]
  decide

/-- Nothing refers to a record without an id and a position, and to every other record something
does. -/
theorem stepRef?_eq_none_iff {record : Record} :
    record.stepRef? = none ↔ record.entryId = none ∧ record.t = none := by
  rw [stepRef?]
  cases record.entryId <;> cases record.t <;> simp

/-- A committed step is refused because its context is missing, or because the context gives no
cell, or because the record has neither an id nor a position. -/
theorem auditedStep_eq_error_iff {record : Record} {fault : RecordFault} :
    record.auditedStep = .error fault ↔ (record.context = none ∧ fault = .noContext) ∨
      ∃ context, record.context = some context ∧ (context.cell record.t = .error fault ∨
        (∃ cell, context.cell record.t = .ok cell) ∧ record.stepRef? = none ∧
          fault = .unidentified) := by
  rw [auditedStep]
  cases record.context with
  | none => simp [demand, bind, Except.bind, eq_comm]
  | some context =>
    simp only [demand, bind, Except.bind, Option.some.injEq, exists_eq_left']
    cases context.cell record.t <;> cases record.stepRef? <;>
      simp [pure, Except.pure, eq_comm]

/-- A committed step that keeps its contract is read unless it has no place or no name. -/
theorem malformed_of_auditedStep {policy : Policy} {record : Record} {fault : RecordFault}
    (hcheck : record.check = .ok ()) (hcommitted : record.isCommittedStep)
    (h : record.auditedStep = .error fault) : record.Malformed policy := by
  obtain ⟨context, hcontext⟩ := context_of_isCommittedStep hcheck hcommitted
  rcases auditedStep_eq_error_iff.1 h with ⟨hnone, -⟩ | ⟨_, hsome, hcell | ⟨-, href, -⟩⟩
  · rw [hcontext] at hnone
    cases hnone
  · exact .misplaced hcommitted hsome hcell
  · obtain ⟨hid, ht⟩ := stepRef?_eq_none_iff.1 href
    exact .unnamed hcommitted hid ht

/-- What the fault of a record is: the violation of its contract, its kind if that is not known, or
what is wrong with a step that keeps the contract. -/
theorem fault_of_entry {policy : Policy} {record : Record} {fault : RecordFault}
    (h : record.entry policy = .error fault) :
    (∃ broken, record.check = .error broken ∧ fault = .violation broken) ∨
      (∃ kind, record.kind = some kind ∧ ¬policy.recognizes kind ∧ fault = .unknownKind kind) ∨
      (record.check = .ok () ∧ record.isCommittedStep ∧ record.auditedStep = .error fault) := by
  rcases bind_eq_error_iff.1 h with hcheck | ⟨_, hcheck, h⟩
  · obtain ⟨broken, hbroken, hfault⟩ := mapError_eq_error_iff.1 hcheck
    exact .inl ⟨broken, hbroken, hfault.symm⟩
  have hcheck := mapError_eq_ok_iff.1 hcheck
  obtain ⟨kind, hkind, -⟩ := kind_of_check hcheck
  rw [hkind, Option.getD_some] at h
  rcases bind_eq_error_iff.1 h with hknown | ⟨_, -, h⟩
  · obtain ⟨hnot, hfault⟩ := require_eq_error_iff.1 hknown
    exact .inr (.inl ⟨kind, hkind, hnot, hfault.symm⟩)
  -- Of the four ways in which a record is read, only that of a step can fail.
  rw [entryOfKind] at h
  split at h
  case isTrue => cases h
  split at h
  case isFalse =>
    split at h <;> cases h
  case isTrue hcommitted =>
    cases hstep : record.auditedStep with
    | ok step =>
      rw [hstep] at h
      cases h
    | error found =>
      rw [hstep] at h
      obtain rfl := Except.error.inj h
      exact .inr (.inr ⟨hcheck, hcommitted, rfl⟩)

/-- A record without an entry is malformed. -/
theorem malformed_of_entry {policy : Policy} {record : Record} {fault : RecordFault}
    (h : record.entry policy = .error fault) : record.Malformed policy := by
  rcases fault_of_entry h with ⟨_, hbroken, -⟩ | ⟨_, hkind, hnot, -⟩ | ⟨hcheck, hcommitted, hstep⟩
  · exact .broken hbroken
  · exact .unknown hkind hnot
  · exact malformed_of_auditedStep hcheck hcommitted hstep

/-- No record is refused for want of a context alone: its contract demands one of every step. -/
theorem entry_ne_noContext (record : Record) (policy : Policy) :
    record.entry policy ≠ .error .noContext := by
  intro h
  rcases fault_of_entry h with ⟨_, -, heq⟩ | ⟨_, -, -, heq⟩ | ⟨hcheck, hcommitted, hstep⟩
  · cases heq
  · cases heq
  obtain ⟨context, hcontext⟩ := context_of_isCommittedStep hcheck hcommitted
  rcases auditedStep_eq_error_iff.1 hstep with ⟨hnone, -⟩ | ⟨found, -, hcell | ⟨-, -, heq⟩⟩
  · rw [hcontext] at hnone
    cases hnone
  · rcases found.fault_of_cell hcell with ⟨_, heq⟩ | heq | heq | heq <;> cases heq
  · cases heq

/-- A committed step is read as one. -/
theorem exists_auditedStep {policy : Policy} {record : Record} {found : Entry}
    (h : record.entry policy = .ok found) (hcommitted : record.isCommittedStep) :
    ∃ step, record.auditedStep = .ok step := by
  cases gives_of_entry h with
  | step _ hstep => exact ⟨_, hstep⟩
  | checkpoint _ _ hother => exact absurd hcommitted hother
  | closing _ _ _ hother => exact absurd hcommitted hother
  | other _ _ _ hother => exact absurd hcommitted hother

/-- A malformed record has no entry. -/
theorem not_malformed_of_entry {policy : Policy} {record : Record} {found : Entry}
    (h : record.entry policy = .ok found) : ¬record.Malformed policy := by
  obtain ⟨_, hcheck, hrest⟩ := bind_eq_ok_iff.1 h
  obtain ⟨_, hknown, -⟩ := bind_eq_ok_iff.1 hrest
  have hcheck := mapError_eq_ok_iff.1 hcheck
  intro hmalformed
  cases hmalformed with
  | broken hbroken => exact absurd (hcheck.symm.trans hbroken) nofun
  | unknown hkind hnot =>
    rw [hkind, Option.getD_some] at hknown
    exact hnot (require_eq_ok_iff.1 hknown)
  | misplaced hcommitted hcontext hcell =>
    obtain ⟨step, hstep⟩ := exists_auditedStep h hcommitted
    obtain ⟨logged, _, _, hlogged, hok, -⟩ := auditedStep_eq_ok_iff.1 hstep
    obtain rfl := Option.some.inj (hcontext.symm.trans hlogged)
    rw [hcell] at hok
    cases hok
  | unnamed hcommitted hid ht =>
    obtain ⟨step, hstep⟩ := exists_auditedStep h hcommitted
    obtain ⟨_, _, _, -, -, href, -⟩ := auditedStep_eq_ok_iff.1 hstep
    rw [stepRef?_eq_none_iff.2 ⟨hid, ht⟩] at href
    cases href

end Record

/-- The first malformed record of a ledger and its place. -/
structure Policy.StopsAt (policy : Policy) (ledger : List Record) (index : Nat)
    (record : Record) : Prop where
  here : ledger[index]? = some record
  malformed : record.Malformed policy
  earlier : ∀ i < index, ∀ other, ledger[i]? = some other → ¬other.Malformed policy

namespace Policy

variable {policy : Policy} {record found : Record} {ledger rest : List Record} {index : Nat}

/-- A ledger that begins with a malformed record stops there. -/
theorem stopsAt_zero (h : record.Malformed policy) :
    policy.StopsAt (record :: rest) 0 record where
  here := rfl
  malformed := h
  earlier i hi := absurd hi (Nat.not_lt_zero i)

/-- A record that is not malformed moves the first malformed one on by one place. -/
theorem StopsAt.succ (h : policy.StopsAt rest index found) (hfirst : ¬record.Malformed policy) :
    policy.StopsAt (record :: rest) (index + 1) found where
  here := h.here
  malformed := h.malformed
  earlier i hi other hother := by
    cases i with
    | zero => exact Option.some.inj hother ▸ hfirst
    | succ i => exact h.earlier i (Nat.lt_of_succ_lt_succ hi) other hother

/-- A ledger stops at a malformed record if none stands before it. -/
theorem stopsAt_append {before after : List Record}
    (hbefore : ∀ other ∈ before, ¬other.Malformed policy) (h : record.Malformed policy) :
    policy.StopsAt (before ++ record :: after) before.length record := by
  induction before with
  | nil => exact stopsAt_zero h
  | cons first rest ih =>
    obtain ⟨hfirst, hrest⟩ := List.forall_mem_cons.1 hbefore
    exact (ih hrest).succ hfirst

/-- Where a ledger stops depends on nothing behind the first malformed record. -/
theorem StopsAt.of_take {other : List Record} (h : policy.StopsAt ledger index record)
    (heq : other.take (index + 1) = ledger.take (index + 1)) :
    policy.StopsAt other index record := by
  have hget (i : Nat) (hi : i < index + 1) : other[i]? = ledger[i]? := by
    rw [← List.getElem?_take_of_lt hi, heq, List.getElem?_take_of_lt hi]
  constructor
  case here => rw [hget index (Nat.lt_succ_self index), h.here]
  case malformed => exact h.malformed
  case earlier =>
    intro i hi found hfound
    rw [hget i (Nat.lt_succ_of_lt hi)] at hfound
    exact h.earlier i hi found hfound

/-- There is one place at which a ledger stops. -/
theorem StopsAt.unique {other : Nat} (h : policy.StopsAt ledger index record)
    (hother : policy.StopsAt ledger other found) : index = other ∧ record = found := by
  have hindex : index = other := by
    rcases Nat.lt_trichotomy index other with hlt | heq | hgt
    · exact absurd h.malformed (hother.earlier index hlt record h.here)
    · exact heq
    · exact absurd hother.malformed (h.earlier other hgt found hother.here)
  subst hindex
  exact ⟨rfl, Option.some.inj (h.here.symm.trans hother.here)⟩

end Policy

/-- Reading a ledger fails with the fault of its first malformed record. -/
theorem entriesFrom_eq_error {policy : Policy} {start : Nat} {ledger : List Record}
    {error : AuditError} (h : entriesFrom policy start ledger = .error error) :
    ∃ index record fault, policy.StopsAt ledger index record ∧
      record.entry policy = .error fault ∧ error = .record (start + index) fault := by
  induction ledger generalizing start with
  | nil => cases h
  | cons record rest ih =>
    rcases bind_eq_error_iff.1 h with hentry | ⟨entry, hentry, h⟩
    · obtain ⟨fault, hfault, rfl⟩ := mapError_eq_error_iff.1 hentry
      exact ⟨0, record, fault, Policy.stopsAt_zero (Record.malformed_of_entry hfault), hfault, rfl⟩
    rcases bind_eq_error_iff.1 h with hrest | ⟨entries, -, h⟩
    · have hfirst := Record.not_malformed_of_entry (mapError_eq_ok_iff.1 hentry)
      obtain ⟨index, found, fault, hstops, hfault, rfl⟩ := ih hrest
      refine ⟨index + 1, found, fault, hstops.succ hfirst, hfault, ?_⟩
      rw [Nat.add_right_comm, Nat.add_assoc]
    · cases h

/-- An audit whose schedule and policy keep their contracts is the reading of its ledger. -/
theorem audit_eq_error_iff {ledger : List Record} {schedule : Schedule} {policy : Policy}
    {error : AuditError} (hschedule : schedule.check = .ok ()) (hpolicy : policy.check = .ok ()) :
    audit ledger schedule policy = .error error ↔ entriesFrom policy 0 ledger = .error error := by
  rw [audit_eq, hschedule, hpolicy]
  change (entriesFrom policy 0 ledger >>= fun entries =>
    .ok (Report.ofEntries schedule policy entries)) = .error error ↔ _
  constructor
  · intro h
    rcases bind_eq_error_iff.1 h with h | ⟨_, -, h⟩
    · exact h
    · cases h
  · intro h
    exact bind_eq_error_iff.2 (.inl h)

/-- An audit fails exactly if some record is malformed. -/
theorem exists_audit_eq_error_iff {ledger : List Record} {schedule : Schedule} {policy : Policy}
    (hschedule : schedule.check = .ok ()) (hpolicy : policy.check = .ok ()) :
    (∃ error, audit ledger schedule policy = .error error) ↔
      ∃ record ∈ ledger, record.Malformed policy := by
  constructor
  · rintro ⟨error, h⟩
    obtain ⟨index, record, fault, hstops, -⟩ :=
      entriesFrom_eq_error ((audit_eq_error_iff hschedule hpolicy).1 h)
    exact ⟨record, List.mem_of_getElem? hstops.here, hstops.malformed⟩
  · rintro ⟨record, hmem, hmalformed⟩
    cases h : audit ledger schedule policy with
    | error error => exact ⟨error, rfl⟩
    | ok report =>
      obtain ⟨-, -, entries, hentries, -⟩ := audit_eq_ok_iff.1 h
      obtain ⟨entry, hentry⟩ := hentries.exists_entry hmem
      exact absurd hmalformed (Record.not_malformed_of_entry hentry)

/-- An audit fails with the fault of the record at which its ledger stops. -/
theorem Policy.StopsAt.audit_eq_error {policy : Policy} {ledger : List Record} {index : Nat}
    {record : Record} {schedule : Schedule} (h : policy.StopsAt ledger index record)
    (hschedule : schedule.check = .ok ()) (hpolicy : policy.check = .ok ()) :
    ∃ fault, record.entry policy = .error fault ∧
      audit ledger schedule policy = .error (.record index fault) := by
  obtain ⟨error, herror⟩ := (exists_audit_eq_error_iff hschedule hpolicy).2
    ⟨record, List.mem_of_getElem? h.here, h.malformed⟩
  obtain ⟨place, found, fault, hplace, hfault, rfl⟩ :=
    entriesFrom_eq_error ((audit_eq_error_iff hschedule hpolicy).1 herror)
  obtain ⟨rfl, rfl⟩ := h.unique hplace
  rw [Nat.zero_add] at herror
  exact ⟨fault, hfault, herror⟩

/-- Malformed records are fatal and nothing else is. If schedule and policy keep their contracts, an
audit fails exactly if the ledger holds a malformed record; the error names the place of the first
one among all records, and every ledger that is the same up to that place has the same error.
Otherwise the violation of the schedule is reported, or else that of the policy, whatever the
ledger. -/
theorem audit_first_malformed (ledger : List Record) (schedule : Schedule) (policy : Policy) :
    (schedule.check = .ok () → policy.check = .ok () →
      ((∃ error, audit ledger schedule policy = .error error) ↔
        ∃ record ∈ ledger, record.Malformed policy) ∧
      ∀ error, audit ledger schedule policy = .error error →
        ∃ index record fault, error = .record index fault ∧
          policy.StopsAt ledger index record ∧
          ∀ other, other.take (index + 1) = ledger.take (index + 1) →
            audit other schedule policy = .error (.record index fault)) ∧
    (∀ broken, schedule.check = .error broken →
      audit ledger schedule policy = .error (.violation broken)) ∧
    ∀ broken, schedule.check = .ok () → policy.check = .error broken →
      audit ledger schedule policy = .error (.violation broken) := by
  refine ⟨?_, ?_, ?_⟩
  · intro hschedule hpolicy
    refine ⟨exists_audit_eq_error_iff hschedule hpolicy, fun error h => ?_⟩
    obtain ⟨index, record, fault, hstops, hfault, rfl⟩ :=
      entriesFrom_eq_error ((audit_eq_error_iff hschedule hpolicy).1 h)
    rw [Nat.zero_add]
    refine ⟨index, record, fault, rfl, hstops, fun other heq => ?_⟩
    -- The other ledger fails as well, at the only place at which it can.
    have hother := hstops.of_take heq
    obtain ⟨error, herror⟩ := (exists_audit_eq_error_iff hschedule hpolicy).2
      ⟨record, List.mem_of_getElem? hother.here, hother.malformed⟩
    obtain ⟨place, found, cause, hplace, hcause, rfl⟩ :=
      entriesFrom_eq_error ((audit_eq_error_iff hschedule hpolicy).1 herror)
    obtain ⟨rfl, rfl⟩ := hother.unique hplace
    obtain rfl := Except.error.inj (hfault.symm.trans hcause)
    rw [herror, Nat.zero_add]
  · intro broken h
    rw [audit, h]
    rfl
  · intro broken hschedule h
    rw [audit, hschedule, h]
    rfl

/-- A checkpoint, an aborted step with an impossible place and a closing that is not required are
read without complaint. The step behind them stops the audit at its place among all records,
whatever follows it. -/
theorem audit_first_malformed_behind_others :
    let aborted : Record :=
      { kind := some "ace_step", status := some "aborted", context := some { coord := some 99999 } }
    let outside : Record :=
      { kind := some "ace_step", status := some "committed", t := some 1,
        context := some { classId := some 95, coord := some 12288 } }
    let before : List Record :=
      [.checkpoint 7, aborted, { kind := some "petc", context := some {} }]
    let policy : Policy := { perStepKinds := .ofList ["review"] }
    Schedule.check {} = .ok () ∧ policy.check = .ok () ∧
      policy.StopsAt (before ++ [outside, {}]) 3 outside ∧
      audit (before ++ [outside, .checkpoint 0]) {} policy =
        .error (.record 3 (.refused (.noSuchCoord 12288))) := by
  intro aborted outside before policy
  have hschedule : Schedule.check {} = .ok () := by decide +kernel
  have hpolicy : policy.check = .ok () := by decide +kernel
  have herror : audit (before ++ [outside, {}]) {} policy =
      .error (.record 3 (.refused (.noSuchCoord 12288))) := by decide +kernel
  obtain ⟨hfirst, -, -⟩ := audit_first_malformed (before ++ [outside, {}]) {} policy
  obtain ⟨index, record, fault, heq, hstops, hother⟩ :=
    (hfirst hschedule hpolicy).2 _ herror
  obtain ⟨rfl, rfl⟩ := AuditError.record.inj heq
  obtain rfl := Option.some.inj hstops.here
  exact ⟨hschedule, hpolicy, hstops, hother _ rfl⟩

end LatticeLedger
