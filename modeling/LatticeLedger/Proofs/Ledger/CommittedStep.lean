import LatticeLedger.Proofs.Audit.Reading
import LatticeLedger.Proofs.Guard.Logged
import LatticeLedger.Proofs.Ledger.Operation

/-!
# The record of a guarded step

A guarded step is logged with all six numbers of its address and, of its notes, with the link to a
step alone. Guarding what was logged gives the address back, since the numbers agree with each other
and are small enough for the words they are logged in; what is lost are the other notes, and these
only once. The record of the step keeps its contract unless the id is no token, and an audit reads
from it the address that was logged.
-/

namespace LatticeLedger

/-- The notes of a step that are logged: the link to a step, if there is one. -/
def loggedNotes (notes : OrderedMap String String) : OrderedMap String String :=
  match notes.get? stepLink with
  | some step => OrderedMap.empty.insert stepLink step
  | none => ∅

/-- Of the notes that are logged only the link to a step is found. -/
theorem get?_loggedNotes (notes : OrderedMap String String) (key : String) :
    (loggedNotes notes).get? key = if key = stepLink then notes.get? key else none := by
  cases hlink : notes.get? stepLink with
  | some step =>
    rw [loggedNotes, hlink, OrderedMap.get?_insert]
    split
    case isTrue heq => rw [heq, hlink]
    case isFalse => rfl
  | none =>
    rw [loggedNotes, hlink, OrderedMap.get?_empty]
    split
    case isTrue heq => rw [heq, hlink]
    case isFalse => rfl

/-- What was logged once is not thinned out any further. -/
theorem loggedNotes_loggedNotes (notes : OrderedMap String String) :
    loggedNotes (loggedNotes notes) = loggedNotes notes := by
  rw [loggedNotes, get?_loggedNotes, if_pos rfl, ← loggedNotes]

namespace LoggedContext

/-- A logged step names its place by coordinate, anchor and offset. -/
theorem stepContext_ofGuarded (guarded : GuardedStep) (t : Option UInt64) :
    (ofGuarded guarded).stepContext t = .ok
      { classId := UInt32.ofNat guarded.address.classId.val
        coordinates := .both (UInt32.ofNat guarded.address.coord.val)
          (UInt32.ofNat guarded.address.anchor.val) (UInt32.ofNat guarded.address.offset.val)
        t, metadata := loggedNotes guarded.metadata } := rfl

/-- A logged step is guarded to the address it was logged with. -/
theorem reguarded_ofGuarded (guarded : GuardedStep) (t : Option UInt64) :
    (ofGuarded guarded).reguarded t =
      .ok ⟨guarded.address, t, loggedNotes guarded.metadata⟩ := by
  refine reguarded_of_guardAddress (stepContext_ofGuarded guarded t) ?_
  refine guardAddress_of_numbers (toNat_ofNat_val (by decide) _) fun field n hn => ?_
  cases field <;> cases hn <;> exact toNat_ofNat_val (by decide) _

end LoggedContext

namespace Record

variable {entryId : Option String} {t : UInt64} {guarded : GuardedStep} {record : Record}

/-- A step gets a record exactly if its id, if there is one, is a token of at most 128 bytes. -/
theorem committedStep_eq_ok_iff :
    committedStep entryId t guarded = .ok record ↔
      (∀ id, entryId = some id → IsToken entryIdLimit id) ∧
      { kind := some stepKind, status := some committedStatus, entryId, t := some t,
        context := some (.ofGuarded guarded) } = record := by
  have hkind : checkToken "ledger_record.kind" kindLimit stepKind = .ok () := by decide +kernel
  have hstatus : checkToken "ledger_record.status" kindLimit committedStatus = .ok () := by
    decide +kernel
  rw [committedStep, checked_eq_ok_iff]
  refine and_congr_left fun _ => ⟨fun h => ?_, fun htoken => ?_⟩
  · obtain ⟨_, -, h⟩ := bind_eq_ok_iff.1 h
    obtain ⟨_, -, h⟩ := bind_eq_ok_iff.1 h
    obtain ⟨_, hid, -⟩ := bind_eq_ok_iff.1 h
    exact fun id heq => checkToken_eq_ok_iff.1 (whenPresent_eq_ok_iff.1 hid id heq)
  · have hid : whenPresent (checkToken "ledger_record.entry_id" entryIdLimit) entryId = .ok () :=
      whenPresent_eq_ok_iff.2 fun id heq => checkToken_eq_ok_iff.2 (htoken id heq)
    refine bind_eq_ok_iff.2 ⟨stepKind, rfl, bind_eq_ok_iff.2 ⟨(), hkind, ?_⟩⟩
    refine bind_eq_ok_iff.2 ⟨(), hid, bind_eq_ok_iff.2 ⟨(), hstatus, ?_⟩⟩
    exact bind_eq_ok_iff.2 ⟨(), require_eq_ok_iff.2 (.inr rfl), require_eq_ok_iff.2 fun _ => rfl⟩

/-- The record of a step fails only for its id. -/
theorem exists_committedStep_eq_error_iff :
    (∃ violation, committedStep entryId t guarded = .error violation) ↔
      ∃ id, entryId = some id ∧ ¬IsToken entryIdLimit id := by
  cases hrecord : committedStep entryId t guarded with
  | ok record =>
    have htoken := (committedStep_eq_ok_iff.1 hrecord).1
    refine ⟨nofun, ?_⟩
    rintro ⟨id, heq, hnot⟩
    exact absurd (htoken id heq) hnot
  | error violation =>
    refine iff_of_true ⟨violation, rfl⟩ ?_
    by_contra hnone
    have htoken : ∀ id, entryId = some id → IsToken entryIdLimit id := by
      intro id heq
      by_contra hnot
      exact hnone ⟨id, heq, hnot⟩
    exact absurd ((committedStep_eq_ok_iff.2 ⟨htoken, rfl⟩).symm.trans hrecord) nofun

/-- The record of a committed step keeps its contract. -/
theorem check_of_committedStep (h : committedStep entryId t guarded = .ok record) :
    record.check = .ok () :=
  (checked_eq_ok_iff.1 h).2 ▸ (checked_eq_ok_iff.1 h).1

/-- The record of a committed step is one. -/
theorem isCommittedStep_of_committedStep (h : committedStep entryId t guarded = .ok record) :
    record.isCommittedStep := by
  obtain ⟨-, rfl⟩ := committedStep_eq_ok_iff.1 h
  rfl

/-- Under every policy an audit reads the logged step: at the address to which it was guarded, with
its id and its position. -/
theorem exists_entry_of_committedStep (policy : Policy)
    (h : committedStep entryId t guarded = .ok record) :
    ∃ ref, (entryId.map StepRef.entryId).or (some (.position t)) = some ref ∧
      record.entry policy = .ok (.step ⟨ref, some t, entryId, ⟨guarded.address.classId,
        guarded.address.anchor, some guarded.address.coord⟩⟩) := by
  have hcheck := check_of_committedStep h
  obtain ⟨-, rfl⟩ := committedStep_eq_ok_iff.1 h
  obtain ⟨ref, href⟩ : ∃ ref, (entryId.map StepRef.entryId).or (some (.position t)) = some ref := by
    cases entryId with
    | none => exact ⟨.position t, rfl⟩
    | some id => exact ⟨.entryId id, rfl⟩
  refine ⟨ref, href, ?_⟩
  -- What remains is the audited step: its cell comes from the address that was logged.
  refine entry_of_gives hcheck rfl (Policy.recognizes_iff.2 (.inl rfl)) (.step rfl ?_)
  refine auditedStep_eq_ok_iff.2
    ⟨_, _, ref, rfl, LoggedContext.cell_ofGuarded guarded (some t), ?_, rfl⟩
  rw [← href]
  cases entryId <;> rfl

end Record

end LatticeLedger
