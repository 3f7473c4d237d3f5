import LatticeLedger.Proofs.Audit.Reverification

/-!
# How an address is spelled

The place of a step may be logged as a coordinate, as an anchor and an offset, or with all six
numbers of its address. An audit guards the step again and keeps only class, anchor and coordinate
of the address. So a ledger may be rewritten from one spelling to another, at any of its committed
steps, and the report stays as it is.
-/

namespace LatticeLedger

namespace LoggedContext

/-- The ways in which a context spells the address of a guarded step: with all six numbers, as the
step is logged, or with a given class and either the coordinate alone or anchor and offset alone. A
link to a step may stand beside the latter. -/
inductive Spells (guarded : GuardedStep) (classId : Option UInt32) : LoggedContext → Prop
  | inFull : Spells guarded classId (ofGuarded guarded)
  | byCoord (link : Option String) :
    Spells guarded classId { classId, coord := some (UInt32.ofNat guarded.address.coord.val),
                             step := link }
  | byAnchor (link : Option String) :
    Spells guarded classId { classId, anchor := some (UInt32.ofNat guarded.address.anchor.val),
                             vBits := some (UInt32.ofNat guarded.address.offset.val),
                             step := link }

/-- Every spelling of an address with the right class has the cell of the address. -/
theorem Spells.cell_eq {context : LoggedContext} {guarded : GuardedStep} {classId : UInt32}
    (h : context.Spells guarded (some classId))
    (hclass : classId.toNat = guarded.address.number .classId) (t : Option UInt64) :
    context.cell t =
      .ok ⟨guarded.address.classId, guarded.address.anchor, some guarded.address.coord⟩ := by
  cases h with
  | inFull => exact cell_ofGuarded guarded t
  | byCoord link =>
    refine cell_of_restates rfl ?_
    rintro field n hn -
    cases field <;> cases hn
    · exact hclass
    · exact toNat_ofNat_val (by decide) guarded.address.coord
  | byAnchor link =>
    refine cell_of_restates rfl ?_
    rintro field n hn -
    cases field <;> cases hn
    · exact hclass
    · exact toNat_ofNat_val (by decide) guarded.address.anchor
    · exact toNat_ofNat_val (by decide) guarded.address.offset

end LoggedContext

/-- Whether the second record is the first one or, if that is a committed step, the same step under
a context that spells its address in some way. -/
inductive Record.Respelling (record : Record) : Record → Prop
  | same : Respelling record record
  | step {context spelled : LoggedContext} {guarded : GuardedStep}
    (hcommitted : record.isCommittedStep) (hcontext : record.context = some context)
    (hguarded : context.reguarded record.t = .ok guarded)
    (hspelled : spelled.Spells guarded context.classId) :
    Respelling record { record with context := some spelled }

/-- A record that is read is read alike in every spelling. -/
theorem Record.Respelling.entry_eq {record other : Record} {policy : Policy} {found : Entry}
    (h : record.Respelling other) (hentry : record.entry policy = .ok found) :
    other.entry policy = record.entry policy := by
  cases h with
  | same => rfl
  | @step context spelled guarded hcommitted hcontext hguarded hspelled =>
    obtain ⟨step, hstep, -⟩ := LoggedContext.reguarded_eq_ok hguarded
    obtain ⟨hclass, -⟩ := LoggedContext.fields_of_stepContext hstep
    have hcoordinates := LoggedContext.hasCoordinates_of_stepContext hstep
    obtain ⟨again, hagain, hrestates⟩ :=
      exists_reguarded hentry hcommitted hcontext hcoordinates
    obtain rfl := Except.ok.inj (hguarded.symm.trans hagain)
    refine entry_of_cell_eq policy hcommitted hcontext ?_
    rw [hclass] at hspelled
    rw [hspelled.cell_eq (hrestates .classId _ hclass nofun) record.t,
      LoggedContext.cell_of_restates hstep hrestates]

/-- A report does not depend on how addresses are spelled. In a ledger that an audit accepts, every
committed step with coordinates is guarded again. However any set of these steps are logged instead,
with all numbers of their addresses, with class and coordinate or with class, anchor and offset, the
audit accepts the ledger with the same report. -/
theorem audit_respelled {ledger : List Record} {schedule : Schedule} {policy : Policy}
    {report : Report} (h : audit ledger schedule policy = .ok report) :
    (∀ record ∈ ledger, record.isCommittedStep → ∀ context, record.context = some context →
      context.hasCoordinates → ∃ guarded, context.reguarded record.t = .ok guarded) ∧
    ∀ other, List.Forall₂ Record.Respelling ledger other →
      audit other schedule policy = .ok report := by
  obtain ⟨-, -, entries, hentries, -⟩ := audit_eq_ok_iff.1 h
  constructor
  · intro record hmem hcommitted context hcontext hcoordinates
    obtain ⟨entry, hentry⟩ := hentries.exists_entry hmem
    obtain ⟨guarded, hguarded, -⟩ :=
      Record.exists_reguarded hentry hcommitted hcontext hcoordinates
    exact ⟨guarded, hguarded⟩
  · intro other hother
    rw [← h]
    have hread := (List.forall₂_and_left _ _).2 ⟨fun record => hentries.exists_entry, hother⟩
    refine audit_congr schedule (hread.imp ?_)
    rintro record found ⟨⟨entry, hentry⟩, hrespelling⟩
    exact hrespelling.entry_eq hentry

/-- Three steps, each logged in another way, and the closing of the first. The first step is then
logged with all its numbers, the second with its coordinate instead of anchor and offset, and the
third with anchor and offset alone. -/
theorem audit_respelled_of_three_steps :
    let committed (id : String) (t : UInt64) (context : LoggedContext) : Record :=
      { kind := some "ace_step", status := some "committed", entryId := some id, t := some t,
        context := some context }
    let closing : Record := { kind := some "petc", context := some { step := some "a" } }
    let ledger : List Record :=
      [committed "a" 0 { classId := some 1, coord := some 1000 }, closing,
        committed "b" 1 { classId := some 2, anchor := some 1, vBits := some 2 },
        committed "c" 2 { classId := some 2, coord := some 2050, anchor := some 1, vBits := some 2,
                          row := some 8, col := some 2, step := some "a" }]
    let other : List Record :=
      [committed "a" 0 { classId := some 1, coord := some 1000, anchor := some 0,
                         vBits := some 1000, row := some 3, col := some 232 }, closing,
        committed "b" 1 { classId := some 2, coord := some 2050 },
        committed "c" 2 { classId := some 2, anchor := some 1, vBits := some 2 }]
    List.Forall₂ Record.Respelling ledger other ∧
      ∃ report, audit ledger {} {} = .ok report ∧ audit other {} {} = .ok report ∧
        report.missing = [.entryId "b", .entryId "c"] := by
  intro committed closing ledger other
  have hmissing : (audit ledger {} {}).map (·.missing) = .ok [.entryId "b", .entryId "c"] := by
    decide +kernel
  have hfirst : LoggedContext.reguarded { classId := some 1, coord := some 1000 } (some 0) =
      .ok ⟨⟨1, 1000⟩, some 0, ∅⟩ := by decide +kernel
  have hsecond : LoggedContext.reguarded { classId := some 2, anchor := some 1, vBits := some 2 }
      (some 1) = .ok ⟨⟨2, 2050⟩, some 1, ∅⟩ := by decide +kernel
  have hthird : LoggedContext.reguarded
      { classId := some 2, coord := some 2050, anchor := some 1, vBits := some 2, row := some 8,
        col := some 2, step := some "a" } (some 2) =
      .ok ⟨⟨2, 2050⟩, some 2, OrderedMap.empty.insert stepLink "a"⟩ := by decide +kernel
  have hrespelling : List.Forall₂ Record.Respelling ledger other :=
    .cons (.step rfl rfl hfirst .inFull) (.cons .same (.cons (.step rfl rfl hsecond (.byCoord none))
      (.cons (.step rfl rfl hthird (.byAnchor none)) .nil)))
  obtain ⟨report, hreport, hlisted⟩ := map_eq_ok_iff.1 hmissing
  obtain ⟨-, hsame⟩ := audit_respelled hreport
  exact ⟨hrespelling, report, hreport, hsame other hrespelling, hlisted⟩

end LatticeLedger
