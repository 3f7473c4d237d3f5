import LatticeLedger.Proofs.Audit.Reading
import Mathlib.Order.Bounds.Basic

/-!
# Fair counts and those who spoil them

A tally is fair under a tolerance if no two of its counts are further apart. An audit decides this
by the highest and the lowest count alone, and when it finds a tally unfair it names every number
that has one of these two counts. Ties, tallies of a single number and tallies of none are no
exceptions: the distance of the extremes is the largest distance of any two counts, and an unfair
tally has a number at either end.
-/

namespace LatticeLedger

/-- A list without repetitions is longer than one if and only if it has two different elements. -/
theorem two_le_length_iff {α : Type} {list : List α} (h : list.Nodup) :
    2 ≤ list.length ↔ ∃ a ∈ list, ∃ b ∈ list, a ≠ b := by
  match list with
  | [] => simp
  | [only] => simp
  | first :: second :: rest =>
    have hne : first ≠ second := by
      rintro rfl
      exact (List.nodup_cons.1 h).1 List.mem_cons_self
    refine iff_of_true ?_ ⟨first, by simp, second, by simp, hne⟩
    rw [List.length_cons, List.length_cons]
    omega

namespace Tally

/-- The counts of the numbers that occur. -/
def counted (tally : Tally) : Set Nat := {n | ∃ key, tally.get? key = some n}

/-- By how much the counts of two different numbers that occur differ. -/
def differences (tally : Tally) : Set Nat :=
  {d | ∃ first second m n, first ≠ second ∧ tally.get? first = some m ∧
    tally.get? second = some n ∧ m = n + d}

variable {tally : Tally}

/-- What was counted is what stands in the tally. -/
theorem mem_counted_iff {n : Nat} : n ∈ tally.counted ↔ n ∈ tally.values :=
  OrderedMap.mem_values_iff.symm

/-- Where anything is counted, the highest count is the greatest of all. -/
theorem isGreatest_highest (h : tally.values ≠ []) : IsGreatest tally.counted tally.highest := by
  obtain ⟨n, hmax⟩ := Option.isSome_iff_exists.1 (List.isSome_max?_iff.2 h)
  obtain ⟨hmem, hle⟩ := List.max?_eq_some_iff.1 hmax
  rw [highest, hmax, Option.getD_some]
  exact ⟨mem_counted_iff.2 hmem, fun m hm => hle m (mem_counted_iff.1 hm)⟩

/-- Where anything is counted, the lowest count is the least of all. -/
theorem isLeast_lowest (h : tally.values ≠ []) : IsLeast tally.counted tally.lowest := by
  obtain ⟨n, hmin⟩ := Option.isSome_iff_exists.1 (List.isSome_min?_iff.2 h)
  obtain ⟨hmem, hle⟩ := List.min?_eq_some_iff.1 hmin
  rw [lowest, hmin, Option.getD_some]
  exact ⟨mem_counted_iff.2 hmem, fun m hm => hle m (mem_counted_iff.1 hm)⟩

/-- A tally with a count is not empty. -/
theorem values_ne_nil {n : Nat} (h : n ∈ tally.counted) : tally.values ≠ [] :=
  List.ne_nil_of_mem (mem_counted_iff.1 h)

/-! ### The skew -/

/-- No two counts differ by more than the highest and the lowest. -/
theorem le_skew {d : Nat} (h : d ∈ tally.differences) : d ≤ tally.skew := by
  obtain ⟨first, second, m, n, -, hm, hn, heq⟩ := h
  have hne : tally.values ≠ [] := values_ne_nil ⟨first, hm⟩
  have hhigh : m ≤ tally.highest := (isGreatest_highest hne).2 ⟨first, hm⟩
  have hlow : tally.lowest ≤ n := (isLeast_lowest hne).2 ⟨second, hn⟩
  rw [skew]
  omega

/-- If the highest and the lowest count differ, then different numbers have them. -/
theorem exists_ends (h : 0 < tally.skew) :
    ∃ most least, most ≠ least ∧ tally.get? most = some tally.highest ∧
      tally.get? least = some tally.lowest := by
  have hne : tally.values ≠ [] := by
    intro hnil
    rw [skew, highest, lowest, hnil] at h
    exact absurd h (by decide)
  obtain ⟨most, hmost⟩ := (isGreatest_highest hne).1
  obtain ⟨least, hleast⟩ := (isLeast_lowest hne).1
  refine ⟨most, least, ?_, hmost, hleast⟩
  rintro rfl
  rw [hmost, Option.some.injEq] at hleast
  rw [skew] at h
  omega

/-- A skew above zero is the difference of two numbers that occur. -/
theorem skew_mem_differences (h : 0 < tally.skew) : tally.skew ∈ tally.differences := by
  obtain ⟨most, least, hne, hmost, hleast⟩ := exists_ends h
  refine ⟨most, least, _, _, hne, hmost, hleast, ?_⟩
  rw [skew] at h ⊢
  omega

/-- There are differences as soon as two numbers occur. -/
theorem nonempty_differences_iff : tally.differences.Nonempty ↔ 2 ≤ tally.keys.length := by
  rw [two_le_length_iff tally.nodup_keys]
  constructor
  · rintro ⟨_, first, second, m, n, hne, hm, hn, -⟩
    exact ⟨first, OrderedMap.mem_keys_iff.2 ⟨m, hm⟩, second, OrderedMap.mem_keys_iff.2 ⟨n, hn⟩, hne⟩
  · rintro ⟨first, hfirst, second, hsecond, hne⟩
    obtain ⟨m, hm⟩ := OrderedMap.mem_keys_iff.1 hfirst
    obtain ⟨n, hn⟩ := OrderedMap.mem_keys_iff.1 hsecond
    rcases Nat.le_total n m with hle | hle
    · exact ⟨m - n, first, second, m, n, hne, hm, hn, by omega⟩
    · exact ⟨n - m, second, first, n, m, hne.symm, hn, hm, by omega⟩

/-- The skew is the largest difference if there is one. -/
theorem isGreatest_skew (h : tally.differences.Nonempty) :
    IsGreatest tally.differences tally.skew := by
  refine ⟨?_, fun d hd => le_skew hd⟩
  by_cases hpos : 0 < tally.skew
  · exact skew_mem_differences hpos
  · obtain ⟨d, hd⟩ := h
    have hle := le_skew hd
    obtain rfl : d = tally.skew := by omega
    exact hd

/-- Without two numbers to compare there is no skew. -/
theorem skew_eq_zero (h : ¬tally.differences.Nonempty) : tally.skew = 0 := by
  by_contra hne
  exact h ⟨_, skew_mem_differences (Nat.pos_of_ne_zero hne)⟩

/-- A bound on the skew is a bound on every difference. -/
theorem skew_le_iff {tolerance : Nat} :
    tally.skew ≤ tolerance ↔ ∀ d ∈ tally.differences, d ≤ tolerance := by
  constructor
  · intro h d hd
    exact Nat.le_trans (le_skew hd) h
  · intro h
    by_contra hlt
    exact hlt (h _ (skew_mem_differences (by omega)))

/-! ### Those to blame -/

/-- Whether the count of a number is the greatest of all counts. -/
def CountedMost (tally : Tally) (key : UInt32) : Prop :=
  ∃ n, tally.get? key = some n ∧ IsGreatest tally.counted n

/-- Whether the count of a number is the least of all counts. -/
def CountedLeast (tally : Tally) (key : UInt32) : Prop :=
  ∃ n, tally.get? key = some n ∧ IsLeast tally.counted n

/-- A number is counted most if it is found with the highest count. -/
theorem countedMost_iff {key : UInt32} :
    tally.CountedMost key ↔ tally.get? key = some tally.highest := by
  constructor
  · rintro ⟨n, hkey, hgreatest⟩
    rw [hkey, (isGreatest_highest (values_ne_nil ⟨key, hkey⟩)).unique hgreatest]
  · intro hkey
    exact ⟨_, hkey, isGreatest_highest (values_ne_nil ⟨key, hkey⟩)⟩

/-- A number is counted least if it is found with the lowest count. -/
theorem countedLeast_iff {key : UInt32} :
    tally.CountedLeast key ↔ tally.get? key = some tally.lowest := by
  constructor
  · rintro ⟨n, hkey, hleast⟩
    rw [hkey, (isLeast_lowest (values_ne_nil ⟨key, hkey⟩)).unique hleast]
  · intro hkey
    exact ⟨_, hkey, isLeast_lowest (values_ne_nil ⟨key, hkey⟩)⟩

/-- The extremes are the numbers that are counted most or least. -/
theorem mem_extremes_iff {key : UInt32} :
    key ∈ tally.extremes ↔ tally.CountedMost key ∨ tally.CountedLeast key := by
  simp only [extremes, List.mem_map, List.mem_filter, Bool.or_eq_true, beq_iff_eq,
    countedMost_iff, countedLeast_iff, OrderedMap.get?_eq_some_iff]
  constructor
  · rintro ⟨⟨_, _⟩, ⟨hmem, rfl | rfl⟩, rfl⟩
    · exact .inl hmem
    · exact .inr hmem
  · rintro (hmem | hmem)
    · exact ⟨_, ⟨hmem, .inl rfl⟩, rfl⟩
    · exact ⟨_, ⟨hmem, .inr rfl⟩, rfl⟩

/-- Those to blame are listed in ascending order, each once. -/
theorem ascending_extremes : tally.extremes.Pairwise (· < ·) :=
  List.pairwise_map.2 (tally.ascending.filter _)

/-- Numbers at both ends are among the extremes of a tally with a skew, and they are different. -/
theorem exists_extremes (h : 0 < tally.skew) :
    ∃ most ∈ tally.extremes, ∃ least ∈ tally.extremes, most ≠ least ∧ tally.CountedMost most ∧
      tally.CountedLeast least := by
  obtain ⟨most, least, hne, hmost, hleast⟩ := exists_ends h
  have hgreatest := countedMost_iff.2 hmost
  have hlowest := countedLeast_iff.2 hleast
  exact ⟨most, mem_extremes_iff.2 (.inl hgreatest), least, mem_extremes_iff.2 (.inr hlowest), hne,
    hgreatest, hlowest⟩

/-! ### Verdicts -/

/-- Whether a skew, a verdict and a list of those to blame match the counts of a tally. -/
structure Judged (tally : Tally) (tolerance skew : Nat) (fair : Bool) (culprits : List UInt32) :
    Prop where
  /-- The verdict is good if no two counts differ by more than the tolerance. -/
  fair_iff : fair = true ↔ ∀ d ∈ tally.differences, d ≤ tolerance
  /-- The skew is the largest difference. -/
  skew_greatest : 2 ≤ tally.keys.length → IsGreatest tally.differences skew
  skew_zero : tally.keys.length < 2 → skew = 0
  /-- Nobody is to blame for a good verdict. -/
  culprits_nil : fair = true → culprits = []
  /-- Those who are counted most or least are to blame for a bad one. -/
  mem_culprits : fair = false → ∀ key,
    key ∈ culprits ↔ tally.CountedMost key ∨ tally.CountedLeast key
  ascending : culprits.Pairwise (· < ·)
  /-- A bad verdict names someone at either end, and these are not the same. -/
  ends : fair = false → ∃ most ∈ culprits, ∃ least ∈ culprits, most ≠ least ∧
    tally.CountedMost most ∧ tally.CountedLeast least
  two_le : fair = false → 2 ≤ culprits.length

/-- What is found out from the highest and the lowest count matches all counts. -/
theorem judged (tally : Tally) (tolerance : Nat) :
    tally.Judged tolerance tally.skew (tally.skew ≤ tolerance) (tally.culprits tolerance) := by
  have hunfair (h : decide (tally.skew ≤ tolerance) = false) :
      tally.culprits tolerance = tally.extremes ∧ 0 < tally.skew := by
    have hgt : ¬tally.skew ≤ tolerance := of_decide_eq_false h
    exact ⟨if_neg hgt, by omega⟩
  constructor
  case fair_iff => rw [decide_eq_true_iff, skew_le_iff]
  case skew_greatest => exact fun h => isGreatest_skew (nonempty_differences_iff.2 h)
  case skew_zero =>
    intro h
    exact skew_eq_zero (mt nonempty_differences_iff.1 (Nat.not_le.2 h))
  case culprits_nil => exact fun h => if_pos (of_decide_eq_true h)
  case mem_culprits =>
    intro h key
    rw [(hunfair h).1, mem_extremes_iff]
  case ascending =>
    rw [culprits]
    split
    case isTrue => exact .nil
    case isFalse => exact ascending_extremes
  case ends =>
    intro h
    rw [(hunfair h).1]
    exact exists_extremes (hunfair h).2
  case two_le =>
    intro h
    obtain ⟨most, hmost, least, hleast, hne, -⟩ := exists_extremes (hunfair h).2
    rw [(hunfair h).1, two_le_length_iff (ascending_extremes.imp UInt32.ne_of_lt)]
    exact ⟨most, hmost, least, hleast, hne⟩

end Tally

/-- The verdicts on fairness and the lists of those to blame match the counts of a report. Classes
are judged by their own counts and tolerance, and so are anchors: the verdict is good if and only if
no two counts differ by more than the tolerance, the skew is the largest difference, and a bad
verdict blames, in ascending order, exactly those whose count is the greatest or the least, at least
one of either kind. -/
theorem audit_fairness {ledger : List Record} {schedule : Schedule} {policy : Policy}
    {report : Report} (h : audit ledger schedule policy = .ok report) :
    report.classDistribution.Judged policy.classSkewTolerance.toNat report.classSkew
        report.fairClasses report.badClasses ∧
      report.anchorDistribution.Judged policy.anchorSkewTolerance.toNat report.anchorSkew
        report.fairAnchors report.badAnchors := by
  obtain ⟨-, -, entries, -, rfl⟩ := audit_eq_ok_iff.1 h
  exact ⟨Tally.judged _ _, Tally.judged _ _⟩

/-- Seven steps visit four classes once, three times, once and twice, and every anchor at least
once. Under a tolerance of one the anchors are visited fairly and the classes are not: the two
classes visited once are to blame along with the one visited most, and the class in the middle is
not. -/
theorem audit_fairness_of_tied_classes :
    let committed (classId coord : UInt32) : Record :=
      { kind := some "ace_step", status := some "committed", t := some 0,
        context := some { classId := some classId, coord := some coord } }
    let ledger : List Record :=
      [committed 7 0, committed 50 2048, committed 7 4096, committed 2 6144, committed 50 8192,
        committed 7 10240, committed 9 1]
    ∃ report, audit ledger {} {} = .ok report ∧
      report.classDistribution.toList = [(2, 1), (7, 3), (9, 1), (50, 2)] ∧
      report.anchorDistribution.toList = [(0, 2), (1, 1), (2, 1), (3, 1), (4, 1), (5, 1)] ∧
      report.classDistribution.Judged 1 2 false [2, 7, 9] ∧
      report.anchorDistribution.Judged 1 1 true [] := by
  intro committed ledger
  have hcounts : (audit ledger {} {}).map (fun report =>
      (report.classDistribution.toList, report.anchorDistribution.toList)) =
      .ok ([(2, 1), (7, 3), (9, 1), (50, 2)],
        [(0, 2), (1, 1), (2, 1), (3, 1), (4, 1), (5, 1)]) := by
    decide +kernel
  have hverdicts : (audit ledger {} {}).map (fun report =>
      ((report.classSkew, report.fairClasses, report.badClasses),
        report.anchorSkew, report.fairAnchors, report.badAnchors)) =
      .ok ((2, false, [2, 7, 9]), 1, true, []) := by
    decide +kernel
  obtain ⟨report, hreport, heq⟩ := map_eq_ok_iff.1 hcounts
  obtain ⟨hclasses, hanchors⟩ := Prod.mk.inj heq
  rw [hreport] at hverdicts
  have heq' := Except.ok.inj hverdicts
  simp only [Prod.mk.injEq] at heq'
  obtain ⟨⟨hskew, hfair, hbad⟩, hskew', hfair', hbad'⟩ := heq'
  obtain ⟨hjudged, hjudged'⟩ := audit_fairness hreport
  rw [hskew, hfair, hbad] at hjudged
  rw [hskew', hfair', hbad'] at hjudged'
  exact ⟨report, hreport, hclasses, hanchors, hjudged, hjudged'⟩

end LatticeLedger
