/-!
# Requirements

A check is a sequence of requirements, each with the error that reports its failure. The first
one that is not met ends the check, so the order of requirements is the order of their errors.
-/

namespace LatticeLedger

variable {ε δ α β : Type}

instance decidableEqExcept [DecidableEq ε] [DecidableEq α] : DecidableEq (Except ε α)
  | .ok a, .ok b => decidable_of_iff (a = b) (by simp)
  | .error a, .error b => decidable_of_iff (a = b) (by simp)
  | .ok _, .error _ => isFalse nofun
  | .error _, .ok _ => isFalse nofun

/-- Asks for a condition. -/
def require (condition : Prop) [Decidable condition] (error : ε) : Except ε Unit :=
  if condition then .ok () else .error error

/-- Asks for a value that may be absent, and gives it. -/
def demand (error : ε) : Option α → Except ε α
  | some value => .ok value
  | none => .error error

/-- Checks a value that may be absent. Nothing is asked of an absent one. -/
def whenPresent (check : α → Except ε Unit) : Option α → Except ε Unit
  | some value => check value
  | none => .ok ()

/-- A condition is met exactly if it holds. -/
theorem require_eq_ok_iff {condition : Prop} [Decidable condition] {error : ε} {u : Unit} :
    require condition error = .ok u ↔ condition := by
  unfold require
  split <;> simp_all

/-- A condition that does not hold fails with its error. -/
theorem require_eq_error_iff {condition : Prop} [Decidable condition] {error found : ε} :
    require condition error = .error found ↔ ¬condition ∧ error = found := by
  unfold require
  split <;> simp_all

/-- A value is given exactly if it is there. -/
theorem demand_eq_ok_iff {error : ε} {value? : Option α} {value : α} :
    demand error value? = .ok value ↔ value? = some value := by
  cases value? <;> simp [demand]

/-- An absent value fails with its error. -/
theorem demand_eq_error_iff {error found : ε} {value? : Option α} :
    demand error value? = .error found ↔ value? = none ∧ error = found := by
  cases value? <;> simp [demand]

/-- An absent value passes every check. -/
theorem whenPresent_eq_ok_iff {check : α → Except ε Unit} {value? : Option α} {u : Unit} :
    whenPresent check value? = .ok u ↔ ∀ value, value? = some value → check value = .ok u := by
  cases value? <;> simp [whenPresent]

/-- A check of a value that may be absent fails only if the value is there. -/
theorem whenPresent_eq_error_iff {check : α → Except ε Unit} {value? : Option α} {error : ε} :
    whenPresent check value? = .error error ↔
      ∃ value, value? = some value ∧ check value = .error error := by
  cases value? <;> simp [whenPresent]

/-- Renaming errors does not change an answer. -/
@[simp] theorem mapError_ok {rename : ε → δ} {value : α} :
    (Except.ok value).mapError rename = .ok value := rfl

/-- Renaming errors renames the error of a failure. -/
@[simp] theorem mapError_error {rename : ε → δ} {error : ε} :
    (Except.error error : Except ε α).mapError rename = .error (rename error) := rfl

/-- A check whose errors are renamed succeeds as before. -/
theorem mapError_eq_ok_iff {check : Except ε α} {rename : ε → δ} {value : α} :
    check.mapError rename = .ok value ↔ check = .ok value := by
  cases check <;> simp

/-- A check whose errors are renamed fails as before, with the new name of its error. -/
theorem mapError_eq_error_iff {check : Except ε α} {rename : ε → δ} {error : δ} :
    check.mapError rename = .error error ↔
      ∃ found, check = .error found ∧ rename found = error := by
  cases check <;> simp

/-- What is made of an answer is given exactly if there is one. -/
theorem map_eq_ok_iff {check : Except ε α} {f : α → β} {value : β} :
    check.map f = .ok value ↔ ∃ answer, check = .ok answer ∧ f answer = value := by
  cases check <;> simp [Except.map]

/-- A sequence succeeds if and only if its first step does, and the rest with its answer. -/
theorem bind_eq_ok_iff {first : Except ε α} {next : α → Except ε β} {value : β} :
    (first >>= next) = .ok value ↔ ∃ answer, first = .ok answer ∧ next answer = .ok value := by
  cases first <;> simp [bind, Except.bind]

/-- A sequence fails with the error of its first step or, if that succeeds, of the rest. -/
theorem bind_eq_error_iff {first : Except ε α} {next : α → Except ε β} {error : ε} :
    (first >>= next) = .error error ↔
      first = .error error ∨ ∃ answer, first = .ok answer ∧ next answer = .error error := by
  cases first <;> simp [bind, Except.bind]

/-- A check before a value gives that value if it succeeds. -/
theorem bind_return_eq_ok_iff {check : Except ε Unit} {value found : α} :
    (check >>= fun _ => return value) = .ok found ↔ check = .ok () ∧ value = found := by
  rw [bind_eq_ok_iff]
  constructor
  · rintro ⟨_, hcheck, hfound⟩
    exact ⟨hcheck, Except.ok.inj hfound⟩
  · rintro ⟨hcheck, rfl⟩
    exact ⟨(), hcheck, rfl⟩

/-- A check before a value fails exactly if the check does. -/
theorem bind_return_eq_error_iff {check : Except ε Unit} {value : α} {error : ε} :
    (check >>= fun _ => return value) = .error error ↔ check = .error error := by
  rw [bind_eq_error_iff]
  constructor
  · rintro (hcheck | ⟨_, -, h⟩)
    · exact hcheck
    · cases h
  · exact .inl

/-- A check of every element of a list succeeds if and only if each element passes. -/
theorem forM_eq_ok_iff {check : α → Except ε Unit} {list : List α} {u : Unit} :
    list.forM check = .ok u ↔ ∀ a ∈ list, check a = .ok () := by
  induction list with
  | nil => exact ⟨fun _ => nofun, fun _ => rfl⟩
  | cons a rest ih =>
    rw [List.forall_mem_cons, ← ih]
    refine bind_eq_ok_iff.trans ⟨?_, ?_⟩
    · rintro ⟨_, hfirst, hrest⟩
      exact ⟨hfirst, hrest⟩
    · rintro ⟨hfirst, hrest⟩
      exact ⟨(), hfirst, hrest⟩

/-- A check of every element of a list fails with the error of the first element that does not
pass. -/
theorem forM_eq_error_iff {check : α → Except ε Unit} {list : List α} {error : ε} :
    list.forM check = .error error ↔
      ∃ before a after, list = before ++ a :: after ∧ (∀ b ∈ before, check b = .ok ()) ∧
        check a = .error error := by
  induction list with
  | nil =>
    constructor
    · intro h
      cases h
    · rintro ⟨before, a, after, hsplit, -⟩
      simp at hsplit
  | cons first rest ih =>
    refine bind_eq_error_iff.trans ⟨?_, ?_⟩
    · rintro (hfirst | ⟨_, hfirst, hrest⟩)
      · exact ⟨[], first, rest, rfl, by simp, hfirst⟩
      · obtain ⟨before, a, after, rfl, hbefore, ha⟩ := ih.1 hrest
        exact ⟨first :: before, a, after, rfl, List.forall_mem_cons.2 ⟨hfirst, hbefore⟩, ha⟩
    · rintro ⟨before, a, after, hsplit, hbefore, ha⟩
      cases before with
      | nil =>
        obtain ⟨rfl, rfl⟩ := List.cons.inj hsplit
        exact .inl ha
      | cons b before =>
        obtain ⟨rfl, rfl⟩ := List.cons.inj hsplit
        obtain ⟨hb, hbefore⟩ := List.forall_mem_cons.1 hbefore
        exact .inr ⟨(), hb, ih.2 ⟨before, a, after, rfl, hbefore, ha⟩⟩

/-- The elements of a list are accepted together if the first is and the others are. -/
theorem mapM_cons_eq_ok_iff {f : α → Except ε β} {a : α} {rest : List α} {answers : List β} :
    (a :: rest).mapM f = .ok answers ↔
      ∃ first others, f a = .ok first ∧ rest.mapM f = .ok others ∧ first :: others = answers := by
  rw [List.mapM_cons]
  cases f a <;> cases rest.mapM f <;> simp [bind, Except.bind, pure, Except.pure]

/-- A list is refused with the error of its first element that is refused. -/
theorem mapM_cons_eq_error_iff {f : α → Except ε β} {a : α} {rest : List α} {error : ε} :
    (a :: rest).mapM f = .error error ↔
      f a = .error error ∨ (∃ first, f a = .ok first) ∧ rest.mapM f = .error error := by
  rw [List.mapM_cons]
  cases f a <;> cases rest.mapM f <;> simp [bind, Except.bind, pure, Except.pure]

/-- Elements that are all accepted are accepted together, in their order. -/
theorem mapM_eq_ok {f : α → Except ε β} {g : α → β} {list : List α}
    (h : ∀ a ∈ list, f a = .ok (g a)) : list.mapM f = .ok (list.map g) := by
  induction list with
  | nil => rfl
  | cons a rest ih =>
    obtain ⟨hfirst, hrest⟩ := List.forall_mem_cons.1 h
    exact mapM_cons_eq_ok_iff.2 ⟨g a, rest.map g, hfirst, ih hrest, rfl⟩

end LatticeLedger
