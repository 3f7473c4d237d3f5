import LatticeLedger.Requirement

/-!
# Arithmetic of words

A word of `w` bits holds the numbers below `1 <<< w`. Operations on words are checked here: each has
an answer only if that is the answer for numbers, so a computation that gives an answer has nowhere
carried out of a word, cut off a bit or gone below zero. A computation on words follows one on
numbers if it never stops on that account, refuses the same and answers alike.
-/

namespace LatticeLedger.Words

/-- Why a computation on words has no answer. -/
inductive Stop (ε : Type)
  /-- The number that an operation should give is not a word. -/
  | overflow
  /-- An index is given to which no generator belongs. -/
  | noGenerator
  /-- What was given is refused, as it would be with numbers. -/
  | refused (error : ε)

/-- A computation on words. -/
abbrev Run (ε α : Type) := Except (Stop ε) α

section Operations

variable {ε : Type} {v w : Nat}

/-- The sum of two words. -/
def add (a b : BitVec w) : Run ε (BitVec w) :=
  if a.uaddOverflow b then .error .overflow else .ok (a + b)

/-- The difference of two words. -/
def sub (a b : BitVec w) : Run ε (BitVec w) :=
  if a.usubOverflow b then .error .overflow else .ok (a - b)

/-- The product of two words. -/
def mul (a b : BitVec w) : Run ε (BitVec w) :=
  if a.umulOverflow b then .error .overflow else .ok (a * b)

/-- A word in another width. -/
def resize (v : Nat) (a : BitVec w) : Run ε (BitVec v) :=
  if (a.setWidth v).toNat = a.toNat then .ok (a.setWidth v) else .error .overflow

/-- The word in which one bit is set. -/
def bit (w : Nat) (place : BitVec v) : Run ε (BitVec w) :=
  if place.toNat < w then .ok (1#w <<< place) else .error .overflow

/-- The difference of two numbers of any width. -/
def difference (a b : Nat) : Run ε Nat := if b ≤ a then .ok (a - b) else .error .overflow

/-- A word below a bound, or else an error. -/
def below (bound : Nat) (error : ε) (a : BitVec w) : Run ε Unit :=
  require (a.toNat < bound) (.refused error)

variable {a b c : BitVec w} {n : Nat}

/-- Every number below the bound of a width is a word. -/
theorem exists_word (w : Nat) (h : n < 1 <<< w) : ∃ word : BitVec w, word.toNat = n := by
  rw [Nat.one_shiftLeft] at h
  exact ⟨BitVec.ofNat w n, by rw [BitVec.toNat_ofNat, Nat.mod_eq_of_lt h]⟩

/-- A sum is given exactly if it fits the width. -/
theorem add_eq_ok_iff : (add a b : Run ε _) = .ok c ↔ c.toNat = a.toNat + b.toNat := by
  rw [add]
  split
  case isTrue h =>
    have hge : 2 ^ w ≤ a.toNat + b.toNat := by simpa [BitVec.uaddOverflow] using h
    have hlt := c.isLt
    simp only [reduceCtorEq, false_iff]
    omega
  case isFalse h =>
    rw [Except.ok.injEq, ← BitVec.toNat_inj, BitVec.toNat_add_of_not_uaddOverflow h, eq_comm]

/-- A carry is not dropped. -/
example : (add 255#8 1#8 : Run Empty _) = .error .overflow := by rfl

/-- A difference is given exactly if it is not below zero. -/
theorem sub_eq_ok_iff : (sub a b : Run ε _) = .ok c ↔ c.toNat + b.toNat = a.toNat := by
  rw [sub]
  split
  case isTrue h =>
    have hlt : a.toNat < b.toNat := by simpa [BitVec.usubOverflow] using h
    simp only [reduceCtorEq, false_iff]
    omega
  case isFalse h =>
    have hle : b.toNat ≤ a.toNat := by simpa [BitVec.usubOverflow] using h
    rw [Except.ok.injEq, ← BitVec.toNat_inj, BitVec.toNat_sub_of_not_usubOverflow h]
    omega

/-- A product is given exactly if it fits the width. -/
theorem mul_eq_ok_iff : (mul a b : Run ε _) = .ok c ↔ c.toNat = a.toNat * b.toNat := by
  rw [mul]
  split
  case isTrue h =>
    have hge : 2 ^ w ≤ a.toNat * b.toNat := by simpa [BitVec.umulOverflow] using h
    have hlt := c.isLt
    simp only [reduceCtorEq, false_iff]
    exact Nat.ne_of_lt (Nat.lt_of_lt_of_le hlt hge)
  case isFalse h =>
    rw [Except.ok.injEq, ← BitVec.toNat_inj, BitVec.toNat_mul_of_not_umulOverflow h, eq_comm]

/-- A word is given in another width exactly if no bit is lost. -/
theorem resize_eq_ok_iff {c : BitVec v} : (resize v a : Run ε _) = .ok c ↔ c.toNat = a.toNat := by
  rw [resize]
  split
  case isTrue h => rw [Except.ok.injEq, ← BitVec.toNat_inj, h, eq_comm]
  case isFalse h =>
    simp only [reduceCtorEq, false_iff]
    intro hval
    have hlt : a.toNat < 2 ^ v := hval ▸ c.isLt
    exact h (by rw [BitVec.toNat_setWidth, Nat.mod_eq_of_lt hlt])

/-- A word is one of every greater width. -/
theorem exists_resize (v : Nat) (h : w ≤ v) (a : BitVec w) :
    ∃ b : BitVec v, (resize v a : Run ε _) = .ok b ∧ b.toNat = a.toNat := by
  have hlt : a.toNat < 2 ^ v := Nat.lt_of_lt_of_le a.isLt (Nat.pow_le_pow_right (by decide) h)
  obtain ⟨b, hb⟩ := exists_word v (Nat.one_shiftLeft v ▸ hlt)
  exact ⟨b, resize_eq_ok_iff.2 hb, hb⟩

/-- A power of two is given exactly if its bit is within the width. -/
theorem bit_eq_ok_iff {place : BitVec v} :
    (bit w place : Run ε _) = .ok c ↔ c.toNat = 1 <<< place.toNat := by
  rw [bit, Nat.one_shiftLeft]
  split
  case isTrue h =>
    have hlt : 2 ^ place.toNat < 2 ^ w := Nat.pow_lt_pow_right (by decide) h
    have hval : (1#w <<< place).toNat = 2 ^ place.toNat := by
      rw [BitVec.shiftLeft_eq', BitVec.toNat_shiftLeft, BitVec.toNat_ofNat, Nat.shiftLeft_eq,
        Nat.mod_mul_mod, Nat.one_mul, Nat.mod_eq_of_lt hlt]
    rw [Except.ok.injEq, ← BitVec.toNat_inj, hval, eq_comm]
  case isFalse h =>
    have hge : 2 ^ w ≤ 2 ^ place.toNat := Nat.pow_le_pow_right (by decide) (Nat.not_lt.1 h)
    simp only [reduceCtorEq, false_iff]
    exact Nat.ne_of_lt (Nat.lt_of_lt_of_le c.isLt hge)

/-- A difference of numbers is given exactly if it is not below zero. -/
theorem difference_eq_ok_iff {m n d : Nat} : (difference m n : Run ε _) = .ok d ↔ d + n = m := by
  rw [difference]
  split
  case isTrue h =>
    rw [Except.ok.injEq]
    omega
  case isFalse h =>
    simp only [reduceCtorEq, false_iff]
    omega

end Operations

/-! ### Following a computation on numbers -/

/-- Whether a computation on words comes to what one on numbers comes to. There is no case for a
computation on words that overflows. -/
inductive Follows {ε α β : Type} (R : α → β → Prop) : Run ε α → Except ε β → Prop
  | ok {word : α} {number : β} (h : R word number) : Follows R (.ok word) (.ok number)
  | refused {error : ε} : Follows R (.error (.refused error)) (.error error)

section Follows

variable {ε α β γ δ : Type} {R : α → β → Prop} {S : γ → δ → Prop} {words : Run ε α}
  {numbers : Except ε β}

/-- Sequences follow each other if their steps do. -/
theorem Follows.bind {next : α → Run ε γ} {nextNumbers : β → Except ε δ}
    (h : Follows R words numbers)
    (hnext : ∀ word number, R word number → Follows S (next word) (nextNumbers number)) :
    Follows S (words >>= next) (numbers >>= nextNumbers) := by
  cases h with
  | ok h => exact hnext _ _ h
  | refused => exact .refused

/-- A step on words for which the numbers need none. -/
theorem Follows.after {next : α → Run ε γ} {outcome : Except ε δ} {word : α}
    (hword : words = .ok word) (h : Follows S (next word) outcome) :
    Follows S (words >>= next) outcome := by
  rw [hword]
  exact h

/-- A computation that follows another one does so under every weaker relation. -/
theorem Follows.mono {R' : α → β → Prop} (h : Follows R words numbers)
    (himp : ∀ word number, R word number → R' word number) : Follows R' words numbers := by
  cases h with
  | ok h => exact .ok (himp _ _ h)
  | refused => exact .refused

/-- A last step of the words that gives an answer which they have already. -/
theorem Follows.andReturn {word : γ} {S : γ → β → Prop} (h : Follows R words numbers)
    (hword : ∀ a number, R a number → S word number) :
    Follows S (words >>= fun _ => return word) numbers := by
  cases h with
  | ok h => exact .ok (hword _ _ h)
  | refused => exact .refused

/-- The words have an answer if the numbers have one. -/
theorem Follows.exists_ok {number : β} (h : Follows R words (.ok number)) :
    ∃ word, words = .ok word ∧ R word number := by
  cases h with
  | ok h => exact ⟨_, rfl, h⟩

/-- The numbers have an answer if the words have one. -/
theorem Follows.exists_number {word : α} (h : Follows R (.ok word) numbers) :
    ∃ number, numbers = .ok number ∧ R word number := by
  cases h with
  | ok h => exact ⟨_, rfl, h⟩

/-- A condition on words follows the same condition on numbers. -/
theorem follows_require {p q : Prop} [Decidable p] [Decidable q] {error : ε} (h : p ↔ q) :
    Follows (fun _ _ => p) (require p (Stop.refused error)) (require q error) := by
  by_cases hp : p
  · rw [require, if_pos hp, require, if_pos (h.1 hp)]
    exact .ok hp
  · rw [require, if_neg hp, require, if_neg (mt h.2 hp)]
    exact .refused

/-- A word below a bound is the number of that size. -/
theorem follows_below {w bound : Nat} {error : ε} {a : BitVec w} :
    Follows (fun _ n => n.val = a.toNat) (below bound error a)
      (if h : a.toNat < bound then .ok (⟨a.toNat, h⟩ : Fin bound) else .error error) := by
  rw [below, require]
  split
  case isTrue h => exact .ok rfl
  case isFalse h => exact .refused

end Follows

end LatticeLedger.Words
