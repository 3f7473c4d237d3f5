import LatticeLedger.Numeric.Binary64

/-!
# Number literals

A number is kept as it is written, in its four parts. Only literals without sign, fraction and
exponent are natural numbers; `1.0` and `1e0` are not. All other literals matter only in that
a reader may have to refuse those beyond the range of double precision.
-/

namespace LatticeLedger.Json

/-- A number literal. -/
structure Number where
  negative : Bool := false
  /-- The digits before the point; a leading zero stands alone. -/
  whole : List Char
  /-- The digits after the point; none if there is no point. -/
  fraction : List Char := []
  /-- The sign and the digits of the exponent. -/
  exponent : Option (Bool × List Char) := none
  deriving DecidableEq, Repr

namespace Number

/-- The digits at the front of a text, and what follows them. -/
def scanDigits (text : List Char) : List Char × List Char :=
  (text.takeWhile Char.isDigit, text.dropWhile Char.isDigit)

/-- The digits at the front of a text, if there are any. -/
def scanDigits? (text : List Char) : Option (List Char × List Char) :=
  match scanDigits text with
  | ([], _) => none
  | (digits, rest) => some (digits, rest)

/-- The digits of the whole part: a zero alone, or digits that begin with another one. -/
def scanWhole? : List Char → Option (List Char × List Char)
  | '0' :: rest => some (['0'], rest)
  | text => scanDigits? text

/-- The digits after a point, if a point follows. -/
def scanFraction? : List Char → Option (List Char × List Char)
  | '.' :: rest => scanDigits? rest
  | text => some ([], text)

/-- The sign and digits after an exponent mark, if a mark follows. -/
def scanExponent? : List Char → Option (Option (Bool × List Char) × List Char)
  | mark :: rest =>
    if mark = 'e' ∨ mark = 'E' then
      let (negative, rest) :=
        match rest with
        | '-' :: rest => (true, rest)
        | '+' :: rest => (false, rest)
        | rest => (false, rest)
      (scanDigits? rest).map fun (digits, rest) => (some (negative, digits), rest)
    else some (none, mark :: rest)
  | [] => some (none, [])

/-- The longest number literal at the front of a text, and what follows it. -/
def scan? (text : List Char) : Option (Number × List Char) := do
  let (negative, text) :=
    match text with
    | '-' :: rest => (true, rest)
    | text => (false, text)
  let (whole, text) ← scanWhole? text
  let (fraction, text) ← scanFraction? text
  let (exponent, text) ← scanExponent? text
  return (⟨negative, whole, fraction, exponent⟩, text)

/-- At least one digit is taken. -/
theorem length_scanDigits? {text digits rest : List Char}
    (h : scanDigits? text = some (digits, rest)) : rest.length < text.length := by
  unfold scanDigits? at h
  split at h
  · simp at h
  case h_2 first left hne heq =>
    obtain ⟨rfl, rfl⟩ : first = digits ∧ left = rest := by simpa using h
    obtain ⟨hfirst, rfl⟩ := Prod.mk.inj heq
    have hlength :=
      congrArg List.length (List.takeWhile_append_dropWhile (p := Char.isDigit) (l := text))
    rw [List.length_append, hfirst] at hlength
    have hpos : 0 < first.length := List.length_pos_iff.2 hne
    omega

/-- A whole number takes at least one digit. -/
theorem length_scanWhole? {text digits rest : List Char}
    (h : scanWhole? text = some (digits, rest)) : rest.length < text.length := by
  unfold scanWhole? at h
  split at h
  · obtain ⟨-, rfl⟩ := by simpa using h
    simp
  · exact length_scanDigits? h

/-- A fraction may be missing, so nothing need be taken. -/
theorem length_scanFraction? {text digits rest : List Char}
    (h : scanFraction? text = some (digits, rest)) : rest.length ≤ text.length := by
  unfold scanFraction? at h
  split at h
  · exact Nat.le_succ_of_le (Nat.le_of_lt (length_scanDigits? h))
  · obtain ⟨-, rfl⟩ := by simpa using h
    exact Nat.le_refl _

/-- An exponent may be missing, so nothing need be taken. -/
theorem length_scanExponent? {text rest : List Char} {exponent : Option (Bool × List Char)}
    (h : scanExponent? text = some (exponent, rest)) : rest.length ≤ text.length := by
  unfold scanExponent? at h
  split at h
  case h_1 mark after =>
    split at h
    · obtain ⟨⟨digits, left⟩, hdigits, heq⟩ := Option.map_eq_some_iff.1 h
      obtain ⟨-, rfl⟩ := Prod.mk.inj heq
      have hlength := length_scanDigits? hdigits
      split at hlength <;> simp only [List.length_cons] at hlength ⊢ <;> omega
    · obtain ⟨-, rfl⟩ := by simpa using h
      exact Nat.le_refl _
  case h_2 =>
    obtain ⟨-, rfl⟩ := by simpa using h
    exact Nat.le_refl _

/-- A literal takes at least one character. -/
theorem length_scan? {text rest : List Char} {number : Number}
    (h : scan? text = some (number, rest)) : rest.length < text.length := by
  simp only [scan?, Option.bind_eq_bind, Option.bind_eq_some_iff, Option.pure_def,
    Option.some.injEq, Prod.mk.injEq, Prod.exists] at h
  obtain ⟨whole, afterWhole, hwhole, fraction, afterFraction, hfraction, exponent, left, hexponent,
    -, rfl⟩ := h
  have hwhole := length_scanWhole? hwhole
  have hfraction := length_scanFraction? hfraction
  have hexponent := length_scanExponent? hexponent
  split at hwhole <;> simp only [List.length_cons] at hwhole ⊢ <;> omega

/-- The spelling of a literal; an exponent mark is written `e`. -/
def chars (number : Number) : List Char :=
  (if number.negative then ['-'] else []) ++ number.whole ++
    (if number.fraction = [] then [] else '.' :: number.fraction) ++
    match number.exponent with
    | none => []
    | some (negative, digits) => 'e' :: (if negative then '-' :: digits else digits)

/-- The literal of a natural number. -/
def ofNat (n : Nat) : Number := { whole := Nat.toDigits 10 n }

/-- The natural number of a literal that has nothing but a whole part. -/
def toNat? (number : Number) : Option Nat :=
  if !number.negative && number.fraction.isEmpty && number.exponent.isNone then
    some (Nat.ofDigitChars 10 number.whole 0)
  else none

/-- The largest significand that is collected from the digits of a literal. -/
def significandLimit : Nat := UInt64.size - 1

/-- Appends digits to a significand as long as it stays within the limit. The digits left over
are returned with it. -/
def collect (significand : Nat) : List Char → Nat × List Char
  | [] => (significand, [])
  | digit :: rest =>
    let longer := significand * 10 + (digit.toNat - '0'.toNat)
    if longer ≤ significandLimit then collect longer rest else (significand, digit :: rest)

/-- Significand and decimal exponent under which a literal is read as a floating-point number.
Digits that do not fit are dropped: before the point they count in the exponent, after it they
count for nothing. -/
def parts (number : Number) : Nat × Int :=
  let (significand, dropped) := collect 0 number.whole
  let (significand, ignored) := collect significand number.fraction
  let shift : Int := dropped.length - (number.fraction.length - ignored.length : Nat)
  match number.exponent with
  | none => (significand, shift)
  | some (negative, digits) =>
    let exponent : Int := Nat.ofDigitChars 10 digits 0
    (significand, if negative then shift - exponent else shift + exponent)

/-- Whether a literal is within the range of double precision when its parts are rounded one
by one: the significand, the power of ten, and their product. -/
def inRange (number : Number) : Bool :=
  match number.parts with
  | (significand, .ofNat up) =>
    significand == 0 ||
      (up ≤ 308 && Binary64.round significand * Binary64.round (Nat.pow 10 up) < Binary64.threshold)
  | (_, .negSucc _) => true

end Number

end LatticeLedger.Json
