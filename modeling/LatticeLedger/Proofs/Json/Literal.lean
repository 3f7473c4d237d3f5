import LatticeLedger.Json.Token

/-!
# Literals are read as they were written

A number literal ends where the next character cannot continue it, and a string literal ends at
its closing quote. These lemmas show that the literal of a natural number and the body of any text
are scanned back whole, whatever follows them, and that they still stand for the same number and
the same text.
-/

namespace LatticeLedger.Json

namespace Number

/-- What stands after a number without belonging to it: nothing, or a character that continues
no number literal. -/
def EndsBefore (rest : List Char) : Prop :=
  ∀ c ∈ rest.head?, c.isDigit = false ∧ c ≠ '.' ∧ c ≠ 'e' ∧ c ≠ 'E'

/-- Nothing continues no number. -/
theorem endsBefore_nil : EndsBefore [] := by simp [EndsBefore]

/-- A character that is no part of a number does not continue one. -/
theorem endsBefore_cons {c : Char} {rest : List Char}
    (h : c.isDigit = false ∧ c ≠ '.' ∧ c ≠ 'e' ∧ c ≠ 'E') : EndsBefore (c :: rest) := by
  simpa [EndsBefore] using h

/-- A number is written with at least one digit, and only zero with a leading zero. -/
theorem exists_toDigits_eq_cons (n : Nat) : ∃ first digits,
    Nat.toDigits 10 n = first :: digits ∧ first.isDigit = true ∧ (0 < n → first ≠ '0') := by
  induction n using Nat.strongRecOn with
  | ind n ih =>
    rw [Nat.toDigits_eq_if (by decide)]
    split
    case isTrue hlt =>
      have hdigit : ∀ d : Fin 10, (Nat.digitChar d).isDigit = true ∧
          (0 < d.val → Nat.digitChar d ≠ '0') := by decide
      exact ⟨_, [], rfl, hdigit ⟨n, hlt⟩⟩
    case isFalse hge =>
      obtain ⟨first, digits, heq, hdigit, hzero⟩ := ih (n / 10) (by omega)
      exact ⟨first, digits ++ [Nat.digitChar (n % 10)], by rw [heq]; rfl, hdigit,
        fun _ => hzero (by omega)⟩

/-- The digits of a number are taken whole from the front of a text. -/
theorem scanDigits?_toDigits {n : Nat} {rest : List Char} (h : EndsBefore rest) :
    scanDigits? (Nat.toDigits 10 n ++ rest) = some (Nat.toDigits 10 n, rest) := by
  have hdigits : ∀ c ∈ Nat.toDigits 10 n, c.isDigit := fun c hmem =>
    Nat.isDigit_of_mem_toDigits (by decide) (by decide) hmem
  have htake : rest.takeWhile Char.isDigit = [] := by
    cases rest with
    | nil => rfl
    | cons c rest => simp [(h c rfl).1]
  have hdrop : rest.dropWhile Char.isDigit = rest := by
    cases rest with
    | nil => rfl
    | cons c rest => simp [(h c rfl).1]
  have hscan : scanDigits (Nat.toDigits 10 n ++ rest) = (Nat.toDigits 10 n, rest) := by
    rw [scanDigits, List.takeWhile_append_of_pos hdigits, List.dropWhile_append_of_pos hdigits,
      htake, hdrop, List.append_nil]
  unfold scanDigits?
  rw [hscan]
  split
  case h_1 heq => exact absurd (Prod.mk.inj heq).1 Nat.toDigits_ne_nil
  case h_2 heq => rw [(Prod.mk.inj heq).1, (Prod.mk.inj heq).2]

/-- The digits of a number are taken whole: they begin with a zero only if they are the zero. -/
theorem scanWhole?_toDigits {n : Nat} {rest : List Char} (h : EndsBefore rest) :
    scanWhole? (Nat.toDigits 10 n ++ rest) = some (Nat.toDigits 10 n, rest) := by
  rcases Nat.eq_zero_or_pos n with rfl | hpos
  · simp [Nat.toDigits_zero, scanWhole?]
  · obtain ⟨first, digits, heq, -, hzero⟩ := exists_toDigits_eq_cons n
    have hscan := scanDigits?_toDigits (n := n) h
    rw [heq, List.cons_append] at hscan ⊢
    unfold scanWhole?
    split
    case h_1 hfirst => exact absurd (List.cons.inj hfirst).1 (hzero hpos)
    case h_2 => exact hscan

/-- Behind a whole number there is no fraction unless it begins with a point. -/
theorem scanFraction?_of_endsBefore {rest : List Char} (h : EndsBefore rest) :
    scanFraction? rest = some ([], rest) := by
  unfold scanFraction?
  split
  · exact absurd rfl (h '.' rfl).2.1
  · rfl

/-- Behind a number there is no exponent unless it begins with its mark. -/
theorem scanExponent?_of_endsBefore {rest : List Char} (h : EndsBefore rest) :
    scanExponent? rest = some (none, rest) := by
  unfold scanExponent?
  split
  case h_1 mark rest =>
    have hmark := h mark rfl
    rw [if_neg (by simp [hmark.2.2.1, hmark.2.2.2])]
  case h_2 => rfl

/-- The literal of a number is spelled by its digits. -/
theorem chars_ofNat (n : Nat) : (ofNat n).chars = Nat.toDigits 10 n := by simp [ofNat, chars]

/-- The literal of a natural number is scanned back. -/
theorem scan?_ofNat {n : Nat} {rest : List Char} (h : EndsBefore rest) :
    scan? ((ofNat n).chars ++ rest) = some (ofNat n, rest) := by
  have hsign : ∀ after, Nat.toDigits 10 n ++ rest ≠ '-' :: after := by
    obtain ⟨first, digits, heq, hdigit, -⟩ := exists_toDigits_eq_cons n
    intro after hminus
    rw [heq, List.cons_append] at hminus
    rw [(List.cons.inj hminus).1] at hdigit
    exact absurd hdigit (by decide)
  rw [chars_ofNat, scan?]
  · simp only [scanWhole?_toDigits h, scanFraction?_of_endsBefore h,
      scanExponent?_of_endsBefore h, Option.bind_eq_bind, Option.bind_some, Option.pure_def]
    rfl
  · exact hsign

/-- The literal of a number stands for that number. -/
theorem toNat?_ofNat (n : Nat) : (ofNat n).toNat? = some n := by
  simp [ofNat, toNat?, Nat.ofDigitChars_ten_toDigits]

end Number

namespace Piece

/-- Four hexadecimal digits spell the code unit of a control character. -/
theorem codeUnit?_hexDigit {n : Nat} (h : n < 0x20) :
    codeUnit? (hexDigit (n / 4096)) (hexDigit (n / 256)) (hexDigit (n / 16)) (hexDigit n) =
      some (UInt16.ofNat n) := by
  have hall : ∀ n : Fin 0x20,
      codeUnit? (hexDigit (n / 4096)) (hexDigit (n / 256)) (hexDigit (n / 16)) (hexDigit n) =
        some (UInt16.ofNat n) := by decide
  exact hall ⟨n, h⟩

/-- In the table of short escapes every character and every letter stands once, and no letter is
the one that announces a code unit. -/
theorem shortEscapes_unambiguous : ∀ escape ∈ shortEscapes,
    (shortEscapes.find? fun other => other.2 == escape.2) = some escape ∧
      (shortEscapes.find? fun other => other.1 == escape.1) = some escape ∧ escape.1 ≠ 'u' := by
  decide

/-- A character that is not spared an escape and has no short one is a control character. -/
theorem lt_of_needsEscape {c : Char} (h : needsEscape c = true)
    (hshort : ¬(shortEscapes.any fun escape => escape.2 == c) = true) : c.toNat < 0x20 := by
  simp only [needsEscape, Bool.or_eq_true, beq_iff_eq, decide_eq_true_eq] at h
  rcases h with (rfl | rfl) | hlt
  · exact absurd (by decide) hshort
  · exact absurd (by decide) hshort
  · exact hlt

/-- A control character fits into a code unit. -/
theorem toNat_codeUnit {n : Nat} (h : n < 0x20) : (UInt16.ofNat n).toNat = n := by
  rw [UInt16.toNat_ofNat']
  omega

/-- A character that needs no escape is a piece by itself. -/
theorem scan?_plain {c : Char} (h : needsEscape c = false) (rest : List Char) :
    scan? (c :: rest) = (scan? rest).map fun (pieces, after) => (plain c :: pieces, after) := by
  have hquote : c ≠ '"' := by rintro rfl; exact absurd h (by decide)
  have hslash : c ≠ '\\' := by rintro rfl; exact absurd h (by decide)
  rw [scan?, if_neg (by simp [h])]
  · cases scan? rest <;> rfl
  · exact fun heq => hquote heq
  · exact fun _ _ _ _ _ heq _ => hslash heq
  · exact fun _ _ heq _ => hslash heq

/-- The piece in which a character is written is scanned back. -/
theorem scan?_ofChar {c : Char} {rest : List Char} :
    scan? ((ofChar c).chars ++ rest) =
      (scan? rest).map fun (pieces, after) => (ofChar c :: pieces, after) := by
  unfold ofChar
  split
  case isTrue hplain =>
    simp only [chars, List.cons_append, List.nil_append]
    exact scan?_plain (by simpa using hplain) rest
  case isFalse hescape =>
    split
    case isTrue hshort =>
      obtain ⟨escape, hmem, heq⟩ := List.any_eq_true.1 hshort
      obtain ⟨hchar, hletter, hunit⟩ := shortEscapes_unambiguous escape hmem
      obtain rfl : escape.2 = c := by simpa using heq
      simp only [chars, hchar, List.cons_append, List.nil_append]
      rw [scan?, hletter]
      · cases scan? rest <;> rfl
      · exact fun _ _ _ _ _ hu _ => hunit hu
    case isFalse hshort =>
      have hlt := lt_of_needsEscape (by simpa using hescape) hshort
      simp only [chars, toNat_codeUnit hlt, List.cons_append, List.nil_append]
      rw [scan?, codeUnit?_hexDigit hlt]
      cases scan? rest <;> rfl

/-- A code unit that is half of no pair stands for a character of its own. -/
theorem denote?_unit {code : UInt16} {rest : List Piece} (hleading : isLeading code = false)
    (htrailing : isTrailing code = false) :
    denote? (unit code :: rest) = (denote? rest).map (Char.ofNat code.toNat :: ·) := by
  cases rest with
  | nil => simp only [denote?, hleading, htrailing, Bool.or_self, Bool.false_eq_true, if_false]
  | cons next rest =>
    cases next <;>
      simp only [denote?, hleading, htrailing, Bool.or_self, Bool.false_eq_true, if_false]

/-- A written character stands for itself. -/
theorem denote?_ofChar {c : Char} {rest : List Piece} :
    denote? (ofChar c :: rest) = (denote? rest).map (c :: ·) := by
  unfold ofChar
  split
  case isTrue => rfl
  case isFalse hescape =>
    split
    case isTrue => rfl
    case isFalse hshort =>
      have hlt := lt_of_needsEscape (by simpa using hescape) hshort
      have hcode := toNat_codeUnit hlt
      have hleading : isLeading (UInt16.ofNat c.toNat) = false := by
        simp [isLeading, UInt16.le_iff_toNat_le, hcode]
        omega
      have htrailing : isTrailing (UInt16.ofNat c.toNat) = false := by
        simp [isTrailing, UInt16.le_iff_toNat_le, hcode]
        omega
      rw [denote?_unit hleading htrailing, hcode, Char.ofNat_toNat]

end Piece

namespace Body

/-- The body of a text is scanned back up to the closing quote. -/
theorem scan?_ofText (text : String) (rest : List Char) :
    Piece.scan? ((ofText text).chars ++ '"' :: rest) = some (ofText text, rest) := by
  unfold ofText chars
  induction text.toList with
  | nil => rfl
  | cons c text ih =>
    rw [List.map_cons, List.flatMap_cons, List.append_assoc, Piece.scan?_ofChar, ih]
    rfl

/-- The body of a text stands for that text. -/
theorem text?_ofText (text : String) : (ofText text).text? = some text := by
  have hdenote : Piece.denote? (ofText text) = some text.toList := by
    unfold ofText
    induction text.toList with
    | nil => rfl
    | cons c text ih => rw [List.map_cons, Piece.denote?_ofChar, ih, Option.map_some]
  rw [text?, hdenote, Option.map_some, String.ofList_toList]

/-- Whether the surrogates among the code units stand in pairs, a leading one right before a
trailing one, so that none lacks its other half. -/
inductive Paired : Body → Prop
  | nil : Paired []
  | plain (c : Char) {rest : Body} (h : Paired rest) : Paired (.plain c :: rest)
  | short (c : Char) {rest : Body} (h : Paired rest) : Paired (.short c :: rest)
  | unit {code : UInt16} {rest : Body} (hleading : Piece.isLeading code = false)
    (htrailing : Piece.isTrailing code = false) (h : Paired rest) : Paired (.unit code :: rest)
  | pair {leading trailing : UInt16} {rest : Body} (hleading : Piece.isLeading leading = true)
    (htrailing : Piece.isTrailing trailing = true) (h : Paired rest) :
    Paired (.unit leading :: .unit trailing :: rest)

/-- A body has a text exactly if its code units stand in pairs. -/
theorem isSome_text?_iff {body : Body} : body.text?.isSome = true ↔ body.Paired := by
  rw [text?, Option.isSome_map]
  constructor
  · intro h
    fun_induction Piece.denote? body with
    | case1 => exact .nil
    | case2 c rest ih => exact .plain c (ih (by simpa using h))
    | case3 c rest ih => exact .short c (ih (by simpa using h))
    | case4 leading trailing rest hleading htrailing ih =>
      exact .pair hleading htrailing (ih (by simpa using h))
    | case5 => simp at h
    | case6 => simp at h
    | case7 leading trailing rest hleading htrailing ih =>
      exact .unit (by simpa using hleading) (by simpa using htrailing) (ih (by simpa using h))
    | case8 => simp at h
    | case9 code rest hne hnot ih =>
      simp only [Bool.or_eq_true, not_or, Bool.not_eq_true] at hnot
      exact .unit hnot.1 hnot.2 (ih (by simpa using h))
  · intro h
    induction h with
    | nil => rfl
    | plain c h ih => simpa [Piece.denote?] using ih
    | short c h ih => simpa [Piece.denote?] using ih
    | unit hleading htrailing h ih => simpa [Piece.denote?_unit hleading htrailing] using ih
    | pair hleading htrailing h ih => simpa [Piece.denote?, hleading, htrailing] using ih

/-- In the body in which a text is written no code unit lacks its other half. -/
theorem paired_ofText (text : String) : (ofText text).Paired :=
  isSome_text?_iff.1 (by rw [text?_ofText, Option.isSome_some])

end Body

end LatticeLedger.Json
