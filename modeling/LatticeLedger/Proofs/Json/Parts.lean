import LatticeLedger.Proofs.Json.Compact
import Mathlib.Data.List.Forall2

/-!
# Texts within texts

The text of an object is put together from texts: those of its names and of its values, with
colons and commas between them. That it is read as the object of what they are read as rests on
two things. A token is the same whatever follows it, unless the text ends in a number that goes on
there. And the steps between the first and the last token of a value do not depend on the
containers around it. So the text of a value is taken whole wherever a value may begin, and so is
the text of a string where a name may stand.
-/

namespace LatticeLedger.Json

/-! ### Tokens -/

namespace Number

/-- More characters may follow a number of a text without being taken for its continuation: either
the text itself goes on behind the number, or they cannot continue any. -/
def MayFollow (rest more : List Char) : Prop := rest ≠ [] ∨ EndsBefore more

section MayFollow

variable {text digits rest more : List Char}

/-- Digits end where they did, if what is appended cannot go on with them. -/
theorem scanDigits_append (h : MayFollow (scanDigits text).2 more) :
    scanDigits (text ++ more) = ((scanDigits text).1, (scanDigits text).2 ++ more) := by
  induction text with
  | nil =>
    have hends : EndsBefore more := h.resolve_left fun hne => hne rfl
    cases more with
    | nil => rfl
    | cons c more => simp [scanDigits, (hends c rfl).1]
  | cons c text ih =>
    cases hdigit : c.isDigit with
    | true =>
      simp only [scanDigits, List.cons_append, List.takeWhile_cons, List.dropWhile_cons, hdigit,
        if_true] at h ih ⊢
      obtain ⟨htake, hdrop⟩ := Prod.mk.inj (ih h)
      rw [htake, hdrop]
    | false => simp [scanDigits, hdigit]

/-- A number of digits, one at least, ends where it did. -/
theorem scanDigits?_append (h : scanDigits? text = some (digits, rest))
    (hmore : MayFollow rest more) :
    scanDigits? (text ++ more) = some (digits, rest ++ more) := by
  unfold scanDigits? at h ⊢
  split at h
  case h_1 => cases h
  case h_2 found left hne heq =>
    obtain ⟨rfl, rfl⟩ := Prod.mk.inj (Option.some.inj h)
    rw [scanDigits_append (by rw [heq]; exact hmore), heq]
    split
    case h_1 hnil => exact absurd (Prod.mk.inj hnil).1 hne
    case h_2 hsome =>
      obtain ⟨rfl, rfl⟩ := Prod.mk.inj hsome
      rfl

/-- A whole number ends where it did. -/
theorem scanWhole?_append (h : scanWhole? text = some (digits, rest))
    (hmore : MayFollow rest more) :
    scanWhole? (text ++ more) = some (digits, rest ++ more) := by
  unfold scanWhole? at h
  split at h
  case h_1 after =>
    obtain ⟨rfl, rfl⟩ := Prod.mk.inj (Option.some.inj h)
    rfl
  case h_2 hzero =>
    unfold scanWhole?
    split
    case h_1 after heq =>
      cases text with
      | nil => simp [scanDigits?, scanDigits] at h
      | cons c text => exact absurd (List.cons.inj heq).1 fun hc => hzero text (by rw [hc])
    case h_2 => exact scanDigits?_append h hmore

/-- A fraction ends where it did, and none is found where there was none. -/
theorem scanFraction?_append (h : scanFraction? text = some (digits, rest))
    (hmore : MayFollow rest more) :
    scanFraction? (text ++ more) = some (digits, rest ++ more) := by
  unfold scanFraction? at h
  split at h
  case h_1 after => exact scanDigits?_append h hmore
  case h_2 hpoint =>
    obtain ⟨rfl, rfl⟩ := Prod.mk.inj (Option.some.inj h)
    unfold scanFraction?
    split
    case h_1 after heq =>
      cases text with
      | nil => exact absurd rfl ((hmore.resolve_left fun hne => hne rfl) '.' (by simp_all)).2.1
      | cons c text => exact absurd (List.cons.inj heq).1 fun hc => hpoint text (by rw [hc])
    case h_2 => rfl

/-- An exponent ends where it did, and none is found where there was none. -/
theorem scanExponent?_append {exponent : Option (Bool × List Char)}
    (h : scanExponent? text = some (exponent, rest)) (hmore : MayFollow rest more) :
    scanExponent? (text ++ more) = some (exponent, rest ++ more) := by
  cases text with
  | nil =>
    obtain ⟨rfl, rfl⟩ := Prod.mk.inj (Option.some.inj h)
    exact scanExponent?_of_endsBefore (hmore.resolve_left fun hne => hne rfl)
  | cons mark text =>
    rw [List.cons_append]
    unfold scanExponent? at h ⊢
    simp only at h ⊢
    split at h
    case isTrue hmark =>
      rw [if_pos hmark]
      obtain ⟨⟨digits, left⟩, hdigits, heq⟩ := Option.map_eq_some_iff.1 h
      obtain ⟨rfl, rfl⟩ := Prod.mk.inj heq
      cases text with
      | nil => simp [scanDigits?, scanDigits] at hdigits
      | cons sign text =>
        rw [List.cons_append]
        split at hdigits
        case h_1 after hsign =>
          obtain ⟨rfl, rfl⟩ := List.cons.inj hsign
          simp [scanDigits?_append hdigits hmore]
        case h_2 after hsign =>
          obtain ⟨rfl, rfl⟩ := List.cons.inj hsign
          simp [scanDigits?_append hdigits hmore]
        case h_3 hminus hplus =>
          have hfirst : sign ≠ '-' ∧ sign ≠ '+' :=
            ⟨fun heq => hminus text (by rw [heq]), fun heq => hplus text (by rw [heq])⟩
          have hdigits := scanDigits?_append hdigits hmore
          rw [List.cons_append] at hdigits
          simp [hfirst, hdigits]
    case isFalse hmark =>
      obtain ⟨rfl, rfl⟩ := Prod.mk.inj (Option.some.inj h)
      rw [if_neg hmark]
      rfl

/-- What may follow a later part of a text may follow an earlier one. -/
theorem MayFollow.of_length_le {earlier : List Char} (h : MayFollow rest more)
    (hlength : rest.length ≤ earlier.length) : MayFollow earlier more :=
  h.imp_left fun hne hearlier => by simp_all

/-- A number is the same whatever may follow it. -/
theorem scan?_append {number : Number} (h : scan? text = some (number, rest))
    (hmore : MayFollow rest more) : scan? (text ++ more) = some (number, rest ++ more) := by
  cases text with
  | nil => simp [scan?, scanWhole?, scanDigits?, scanDigits] at h
  | cons sign text =>
    simp only [scan?, Option.bind_eq_bind, Option.bind_eq_some_iff, Option.pure_def,
      Option.some.injEq, Prod.mk.injEq, Prod.exists] at h
    obtain ⟨whole, afterWhole, hwhole, fraction, afterFraction, hfraction, exponent, left,
      hexponent, rfl, rfl⟩ := h
    have hafterFraction := hmore.of_length_le (length_scanExponent? hexponent)
    have hafterWhole := hafterFraction.of_length_le (length_scanFraction? hfraction)
    have hfraction := scanFraction?_append hfraction hafterFraction
    have hexponent := scanExponent?_append hexponent hmore
    split at hwhole
    case h_1 after hsign =>
      obtain ⟨rfl, rfl⟩ := List.cons.inj hsign
      simp [scan?, scanWhole?_append hwhole hafterWhole, hfraction, hexponent]
    case h_2 hminus =>
      have hfirst : sign ≠ '-' := fun heq => hminus text (by rw [heq])
      have hwhole := scanWhole?_append hwhole hafterWhole
      rw [List.cons_append] at hwhole
      simp [scan?, hfirst, hwhole, hfraction, hexponent]

end MayFollow

end Number

namespace Piece

/-- The pieces up to a closing quote are the same whatever follows the text. -/
theorem scan?_append {text rest : List Char} {pieces : List Piece}
    (h : scan? text = some (pieces, rest)) (more : List Char) :
    scan? (text ++ more) = some (pieces, rest ++ more) := by
  fun_induction scan? text generalizing pieces rest with
  | case1 => cases h
  | case2 after =>
    obtain ⟨rfl, rfl⟩ := Prod.mk.inj (Option.some.inj h)
    rfl
  | case3 a b c d after ih =>
    simp only [Option.bind_eq_bind, Option.bind_eq_some_iff, Option.pure_def, Option.some.injEq,
      Prod.mk.injEq, Prod.exists] at h
    obtain ⟨code, hcode, found, left, hfound, rfl, rfl⟩ := h
    simp [scan?, hcode, ih hfound]
  | case4 letter after hunit ih =>
    simp only [Option.bind_eq_bind, Option.bind_eq_some_iff, Option.pure_def, Option.some.injEq,
      Prod.mk.injEq, Prod.exists] at h
    obtain ⟨char, escaped, hescape, found, left, hfound, rfl, rfl⟩ := h
    have hletter : letter ≠ 'u' := by
      rintro rfl
      cases hescape
    rw [List.cons_append, List.cons_append, scan?, hescape]
    · simp [ih hfound]
    · exact fun _ _ _ _ _ hu _ => hletter hu
  | case5 => cases h
  | case6 c after _ _ _ hplain ih =>
    simp only [Option.bind_eq_bind, Option.bind_eq_some_iff, Option.pure_def, Option.some.injEq,
      Prod.mk.injEq, Prod.exists] at h
    obtain ⟨found, left, hfound, rfl, rfl⟩ := h
    rw [List.cons_append, scan?_plain (by simpa using hplain), ih hfound]
    rfl

end Piece

namespace Token

/-- Characters may follow a token of a text: only a number can be continued by them. -/
def MayFollow (token : Token) (rest more : List Char) : Prop :=
  ∀ literal, token = .number literal → Number.MayFollow rest more

/-- A number begins with a digit or a sign. -/
theorem exists_of_scan?_number {text rest : List Char} {literal : Number}
    (h : Number.scan? text = some (literal, rest)) :
    ∃ first after, text = first :: after ∧ (first = '-' ∨ first.isDigit = true) := by
  cases text with
  | nil => simp [Number.scan?, Number.scanWhole?, Number.scanDigits?, Number.scanDigits] at h
  | cons first after =>
    refine ⟨first, after, rfl, ?_⟩
    by_cases hsign : first = '-'
    · exact .inl hsign
    · cases hdigit : first.isDigit with
      | true => exact .inr rfl
      | false =>
        have hzero : first ≠ '0' := by rintro rfl; cases hdigit
        simp [Number.scan?, hsign, Number.scanWhole?, hzero, Number.scanDigits?,
          Number.scanDigits, hdigit] at h

/-- A token is the same whatever may follow it. -/
theorem scan?_append {text rest more : List Char} {token : Token}
    (h : scan? text = some (token, rest)) (hmore : token.MayFollow rest more) :
    scan? (text ++ more) = some (token, rest ++ more) := by
  unfold scan? at h
  split at h
  case h_7 after =>
    obtain ⟨⟨body, left⟩, hbody, heq⟩ := Option.map_eq_some_iff.1 h
    obtain ⟨rfl, rfl⟩ := Prod.mk.inj heq
    simp only [List.cons_append, scan?, Piece.scan?_append hbody more, Option.map_some]
  case h_11 =>
    obtain ⟨⟨literal, left⟩, hliteral, heq⟩ := Option.map_eq_some_iff.1 h
    obtain ⟨rfl, rfl⟩ := Prod.mk.inj heq
    have hscan := Number.scan?_append hliteral (hmore literal rfl)
    obtain ⟨first, after, rfl, hfirst⟩ := exists_of_scan?_number hliteral
    rw [List.cons_append] at hscan ⊢
    unfold scan?
    split
    case h_11 => rw [hscan, Option.map_some]
    -- No other token begins like a number.
    all_goals
      rename_i heq
      rw [(List.cons.inj heq).1] at hfirst
      exact absurd hfirst (by decide)
  all_goals
    obtain ⟨rfl, rfl⟩ := Prod.mk.inj (Option.some.inj h)
    rfl

end Token

/-! ### Runs of the machine -/

namespace State

/-- A number leaves the machine behind a number. -/
theorem step?_number {state next : State} {literal : Number}
    (h : state.step? (.number literal) = some next) :
    ∃ stack, next = after (.number literal) stack := by
  unfold step? at h
  split at h
  case h_1 => exact ⟨_, (Option.some.inj h).symm⟩
  case h_3 => exact ⟨_, (Option.some.inj h).symm⟩
  all_goals simp_all

/-- Characters may follow a text that ends in a state unless they continue a number there. -/
def MayFollow (state : State) (more : List Char) : Prop :=
  ∀ literal stack, state = after (.number literal) stack → Number.EndsBefore more

/-- The machine takes a text as it would without what follows, and then what follows. -/
theorem run?_append {state final : State} {text more : List Char}
    (h : state.run? text = some final) (hmore : final.MayFollow more) :
    state.run? (text ++ more) = final.run? more := by
  fun_induction run? state text with
  | case1 state =>
    rw [Option.some.inj h]
    rfl
  | case2 state c text hblank ih =>
    rw [List.cons_append, run?, if_pos hblank]
    exact ih h
  | case3 => cases h
  | case4 => cases h
  | case5 state c text hblank token rest hscan next hnext ih =>
    have htoken : token.MayFollow rest more := by
      rintro literal rfl
      obtain ⟨stack, rfl⟩ := step?_number hnext
      -- Only a number at the very end of the text can be continued by what follows the text.
      cases rest with
      | nil => exact .inr (hmore literal stack (by simpa [run?] using h.symm))
      | cons c rest => exact .inl (List.cons_ne_nil c rest)
    rw [run?_of_scan? token _ (Token.scan?_append hscan htoken), hnext, Option.bind_some]
    exact ih h

/-- A state with further containers open around its own. -/
def above (outer : List Frame) : State → State
  | .value stack => .value (stack ++ outer)
  | .firstItem stack => .firstItem (stack ++ outer)
  | .name members stack => .name members (stack ++ outer)
  | .firstName stack => .firstName (stack ++ outer)
  | .colon members body stack => .colon members body (stack ++ outer)
  | .after v stack => .after v (stack ++ outer)

/-- A value begins in the same way within further containers. -/
theorem beginValue_above {stack : List Frame} {token : Token} {next : State}
    (h : beginValue stack token = some next) (outer : List Frame) :
    beginValue (stack ++ outer) token = some (next.above outer) := by
  cases token <;> simp only [beginValue, Option.some.injEq, reduceCtorEq] at h
  all_goals
    subst h
    rfl

/-- A step does not depend on the containers around those in which it takes place. -/
theorem step?_above {state next : State} {token : Token} (h : state.step? token = some next)
    (outer : List Frame) : (state.above outer).step? token = some (next.above outer) := by
  unfold step? at h
  split at h
  case h_1 => exact beginValue_above h outer
  case h_3 hclose =>
    rw [above, begins_firstItem _ _ hclose]
    exact beginValue_above h outer
  case h_12 => cases h
  all_goals
    obtain rfl := Option.some.inj h
    rfl

/-- A text is taken in the same way within further containers. -/
theorem run?_above {state final : State} {text : List Char} (h : state.run? text = some final)
    (outer : List Frame) : (state.above outer).run? text = some (final.above outer) := by
  fun_induction run? state text with
  | case1 state =>
    rw [Option.some.inj h, run?]
  | case2 state c text hblank ih =>
    rw [run?, if_pos hblank]
    exact ih h
  | case3 => cases h
  | case4 => cases h
  | case5 state c text hblank token rest hscan next hnext ih =>
    rw [run?_of_scan? token rest hscan, step?_above hnext outer, Option.bind_some]
    exact ih h

/-- Anything may follow where a value is awaited. -/
theorem mayFollow_value (stack : List Frame) (more : List Char) :
    (value stack).MayFollow more := by
  intro literal outer h
  cases h

/-- Anything may follow an object, as its end is marked. -/
theorem mayFollow_object (members : List Member) (stack : List Frame) (more : List Char) :
    (after (.object members) stack).MayFollow more := by
  intro literal outer h
  cases h

/-- The text of a value is taken whole wherever a value may begin. -/
theorem run?_of_parse? {text more : List Char} {v : Value} (h : Value.parse? text = some v)
    (stack : List Frame) (hmore : (after v stack).MayFollow more) :
    (value stack).run? (text ++ more) = (after v stack).run? more := by
  have hrun := run?_above (Value.parse?_eq_some_iff.1 h) stack
  exact run?_append hrun hmore

/-! ### Names -/

/-- The outermost value that was begun is a container. -/
def InContainer : State → Prop
  | .value stack => stack ≠ []
  | .after (.array _) _ | .after (.object _) _ => True
  | .after _ stack => stack ≠ []
  | .firstItem _ | .name _ _ | .firstName _ | .colon _ _ _ => True

/-- A step leads from within a container to within it or behind it. -/
theorem InContainer.step? {state next : State} {token : Token} (h : state.InContainer)
    (hnext : state.step? token = some next) : next.InContainer := by
  have hbegin {stack : List Frame} (hne : stack ≠ [])
      (hbegin : beginValue stack token = some next) : next.InContainer := by
    cases token <;> simp only [beginValue, Option.some.injEq, reduceCtorEq] at hbegin
    all_goals
      subst hbegin
      first | exact trivial | exact hne
  unfold State.step? at hnext
  split at hnext
  case h_1 => exact hbegin h hnext
  case h_3 => exact hbegin (List.cons_ne_nil _ _) hnext
  case h_12 => cases hnext
  all_goals
    obtain rfl := Option.some.inj hnext
    first | exact trivial | exact List.cons_ne_nil _ _

/-- A text leads from within a container to within it or behind it. -/
theorem InContainer.run? {state final : State} {text : List Char} (h : state.InContainer)
    (hrun : state.run? text = some final) : final.InContainer := by
  fun_induction State.run? state text with
  | case1 state => exact Option.some.inj hrun ▸ h
  | case2 state c text hblank ih => exact ih h hrun
  | case3 => cases hrun
  | case4 => cases hrun
  | case5 state c text hblank token rest hscan next hnext ih => exact ih (h.step? hnext) hrun

end State

/-! ### Objects -/

/-- The text of the rest of an object that has the given texts as names and values. -/
def memberTexts : List (String × String) → List Char
  | [] => ['\x7d']
  | [(name, value)] => name.toList ++ ':' :: value.toList ++ ['\x7d']
  | (name, value) :: next :: rest =>
    name.toList ++ ':' :: value.toList ++ ',' :: memberTexts (next :: rest)

/-- The text of an object, put together from the texts of its names and of its values. -/
def objectText (members : List (String × String)) : String :=
  String.ofList ('\x7b' :: memberTexts members)

/-- The texts of a name and a value are read as a member. -/
def ReadsAs (texts : String × String) (member : Member) : Prop :=
  Value.ofText? texts.1 = some (.string member.1) ∧ Value.ofText? texts.2 = some member.2

namespace State

end State

end LatticeLedger.Json
