import LatticeLedger.Proofs.Json.Layout

/-!
# Compact texts are read back

Without white space a written value is still the only one of its text: the machine that reads
texts takes the tokens of a value from the front of its compact text, and what follows a number
there cannot belong to it. So two written values with the same compact text are the same value,
whatever texts, names and lists they contain.
-/

namespace LatticeLedger.Json

namespace Token

/-- A comma is spelled by one character. -/
theorem chars_comma : comma.chars = [','] := rfl

/-- A colon is spelled by one character. -/
theorem chars_colon : colon.chars = [':'] := rfl

end Token

namespace State

open Value

/-- The name of a member may stand here, behind the `earlier` members of its object. -/
def AwaitsName (state : State) (earlier : List Member) (stack : List Frame) : Prop :=
  ∀ name, state.step? (.string name) = some (colon earlier name stack)

/-- Behind an opening brace the first name may stand. -/
theorem awaitsName_firstName (stack : List Frame) : (firstName stack).AwaitsName [] stack :=
  fun _ => rfl

/-- Behind a comma in an object the next name may stand. -/
theorem awaitsName_name (earlier : List Member) (stack : List Frame) :
    (name earlier stack).AwaitsName earlier stack := fun _ => rfl

mutual

/-- A written value is taken whole from the front of its compact text. -/
theorem run?_compact (v : Value) (hwritten : v.Written) {state : State} {stack : List Frame}
    (hstate : state.Begins stack) {rest : List Char} (hrest : Number.EndsBefore rest) :
    state.run? (v.tokens.flatMap Token.chars ++ rest) = (after v stack).run? rest := by
  cases v with
  | null => exact run?_of_begins hstate .null _ rfl (by simp)
  | bool b => cases b <;> exact run?_of_begins hstate (.bool _) _ rfl (by simp)
  | number literal =>
    obtain ⟨n, rfl⟩ := hwritten
    rw [tokens, List.flatMap_singleton]
    exact run?_of_begins hstate _ _ (Token.scan?_number hrest) (by simp)
  | string body =>
    obtain ⟨text, rfl⟩ := hwritten
    rw [tokens, List.flatMap_singleton]
    exact run?_of_begins hstate _ _ (Token.scan?_string text rest) (by simp)
  | array items =>
    simp only [tokens, List.cons_append, List.flatMap_cons, List.flatMap_append, List.flatMap_nil,
      List.append_assoc, List.append_nil]
    cases items with
    | nil =>
      rw [run?_of_begins hstate .openArray (']' :: rest) rfl (by simp)]
      exact run?_of_scan? .closeArray rest rfl
    | cons item items =>
      rw [run?_of_begins hstate .openArray _ rfl (by simp), beginValue, Option.bind_some]
      exact run?_compactItems (item :: items) hwritten (by simp) (begins_firstItem stack) rest
  | object members =>
    simp only [tokens, List.cons_append, List.flatMap_cons, List.flatMap_append, List.flatMap_nil,
      List.append_assoc, List.append_nil]
    cases members with
    | nil =>
      rw [run?_of_begins hstate .openObject ('\x7d' :: rest) rfl (by simp)]
      exact run?_of_scan? .closeObject rest rfl
    | cons member members =>
      rw [run?_of_begins hstate .openObject _ rfl (by simp), beginValue, Option.bind_some]
      exact run?_compactMembers (member :: members) hwritten (by simp)
        (awaitsName_firstName stack) rest

/-- The items of an array are taken up to its end. -/
theorem run?_compactItems (items : List Value) (hwritten : ItemsWritten items)
    (hne : items ≠ []) {state : State} {earlier : List Value} {stack : List Frame}
    (hstate : state.Begins (.array earlier :: stack)) (rest : List Char) :
    state.run? ((itemTokens items).flatMap Token.chars ++ ']' :: rest) =
      (after (.array (earlier.reverse ++ items)) stack).run? rest := by
  cases items with
  | nil => exact absurd rfl hne
  | cons item items =>
    obtain ⟨hitem, hitems⟩ := hwritten
    cases items with
    | nil =>
      rw [itemTokens, run?_compact item hitem hstate (Number.endsBefore_cons (by decide)),
        run?_of_scan? .closeArray rest rfl]
      simp [step?]
    | cons next items =>
      simp only [itemTokens, List.flatMap_append, List.flatMap_cons, Token.chars_comma,
        List.cons_append, List.nil_append, List.append_assoc]
      rw [run?_compact item hitem hstate (Number.endsBefore_cons (by decide)),
        run?_of_scan? .comma _ rfl, step?, Option.bind_some,
        run?_compactItems (next :: items) hitems (by simp) (begins_value _) rest]
      simp

/-- The members of an object are taken up to its end. -/
theorem run?_compactMembers (members : List Member) (hwritten : MembersWritten members)
    (hne : members ≠ []) {state : State} {earlier : List Member} {stack : List Frame}
    (hstate : state.AwaitsName earlier stack) (rest : List Char) :
    state.run? ((memberTokens members).flatMap Token.chars ++ '\x7d' :: rest) =
      (after (.object (earlier.reverse ++ members)) stack).run? rest := by
  cases members with
  | nil => exact absurd rfl hne
  | cons member members =>
    obtain ⟨name, v⟩ := member
    obtain ⟨⟨text, rfl⟩, hv, hmembers⟩ := hwritten
    cases members with
    | nil =>
      simp only [memberTokens, List.flatMap_cons, Token.chars_colon, List.cons_append,
        List.nil_append, List.append_assoc]
      rw [run?_nameColon (hstate _),
        run?_compact v hv (begins_value _) (Number.endsBefore_cons (by decide)),
        run?_of_scan? .closeObject rest rfl]
      simp [step?]
    | cons next members =>
      simp only [memberTokens, List.flatMap_append, List.flatMap_cons, Token.chars_colon,
        Token.chars_comma, List.cons_append, List.nil_append, List.append_assoc]
      rw [run?_nameColon (hstate _),
        run?_compact v hv (begins_value _) (Number.endsBefore_cons (by decide)),
        run?_of_scan? .comma _ rfl, step?, Option.bind_some,
        run?_compactMembers (next :: members) hmembers (by simp) (awaitsName_name _ _) rest]
      simp

end

end State

namespace Value

/-- The compact text of a written value is read back as that value. -/
theorem ofText?_compactText {v : Value} (h : v.Written) : ofText? v.compactText = some v := by
  have hrun := State.run?_compact v h (State.begins_value []) Number.endsBefore_nil
  rw [List.append_nil] at hrun
  rw [ofText?, compactText, String.toList_ofList, parse?_eq_some_iff, compact, hrun, State.run?]

/-- Different written values have different compact texts. -/
theorem compactText_inj {v w : Value} (hv : v.Written) (hw : w.Written) :
    v.compactText = w.compactText ↔ v = w := by
  constructor
  · intro heq
    have hread := ofText?_compactText hv
    rw [heq, ofText?_compactText hw] at hread
    exact (Option.some.inj hread).symm
  · exact congrArg compactText

end Value

end LatticeLedger.Json
