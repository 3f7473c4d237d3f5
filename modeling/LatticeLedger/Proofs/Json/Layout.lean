import LatticeLedger.Json.Value
import LatticeLedger.Proofs.Json.Literal

/-!
# Values laid out over several lines are read back

Every written value consists of natural numbers, texts and containers of these. The machine that
reads a text, started where a value may begin, takes such a value whole from the front of its
layout and goes on behind it. Line breaks and indentation have no part in this, so the statement
holds at every level of indentation and above every stack of open containers.
-/

namespace LatticeLedger.Json

/-! ### Tokens -/

namespace Token

/-- The literal of a text is scanned back, whatever follows it. -/
theorem scan?_string (text : String) (rest : List Char) :
    scan? ((string (.ofText text)).chars ++ rest) = some (string (.ofText text), rest) := by
  have hbody := Body.scan?_ofText text rest
  simp only [chars, List.cons_append, List.append_assoc, List.nil_append, scan?, hbody,
    Option.map_some]

/-- The literal of a number is scanned back if what follows does not continue it. -/
theorem scan?_number {n : Nat} {rest : List Char} (h : Number.EndsBefore rest) :
    scan? ((number (.ofNat n)).chars ++ rest) = some (number (.ofNat n), rest) := by
  have hliteral := Number.scan?_ofNat (n := n) h
  obtain ⟨first, digits, heq, hdigit, -⟩ := Number.exists_toDigits_eq_cons n
  simp only [chars, Number.chars_ofNat, heq, List.cons_append] at hliteral ⊢
  unfold scan?
  split
  case h_11 => rw [hliteral, Option.map_some]
  all_goals
    rename_i hfirst
    rw [(List.cons.inj hfirst).1] at hdigit
    exact absurd hdigit (by decide)

/-- No token begins with white space. -/
theorem isBlank_eq_false_of_scan? {c : Char} {text rest : List Char} {token : Token}
    (h : scan? (c :: text) = some (token, rest)) : isBlank c = false := by
  cases hblank : isBlank c with
  | false => rfl
  | true =>
    simp only [isBlank, Bool.or_eq_true, beq_iff_eq] at hblank
    rcases hblank with ((rfl | rfl) | rfl) | rfl <;>
      simp [scan?, Number.scan?, Number.scanWhole?, Number.scanDigits?, Number.scanDigits] at h

end Token

namespace State

/-- White space is passed over in every state. -/
theorem run?_blanks {state : State} (blanks : List Char) {text : List Char}
    (h : ∀ c ∈ blanks, isBlank c = true) : state.run? (blanks ++ text) = state.run? text := by
  induction blanks with
  | nil => rfl
  | cons c blanks ih =>
    rw [List.cons_append, run?, if_pos (h c List.mem_cons_self)]
    exact ih fun other hmem => h other (List.mem_cons_of_mem c hmem)

/-- A new line and its indentation do not move the machine. -/
theorem run?_newLine {state : State} {level : Nat} {text : List Char} :
    state.run? (Value.newLine level ++ text) = state.run? text := by
  refine run?_blanks _ fun c hmem => ?_
  rcases List.mem_cons.1 hmem with rfl | hmem
  · rfl
  · rw [List.eq_of_mem_replicate hmem]
    rfl

/-- A token at the front of a text moves the machine by one step. -/
theorem run?_of_scan? {state : State} {text : List Char} (token : Token) (rest : List Char)
    (h : Token.scan? text = some (token, rest)) :
    state.run? text = (state.step? token).bind fun next => next.run? rest := by
  cases text with
  | nil => exact absurd (Token.length_scan? h) (Nat.not_lt_zero _)
  | cons c text =>
    rw [run?, if_neg (by simp [Token.isBlank_eq_false_of_scan? h])]
    split
    case h_1 hnone => rw [h] at hnone; cases hnone
    case h_2 taken after htaken =>
      rw [h] at htaken
      obtain ⟨rfl, rfl⟩ := Prod.mk.inj (Option.some.inj htaken)
      cases state.step? token <;> rfl

/-- A machine has a result only behind a complete value outside of all containers. -/
theorem result?_eq_some_iff {state : State} {v : Value} :
    state.result? = some v ↔ state = after v [] := by
  unfold result?
  split
  case h_1 found => simp
  case h_2 hne =>
    constructor
    · intro h
      cases h
    · rintro rfl
      exact absurd rfl (hne v)

/-- A value above `stack` begins in such a state, except that an array may end instead. -/
def Begins (state : State) (stack : List Frame) : Prop :=
  ∀ token, token ≠ .closeArray → state.step? token = beginValue stack token

/-- A value begins where one is awaited. -/
theorem begins_value (stack : List Frame) : (value stack).Begins stack := fun _ _ => rfl

/-- The first item of an array begins where it or the end of the array is awaited. -/
theorem begins_firstItem (stack : List Frame) :
    (firstItem stack).Begins (.array [] :: stack) := by
  intro token hne
  cases token <;> first | rfl | exact absurd rfl hne

end State

namespace Value

mutual

/-- Values as the library writes them: every number is natural, and every string has a text. -/
def Written : Value → Prop
  | .null | .bool _ => True
  | .number literal => ∃ n, literal = .ofNat n
  | .string body => ∃ text, body = .ofText text
  | .array items => ItemsWritten items
  | .object members => MembersWritten members

/-- All items of an array are written. -/
def ItemsWritten : List Value → Prop
  | [] => True
  | item :: rest => item.Written ∧ ItemsWritten rest

/-- All members of an object are written, and so are their names. -/
def MembersWritten : List (Body × Value) → Prop
  | [] => True
  | (name, value) :: rest =>
    (∃ text, name = .ofText text) ∧ value.Written ∧ MembersWritten rest

end

/-- Items are written as the library writes them if each one is. -/
theorem itemsWritten_iff {items : List Value} :
    ItemsWritten items ↔ ∀ item ∈ items, item.Written := by
  induction items with
  | nil => simp [ItemsWritten]
  | cons item rest ih => simp [ItemsWritten, ih]

/-- Members are written as the library writes them if each name is that of a text and each value is.
-/
theorem membersWritten_iff {members : List Member} :
    MembersWritten members ↔
      ∀ member ∈ members, (∃ text, member.1 = .ofText text) ∧ member.2.Written := by
  induction members with
  | nil => simp [MembersWritten]
  | cons member rest ih => simp [MembersWritten, ih, and_assoc]

/-- A text is written as the library writes it. -/
theorem written_ofString (text : String) : (ofString text).Written := ⟨text, rfl⟩

/-- A number is written as the library writes it. -/
theorem written_ofNat (n : Nat) : (ofNat n).Written := ⟨n, rfl⟩

/-- An array is written as the library writes it if its items are. -/
theorem written_array {items : List Value} (h : ∀ item ∈ items, item.Written) :
    (array items).Written := itemsWritten_iff.2 h

/-- An object is written as the library writes it if its values are. -/
theorem written_ofMembers {members : List (String × Value)}
    (h : ∀ member ∈ members, member.2.Written) : (ofMembers members).Written := by
  refine membersWritten_iff.2 fun member hmem => ?_
  obtain ⟨⟨name, value⟩, hsource, rfl⟩ := List.mem_map.1 hmem
  exact ⟨⟨name, rfl⟩, h _ hsource⟩

/-- No number is continued by a new line. -/
theorem endsBefore_newLine {level : Nat} {text : List Char} :
    Number.EndsBefore (newLine level ++ text) :=
  Number.endsBefore_cons (by decide)

/-- A comma or a new line follows every item of an array. -/
theorem endsBefore_prettyItems {level outer : Nat} {items : List Value} {text : List Char} :
    Number.EndsBefore (prettyItems level items ++ (newLine outer ++ text)) := by
  cases items with
  | nil => exact endsBefore_newLine
  | cons item rest => exact Number.endsBefore_cons (by decide)

/-- A comma or a new line follows every member of an object. -/
theorem endsBefore_prettyMembers {level outer : Nat} {members : List Member}
    {text : List Char} :
    Number.EndsBefore (prettyMembers level members ++ (newLine outer ++ text)) := by
  cases members with
  | nil => exact endsBefore_newLine
  | cons member rest => exact Number.endsBefore_cons (by decide)

end Value

namespace State

open Value

/-- The name of a member and its colon, where a name may stand. -/
theorem run?_nameColon {state : State} {members : List Member} {stack : List Frame}
    {name : String} {text : List Char}
    (hstate : state.step? (.string (.ofText name)) = some (colon members (.ofText name) stack)) :
    state.run? ((Token.string (.ofText name)).chars ++ ':' :: text) =
      (value (.object members (.ofText name) :: stack)).run? text := by
  rw [run?_of_scan? _ _ (Token.scan?_string name _), hstate, Option.bind_some,
    run?_of_scan? .colon text rfl]
  rfl

/-- In a layout a space stands behind the colon. -/
theorem run?_name {state : State} {members : List Member} {stack : List Frame} {name : String}
    {text : List Char}
    (hstate : state.step? (.string (.ofText name)) = some (colon members (.ofText name) stack)) :
    state.run? ((Token.string (.ofText name)).chars ++ ':' :: ' ' :: text) =
      (value (.object members (.ofText name) :: stack)).run? text := by
  rw [run?_nameColon hstate]
  exact run?_blanks [' '] (List.forall_mem_singleton.2 rfl)

/-- The token that opens a value. -/
theorem run?_of_begins {state : State} {stack : List Frame} (hstate : state.Begins stack)
    {text : List Char} (token : Token) (rest : List Char)
    (hscan : Token.scan? text = some (token, rest)) (hne : token ≠ .closeArray) :
    state.run? text = (beginValue stack token).bind fun next => next.run? rest := by
  rw [run?_of_scan? token rest hscan, hstate token hne]

mutual

/-- A written value is taken whole from the front of its layout. -/
theorem run?_pretty (v : Value) (hwritten : v.Written) (level : Nat) {state : State}
    {stack : List Frame} (hstate : state.Begins stack) {rest : List Char}
    (hrest : Number.EndsBefore rest) :
    state.run? (v.pretty level ++ rest) = (after v stack).run? rest := by
  cases v with
  | null => exact run?_of_begins hstate .null _ rfl (by simp)
  | bool b => cases b <;> exact run?_of_begins hstate (.bool _) _ rfl (by simp)
  | number literal =>
    obtain ⟨n, rfl⟩ := hwritten
    exact run?_of_begins hstate _ _ (Token.scan?_number hrest) (by simp)
  | string body =>
    obtain ⟨text, rfl⟩ := hwritten
    exact run?_of_begins hstate _ _ (Token.scan?_string text rest) (by simp)
  | array items =>
    cases items with
    | nil =>
      rw [pretty, run?_of_begins hstate .openArray (']' :: rest) rfl (by simp)]
      exact run?_of_scan? .closeArray _ rfl
    | cons item items =>
      obtain ⟨hitem, hitems⟩ := hwritten
      simp only [pretty, List.cons_append, List.append_assoc, List.nil_append]
      rw [run?_of_begins hstate .openArray _ rfl (by simp), beginValue, Option.bind_some,
        run?_newLine,
        run?_pretty item hitem (level + 1) (begins_firstItem stack) endsBefore_prettyItems,
        run?_prettyItems items hitems]
      rfl
  | object members =>
    cases members with
    | nil =>
      rw [pretty,
        run?_of_begins hstate .openObject ('\x7d' :: rest) rfl (by simp)]
      exact run?_of_scan? .closeObject _ rfl
    | cons member members =>
      obtain ⟨name, v⟩ := member
      obtain ⟨⟨text, rfl⟩, hv, hmembers⟩ := hwritten
      simp only [pretty, List.cons_append, List.append_assoc, List.nil_append]
      rw [run?_of_begins hstate .openObject _ rfl (by simp), beginValue,
        Option.bind_some, run?_newLine, run?_name rfl,
        run?_pretty v hv (level + 1) (begins_value _) endsBefore_prettyMembers,
        run?_prettyMembers members hmembers]
      rfl

/-- The further items of an array are taken up to its end. -/
theorem run?_prettyItems (items : List Value) (hwritten : ItemsWritten items) (level outer : Nat)
    (v : Value) (earlier : List Value) (stack : List Frame) (rest : List Char) :
    (after v (.array earlier :: stack)).run?
        (prettyItems level items ++ (newLine outer ++ ']' :: rest)) =
      (after (.array (earlier.reverse ++ v :: items)) stack).run? rest := by
  cases items with
  | nil =>
    rw [prettyItems, List.nil_append, run?_newLine,
      run?_of_scan? .closeArray rest rfl]
    simp [step?]
  | cons item items =>
    obtain ⟨hitem, hitems⟩ := hwritten
    simp only [prettyItems, List.cons_append, List.append_assoc]
    rw [run?_of_scan? .comma _ rfl, step?, Option.bind_some, run?_newLine,
      run?_pretty item hitem level (begins_value _) endsBefore_prettyItems,
      run?_prettyItems items hitems]
    simp

/-- The further members of an object are taken up to its end. -/
theorem run?_prettyMembers (members : List Member) (hwritten : MembersWritten members)
    (level outer : Nat) (v : Value) (name : Body) (earlier : List Member) (stack : List Frame)
    (rest : List Char) :
    (after v (.object earlier name :: stack)).run?
        (prettyMembers level members ++ (newLine outer ++ '\x7d' :: rest)) =
      (after (.object (earlier.reverse ++ (name, v) :: members)) stack).run? rest := by
  cases members with
  | nil =>
    rw [prettyMembers, List.nil_append, run?_newLine,
      run?_of_scan? .closeObject rest rfl]
    simp [step?]
  | cons member members =>
    obtain ⟨other, w⟩ := member
    obtain ⟨⟨text, rfl⟩, hw, hmembers⟩ := hwritten
    simp only [prettyMembers, List.cons_append, List.append_assoc]
    rw [run?_of_scan? .comma _ rfl, step?, Option.bind_some, run?_newLine,
      run?_name rfl,
      run?_pretty w hw level (begins_value _) endsBefore_prettyMembers,
      run?_prettyMembers members hmembers]
    simp

end

end State

namespace Value

/-- A text has a value if the machine takes it whole and stops behind that value. -/
theorem parse?_eq_some_iff {text : List Char} {v : Value} :
    parse? text = some v ↔ (State.value []).run? text = some (.after v []) := by
  rw [parse?, Option.bind_eq_some_iff]
  constructor
  · rintro ⟨final, hrun, hresult⟩
    rw [hrun, State.result?_eq_some_iff.1 hresult]
  · exact fun hrun => ⟨_, hrun, rfl⟩

/-- The text of a single string literal is read as that string, whether or not it has a text. -/
theorem ofText?_of_scan?_string {text : String} {body : Body}
    (h : Token.scan? text.toList = some (.string body, [])) :
    ofText? text = some (.string body) := by
  rw [ofText?, parse?_eq_some_iff, State.run?_of_scan? _ [] h, State.step?, State.beginValue,
    Option.bind_some, State.run?]

/-- The layout of a written value is read back as that value. -/
theorem parse?_pretty {v : Value} (h : v.Written) : parse? (v.pretty 0) = some v := by
  have hrun := State.run?_pretty v h 0 (State.begins_value []) Number.endsBefore_nil
  rw [List.append_nil] at hrun
  rw [parse?_eq_some_iff, hrun, State.run?]

/-- The text of a written value over several lines is read as that value. -/
theorem ofText?_prettyText {v : Value} (h : v.Written) : ofText? v.prettyText = some v := by
  rw [ofText?, prettyText, String.toList_ofList, parse?_pretty h]

end Value

end LatticeLedger.Json
