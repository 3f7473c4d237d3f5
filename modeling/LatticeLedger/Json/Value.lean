import LatticeLedger.Json.Token

/-!
# JSON values

A value keeps what is written: number literals and string bodies as they are spelled, and the
members of an object in their order with all repetitions. Which of them a reader accepts is the
reader's business.

Values are built from a text by a machine with a stack of open containers, one token at a time,
so nesting is limited by nothing but the reader.
-/

namespace LatticeLedger.Json

/-- A JSON value as it is written. -/
inductive Value
  | null
  | bool (value : Bool)
  | number (literal : Number)
  | string (body : Body)
  | array (items : List Value)
  | object (members : List (Body × Value))
  deriving Repr

/-- A member of an object. -/
abbrev Member := Body × Value

/-- A container that is still open. The parts that are complete come latest first. -/
inductive Frame
  | array (items : List Value)
  | object (members : List Member) (name : Body)

/-- What the next token may be. -/
inductive State
  /-- A value. -/
  | value (stack : List Frame)
  /-- The first item of an array, or its end. -/
  | firstItem (stack : List Frame)
  /-- The name of a member. -/
  | name (members : List Member) (stack : List Frame)
  /-- The name of the first member of an object, or its end. -/
  | firstName (stack : List Frame)
  /-- The colon after a name. -/
  | colon (members : List Member) (name : Body) (stack : List Frame)
  /-- What follows a complete value: a comma or an end in a container, nothing outside. -/
  | after (value : Value) (stack : List Frame)

namespace State

/-- The state after a token with which a value begins. -/
def beginValue (stack : List Frame) : Token → Option State
  | .openArray => some (firstItem stack)
  | .openObject => some (firstName stack)
  | .null => some (after .null stack)
  | .bool b => some (after (.bool b) stack)
  | .number literal => some (after (.number literal) stack)
  | .string body => some (after (.string body) stack)
  | _ => none

/-- The state after the next token, unless the token is out of place. -/
def step? : State → Token → Option State
  | value stack, token => beginValue stack token
  | firstItem stack, .closeArray => some (after (.array []) stack)
  | firstItem stack, token => beginValue (.array [] :: stack) token
  | name members stack, .string body => some (colon members body stack)
  | firstName stack, .closeObject => some (after (.object []) stack)
  | firstName stack, .string body => some (colon [] body stack)
  | colon members body stack, .colon => some (value (.object members body :: stack))
  | after v (.array items :: stack), .comma => some (value (.array (v :: items) :: stack))
  | after v (.array items :: stack), .closeArray =>
    some (after (.array (v :: items).reverse) stack)
  | after v (.object members body :: stack), .comma => some (name ((body, v) :: members) stack)
  | after v (.object members body :: stack), .closeObject =>
    some (after (.object ((body, v) :: members).reverse) stack)
  | _, _ => none

/-- The state at the end of a text. -/
def run? (state : State) : List Char → Option State
  | [] => some state
  | c :: text =>
    if isBlank c then state.run? text
    else
      match _taken : Token.scan? (c :: text) with
      | none => none
      | some (token, rest) =>
        match state.step? token with
        | none => none
        | some next => next.run? rest
termination_by text => text.length
decreasing_by
  · exact Nat.lt_succ_self text.length
  · exact Token.length_scan? _taken

/-- The value of a state in which nothing is missing. -/
def result? : State → Option Value
  | after v [] => some v
  | _ => none

end State

namespace Value

/-- The value of a text. -/
def parse? (text : List Char) : Option Value :=
  ((State.value []).run? text).bind State.result?

/-- The value of a text given as a string. -/
def ofText? (text : String) : Option Value := parse? text.toList

/-- A text as a value. -/
def ofString (text : String) : Value := .string (Body.ofText text)

/-- A natural number as a value. -/
def ofNat (n : Nat) : Value := .number (Number.ofNat n)

/-- An object with the given names. -/
def ofMembers (members : List (String × Value)) : Value :=
  .object (members.map fun member => (Body.ofText member.1, member.2))

mutual

/-- The tokens of a value. -/
def tokens : Value → List Token
  | .null => [.null]
  | .bool b => [.bool b]
  | .number literal => [.number literal]
  | .string body => [.string body]
  | .array items => .openArray :: itemTokens items ++ [.closeArray]
  | .object members => .openObject :: memberTokens members ++ [.closeObject]

/-- The tokens of the items of an array. -/
def itemTokens : List Value → List Token
  | [] => []
  | [item] => item.tokens
  | item :: next :: rest => item.tokens ++ .comma :: itemTokens (next :: rest)

/-- The tokens of the members of an object. -/
def memberTokens : List (Body × Value) → List Token
  | [] => []
  | [(name, value)] => .string name :: .colon :: value.tokens
  | (name, value) :: next :: rest =>
    .string name :: .colon :: value.tokens ++ .comma :: memberTokens (next :: rest)

end

/-- The text of a value without any white space. -/
def compact (value : Value) : List Char := value.tokens.flatMap Token.chars

/-- A new line that is indented by two spaces for each level. -/
def newLine (level : Nat) : List Char := '\n' :: List.replicate (2 * level) ' '

mutual

/-- The text of a value laid out over several lines: every item and every member stands on a
line of its own, and containers without any stay on one. -/
def pretty (level : Nat) : Value → List Char
  | .array (item :: rest) =>
    '[' :: newLine (level + 1) ++ item.pretty (level + 1) ++ prettyItems (level + 1) rest ++
      newLine level ++ [']']
  | .object ((name, value) :: rest) =>
    '\x7b' :: newLine (level + 1) ++ (Token.string name).chars ++ ':' :: ' ' ::
      value.pretty (level + 1) ++ prettyMembers (level + 1) rest ++ newLine level ++ ['\x7d']
  | .array [] => ['[', ']']
  | .object [] => ['\x7b', '\x7d']
  | .null => Token.null.chars
  | .bool b => (Token.bool b).chars
  | .number literal => (Token.number literal).chars
  | .string body => (Token.string body).chars

/-- The further items of an array, each after a comma. -/
def prettyItems (level : Nat) : List Value → List Char
  | [] => []
  | item :: rest => ',' :: newLine level ++ item.pretty level ++ prettyItems level rest

/-- The further members of an object, each after a comma. -/
def prettyMembers (level : Nat) : List (Body × Value) → List Char
  | [] => []
  | (name, value) :: rest =>
    ',' :: newLine level ++ (Token.string name).chars ++ ':' :: ' ' :: value.pretty level ++
      prettyMembers level rest

end

/-- The compact text of a value as a string. -/
def compactText (value : Value) : String := String.ofList value.compact

/-- The text of a value over several lines as a string. -/
def prettyText (value : Value) : String := String.ofList (value.pretty 0)

end Value

end LatticeLedger.Json
