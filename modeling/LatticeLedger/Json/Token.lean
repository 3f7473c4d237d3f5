import LatticeLedger.Json.Number
import LatticeLedger.Json.Text

/-!
# Tokens

A JSON text is a sequence of tokens between which white space has no meaning. Taking a token from
the front of a text looks no further than to its end, and takes at least one character.
-/

namespace LatticeLedger.Json

/-- A token of a JSON text. -/
inductive Token
  | openArray
  | closeArray
  | openObject
  | closeObject
  | comma
  | colon
  | null
  | bool (value : Bool)
  | number (literal : Number)
  | string (body : Body)
  deriving DecidableEq, Repr

/-- The four characters that may stand between tokens. -/
def isBlank (c : Char) : Bool := c == ' ' || c == '\t' || c == '\n' || c == '\r'

namespace Token

/-- The token at the front of a text that begins with no white space, and what follows it. -/
def scan? : List Char → Option (Token × List Char)
  | '[' :: rest => some (openArray, rest)
  | ']' :: rest => some (closeArray, rest)
  | '\x7b' :: rest => some (openObject, rest)
  | '\x7d' :: rest => some (closeObject, rest)
  | ',' :: rest => some (comma, rest)
  | ':' :: rest => some (colon, rest)
  | '"' :: rest => (Piece.scan? rest).map fun (body, rest) => (string body, rest)
  | 'n' :: 'u' :: 'l' :: 'l' :: rest => some (null, rest)
  | 't' :: 'r' :: 'u' :: 'e' :: rest => some (bool true, rest)
  | 'f' :: 'a' :: 'l' :: 's' :: 'e' :: rest => some (bool false, rest)
  | text => (Number.scan? text).map fun (literal, rest) => (number literal, rest)

/-- The spelling of a token. -/
def chars : Token → List Char
  | openArray => ['[']
  | closeArray => [']']
  | openObject => ['\x7b']
  | closeObject => ['\x7d']
  | comma => [',']
  | colon => [':']
  | null => ['n', 'u', 'l', 'l']
  | bool true => ['t', 'r', 'u', 'e']
  | bool false => ['f', 'a', 'l', 's', 'e']
  | number literal => literal.chars
  | string body => '"' :: body.chars ++ ['"']

/-- A token takes at least one character. -/
theorem length_scan? {text rest : List Char} {token : Token}
    (h : scan? text = some (token, rest)) : rest.length < text.length := by
  unfold scan? at h
  split at h
  case h_7 after =>
    obtain ⟨⟨body, left⟩, hbody, heq⟩ := Option.map_eq_some_iff.1 h
    obtain ⟨-, rfl⟩ := Prod.mk.inj heq
    exact Nat.lt_succ_of_lt (Piece.length_scan? hbody)
  case h_11 =>
    obtain ⟨⟨literal, left⟩, hliteral, heq⟩ := Option.map_eq_some_iff.1 h
    obtain ⟨-, rfl⟩ := Prod.mk.inj heq
    exact Number.length_scan? hliteral
  all_goals
    obtain ⟨-, rfl⟩ := by simpa using h
    simp only [List.length_cons]
    omega

end Token

end LatticeLedger.Json
