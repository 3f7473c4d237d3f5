/-!
# String literals

The body of a string literal is a list of pieces: characters that stand for themselves, short
escapes, and code units in hexadecimal. Code units beyond the basic plane come in pairs; a body
with half a pair is a literal without a text.
-/

namespace LatticeLedger.Json

/-- One piece of the body of a string literal. -/
inductive Piece
  /-- A character that stands for itself. -/
  | plain (c : Char)
  /-- A character written by a backslash and one letter. -/
  | short (c : Char)
  /-- A UTF-16 code unit written by four hexadecimal digits. -/
  | unit (code : UInt16)
  deriving DecidableEq, Repr

/-- The letters that follow a backslash, with the characters that they stand for. -/
def shortEscapes : List (Char × Char) :=
  [('"', '"'), ('\\', '\\'), ('/', '/'), ('b', '\x08'), ('f', '\x0c'), ('n', '\n'), ('r', '\r'),
    ('t', '\t')]

/-- The value of a hexadecimal digit. -/
def hexValue? (c : Char) : Option Nat :=
  if '0' ≤ c ∧ c ≤ '9' then some (c.toNat - '0'.toNat)
  else if 'a' ≤ c ∧ c ≤ 'f' then some (c.toNat - 'a'.toNat + 10)
  else if 'A' ≤ c ∧ c ≤ 'F' then some (c.toNat - 'A'.toNat + 10)
  else none

/-- The hexadecimal digit of a value below sixteen. -/
def hexDigit (n : Nat) : Char := Nat.digitChar (n % 16)

/-- The code unit of four hexadecimal digits. -/
def codeUnit? (a b c d : Char) : Option UInt16 := do
  let a ← hexValue? a
  let b ← hexValue? b
  let c ← hexValue? c
  let d ← hexValue? d
  return UInt16.ofNat (((a * 16 + b) * 16 + c) * 16 + d)

/-- Whether a character must not stand for itself. -/
def needsEscape (c : Char) : Bool := c == '"' || c == '\\' || c.toNat < 0x20

namespace Piece

/-- The spelling of a piece. -/
def chars : Piece → List Char
  | plain c => [c]
  | short c =>
    match shortEscapes.find? fun escape => escape.2 == c with
    | some escape => ['\\', escape.1]
    | none => [c]
  | unit code =>
    let n := code.toNat
    ['\\', 'u', hexDigit (n / 4096), hexDigit (n / 256), hexDigit (n / 16), hexDigit n]

/-- The pieces up to the closing quote, and what follows it. -/
def scan? : List Char → Option (List Piece × List Char)
  | [] => none
  | '"' :: rest => some ([], rest)
  | '\\' :: 'u' :: a :: b :: c :: d :: rest => do
    let code ← codeUnit? a b c d
    let (pieces, rest) ← scan? rest
    return (unit code :: pieces, rest)
  | '\\' :: letter :: rest => do
    let escape ← shortEscapes.find? fun escape => escape.1 == letter
    let (pieces, rest) ← scan? rest
    return (short escape.2 :: pieces, rest)
  | c :: rest =>
    if needsEscape c then none
    else do
      let (pieces, rest) ← scan? rest
      return (plain c :: pieces, rest)

/-- The closing quote is taken as well, so at least one character is. -/
theorem length_scan? {text rest : List Char} {pieces : List Piece}
    (h : scan? text = some (pieces, rest)) : rest.length < text.length := by
  fun_induction scan? text generalizing pieces rest with
  | case1 => simp at h
  | case2 after =>
    obtain ⟨-, rfl⟩ := by simpa using h
    simp
  | case3 a b c d after ih =>
    simp only [Option.bind_eq_bind, Option.bind_eq_some_iff, Option.pure_def, Option.some.injEq,
      Prod.mk.injEq, Prod.exists] at h
    obtain ⟨code, -, more, left, hmore, -, rfl⟩ := h
    have := ih hmore
    simp only [List.length_cons]
    omega
  | case4 letter after _ ih =>
    simp only [Option.bind_eq_bind, Option.bind_eq_some_iff, Option.pure_def, Option.some.injEq,
      Prod.mk.injEq, Prod.exists] at h
    obtain ⟨_, -, -, more, left, hmore, -, rfl⟩ := h
    have := ih hmore
    simp only [List.length_cons]
    omega
  | case5 => simp at h
  | case6 c after _ _ _ _ ih =>
    simp only [Option.bind_eq_bind, Option.bind_eq_some_iff, Option.pure_def, Option.some.injEq,
      Prod.mk.injEq, Prod.exists] at h
    obtain ⟨more, left, hmore, -, rfl⟩ := h
    have := ih hmore
    simp only [List.length_cons]
    omega

/-- The piece in which a character is written: as itself where possible, else by a short escape,
else by its code unit. A slash needs no escape. -/
def ofChar (c : Char) : Piece :=
  if !needsEscape c then plain c
  else if shortEscapes.any fun escape => escape.2 == c then short c
  else unit (UInt16.ofNat c.toNat)

/-- Whether a code unit is the first half of a pair. -/
def isLeading (code : UInt16) : Bool := 0xD800 ≤ code && code < 0xDC00

/-- Whether a code unit is the second half of a pair. -/
def isTrailing (code : UInt16) : Bool := 0xDC00 ≤ code && code < 0xE000

/-- The character of a pair of code units. -/
def pairChar (leading trailing : UInt16) : Char :=
  Char.ofNat (0x10000 + (leading.toNat - 0xD800) * 0x400 + (trailing.toNat - 0xDC00))

/-- The characters that pieces stand for, unless a code unit lacks its other half. -/
def denote? : List Piece → Option (List Char)
  | [] => some []
  | plain c :: rest => (denote? rest).map (c :: ·)
  | short c :: rest => (denote? rest).map (c :: ·)
  | unit leading :: unit trailing :: rest =>
    if isLeading leading then
      if isTrailing trailing then (denote? rest).map (pairChar leading trailing :: ·) else none
    else if isTrailing leading then none
    else (denote? (unit trailing :: rest)).map (Char.ofNat leading.toNat :: ·)
  | unit code :: rest =>
    if isLeading code || isTrailing code then none
    else (denote? rest).map (Char.ofNat code.toNat :: ·)

end Piece

/-- The body of a string literal. -/
abbrev Body := List Piece

namespace Body

/-- The body in which a text is written. -/
def ofText (text : String) : Body := text.toList.map Piece.ofChar

/-- The text of a body. -/
def text? (body : Body) : Option String := (Piece.denote? body).map String.ofList

/-- The spelling of a body between its quotes. -/
def chars (body : Body) : List Char := body.flatMap Piece.chars

end Body

end LatticeLedger.Json
