import LatticeLedger.Command

/-!
# The command line

Arguments name a command and its options. Every option takes a value, as the next argument or
after an equals sign, and is given at most once. Whatever does not fit is a misuse, which ends the
program with its own exit code and without a message from any command.
-/

namespace LatticeLedger

/-- What the arguments ask for. -/
inductive Request
  | run (command : Command)
  | help
  | misuse
  deriving DecidableEq, Repr

namespace Arguments

/-- An option, and the values that it accepts. -/
structure Choice where
  name : String
  accepts : String → Bool

/-- Why arguments are not collected to the end. -/
inductive Stop
  | help
  | misuse
  deriving DecidableEq, Repr

/-- The options given so far, with their values. -/
abbrev Given := List (String × String)

/-- The number that a value writes: decimal digits, perhaps after a sign, within 32 bits. A minus
may stand only before zero. -/
def number? (value : String) : Option UInt32 :=
  let (negative, digits) :=
    match value.toList with
    | '-' :: rest => (true, rest)
    | '+' :: rest => (false, rest)
    | text => (false, text)
  if digits.isEmpty || !digits.all Char.isDigit then none
  else
    let n := Nat.ofDigitChars 10 digits 0
    if n < UInt32.size ∧ (negative → n = 0) then some (UInt32.ofNat n) else none

/-- An option whose value is a number. -/
def numeric (name : String) : Choice := ⟨name, fun value => (number? value).isSome⟩

/-- An option whose value is a path, which must not be empty. -/
def path (name : String) : Choice := ⟨name, fun value => !value.isEmpty⟩

/-- Whether an argument asks for help. -/
def asksHelp (argument : String) : Bool := argument == "--help" || argument.startsWith "-h"

/-- Whether an argument can only be an option: it begins with a hyphen and is more than that. -/
def looksLikeOption (argument : String) : Bool := argument.startsWith "-" && argument != "-"

/-- An argument cut at its first equals sign. -/
def cut (argument : String) : String × Option String :=
  let text := argument.toList
  match text.dropWhile (· != '=') with
  | _ :: value => (String.ofList (text.takeWhile (· != '=')), some (String.ofList value))
  | [] => (argument, none)

/-- Adds an option to those given, unless it is given already or does not accept its value. -/
def record (choices : List Choice) (given : Given) (name value : String) : Except Stop Given :=
  match choices.find? fun choice => choice.name == name with
  | none => .error .misuse
  | some choice =>
    if (given.lookup name).isNone && choice.accepts value then .ok (given ++ [(name, value)])
    else .error .misuse

/-- The options at the front of the arguments, up to the first argument that is none, and the
arguments from there on. A double hyphen ends the options; nothing may follow it. -/
def collect (choices : List Choice) (given : Given) :
    List String → Except Stop (Given × List String)
  | [] => .ok (given, [])
  | argument :: rest =>
    if argument = "--" then if rest.isEmpty then .ok (given, []) else .error .misuse
    else if asksHelp argument then .error .help
    else if !looksLikeOption argument then .ok (given, argument :: rest)
    else
      match cut argument, rest with
      | (name, some value), rest => do collect choices (← record choices given name value) rest
      | (name, none), value :: rest =>
        if !choices.any fun choice => choice.name == name then .error .misuse
        else if looksLikeOption value then .error .misuse
        else do collect choices (← record choices given name value) rest
      | (_, none), [] => .error .misuse

/-- The options of a command; nothing else may stand among them. -/
def options (choices : List Choice) (arguments : List String) : Except Stop Given := do
  let (given, rest) ← collect choices [] arguments
  require rest.isEmpty .misuse
  return given

/-- The number given for an option. -/
def Given.number? (given : Given) (name : String) : Option UInt32 :=
  (given.lookup name).bind Arguments.number?

/-- The command of a name with its arguments. A guard needs a class, and either a coordinate or an
anchor with its offset; an offset alone is tolerated next to a coordinate. -/
def command (name : String) (arguments : List String) : Except Stop Command :=
  match name with
  | "certificate" => do
    let given ← options [path "--out"] arguments
    return .certificate (given.lookup "--out")
  | "guard" => do
    let given ← options
      [numeric "--class", numeric "--coord", numeric "--anchor", numeric "--v-bits"] arguments
    let classId ← demand .misuse (given.number? "--class")
    let coord := given.number? "--coord"
    let anchor := given.number? "--anchor"
    let vBits := given.number? "--v-bits"
    require (coord.isSome ≠ anchor.isSome) .misuse
    require (anchor.isSome → vBits.isSome) .misuse
    return .guard classId coord anchor vBits
  | "audit" => do
    let given ← options [path "--ledger", path "--schedule", path "--bundle"] arguments
    let ledger ← demand .misuse (given.lookup "--ledger")
    return .audit ledger (given.lookup "--schedule") (given.lookup "--bundle")
  | "help" =>
    match arguments with
    | [] | ["certificate"] | ["guard"] | ["audit"] | ["help"] => .error .help
    | _ => .error .misuse
  | _ => .error .misuse

/-- The command that the arguments name. A filter for the log may be given before it; any text
will do. -/
def parse (arguments : List String) : Except Stop Command := do
  let (_, rest) ← collect [⟨"--log", fun _ => true⟩] [] arguments
  match rest with
  | name :: arguments => command name arguments
  | [] => throw .misuse

end Arguments

/-- What arguments ask for. -/
def Request.ofArguments (arguments : List String) : Request :=
  match Arguments.parse arguments with
  | .ok command => .run command
  | .error .help => .help
  | .error .misuse => .misuse

/-- How a run of the program ends. -/
structure Ending where
  /-- Zero for a good verdict, one for a bad one, two for an error. -/
  code : UInt8
  /-- What is printed. -/
  stdout : String := ""
  /-- The error of a command. -/
  message : Option String := none
  deriving DecidableEq, Repr

/-- How the command line is used. -/
def usage : String :=
  "Usage: lattice [--log FILTER] COMMAND\n\n" ++
    "  certificate [--out FILE]\n" ++
    "  guard --class N (--coord N | --anchor N --v-bits N)\n" ++
    "  audit --ledger FILE [--schedule FILE] [--bundle FILE]\n"

/-- Runs what arguments ask for. -/
def runArguments {m : Type → Type} [Monad m] [FileSystem m] (arguments : List String) :
    m Ending := do
  match Request.ofArguments arguments with
  | .help => return { code := 0, stdout := usage }
  | .misuse => return { code := 2 }
  | .run command =>
    match ← command.run.run with
    | .ok output =>
      return { code := if output.passed then 0 else 1, stdout := output.text ++ "\n" }
    | .error error => return { code := 2, message := some error.message }

end LatticeLedger
