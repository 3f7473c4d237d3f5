import LatticeLedger.Audit.Json
import LatticeLedger.Audit.Run
import LatticeLedger.Certificate.Builder
import LatticeLedger.Config
import LatticeLedger.Files
import LatticeLedger.Guard.Json

/-!
# Commands

Three commands work on files and numbers from outside: one writes the certificate of the lattice,
one guards a step, and one audits a ledger file. An audit loads its files in a fixed order and stops
at the first one that fails.
-/

namespace LatticeLedger

/-- Why a file could not be loaded or saved. -/
inductive LoadError (ε : Type)
  /-- The file cannot be read or written. -/
  | file (path : String) (error : FileError)
  /-- The text of the file is not accepted. -/
  | content (error : ε)
  deriving DecidableEq, Repr

/-- The wording of a load error, given that of the content. -/
def LoadError.message {ε : Type} (contentMessage : ε → String) : LoadError ε → String
  | file path error => path ++ ": " ++ error.message
  | content error => contentMessage error

/-- Loads a file whose text is read by `parse`. -/
def load {m : Type → Type} [Monad m] [FileSystem m] {ε α : Type}
    (parse : String → Except ε α) (path : String) : m (Except (LoadError ε) α) := do
  match ← FileSystem.readText path with
  | .error error => return .error (.file path error)
  | .ok text => return (parse text).mapError .content

/-- Saves a ledger in a file. -/
def saveLedger {m : Type → Type} [Monad m] [FileSystem m] (path : String)
    (records : List Record) : m (Except (LoadError LedgerFileError) Unit) := do
  match ← FileSystem.writeText path (Ledger.text records) with
  | .error error => return .error (.file path error)
  | .ok () => return .ok ()

/-- What may be asked for from outside. -/
inductive Command
  /-- The standard certificate, printed or written to a file. -/
  | certificate (out : Option String)
  /-- The guarded form of a step. -/
  | guard (classId : UInt32) (coord anchor vBits : Option UInt32)
  /-- The audit of a ledger file, with files that replace the standard schedule and policy. -/
  | audit (ledger : String) (schedule bundle : Option String)
  deriving DecidableEq, Repr

/-- What a command prints, and whether its verdict is good. -/
structure Output where
  text : String
  passed : Bool := true
  deriving DecidableEq, Repr

/-- Why a command fails. -/
inductive CommandError
  | certificate (error : CertificateError)
  | write (path : String) (error : FileError)
  | refused (refusal : Refusal)
  | ledger (error : LoadError LedgerFileError)
  | schedule (error : LoadError ConfigError)
  | bundle (error : LoadError ConfigError)
  | audit (error : AuditError)
  deriving DecidableEq, Repr

/-- The wording of a command error. -/
def CommandError.message : CommandError → String
  | certificate error => "certificate generation failed: " ++ error.message
  | write path error => "failed to write certificate: " ++ path ++ ": " ++ error.message
  | refused refusal => "guard rejected input: " ++ refusal.message
  | ledger error => "failed to load ledger: " ++ error.message LedgerFileError.message
  | schedule error => "failed to load schedule: " ++ error.message ConfigError.message
  | bundle error => "failed to load audit bundle: " ++ error.message ConfigError.message
  | audit error => "audit failed: " ++ error.message

namespace Command

variable {m : Type → Type} [Monad m] [FileSystem m]

/-- Prints the standard certificate, or writes it to a file and prints its checksum. -/
def runCertificate (out : Option String) : ExceptT CommandError m Output := do
  let certificate ← (standardCertificate.mapError .certificate : Except CommandError _)
  match out with
  | none => return { text := certificate.text }
  | some path =>
    match ← ExceptT.lift (FileSystem.writeText path certificate.text) with
    | .ok () => return { text := certificate.checksum }
    | .error error => throw (.write path error)

/-- Prints the guarded form of a step. -/
def runGuard (classId : UInt32) (coord anchor vBits : Option UInt32) :
    Except CommandError Output := do
  let coordinates ← (Coordinates.ofParts coord anchor vBits).mapError .refused
  let guarded ← (guardStep { classId, coordinates }).mapError .refused
  return { text := guarded.toJson.prettyText }

/-- Loads a file if one is named, and takes the standard value otherwise. -/
def loadOr {ε α : Type} (standard : α) (parse : String → Except ε α) :
    Option String → m (Except (LoadError ε) α)
  | none => return .ok standard
  | some path => load parse path

/-- Prints the report on a ledger file. -/
def runAudit (ledger : String) (schedule bundle : Option String) :
    ExceptT CommandError m Output := do
  let records ← ExceptT.mk (return (← load Ledger.ofFileText ledger).mapError .ledger)
  let schedule ←
    ExceptT.mk (return (← loadOr {} Schedule.ofFileText schedule).mapError .schedule)
  let policy ← ExceptT.mk (return (← loadOr {} Policy.ofFileText bundle).mapError .bundle)
  let report ← ((LatticeLedger.audit records schedule policy).mapError .audit :
    Except CommandError _)
  return { text := report.text, passed := report.allOk }

/-- Runs a command. -/
def run : Command → ExceptT CommandError m Output
  | certificate out => runCertificate out
  | guard classId coord anchor vBits => ExceptT.mk (pure (runGuard classId coord anchor vBits))
  | audit ledger schedule bundle => runAudit ledger schedule bundle

end Command

end LatticeLedger
