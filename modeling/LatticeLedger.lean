import LatticeLedger.Lattice.Contract
import LatticeLedger.Ledger.Store
import LatticeLedger.Main
import LatticeLedger.Proofs.Ledger.Operation
import LatticeLedger.Proofs.Ledger.Consistency
import LatticeLedger.Proofs.Json.Layout
import LatticeLedger.Proofs.Json.Fields
import LatticeLedger.Proofs.Json.Limits
import LatticeLedger.Proofs.Ledger.FileRoundTrip
import LatticeLedger.Proofs.Audit.Pass
import LatticeLedger.Proofs.Audit.Reading
import LatticeLedger.Proofs.Audit.Presence
import LatticeLedger.Proofs.Audit.Checkpoints
import LatticeLedger.Proofs.Audit.Tally
import LatticeLedger.Proofs.Lattice.Conversions
import LatticeLedger.Proofs.Guard.Decision
import LatticeLedger.Proofs.Guard.Logged
import LatticeLedger.Proofs.Audit.LoggedRuns
import LatticeLedger.Proofs.Audit.Faults
import LatticeLedger.Proofs.Audit.Cell
import LatticeLedger.Proofs.Audit.Distribution
import LatticeLedger.Proofs.Audit.Fairness
import LatticeLedger.Proofs.Ledger.Reload
import LatticeLedger.Proofs.Ledger.Lawful
import LatticeLedger.Proofs.Ledger.AppendOnly
import LatticeLedger.Proofs.Symmetry.Action
import LatticeLedger.Proofs.Symmetry.GrayCode
import LatticeLedger.Proofs.Symmetry.Orbit
import LatticeLedger.Proofs.Symmetry.FreeAction
import LatticeLedger.Proofs.Symmetry.Calls
import LatticeLedger.Proofs.Certificate.Building
import LatticeLedger.Proofs.Json.Compact
import LatticeLedger.Proofs.Files.Loading
import LatticeLedger.Proofs.Certificate.FileRoundTrip
import LatticeLedger.Proofs.Certificate.TamperEvidence
import LatticeLedger.Proofs.Certificate.StoredFile
import LatticeLedger.Proofs.Audit.Reordering
import LatticeLedger.Proofs.Audit.Reverification
import LatticeLedger.Proofs.Audit.Spelling
import LatticeLedger.Proofs.Lattice.Agreement
import LatticeLedger.Proofs.Audit.Relaxation
import LatticeLedger.Proofs.Audit.ReportRoundTrip
import LatticeLedger.Proofs.Audit.SilentRecords
import LatticeLedger.Proofs.Json.Extent
import LatticeLedger.Proofs.Files.AuditCommand
import LatticeLedger.Proofs.Ledger.CommittedStep
import LatticeLedger.Proofs.Audit.AddedStep
import LatticeLedger.Proofs.Json.Parts
import LatticeLedger.Proofs.Ledger.FileShapes
import LatticeLedger.Proofs.Json.Replacement
import LatticeLedger.Proofs.Json.Members
import LatticeLedger.Proofs.Ledger.ContextNames
import LatticeLedger.Proofs.Toml.Settings
import LatticeLedger.Proofs.Config.Contracts
import LatticeLedger.Proofs.Config.Loading
import LatticeLedger.Proofs.Words.Checked
import LatticeLedger.Proofs.Words.Lattice
import LatticeLedger.Proofs.Words.Symmetry
import LatticeLedger.Proofs.Words.Exactness
