import FiniteReach.Main
import FiniteReach.Proofs.Decision
import FiniteReach.Proofs.Construction
import FiniteReach.Proofs.Printer
import FiniteReach.Proofs.Grammar
import FiniteReach.Proofs.Layout
import FiniteReach.Proofs.Binary
import FiniteReach.Proofs.Json.Values
import FiniteReach.Proofs.Json.Record
import FiniteReach.Proofs.Json.Extension
import FiniteReach.Proofs.Disk
import FiniteReach.Proofs.Truncation
import FiniteReach.Proofs.Detection
import FiniteReach.Proofs.FileSystems
import FiniteReach.Proofs.Unreadable
import FiniteReach.Proofs.Steps
import FiniteReach.Proofs.Frame
import FiniteReach.Proofs.Check
import FiniteReach.Proofs.Conversion
import FiniteReach.Proofs.History
import FiniteReach.Proofs.Fallback
import FiniteReach.Proofs.Settings
import FiniteReach.Proofs.Verdict
import FiniteReach.Proofs.Composition
import FiniteReach.Proofs.Reachability
import FiniteReach.Proofs.Refusal
import FiniteReach.Proofs.Reordering
import FiniteReach.Proofs.Blame
import FiniteReach.Proofs.Rows
import FiniteReach.Proofs.Diagnosis
import FiniteReach.Proofs.FailingSource
import FiniteReach.Proofs.WordText
import FiniteReach.Proofs.Storing
import FiniteReach.Proofs.Machine.Queries
import FiniteReach.Proofs.Machine.Building
import FiniteReach.Proofs.Machine.Reading
import FiniteReach.Proofs.Views
