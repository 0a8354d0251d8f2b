import ExplicitImports.Main
import ExplicitImports.Proofs.Disk.Below
import ExplicitImports.Proofs.Disk.Shape
import ExplicitImports.Proofs.Import.Composition
import ExplicitImports.Proofs.Import.Insertion
import ExplicitImports.Proofs.Import.Position
import ExplicitImports.Proofs.Run.Steps
import ExplicitImports.Proofs.Run.Work
import ExplicitImports.Proofs.Text.Utf8
import ExplicitImports.Proofs.Walk.Candidate
import ExplicitImports.Proofs.Walk.Itinerary
import ExplicitImports.Proofs.Walk.Rewritten
import ExplicitImports.Proofs.Walk.Scanned
import ExplicitImports.Proofs.Report.Account
import ExplicitImports.Proofs.Report.Announced
import ExplicitImports.Proofs.Report.FirstFailure
import ExplicitImports.Proofs.Report.DryRun
import ExplicitImports.Proofs.Report.SecondRun
import ExplicitImports.Proofs.Report.Ending
import ExplicitImports.Proofs.Text.JsonReader
import ExplicitImports.Proofs.Report.Document
import ExplicitImports.Proofs.Report.Closing
import ExplicitImports.Proofs.Report.SideBySide
import ExplicitImports.Proofs.Report.Transcript
import ExplicitImports.Proofs.Report.Truncated
import ExplicitImports.Proofs.Report.ExitStatus
import ExplicitImports.Proofs.Disk.Respelled
import ExplicitImports.Proofs.Walk.Respelled
import ExplicitImports.Proofs.Report.Respelled
import ExplicitImports.Proofs.Run.Effect
import ExplicitImports.Proofs.Import.LineEnd
import ExplicitImports.Proofs.Import.Line
import ExplicitImports.Proofs.Text.Lossy
import ExplicitImports.Proofs.Report.Naming
import ExplicitImports.Proofs.Walk.Due
import ExplicitImports.Proofs.Walk.Visited
import ExplicitImports.Proofs.Report.Logged
import ExplicitImports.Proofs.Report.Colored
