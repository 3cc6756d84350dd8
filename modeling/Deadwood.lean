import Deadwood.Text
import Deadwood.Event
import Deadwood.CompilationUnit
import Deadwood.Pool.Worker
import Deadwood.Pool.Basic
import Deadwood.Survey
import Deadwood.Cache
import Deadwood.Gathering
import Deadwood.SymbolTable
import Deadwood.Listing
import Deadwood.Binary
import Deadwood.Workspace
import Deadwood.Detection
import Deadwood.Session
import Deadwood.Main
import Deadwood.Proofs.Log.Views
import Deadwood.Proofs.Text.Lines
import Deadwood.Proofs.Listing.Grammar
import Deadwood.Proofs.SymbolTable.Rows
import Deadwood.Proofs.CompilationUnit.References
import Deadwood.Proofs.Pool.Reaping
import Deadwood.Proofs.Pool.Accounting
import Deadwood.Proofs.Survey.Endings
import Deadwood.Proofs.Survey.Union
import Deadwood.Proofs.Detection.Completion
import Deadwood.Proofs.Detection.DeadFunctions
import Deadwood.Proofs.Pool.Chronicle
import Deadwood.Proofs.Survey.Delivery
import Deadwood.Proofs.Survey.Bookkeeping
import Deadwood.Proofs.Survey.ConstantLimit
import Deadwood.Proofs.Gathering.Fetching
import Deadwood.Proofs.Gathering.Course
import Deadwood.Proofs.Gathering.Resumption
import Deadwood.Proofs.Detection.Stages
import Deadwood.Proofs.Detection.Precedence
import Deadwood.Proofs.Session.Namesakes
import Deadwood.Proofs.Session.WriteOnce
import Deadwood.Proofs.Gathering.Serving
import Deadwood.Proofs.Gathering.Obstruction
import Deadwood.Proofs.Report.Names
import Deadwood.Proofs.Detection.Comparison
import Deadwood.Proofs.Gathering.Replay
import Deadwood.Proofs.Pool.Waiting
import Deadwood.Proofs.Pool.Careers
import Deadwood.Proofs.Survey.LifeCycle
import Deadwood.Proofs.Survey.WaitsEnd
import Deadwood.Proofs.Detection.Canonical
import Deadwood.Proofs.Text.Runs
import Deadwood.Proofs.Text.Decoding
import Deadwood.Proofs.Text.LineEnds
import Deadwood.Proofs.Detection.Likeness
import Deadwood.Proofs.SymbolTable.Names
import Deadwood.Proofs.Listing.Scanning
