import BodyCheck.Analyzer
import BodyCheck.Session
import BodyCheck.Snippet.Render
import BodyCheck.Proofs.Effect
import BodyCheck.Proofs.DefiniteAssignment
import BodyCheck.Proofs.Uses
import BodyCheck.Proofs.Visibility
import BodyCheck.Proofs.AnalysisOrder
import BodyCheck.Proofs.Visits
import BodyCheck.Proofs.Attribution
import BodyCheck.Proofs.Rules
import BodyCheck.Proofs.Jumps
import BodyCheck.Proofs.StaticType
import BodyCheck.Proofs.Reanalysis
import BodyCheck.Proofs.Construction
import BodyCheck.Proofs.Accounting
import BodyCheck.Proofs.Hierarchy
import BodyCheck.Proofs.Subtyping
import BodyCheck.Proofs.Faults
import BodyCheck.Proofs.Isolation
import BodyCheck.Proofs.Registration
import BodyCheck.Proofs.Writing
import BodyCheck.Proofs.Likeness
import BodyCheck.Proofs.FaultLog
import BodyCheck.Proofs.Monotone
import BodyCheck.Proofs.Invocations
import BodyCheck.Proofs.Deletions
import BodyCheck.Proofs.Parents
import BodyCheck.Proofs.Reports
import BodyCheck.Proofs.Switches
import BodyCheck.Proofs.OneDiagnostic
import BodyCheck.Proofs.Siblings
import BodyCheck.Proofs.Coupling
import BodyCheck.Proofs.Transparency
import BodyCheck.Proofs.Widening
import BodyCheck.Proofs.Mentions
import BodyCheck.Proofs.Appearance
import BodyCheck.Proofs.SiteOrder
import BodyCheck.Proofs.Pointing
import BodyCheck.Proofs.TypeNames
import BodyCheck.Proofs.Typing
