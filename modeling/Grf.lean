import Grf.Compilation.Generation
import Grf.Compilation.Validation
import Grf.Profile.Settings
import Grf.Proofs.Cycles
import Grf.Proofs.Expansion
import Grf.Proofs.LabelTables
import Grf.Proofs.Propagation
import Grf.Proofs.Resolution
import Grf.Proofs.Assembly
import Grf.Proofs.Phases
import Grf.Proofs.Preparation
import Grf.Proofs.Requests
import Grf.Proofs.Output
import Grf.Proofs.Evaluation
import Grf.Proofs.Operations
import Grf.Proofs.Decisions
import Grf.Proofs.Numbering
import Grf.Proofs.Replies
import Grf.Proofs.Schedules
import Grf.Proofs.Histories
import Grf.Proofs.Invocations
import Grf.Proofs.Registration
import Grf.Proofs.Repetition
import Grf.Proofs.Capacity
import Grf.Proofs.ValidationOrder
import Grf.Proofs.Rearrangement
import Grf.Proofs.Stability
import Grf.Proofs.Courses
import Grf.Proofs.Lifecycles
import Grf.Proofs.Drafts
import Grf.Proofs.Linking
import Grf.Proofs.Diagnostics
import Grf.Proofs.Ranges
import Grf.Proofs.SelfReference
import Grf.Proofs.Exhaustion
import Grf.Proofs.Provenance
import Grf.Proofs.NormalForms
import Grf.Proofs.Wrapping
import Grf.Proofs.Conflicts
import Grf.Proofs.Writing
import Grf.Proofs.Precedence
import Grf.Proofs.Tallies
import Grf.Proofs.Views
import Grf.Proofs.Columns
import Grf.Proofs.Underlines
import Grf.Proofs.ByteOrder
import Grf.Proofs.Excerpts
import Grf.Proofs.LabelOrder
import Grf.Proofs.Levels
import Grf.Proofs.Lookahead
