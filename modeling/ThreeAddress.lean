import ThreeAddress.Main
import ThreeAddress.Proofs.Code.Closed
import ThreeAddress.Proofs.Grammar.Derivation
import ThreeAddress.Proofs.Grammar.Reading
import ThreeAddress.Proofs.Grammar.Soundness
import ThreeAddress.Proofs.Grammar.Refusal
import ThreeAddress.Proofs.Grammar.Completeness
import ThreeAddress.Proofs.Grammar.Stages
import ThreeAddress.Proofs.Grammar.Following
import ThreeAddress.Proofs.Grammar.Acceptance
import ThreeAddress.Proofs.Grammar.Agreement
import ThreeAddress.Proofs.Code.Machine
import ThreeAddress.Proofs.Code.Evaluation
import ThreeAddress.Proofs.Code.Operands
import ThreeAddress.Proofs.Code.Simulation
import ThreeAddress.Proofs.Code.Meaning
import ThreeAddress.Proofs.Code.Temporaries
import ThreeAddress.Proofs.Code.Renumbering
import ThreeAddress.Proofs.Token.Words
import ThreeAddress.Proofs.Inventory.Declarations
import ThreeAddress.Proofs.Inventory.Tables
import ThreeAddress.Proofs.Grammar.Resuming
import ThreeAddress.Proofs.Token.Lines
import ThreeAddress.Proofs.Grammar.Sequences
import ThreeAddress.Proofs.Inventory.Scopes
import ThreeAddress.Proofs.Joining
import ThreeAddress.Proofs.Inventory.Assignments
import ThreeAddress.Proofs.Code.Layouts
import ThreeAddress.Proofs.Inspector.Showing
import ThreeAddress.Proofs.Grammar.Headlines
import ThreeAddress.Proofs.Report.Lines
import ThreeAddress.Proofs.Report.Trees
import ThreeAddress.Proofs.Code.Erasure
import ThreeAddress.Proofs.Code.Polarities
import ThreeAddress.Proofs.Code.Uses
import ThreeAddress.Proofs.Grammar.ReadingBack
import ThreeAddress.Proofs.Report.Listings
import ThreeAddress.Proofs.Report.Tables
import ThreeAddress.Proofs.Token.Cuts
import ThreeAddress.Proofs.Inspector.Highlighting
import ThreeAddress.Proofs.Inspector.Scrolling
import ThreeAddress.Proofs.Inspector.Backgrounds
import ThreeAddress.Proofs.Inspector.Writing
import ThreeAddress.Proofs.Inspector.Marks
import ThreeAddress.Proofs.Command.Outcomes
import ThreeAddress.Proofs.Grammar.Traces
import ThreeAddress.Proofs.Grammar.Nesting
