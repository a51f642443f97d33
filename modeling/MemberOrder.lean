import MemberOrder.Main
import MemberOrder.Proofs.Automaton
import MemberOrder.Proofs.Check
import MemberOrder.Proofs.Concatenation
import MemberOrder.Proofs.Depth
import MemberOrder.Proofs.Exchange
import MemberOrder.Proofs.Execution
import MemberOrder.Proofs.FileTree
import MemberOrder.Proofs.Iteration
import MemberOrder.Proofs.NameOrder
import MemberOrder.Proofs.Pairing
import MemberOrder.Proofs.Path
import MemberOrder.Proofs.PlainCode
import MemberOrder.Proofs.Segmentation
import MemberOrder.Proofs.Sorting
import MemberOrder.Proofs.Visit
import MemberOrder.Proofs.Warning
import MemberOrder.Proofs.Opening
import MemberOrder.Proofs.Comment
import MemberOrder.Diagnostic.Presentation
import MemberOrder.Proofs.Offset
import MemberOrder.Proofs.Candidate
import MemberOrder.Proofs.Declared
import MemberOrder.Proofs.Priority
import MemberOrder.Proofs.Solution
import MemberOrder.Proofs.Insertion
import MemberOrder.Proofs.Report
import MemberOrder.Proofs.Visibility
import MemberOrder.Proofs.Pass
