import NameScope.Style.Reader
import NameScope.Helper
import NameScope.Session
import NameScope.Supply.Script
import NameScope.Bundle
import NameScope.Display
import NameScope.Proofs.Addressing
import NameScope.Proofs.Grouping
import NameScope.Proofs.ExactlyOnce
import NameScope.Proofs.DependencyOrder
import NameScope.Proofs.SinglePass
import NameScope.Proofs.Deduplication
import NameScope.Proofs.Allocation
import NameScope.Proofs.Issuance
import NameScope.Proofs.Reentrancy
import NameScope.Proofs.Atomicity
import NameScope.Proofs.Interruption
import NameScope.Proofs.Restyling
import NameScope.Proofs.SlotReads
import NameScope.Proofs.Nesting
import NameScope.Proofs.Exports
import NameScope.Proofs.Verdict
import NameScope.Proofs.Titles
import NameScope.Proofs.Attribution
import NameScope.Proofs.Independence
import NameScope.Proofs.Standalone
import NameScope.Proofs.Layout
import NameScope.Proofs.Interleaving
import NameScope.Proofs.Enrolment
import NameScope.Proofs.Skipping
import NameScope.Proofs.Splitting
import NameScope.Proofs.Onlooker
import NameScope.Proofs.ClosedForm
import NameScope.Proofs.Atoms
import NameScope.Proofs.Literals
import NameScope.Proofs.Admission
import NameScope.Proofs.Collisions
import NameScope.Proofs.Insertion
