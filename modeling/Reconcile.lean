import Reconcile.Main
import Reconcile.Proofs.Aftermath
import Reconcile.Proofs.Agreement
import Reconcile.Proofs.Calls
import Reconcile.Proofs.Comparing
import Reconcile.Proofs.Convergence
import Reconcile.Proofs.Fields
import Reconcile.Proofs.Granting
import Reconcile.Proofs.Keeping
import Reconcile.Proofs.Lifetimes
import Reconcile.Proofs.Lookup
import Reconcile.Proofs.LostUpdates
import Reconcile.Proofs.Ordering
import Reconcile.Proofs.Passes
import Reconcile.Proofs.Planning
import Reconcile.Proofs.Recording
import Reconcile.Proofs.Renewal
import Reconcile.Proofs.Retry
import Reconcile.Proofs.Run
import Reconcile.Proofs.Schedules
import Reconcile.Proofs.Secrets
import Reconcile.Proofs.Settled
import Reconcile.Proofs.Sharing
import Reconcile.Proofs.Storing
import Reconcile.Proofs.Timestamps
import Reconcile.Proofs.Undisturbed
import Reconcile.Proofs.UpdatePath
import Reconcile.Proofs.Validity
import Reconcile.Proofs.Observing
import Reconcile.Proofs.Unchanged
import Reconcile.Proofs.Exactness
import Reconcile.Proofs.Isolation
import Reconcile.Proofs.Writing
import Reconcile.Proofs.Reclaiming
import Reconcile.Proofs.Courses
import Reconcile.Proofs.Accounts
import Reconcile.Proofs.Judging
import Reconcile.Proofs.Deciding
import Reconcile.Proofs.Withdrawing
import Reconcile.Proofs.Documents
import Reconcile.Proofs.Waiting
import Reconcile.Proofs.Pairing
import Reconcile.Proofs.Concord
import Reconcile.Proofs.Unusable
import Reconcile.Proofs.Lasting
import Reconcile.Proofs.Refusing
import Reconcile.Proofs.Counting
