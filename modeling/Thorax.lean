import Thorax.Properties.Clock
import Thorax.Properties.Delegation
import Thorax.Properties.Identity
import Thorax.Properties.OrderIndependence
import Thorax.Properties.Rollback
import Thorax.Properties.Soundness
import Thorax.Properties.FastPath
import Thorax.Resolution.Principals
import Thorax.Properties.SecretIndependence
import Thorax.Store.Disk
import Thorax.Library.Durable
import Thorax.Store.Files
import Thorax.Ops.Invite
import Thorax.Properties.Journal
import Thorax.Properties.RatchetRuns
import Thorax.Kubernetes.Leader
import Thorax.Ops.Grounding
import Thorax.Properties.Algebra
import Thorax.Properties.Candidates
import Thorax.Properties.Coherence
import Thorax.Properties.Leadership
import Thorax.Kubernetes.Controller
import Thorax.Kubernetes.Projection
import Thorax.Kubernetes.System
import Thorax.Properties.UpdateState
import Thorax.Kubernetes.Interleaving
import Thorax.Kubernetes.RatchetHistory
import Thorax.Properties.RatchetSecret
import Thorax.Properties.AcceptRollback
import Thorax.Properties.InviteBaseline
import Thorax.Properties.Keyspaces
import Thorax.Properties.LastWriterWins
import Thorax.Properties.SecretIndex
import Thorax.Properties.Reconcile
import Thorax.Properties.References
import Thorax.Properties.Addressing
import Thorax.Properties.GrantArguments
import Thorax.Properties.StoredRatchet
import Thorax.Properties.SecretEdits
import Thorax.Properties.ReleaseEpochs
import Thorax.Properties.StatusWrites
import Thorax.Properties.WorkspaceKept
import Thorax.Properties.IdleRelock
import Thorax.Properties.Reveals
import Thorax.Properties.Editor
import Thorax.Properties.RollbackFloor
import Thorax.Properties.Projection
import Thorax.Properties.MergeDriver
import Thorax.Properties.Plaintext
import Thorax.Properties.SecretTree
import Thorax.Properties.SelectorForms
import Thorax.Properties.Termination
import Thorax.Properties.JoinReview
import Thorax.Properties.SealedValues
import Thorax.Properties.KeychainMigration
import Thorax.Properties.VaultRuns
import Thorax.Properties.Transcripts
import Thorax.Properties.SelfUpdate
import Thorax.Frontend.MergeRun
import Thorax.Properties.Clones
import Thorax.Properties.Trust
import Thorax.Properties.Ownership
import Thorax.Library.FileSystem
import Thorax.Properties.AtomicWrites
import Thorax.Properties.RootUser
import Thorax.Keychain.Identities
import Thorax.Properties.Unlocking
import Thorax.Properties.UnknownKinds
