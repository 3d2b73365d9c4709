import Thorax.Ops.Invite
import Thorax.Ops.Principals

/-!
# Local trust

How a machine comes to trust a vault: it makes one, it forgets what it remembers beyond the vault
it has, or it judges a vault that a merge has made.
-/

namespace Thorax

open Collections Durable

/-! ### The first record -/

namespace Hazmat

variable (crypto : CryptoProvider)

def vaultRootRecord (root : RecordSigner) : Except HazmatError VaultRecordV1 :=
  signedPayload crypto root
    (.vaultRoot ⟨deriveUserId crypto root.signingPublicKey root.hpkePublicKey, root.hpkePublicKey⟩)

end Hazmat

structure InitVaultOutput where
  paths : WorkspacePaths
  rootUserId : UserId
  rootSigningPublicKeyHash : HashValue
  vault : VaultStore
  ratchet : Ratchet
  report : ValidationReport

/-- The errors of the making of a vault. -/
inductive InitVaultError where
  | vaultAlreadyInitialized (path : Path)
  | ops (source : OpsError)
  deriving DecidableEq

structure ResetRatchetOutput where
  trustedRoot : HashValue
  droppedWatermarks : List RecordKey
  applied : Bool

structure CheckMergedVaultOutput where
  issues : List ValidationIssue
  conflicts : List ConflictReport
  ratchetChecked : Bool

section Trust

variable (provider : StoreProvider)

def readVault (paths : WorkspacePaths) (disk : Disk) : Except StoreError VaultStore := do
  let bytes ← readVaultBytes paths disk
  decodeVaultAt provider (.vault paths.vaultPath) bytes

/-! ### Making a vault -/

/-- The records of a new vault: its root, and the root's own entry point. -/
def initialVault (root : RecordSigner) : Except OpsError VaultStore := do
  let rootSigned ← (Hazmat.vaultRootRecord provider.toCryptoProvider root).mapError .hazmat
  let rootEntryPoint ←
    (Hazmat.entryPointRecord provider.toCryptoProvider root root.userId 0).mapError .hazmat
  .ok (.v1 ⟨[rootSigned, rootEntryPoint]⟩)

/-- Operations among those that make a vault. -/
def liftInit {α : Type} (program : Program Disk OpsError α) : Program Disk InitVaultError α :=
  program.zoom id (fun disk _ => disk) .ops

def ensureNoVault (paths : WorkspacePaths) : Program Disk InitVaultError Unit :=
  .read fun disk =>
    if (disk.vaults paths.vaultPath).isSome then .error (.vaultAlreadyInitialized paths.vaultPath)
    else .ok ()

def writeVaultAtomic (paths : WorkspacePaths) (vault : VaultStore) :
    Program Disk StoreError Unit := do
  let bytes ← .read fun _ => (encodeVault provider vault).mapError .core
  writeVaultBytesAtomic provider paths bytes

/-- The vault is looked for before anything is signed, and again under the locks. -/
def initVault (contended : Bool) (paths : WorkspacePaths) (root : RecordSigner) :
    Program Disk InitVaultError InitVaultOutput := do
  ensureNoVault paths
  let vault ← liftInit (check (initialVault provider root))
  let rootHash := keyHash provider.toCryptoProvider root.signingPublicKey
  let report := validateVault provider.toCryptoProvider vault (.new rootHash)
  liftInit (check (ensureNoIssues report))
  let ratchet := (Ratchet.new rootHash).applyUpdate report.ratchetUpdate
  liftInit (acquireRootStateLock contended rootHash)
  ensureNoVault paths
  liftInit (liftStore (writeRatchetAtomic provider ratchet))
  liftInit (liftStore (writeVaultAtomic provider paths vault))
  pure ⟨paths, root.userId, rootHash, vault, ratchet, report⟩

/-! ### Starting over -/

/-- The remembered keys at which the vault has fallen below what was remembered. -/
def droppedWatermarks (existing fresh : Ratchet) : List RecordKey :=
  (existing.watermarks.filter fun key counter =>
    decide (fresh.watermarks[key]?.getD 0 < counter)).keys

/-- Trust derived from the vault alone. -/
def freshTrust (vault : VaultStore) (root : HashValue) : Except OpsError Ratchet := do
  let report := validateVault provider.toCryptoProvider vault (.new root)
  ensureNoIssues report
  .ok ((Ratchet.new root).applyUpdate report.ratchetUpdate)

/-- Discard what is remembered beyond the vault that is there; a dry run only says what would be
discarded. -/
def resetRatchet (contended : Bool) (paths : WorkspacePaths) (dryRun : Bool) :
    Program Disk OpsError ResetRatchetOutput := do
  let root ← .read (loadRoot provider paths)
  acquireRootStateLock contended root
  ensureNoPendingTransaction provider root
  let vault ← readStore (readVault provider paths)
  let rereadRoot ← check (trustedRootCandidate provider.toCryptoProvider vault)
  .ensure (rereadRoot = root) (.store (.trustRootMismatch rereadRoot root))
  match ← readStore (readRatchetForRoot provider root) with
  | none => .fail (.missingRatchet (.ratchet root))
  | some existing =>
    let fresh ← check (freshTrust provider vault root)
    .skipWhen dryRun (liftStore (writeRatchetAtomic provider fresh))
    pure ⟨root, droppedWatermarks existing fresh, !dryRun⟩

/-! ### Judging a merge -/

/-- The verdict on a vault under what this machine remembers of its root, if anything. -/
def checkMergedVault (paths : WorkspacePaths) (vault : VaultStore) (disk : Disk) :
    Except OpsError CheckMergedVaultOutput := do
  let root ← trustedRootCandidate provider.toCryptoProvider vault
  let (found, _) ← readStrongestRatchetOptionalWithPending provider paths root disk
  let report := validateVault provider.toCryptoProvider vault (found.getD (.new root))
  .ok ⟨report.issues, values report.effective.conflicted, found.isSome⟩

end Trust

end Thorax
