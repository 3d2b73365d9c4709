import Thorax.Ops.Session

/-!
# Invitations

An invitation carries the facts its issuer remembered. Claiming it on a machine without a ratchet
for the root starts one from these facts; on a machine that has one, the ratchet stays and the
facts are not needed. The locked part of a claim gets the vault that was read before the lock.
-/

namespace Thorax

open Collections Durable

/-- An invitation: the user its seed derives, the root it is for, and the issuer's facts. -/
structure InvitationMaterial where
  userId : UserId
  trustedRoot : HashValue
  rollbackBaseline : Option (List RatchetRecordV1)

def hasSuspectedRollback (report : ValidationReport) : Bool :=
  (values report.effective.conflicted).any fun conflict =>
    match conflict.kind with
    | .rollback _ => true
    | .tie => false

def seedRatchetFromBaseline (trustedRoot : HashValue) (baseline : List RatchetRecordV1) : Ratchet :=
  baseline.foldl Ratchet.absorbRecord (.new trustedRoot)

def seedRatchetFromOptionalBaseline (trustedRoot : HashValue)
    (baseline : Option (List RatchetRecordV1)) : Ratchet :=
  match baseline with
  | some baseline => seedRatchetFromBaseline trustedRoot baseline
  | none => .new trustedRoot

section Seeds

variable {root : HashValue} {baseline : List RatchetRecordV1}

lemma trustedRoot_seedRatchet : (seedRatchetFromBaseline root baseline).trustedRoot = root :=
  (Ratchet.scope_absorbRecords (.new root) baseline).1

lemma vaultRoot_seedRatchet :
    (seedRatchetFromBaseline root baseline).watermarks[RecordKey.vaultRoot]? = none :=
  Ratchet.vaultRoot_absorbRecords rfl

end Seeds

section Claims

variable (provider : StoreProvider)

/-- Validate a vault for an invited user under a ratchet, and remember it. -/
def establishRatchet (vault : VaultStore) (ratchet : Ratchet) (userId : UserId) :
    Program Disk OpsError ValidationReport := do
  let report := validateVault provider.toCryptoProvider vault ratchet
  .ensure (!hasSuspectedRollback report) .claimRolledBack
  check (ensureNoIssues report)
  .ensure (report.effective.users.contains userId) (.claimNotAMember userId)
  liftStore (writeRatchetAtomic provider (ratchet.applyUpdate report.ratchetUpdate))
  pure report

/-- The locked part of a claim. A remembered ratchet is stronger than the baseline. -/
def claimInviteLocked (vault : VaultStore) (root : HashValue) (invitation : InvitationMaterial) :
    Program Disk OpsError ValidationReport := do
  ensureNoPendingTransaction provider root
  let existing ← readStore (readRatchetForRoot provider root)
  establishRatchet provider vault
    (existing.getD (seedRatchetFromOptionalBaseline root invitation.rollbackBaseline))
    invitation.userId

/-- The locked part of establishing trust without a keychain: a no-op where trust exists. -/
def ensureRatchetLocked (vault : VaultStore) (root : HashValue) (invitation : InvitationMaterial) :
    Program Disk OpsError Unit := do
  ensureNoPendingTransaction provider root
  match ← readStore (readRatchetForRoot provider root) with
  | some _ => pure ()
  | none =>
    match invitation.rollbackBaseline with
    | none => .fail .inviteRollbackBaselineRequired
    | some baseline =>
      let _ ← establishRatchet provider vault (seedRatchetFromBaseline root baseline)
        invitation.userId
      pure ()

/-- The vault at a workspace and its root, which must be the invitation's. -/
def invitedVault (paths : WorkspacePaths) (invitation : InvitationMaterial) (disk : Disk) :
    Except OpsError VaultStore := do
  let vaultBytes ← (readVaultBytes paths disk).mapError .store
  let vault ← (decodeVaultAt provider (.vault paths.vaultPath) vaultBytes).mapError .store
  let trustedRoot ← trustedRootCandidate provider.toCryptoProvider vault
  if invitation.trustedRoot ≠ trustedRoot then .error .inviteRootMismatch else .ok vault

def claimInvite (paths : WorkspacePaths) (invitation : InvitationMaterial) :
    Program Disk OpsError ValidationReport := do
  let vault ← .read (invitedVault provider paths invitation)
  claimInviteLocked provider vault invitation.trustedRoot invitation

def ensureRatchetFromInvite (paths : WorkspacePaths) (invitation : InvitationMaterial) :
    Program Disk OpsError Unit := do
  let vault ← .read (invitedVault provider paths invitation)
  ensureRatchetLocked provider vault invitation.trustedRoot invitation

end Claims

end Thorax
