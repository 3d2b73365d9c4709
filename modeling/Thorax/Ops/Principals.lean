import Thorax.Ops.Records

/-!
# Users, handles, groups and grants

The mutations of the principal graph. Most append one record. A user is added with an entry point at
the same counter, and the deletions of users and groups cascade over what hangs off them, each record
one counter above the last.
-/

namespace Thorax

open Collections

/-! ### Handles -/

def handleCharsetReason : String :=
  "handle must be 1–64 chars of a–z, 0–9, '-', '_', starting and ending with a letter or digit"

/-- A handle in its normal form, or an error about it. -/
def normalizeHandleOr (error : String → String → OpsError) (handle : String) :
    Except OpsError String :=
  let normalized := normalizeHandle handle
  if isValidHandle normalized then .ok normalized else .error (error handle handleCharsetReason)

def normalizeUserHandle (handle : String) : Except OpsError String :=
  normalizeHandleOr .invalidUserHandle handle

def normalizeVaultHandle (handle : String) : Except OpsError String :=
  normalizeHandleOr .invalidVaultHandle handle

def normalizeGroupHandle (handle : String) : Except OpsError String :=
  normalizeHandleOr .invalidGroupHandle handle

/-! ### Building records -/

namespace Hazmat

variable (crypto : CryptoProvider) (signer : RecordSigner)

/-- The entry point declares the signer's own key. -/
def entryPointRecord (trustedRootUserId : UserId) (counter : ℕ) : Except HazmatError VaultRecordV1 :=
  signedPayload crypto signer (.entryPoint ⟨trustedRootUserId, signer.hpkePublicKey, counter⟩)

def userRecord (signingPublicKey hpkePublicKey : Bytes) (counter : ℕ) :
    Except HazmatError VaultRecordV1 :=
  signedPayload crypto signer (.user ⟨deriveUserId crypto signingPublicKey hpkePublicKey,
    signingPublicKey, hpkePublicKey, counter⟩)

def userHandleRecord (handle : String) (user : UserId) (counter : ℕ) :
    Except HazmatError VaultRecordV1 :=
  signedPayload crypto signer (.userHandle ⟨deriveUserHandleId crypto handle, handle, user, counter⟩)

def vaultHandleRecord (handle : String) (counter : ℕ) : Except HazmatError VaultRecordV1 :=
  signedPayload crypto signer (.vaultHandle ⟨deriveVaultHandleId crypto handle, handle, counter⟩)

def grantRecord (subject : PrincipalRefV1) (permission : GrantPermissionV1) (seed : IdSeed)
    (counter : ℕ) : Except HazmatError VaultRecordV1 :=
  signedPayload crypto signer
    (.grant ⟨deriveGrantId crypto seed, seed, subject, permission, counter⟩)

def grantDeletedRecord (grant : GrantId) (permission : GrantPermissionV1) (counter : ℕ) :
    Except HazmatError VaultRecordV1 :=
  signedPayload crypto signer (.grantDeleted ⟨grant, permission, counter⟩)

def groupRecord (seed : IdSeed) (handle : String) (counter : ℕ) : Except HazmatError VaultRecordV1 :=
  signedPayload crypto signer (.group ⟨deriveGroupId crypto seed, seed, handle, counter⟩)

def groupDeletedRecord (group : GroupId) (counter : ℕ) : Except HazmatError VaultRecordV1 :=
  signedPayload crypto signer (.groupDeleted ⟨group, counter⟩)

def groupMemberRecord (group : GroupId) (member : PrincipalRefV1) (counter : ℕ) :
    Except HazmatError VaultRecordV1 :=
  signedPayload crypto signer
    (.groupMember ⟨deriveGroupMemberId crypto group member, group, member, counter⟩)

def groupMemberDeletedRecord (group : GroupId) (member : PrincipalRefV1) (counter : ℕ) :
    Except HazmatError VaultRecordV1 :=
  signedPayload crypto signer
    (.groupMemberDeleted ⟨deriveGroupMemberId crypto group member, group, member, counter⟩)

def userDeletedRecord (user : UserId) (reason : Option String) (counter : ℕ) :
    Except HazmatError VaultRecordV1 :=
  signedPayload crypto signer (.userDeleted ⟨user, reason, counter⟩)

end Hazmat

/-! ### Mutations of one record -/

section Changes

variable (crypto : CryptoProvider) (signer : RecordSigner)

/-- A mutation takes effect when the state after it has something. -/
def effectiveIf (holds : Bool) (message : String) : Except OpsError Unit :=
  if holds then .ok () else .error (.operationNotEffective message)

/-- A record at the counter of the commit, and a check of the state after it. -/
def principalChange {α : Type} (output : α) (build : ℕ → Except HazmatError VaultRecordV1)
    (holds : EffectiveState → Bool) (message : String) : RecordChange α where
  build _ counter := do
    let signed ← (build counter).mapError .hazmat
    .ok (signed, output)
  effective _ _ report := effectiveIf (holds report.effective) message

/-- A deletion, of something that is there under the locks. -/
def principalDeletion {α : Type} (output : α) (build : ℕ → Except HazmatError VaultRecordV1)
    (holds : EffectiveState → Bool) (missing message : String) : RecordChange α where
  build report counter := do
    effectiveIf (holds report.effective) missing
    let signed ← (build counter).mapError .hazmat
    .ok (signed, output)
  effective _ _ report := effectiveIf (!holds report.effective) message

def setUserHandleChange (handle : String) (user : UserId) : RecordChange UserHandleId :=
  principalChange (deriveUserHandleId crypto handle)
    (Hazmat.userHandleRecord crypto signer handle user)
    (fun effective => effective.handles[deriveUserHandleId crypto handle]?.any fun record =>
      record.handle = handle ∧ record.userId = user)
    "user handle is not active"

def setVaultHandleChange (handle : String) : RecordChange VaultHandleId :=
  principalChange (deriveVaultHandleId crypto handle)
    (Hazmat.vaultHandleRecord crypto signer handle)
    (fun effective => effective.vaultHandles[deriveVaultHandleId crypto handle]?.any fun record =>
      record.handle = handle)
    "vault handle is not active"

def grantPermissionChange (subject : PrincipalRefV1) (permission : GrantPermissionV1)
    (seed : IdSeed) : RecordChange GrantId :=
  principalChange (deriveGrantId crypto seed)
    (Hazmat.grantRecord crypto signer subject permission seed)
    (fun effective => effective.grants[deriveGrantId crypto seed]?.any fun record =>
      record.seed = seed ∧ record.subjectId = subject ∧ record.permission = permission)
    "grant is not active"

def deleteGrantChange (grant : GrantId) (permission : GrantPermissionV1) : RecordChange GrantId :=
  principalDeletion grant (Hazmat.grantDeletedRecord crypto signer grant permission)
    (fun effective => effective.grants.contains grant) "grant is not active" "grant is still active"

def createGroupChange (seed : IdSeed) (handle : String) : RecordChange GroupId :=
  principalChange (deriveGroupId crypto seed) (Hazmat.groupRecord crypto signer seed handle)
    (fun effective => effective.groups[deriveGroupId crypto seed]?.any fun record =>
      record.seed = seed ∧ record.handle = handle)
    "group is not active"

def addGroupMemberChange (group : GroupId) (member : PrincipalRefV1) : RecordChange GroupMemberId :=
  principalChange (deriveGroupMemberId crypto group member)
    (Hazmat.groupMemberRecord crypto signer group member)
    (fun effective => effective.memberships.contains (deriveGroupMemberId crypto group member))
    "group membership is not active"

def deleteGroupMemberChange (group : GroupId) (member : PrincipalRefV1) :
    RecordChange GroupMemberId :=
  principalDeletion (deriveGroupMemberId crypto group member)
    (Hazmat.groupMemberDeletedRecord crypto signer group member)
    (fun effective => effective.memberships.contains (deriveGroupMemberId crypto group member))
    "group membership is not active" "group membership is still active"

/-! ### Mutations of several records -/

/-- A member and its entry point, at one counter. The user signs the entry point itself. -/
def addUserChange (user : RecordSigner) : BatchChange UserId where
  build report := do
    let counter := nextCounter report.effective
    let member ← (Hazmat.userRecord crypto signer user.signingPublicKey user.hpkePublicKey
      counter).mapError .hazmat
    match report.effective.rootUserId with
    | none => .error .missingEffectiveRoot
    | some root =>
      let entryPoint ← (Hazmat.entryPointRecord crypto user root counter).mapError .hazmat
      .ok ([member, entryPoint], user.userId)
  effective output report := effectiveIf
    (report.effective.users[output]?.any fun record => record.id = output ∧
      record.signingPublicKey = user.signingPublicKey ∧ record.hpkePublicKey = user.hpkePublicKey)
    "user is not active"

/-- Build records one after another, each at the counter above the last. -/
def buildAscending (counter : ℕ) :
    List (ℕ → Except HazmatError VaultRecordV1) → Except HazmatError (List VaultRecordV1)
  | [] => .ok []
  | build :: rest => do
    let signed ← build counter
    let others ← buildAscending (saturatingAdd counter 1) rest
    .ok (signed :: others)

/-- The deletions of memberships and of the grants to a principal. -/
def dependentDeletions (effective : EffectiveState) (principal : PrincipalRefV1)
    (dependent : GroupMemberRecordV1 → Bool) : List (ℕ → Except HazmatError VaultRecordV1) :=
  ((values effective.memberships).filter dependent).map (fun membership =>
      Hazmat.groupMemberDeletedRecord crypto signer membership.groupId membership.memberId) ++
    ((values effective.grants).filter (·.subjectId = principal)).map fun grant =>
      Hazmat.grantDeletedRecord crypto signer grant.id grant.permission

/-- What a deletion of a user takes along: its memberships and grants. -/
def userCascade (effective : EffectiveState) (user : UserId) :
    List (ℕ → Except HazmatError VaultRecordV1) :=
  dependentDeletions crypto signer effective (.user user) fun membership =>
    membership.memberId = .user user

/-- What a deletion of a group takes along: the memberships in it, and its own memberships and
grants. -/
def groupCascade (effective : EffectiveState) (group : GroupId) :
    List (ℕ → Except HazmatError VaultRecordV1) :=
  dependentDeletions crypto signer effective (.group group) fun membership =>
    membership.groupId = group || membership.memberId = .group group

/-- The deletion itself comes first. -/
def deleteUserChange (user : UserId) (reason : Option String) : BatchChange UserId where
  build report := do
    effectiveIf (!report.effective.deletedUsers.contains user) "user is already deleted"
    if report.effective.users.contains user then
      let records ← (buildAscending (nextCounter report.effective)
        (Hazmat.userDeletedRecord crypto signer user reason ::
          userCascade crypto signer report.effective user)).mapError .hazmat
      .ok (records, user)
    else .error (.missingUser user)
  effective output report :=
    effectiveIf (!report.effective.users.contains output) "user is still active"

def deleteGroupChange (group : GroupId) : BatchChange GroupId where
  build report := do
    effectiveIf (report.effective.groups.contains group) "group is not active"
    let records ← (buildAscending (nextCounter report.effective)
      (Hazmat.groupDeletedRecord crypto signer group ::
        groupCascade crypto signer report.effective group)).mapError .hazmat
    .ok (records, group)
  effective output report :=
    effectiveIf (!report.effective.groups.contains output) "group is still active"

end Changes

/-! ### The operations -/

namespace LockedSession

variable (provider : StoreProvider) (contended : Bool) (transactionId : Bytes) (signer : RecordSigner)

def setUserHandle (handle : String) (user : UserId) : SessionProgram UserHandleId := do
  let handle ← onDisk (check (normalizeUserHandle handle))
  commitRecord provider contended transactionId
    (setUserHandleChange provider.toCryptoProvider signer handle user)

def setVaultHandle (handle : String) : SessionProgram VaultHandleId := do
  let _ ← onDisk (check ((Hazmat.ensureIdentityConsistent provider.toCryptoProvider signer).mapError
    .hazmat))
  let handle ← onDisk (check (normalizeVaultHandle handle))
  commitRecord provider contended transactionId
    (setVaultHandleChange provider.toCryptoProvider signer handle)

/-- Only the authorization: readers get their slots by convergence. -/
def grantPermission (subject : PrincipalRefV1) (permission : GrantPermissionV1) (seed : IdSeed) :
    SessionProgram GrantId := do
  let _ ← onDisk (check ((Hazmat.ensureIdentityConsistent provider.toCryptoProvider signer).mapError
    .hazmat))
  commitRecord provider contended transactionId
    (grantPermissionChange provider.toCryptoProvider signer subject permission seed)

def deleteGrant (grant : GrantId) (permission : GrantPermissionV1) : SessionProgram GrantId :=
  commitRecord provider contended transactionId
    (deleteGrantChange provider.toCryptoProvider signer grant permission)

def createGroup (seed : IdSeed) (handle : String) : SessionProgram GroupId := do
  let handle ← onDisk (check (normalizeGroupHandle handle))
  commitRecord provider contended transactionId
    (createGroupChange provider.toCryptoProvider signer seed handle)

def addGroupMember (group : GroupId) (member : PrincipalRefV1) : SessionProgram GroupMemberId :=
  commitRecord provider contended transactionId
    (addGroupMemberChange provider.toCryptoProvider signer group member)

def deleteGroupMember (group : GroupId) (member : PrincipalRefV1) : SessionProgram GroupMemberId :=
  commitRecord provider contended transactionId
    (deleteGroupMemberChange provider.toCryptoProvider signer group member)

def addUser (user : RecordSigner) : SessionProgram UserId := do
  let _ ← onDisk (check ((Hazmat.ensureIdentityConsistent provider.toCryptoProvider signer).mapError
    .hazmat))
  let _ ← onDisk (check ((Hazmat.ensureIdentityConsistent provider.toCryptoProvider user).mapError
    .hazmat))
  commit provider contended transactionId
    (addUserChange provider.toCryptoProvider signer user).toChange

def deleteUser (user : UserId) (reason : Option String) : SessionProgram UserId :=
  commit provider contended transactionId
    (deleteUserChange provider.toCryptoProvider signer user reason).toChange

def deleteGroup (group : GroupId) : SessionProgram GroupId :=
  commit provider contended transactionId
    (deleteGroupChange provider.toCryptoProvider signer group).toChange

end LockedSession

end Thorax
