import Thorax.Kubernetes.RatchetSecret

/-!
# Reconciling a vault

One reconciliation starts from an observed version of a vault object, reads the source and the
identity, and either goes on from the stored ratchet or starts one from an approved baseline. Each
call to the API server is a point at which other reconciliations can run. What the enrollment
artifacts say is decided by code of other crates and by cryptography; here it is a parameter.
-/

namespace Thorax.Kubernetes

open Collections Remote Versioned

structure JoinCandidateV1 where
  purpose : JoinPurpose
  trustedRoot : HashValue
  userId : UserId
  deriving DecidableEq

structure JoinApprovalV1 where
  purpose : JoinPurpose
  userId : UserId
  approvingAdmin : UserId
  approvingSigningPublicKey : Bytes
  approvedGrants : List GrantPermissionV1
  replacesUserId : Option UserId
  deriving DecidableEq

/-- What a request for an identity is made from. -/
structure JoinRequestInput where
  identity : ManagedIdentity
  purpose : JoinPurpose
  requestId : Bytes
  trustedRoot : HashValue
  trustedRootUserId : UserId
  vaultName : String
  vaultUid : Uid

inductive ControllerError where
  | kube (source : KubeError)
  | ops (source : OpsError)
  | core (source : CoreError)
  | api (source : ApiError)
  | ratchet (source : RatchetStateError)
  | runtime
  | invalid (detail : String)
  deriving DecidableEq

structure ControllerProvider extends StoreProvider, ManagedCrypto where
  identityFromMasterSeed : Bytes → Option Identity
  /-- The hash of the domain `thorax.kubernetes-vault.v1`. -/
  revisionHash : Bytes → HashValue
  /-- The candidate of a request, if the request agrees with its artifact, this namespace and this
  vault. -/
  requestCandidate : ThoraxJoinRequestSpec → String → Uid → Except ApiError JoinCandidateV1
  approvalOf : ThoraxJoinApprovalSpec → Except ApiError JoinApprovalV1
  createJoinRequestSpec : JoinRequestInput → Except ControllerError ThoraxJoinRequestSpec
  validateJoinCandidate : JoinCandidateV1 → Except OpsError Unit
  validateApprovalBindings : JoinCandidateV1 → JoinApprovalV1 → Except OpsError Unit
  openJoinBaseline : ManagedIdentity → JoinCandidateV1 → JoinApprovalV1 →
    Except OpsError (List RatchetRecordV1)

/-- What a reconciliation draws at random. -/
structure Randomness where
  masterSeed : Bytes
  keys : Identity
  requestId : Bytes

abbrev Controller (α : Type) := Program Op Op.Reply ControllerError α

/-- A call whose failure ends the reconciliation. -/
def Controller.request (op : Op) : Controller op.Answer := do
  .lift ((← Program.ask op).mapError .kube)

/-- A program of the backend whose failure ends the reconciliation. -/
def Controller.backend {α : Type} (program : Backend α) : Controller α := do
  .lift ((← program.attempt).mapError .ratchet)

/-! ### Specifications and names -/

def maxVaultConfigMapBytes : ℕ := 1024 * 1024

def isLowerAlnum (c : Char) : Bool := ('a' ≤ c && c ≤ 'z') || ('0' ≤ c && c ≤ '9')

def validLabel (label : List Char) : Bool :=
  label.length ≤ 63 && label.all (fun c => isLowerAlnum c || c == '-') &&
    label.head?.any isLowerAlnum && label.getLast?.any isLowerAlnum

/-- A DNS name of at most 253 bytes; its labels are ASCII, so characters are bytes. -/
def validateObjectName (field value : String) : Except ApiError Unit :=
  if value ≠ "" ∧ value.utf8ByteSize ≤ 253 ∧ (value.toList.splitOn '.').all validLabel then .ok ()
  else .error (.invalidObjectName field)

def isSecretDataKey (value : String) : Bool :=
  value ≠ "" && value.utf8ByteSize ≤ 253 && value.toList.all fun c =>
    isLowerAlnum c || ('A' ≤ c && c ≤ 'Z') || c == '-' || c == '_' || c == '.'

def ThoraxVaultSpec.validate (spec : ThoraxVaultSpec) : Except ApiError Unit := do
  validateObjectName "source.configMapRef.name" spec.configMapRef.name
  validateObjectName "identity.managedSecretName" spec.managedSecretName
  if isSecretDataKey spec.configMapRef.key then .ok ()
  else .error (.invalidObjectName "source.configMapRef.key")

def boundedName (name suffix : String) : String :=
  let available := 253 - (suffix.utf8ByteSize + 1)
  String.ofList (name.toList.take available) ++ "-" ++ suffix

def ownerReference (uid : Uid) : OwnerReference := ⟨uid, some true⟩

def isControlledBy (owners : List OwnerReference) (uid : Uid) : Bool :=
  owners.any fun owner => owner.controller = some true && owner.uid = uid

/-- The bytes of a key that is given as text or as bytes, but not both. -/
def configMapBytes (configMap : ConfigMap) (key : String) : Option Bytes :=
  match configMap.data.bind (·[key]?), configMap.binaryData.bind (·[key]?) with
  | some _, some _ => none
  | some text, none => some text.toUTF8.toList
  | none, some bytes => some bytes
  | none, none => none

/-! ### Statuses -/

def trustWasEstablished (vault : ThoraxVault) : Bool :=
  vault.status.any fun status => status.conditions.any fun condition =>
    (condition.type = "TrustEstablished" || condition.type = "Ready") && condition.status = "True"

def isReady (status : Option ThoraxVaultStatus) : Bool :=
  status.any fun status => status.conditions.any fun condition =>
    condition.type = "Ready" && condition.status = "True"

def trustEstablishedCondition : Condition :=
  ⟨"TrustEstablished", "True", "BaselinePersisted",
    "rollback trust has been established for this identity"⟩

/-- The status that a reconciliation reports, from the version of the vault it has observed. -/
def reportedStatus (vault : ThoraxVault) (trustedRoot revision identityUserId : Option String)
    (condition : Condition) (extraConditions : List Condition) : ThoraxVaultStatus :=
  let readyNow := condition.type = "Ready" && condition.status = "True"
  let established := trustWasEstablished vault || readyNow
  { trustedRoot := trustedRoot
    vaultRevision := revision
    identityUserId := identityUserId
    joinRequestName := identityUserId.map fun userId =>
      vault.name ++ "-" ++ String.ofList (userId.toList.take 16)
    conditions := condition :: (if established then [trustEstablishedCondition] else []) ++
      extraConditions }

def setVaultStatusWithExtra (vault : ThoraxVault) (trustedRoot revision identityUserId : Option String)
    (condition : Condition) (extraConditions : List Condition) : Controller Unit :=
  let status := reportedStatus vault trustedRoot revision identityUserId condition extraConditions
  if vault.status = some status then pure ()
  else Controller.request (.patchVaultStatus vault.name status)

def setVaultStatus (vault : ThoraxVault) (trustedRoot revision identityUserId : Option String)
    (condition : Condition) : Controller Unit :=
  setVaultStatusWithExtra vault trustedRoot revision identityUserId condition []

def notReady (reason message : String) : Condition := ⟨"Ready", "False", reason, message⟩

def verified (message : String) : Condition := ⟨"Ready", "True", "Verified", message⟩

def oldIdentityOutstanding : Condition :=
  ⟨"OldIdentityOutstanding", "True", "RevocationRequired", "the replaced identity remains an " ++
    "effective vault member; revoke it and rotate affected values"⟩

/-! ### Checks on a report -/

def reportHasRollback (report : ValidationReport) : Bool :=
  report.issues.any (fun issue =>
      match issue with
      | .formatVersionRegression .. => true
      | _ => false) ||
    (values report.effective.conflicted).any fun conflict =>
      match conflict.kind with
      | .rollback _ => true
      | .tie => false

/-- The first user, in the order of identifiers, who holds a signing key. -/
def userForSigningKey (effective : EffectiveState) (signingPublicKey : Bytes) : Option UserId :=
  (effective.users.toList.find? fun entry => entry.2.signingPublicKey = signingPublicKey).map Prod.fst

def validateApprovingAdmin (effective : EffectiveState) (approval : JoinApprovalV1) :
    Except ControllerError Unit :=
  match userForSigningKey effective approval.approvingSigningPublicKey with
  | none => .error (.invalid "approval signer is not a current vault user")
  | some resolved =>
    if resolved ≠ approval.approvingAdmin ∨
        (effective.authorityForUser resolved).administer = false then
      .error (.invalid "approval signer is not a current Thorax administrator")
    else .ok ()

def grantCovered (authority : AuthoritySet) (expected : KeyspaceSelectorV1) : Bool :=
  authority.administer || authority.read.any (selectorSubsumes · expected) ||
    authority.write.any (selectorSubsumes · expected) ||
    authority.manage.any fun actual => selectorSubsumes actual.selector expected

def validateApprovedGrants (effective : EffectiveState) (approval : JoinApprovalV1) :
    Except ControllerError Unit :=
  approval.approvedGrants.forM fun permission =>
    match permission with
    | .readKeyspace expected =>
      if grantCovered (effective.authorityForUser approval.userId) expected then .ok ()
      else .error (.invalid "published vault does not contain every approved grant")
    | _ => .error (.invalid "approval contains a non-read grant")

def ratchetFromBaseline (root : HashValue) (baseline : List RatchetRecordV1) : Ratchet :=
  (baseline.filter fun record =>
    match record with
    | .trustedRoot _ => false
    | _ => true).foldl Ratchet.absorbRecord (.new root)

section Reconciliation

variable (provider : ControllerProvider)

def rootUserId (vault : VaultStore) (trustedRoot : HashValue) : Except ControllerError UserId :=
  match vault.records.findSome? fun signed =>
      match signed.body with
      | .known (.vaultRoot root) =>
        if keyHash provider.toCryptoProvider signed.signingPublicKey = trustedRoot then some root.id
        else none
      | _ => none with
  | some id => .ok id
  | none => .error (.invalid "trusted root user is absent")

/-- A source that could be decoded. -/
structure Source where
  store : VaultStore
  trustedRoot : HashValue
  trustedRootUserId : UserId
  revision : String

def readSource (vaultBytes : Bytes) : Except ControllerError Source := do
  let store ← (decodeVault provider.toStoreProvider vaultBytes).mapError .core
  let trustedRoot ← (trustedRootCandidate provider.toCryptoProvider store).mapError .ops
  let trustedRootUserId ← rootUserId provider store trustedRoot
  .ok ⟨store, trustedRoot, trustedRootUserId, hex (provider.revisionHash vaultBytes).bytes⟩

/-! ### The managed identity -/

inductive IdentityOutcome where
  | ready (identity : ManagedIdentity)
  | recoveryRequired
  | unavailable

def identityKey : String := "master-seed"

/-- The identity of a Secret that was found, if it is the one the status names. -/
def identityOfSecret (vault : ThoraxVault) (secret : Secret) : IdentityOutcome :=
  if (secret.metadata.ownerReferences.any (isControlledBy · vault.uid)) = false ∨
      secret.immutable ≠ some true ∨ secret.type ≠ some "Opaque" then .unavailable
  else
    match secret.data.bind (·[identityKey]?) with
    | none => .recoveryRequired
    | some seed =>
      match provider.identityFromMasterSeed seed with
      | none => .recoveryRequired
      | some keys =>
        let identity : ManagedIdentity := ⟨seed, keys⟩
        let userId := hex (identity.userId provider.toStoreProvider).hash.bytes
        if (vault.status.bind (·.identityUserId)).any (· ≠ userId) then .recoveryRequired
        else .ready identity

def identitySecret (vault : ThoraxVault) (masterSeed : Bytes) : Secret where
  metadata :=
    { ownerReferences := some [ownerReference vault.uid]
      labels := some ((∅ : BTreeMap String String).insert "thorax.backbone.dev/component" "identity")
      annotations := none }
  type := some "Opaque"
  immutable := some true
  data := some ((∅ : BTreeMap String Bytes).insert identityKey masterSeed)

def loadOrCreateIdentity (vault : ThoraxVault) (random : Randomness) :
    Controller IdentityOutcome := do
  let name := vault.spec.managedSecretName
  match ← Controller.request (.getSecretMetadata name) with
  | some metadata =>
    if metadata.value.ownerReferences.any (isControlledBy · vault.uid) then
      let secret ← Controller.request (.getSecret name)
      pure (identityOfSecret provider vault secret.value)
    else pure .unavailable
  | none =>
    if (vault.status.bind (·.identityUserId)).isSome then pure .recoveryRequired
    else
      let secret := identitySecret vault random.masterSeed
      match ← Program.ask (.writeSecret name (.create secret)) with
      | .ok _ => pure (.ready ⟨random.masterSeed, random.keys⟩)
      -- a create race has no trustworthy provenance: reconcile again
      | .error .conflict => pure .unavailable
      | .error error => .fail (.kube error)

/-! ### Join requests -/

def requestSuffix (identity : ManagedIdentity) : String :=
  shortHex (identity.userId provider.toStoreProvider).hash.bytes

def enrollRequestName (vault : ThoraxVault) (identity : ManagedIdentity) : String :=
  boundedName vault.name (requestSuffix provider identity)

def validateExistingRequest (vault : ThoraxVault) (identity : ManagedIdentity)
    (purpose : JoinPurpose) (trustedRoot : HashValue) (existing : ThoraxJoinRequest) :
    Except ControllerError ThoraxJoinRequest := do
  let candidate ← (provider.requestCandidate existing.spec vault.objectNamespace vault.uid).mapError .api
  (provider.validateJoinCandidate candidate).mapError .ops
  if candidate.purpose ≠ purpose ∨ candidate.userId ≠ identity.userId provider.toStoreProvider ∨
      candidate.trustedRoot ≠ trustedRoot then
    .error (.invalid "existing join request does not match managed identity and purpose")
  else .ok existing

/-- The first, by name, of the open requests to restore the trust of an identity. -/
def existingRestoreRequest (vault : ThoraxVault) (identity : ManagedIdentity)
    (requests : List ThoraxJoinRequest) : Option ThoraxJoinRequest :=
  firstBy (fun a b : ThoraxJoinRequest => compare a.name b.name) (fun request =>
    request.spec.vaultRef = vault.name && request.spec.purpose = .restoreTrust &&
      request.spec.userId = hex (identity.userId provider.toStoreProvider).hash.bytes) requests

def adoptRequest (vault : ThoraxVault) (source : Source) (identity : ManagedIdentity)
    (purpose : JoinPurpose) (foreign : String) (existing : ThoraxJoinRequest) :
    Except ControllerError ThoraxJoinRequest :=
  if isControlledBy existing.ownerReferences vault.uid then
    validateExistingRequest provider vault identity purpose source.trustedRoot existing
  else .error (.invalid foreign)

def createJoinRequest (vault : ThoraxVault) (source : Source) (identity : ManagedIdentity)
    (purpose : JoinPurpose) (random : Randomness) : Controller ThoraxJoinRequest := do
  let name := match purpose with
    | .enroll => enrollRequestName provider vault identity
    | .restoreTrust => boundedName vault.name
        (requestSuffix provider identity ++ "-restore-" ++ shortHex random.requestId)
  let spec ← .lift (provider.createJoinRequestSpec ⟨identity, purpose, random.requestId,
    source.trustedRoot, source.trustedRootUserId, vault.name, vault.uid⟩)
  Controller.request (.createRequest name (ownerReference vault.uid) spec)

def ensureJoinRequest (vault : ThoraxVault) (source : Source) (identity : ManagedIdentity)
    (purpose : JoinPurpose) (random : Randomness) : Controller ThoraxJoinRequest := do
  match purpose with
  | .enroll =>
    match ← Controller.request (.getRequest (enrollRequestName provider vault identity)) with
    | some existing => .lift (adoptRequest provider vault source identity purpose
        "existing join request is not owned by this vault" existing)
    | none => createJoinRequest provider vault source identity purpose random
  | .restoreTrust =>
    let requests ← Controller.request .listRequests
    match existingRestoreRequest provider vault identity requests with
    | some existing => .lift (adoptRequest provider vault source identity purpose
        "existing trust-restoration request is not owned by this vault" existing)
    | none => createJoinRequest provider vault source identity purpose random

/-! ### Persisting what was verified -/

/-- A status for a source and an identity. -/
def setSourceStatus (vault : ThoraxVault) (source : Source) (identity : ManagedIdentity)
    (condition : Condition) (extraConditions : List Condition) : Controller Unit :=
  setVaultStatusWithExtra vault (some (hex source.trustedRoot.bytes)) (some source.revision)
    (some (hex (identity.userId provider.toStoreProvider).hash.bytes)) condition extraConditions

def reportUnverified (vault : ThoraxVault) (source : Source) (identity : ManagedIdentity)
    (report : ValidationReport) : Controller ℕ := do
  setSourceStatus provider vault source identity
    (if reportHasRollback report then
      notReady "RollbackSuspected" "vault is below the persisted rollback watermark"
    else notReady "VaultUnverified" "vault verification failed") []
  pure 30

/-- Whether the identity is effective in the vault. -/
def isMember (report : ValidationReport) (userId : UserId) : Bool :=
  report.effective.users.contains userId && report.effective.entryPoints.contains userId

def reportRaced (vault : ThoraxVault) (source : Source) (identity : ManagedIdentity) :
    Controller ℕ := do
  setSourceStatus provider vault source identity (notReady "TrustStateUnavailable"
    "rollback state changed concurrently; revalidation is required") []
  pure 1

def steadyStateRequeue : ℕ := 30

def replacementIsOutstanding (vault : ThoraxVault) (identity : ManagedIdentity)
    (effective : EffectiveState) : Controller Bool := do
  match ← Controller.request (.getApproval (enrollRequestName provider vault identity)) with
  | none => pure false
  | some object =>
    let approval ← .lift ((provider.approvalOf object.spec).mapError .api)
    pure (approval.replacesUserId.any effective.users.contains)

def finishVerifiedVault (vault : ThoraxVault) (source : Source) (credential : RatchetCredential)
    (ratchet : Ratchet) (expectedRevision : Option ℕ) : Controller ℕ := do
  let identity := credential.identity
  let userId := identity.userId provider.toStoreProvider
  let report := validateVault provider.toCryptoProvider source.store ratchet
  if report.issues ≠ [] ∨ reportHasRollback report = true then
    reportUnverified provider vault source identity report
  else if isMember report userId = false then
    setSourceStatus provider vault source identity
      (notReady "IdentityRevoked" "managed identity is not an effective vault member") []
    pure 30
  else
    let raised := ratchet.applyUpdate report.ratchetUpdate
    match ← Controller.backend (compareAndSwap provider.toStoreProvider provider.toManagedCrypto
        credential source.trustedRoot userId expectedRevision raised) with
    | .conflict => reportRaced provider vault source identity
    | .stored _ _ =>
      let outstanding ← replacementIsOutstanding provider vault identity report.effective
      setSourceStatus provider vault source identity
        (verified "vault and rollback state are verified")
        (if outstanding then [oldIdentityOutstanding] else [])
      pure steadyStateRequeue

/-! ### Enrollment and restoration -/

/-- An approval that was found and read: the objects, and what they say. -/
structure Approved where
  request : ThoraxJoinRequest
  object : ThoraxJoinApproval
  purpose : JoinPurpose
  candidate : JoinCandidateV1
  approval : JoinApprovalV1

/-- The approval of a request, if it is bound to it and for the purpose at hand. -/
def readApproval (vault : ThoraxVault) (purpose : JoinPurpose) (request : ThoraxJoinRequest)
    (object : ThoraxJoinApproval) : Except ControllerError Approved := do
  if isControlledBy object.ownerReferences vault.uid = false ∨
      object.spec.requestRef ≠ ⟨request.name, request.uid⟩ then
    .error (.invalid "join approval is not bound to this request generation and vault")
  else
    let candidate ← (provider.requestCandidate request.spec vault.objectNamespace vault.uid).mapError .api
    let approval ← (provider.approvalOf object.spec).mapError .api
    (provider.validateJoinCandidate candidate).mapError .ops
    (provider.validateApprovalBindings candidate approval).mapError .ops
    if candidate.purpose ≠ purpose ∨ approval.purpose ≠ purpose then
      .error (.invalid "join artifacts have the wrong enrollment purpose")
    else .ok ⟨request, object, purpose, candidate, approval⟩

/-- An approval to restore trust is used once. -/
def consumeApproval (approved : Approved) : Controller Unit := do
  match approved.purpose with
  | .enroll => pure ()
  | .restoreTrust =>
    Controller.request (.deleteApproval approved.request.name approved.object.uid)
    Controller.request (.deleteRequest approved.request.name approved.request.uid)

/-- Start a ratchet from the baseline of an approval. -/
def establishTrust (vault : ThoraxVault) (source : Source) (credential : RatchetCredential)
    (approved : Approved) (baseline : List RatchetRecordV1) (previousRevision : Option ℕ) :
    Controller ℕ := do
  let identity := credential.identity
  let userId := identity.userId provider.toStoreProvider
  let ratchet := ratchetFromBaseline source.trustedRoot baseline
  let report := validateVault provider.toCryptoProvider source.store ratchet
  if report.issues ≠ [] ∨ reportHasRollback report = true then
    reportUnverified provider vault source identity report
  else if isMember report approved.candidate.userId = false then
    match approved.purpose with
    | .enroll => do
      setSourceStatus provider vault source identity (notReady "PendingVaultPublication"
        "approval exists but matching vault membership has not arrived") []
      pure 15
    | .restoreTrust => do
      setSourceStatus provider vault source identity (notReady "EnrollmentMismatch"
        "RestoreTrust identity is not an effective member of this vault") []
      pure 300
  else
    .lift (validateApprovingAdmin report.effective approved.approval)
    .lift (if approved.purpose = .enroll then
      validateApprovedGrants report.effective approved.approval else .ok ())
    let raised := ratchet.applyUpdate report.ratchetUpdate
    let _ ← Program.ask (.mark (.basedOn approved.object))
    match ← Controller.backend (compareAndSwap provider.toStoreProvider provider.toManagedCrypto
        credential source.trustedRoot userId previousRevision raised) with
    | .conflict => reportRaced provider vault source identity
    | .stored _ _ =>
      consumeApproval approved
      setSourceStatus provider vault source identity (verified "vault and enrollment are verified")
        (if approved.approval.replacesUserId.any report.effective.users.contains then
          [oldIdentityOutstanding] else [])
      pure steadyStateRequeue

/-- What a load of the ratchet has come to, when there is no ratchet to go on from. -/
inductive Missing where
  | absent
  | tampered
  deriving DecidableEq

def awaitApproval (purpose : JoinPurpose) (missing : Missing) : Condition :=
  match purpose, missing with
  | .restoreTrust, .tampered => notReady "TrustStateTampered"
      "rollback state failed authentication; RestoreTrust approval is required"
  | .restoreTrust, .absent => notReady "RecoveryRequired"
      "rollback state is unavailable; RestoreTrust approval is required"
  | .enroll, _ => notReady "PendingApproval" "join request awaits approval"

/-- The revision a new ratchet is to replace: none, or that of the Secret that failed its check. -/
def previousRevision (credential : RatchetCredential) (source : Source) :
    Missing → Controller (Option ℕ)
  | .absent => pure none
  | .tampered =>
    Controller.backend (getRevision provider.toStoreProvider credential source.trustedRoot)

def requestTrust (vault : ThoraxVault) (source : Source) (credential : RatchetCredential)
    (missing : Missing) (random : Randomness) : Controller ℕ := do
  let identity := credential.identity
  let purpose := if trustWasEstablished vault then JoinPurpose.restoreTrust else .enroll
  let request ← ensureJoinRequest provider vault source identity purpose random
  match ← Controller.request (.getApproval request.name) with
  | none =>
    setSourceStatus provider vault source identity (awaitApproval purpose missing) []
    pure 30
  | some object =>
    let approved ← .lift (readApproval provider vault purpose request object)
    let baseline ← .lift ((provider.openJoinBaseline identity approved.candidate
      approved.approval).mapError .ops)
    let revision ← previousRevision provider credential source missing
    establishTrust provider vault source credential approved baseline revision

/-! ### One reconciliation -/

def reconcileTrust (vault : ThoraxVault) (source : Source) (identity : ManagedIdentity)
    (random : Randomness) : Controller ℕ := do
  let credential : RatchetCredential := ⟨identity, [ownerReference vault.uid]⟩
  let loaded ← (loadSnapshot provider.toStoreProvider provider.toManagedCrypto credential
    source.trustedRoot (identity.userId provider.toStoreProvider)).attempt
  match loaded with
  | .ok (some (ratchet, revision)) =>
    finishVerifiedVault provider vault source credential ratchet (some revision)
  | .error (.kube _) =>
    setSourceStatus provider vault source identity (notReady "TrustStateUnavailable"
      "rollback state could not be loaded or persisted") []
    pure 15
  | .ok none => requestTrust provider vault source credential .absent random
  | .error _ =>
    if trustWasEstablished vault then
      requestTrust provider vault source credential .tampered random
    else
      setSourceStatus provider vault source identity (notReady "TrustStateTampered"
        "rollback state failed authentication or scope validation") []
      pure 300

def reconcileIdentity (vault : ThoraxVault) (source : Source) (random : Randomness) :
    Controller ℕ := do
  match ← loadOrCreateIdentity provider vault random with
  | .ready identity => reconcileTrust provider vault source identity random
  | .recoveryRequired =>
    setVaultStatus vault (some (hex source.trustedRoot.bytes)) (some source.revision)
      (vault.status.bind (·.identityUserId))
      (notReady "RecoveryRequired" "previously enrolled identity Secret is absent")
    pure 300
  | .unavailable =>
    setVaultStatus vault (some (hex source.trustedRoot.bytes)) (some source.revision) none
      (notReady "IdentityUnavailable"
        "managed identity destination is invalid or owned by another object")
    pure 300

/-- A source that cannot be read is reported without a revision. -/
def reportSource (vault : ThoraxVault) (reason message : String) (delay : ℕ) : Controller ℕ := do
  setVaultStatus vault none none none (notReady reason message)
  pure delay

def reconcileVaultInner (vault : ThoraxVault) (random : Randomness) : Controller ℕ := do
  .lift (vault.spec.validate.mapError .api)
  match ← Controller.request (.getConfigMap vault.spec.configMapRef.name) with
  | none => reportSource vault "SourceUnavailable" "source ConfigMap is absent" 30
  | some configMap =>
    match configMapBytes configMap vault.spec.configMapRef.key with
    | none =>
      reportSource vault "SourceUnavailable" "source ConfigMap key is absent or ambiguous" 30
    | some vaultBytes =>
      if maxVaultConfigMapBytes < vaultBytes.length then
        reportSource vault "SourceTooLarge" "source vault exceeds the 1 MiB controller limit" 300
      else
        let source ← .lift (readSource provider vaultBytes)
        reconcileIdentity provider vault source random

def ControllerError.reason : ControllerError → String
  | .kube _ => "ReconcileUnavailable"
  | .ratchet (.kube _) => "TrustStateUnavailable"
  | .ratchet _ => "TrustStateTampered"
  | .api _ => "InvalidSpec"
  | .ops _ | .invalid _ => "EnrollmentMismatch"
  | .core _ | .runtime => "VaultUnverified"

def reconcileVault (vault : ThoraxVault) (random : Randomness) : Controller ℕ := do
  match ← (reconcileVaultInner provider vault random).attempt with
  | .ok delay => pure delay
  | .error error =>
    setVaultStatus vault (vault.status.bind (·.trustedRoot)) (vault.status.bind (·.vaultRevision))
      (vault.status.bind (·.identityUserId)) (notReady error.reason
        "vault could not be verified; dependent projections are unavailable")
    pure 30

end Reconciliation

end Thorax.Kubernetes
