import Thorax.Frontend.Selector
import Thorax.Kubernetes.Controller
import Thorax.Ops.SecretEdits

/-!
# Reconciling a projection

A projection copies secrets of a vault into a Secret of the cluster. A reconciliation looks at the
status of the vault, reads the source, the identity and the ratchet anew, opens the source in a
directory of its own with the ratchet it has read, and writes what it finds there.
-/

namespace Thorax.Kubernetes

open Collections Remote Versioned

inductive RuntimeVaultError where
  | ops (source : OpsError)
  | invalidSelector (selector message : String)
  | missingField (selector field : String)
  | notAuthorized
  | recipientUnavailable
  | conflicted
  | sourceMissing
  | allSourcesDeleted
  | sourcesPartiallyDeleted
  | invalidSource
  | projectionTooLarge
  deriving DecidableEq

/-- The content of a secret, and its named fields. -/
structure SecretPlaintext where
  plaintext : Bytes
  fields : BTreeMap String Bytes

/-! ### Specifications -/

def maxDataMappings : ℕ := 256

def maxMetadataEntries : ℕ := 64

def maxMetadataKeyBytes : ℕ := 253

def maxLabelValueBytes : ℕ := 63

def maxAnnotationValueBytes : ℕ := 4096

def maxSelectorBytes : ℕ := 1024

def maxFieldBytes : ℕ := 1024

def checkCount (field : String) (actual max : ℕ) : Except ApiError Unit :=
  if max < actual then .error (.limitExceeded field max) else .ok ()

def checkBytes (field value : String) (max : ℕ) : Except ApiError Unit :=
  checkCount field value.utf8ByteSize max

def startsWith (pre value : String) : Bool := pre.toList.isPrefixOf value.toList

/-- The keys that a Secret of a type must have. -/
def requiredKeys (secretType : String) : List String :=
  if secretType = "kubernetes.io/basic-auth" then ["username", "password"]
  else if secretType = "kubernetes.io/tls" then ["tls.crt", "tls.key"]
  else if secretType = "kubernetes.io/dockerconfigjson" then [".dockerconfigjson"]
  else if secretType = "kubernetes.io/ssh-auth" then ["ssh-privatekey"]
  else []

def validateSecretType (secretType : String) (data : BTreeMap String SecretMapping) :
    Except ApiError Unit :=
  if secretType = "kubernetes.io/service-account-token" ∨
      secretType = "bootstrap.kubernetes.io/token" then .error (.forbiddenSecretType secretType)
  else (requiredKeys secretType).forM fun key =>
    if data.contains key then .ok () else .error (.missingTypedKey secretType key)

def validateMetadataKey (key : String) : Except ApiError Unit := do
  checkBytes "template.metadata.key" key maxMetadataKeyBytes
  if startsWith "thorax.backbone.dev/" key then .error (.reservedMetadata key) else .ok ()

section Specifications

variable (parse : String → Except String SecretSelectorV1)

def validateMapping (entry : String × SecretMapping) : Except ApiError Unit := do
  if isSecretDataKey entry.1 = false then .error (.invalidDataKey entry.1)
  else if entry.2.selector = "" then .error (.emptySelector entry.1)
  else
    checkBytes "data.selector" entry.2.selector maxSelectorBytes
    match entry.2.field with
    | some field => checkBytes "data.field" field maxFieldBytes
    | none => .ok ()
    let _ ← (parse entry.2.selector).mapError (.invalidSelector entry.1)
    .ok ()

def ThoraxSecretSpec.validate (spec : ThoraxSecretSpec) : Except ApiError Unit := do
  validateObjectName "vaultRef.name" spec.vaultRef
  if spec.data.isEmpty then .error .emptyData
  else
    let labels := spec.template.labels
    let annotations := spec.template.annotations
    checkCount "data" spec.data.size maxDataMappings
    checkCount "template.metadata.labels" labels.size maxMetadataEntries
    checkCount "template.metadata.annotations" annotations.size maxMetadataEntries
    checkBytes "template.type" spec.template.secretType 253
    spec.data.toList.forM (validateMapping parse)
    (labels.keys ++ annotations.keys).forM validateMetadataKey
    (Collections.values labels).forM
      (checkBytes "template.metadata.labels.value" · maxLabelValueBytes)
    (Collections.values annotations).forM
      (checkBytes "template.metadata.annotations.value" · maxAnnotationValueBytes)
    annotations.keys.forM fun key =>
      if startsWith "kubernetes.io/service-account." key then .error (.serviceAccountAnnotationKey key)
      else .ok ()
    validateSecretType spec.template.secretType spec.data

end Specifications

/-! ### Providers -/

structure ProjectionProvider extends ControllerProvider where
  validateSecretSpec : ThoraxSecretSpec → Except ApiError Unit
  parseSecretSelector : String → Except String SecretSelectorV1
  decryptSecretRecord : Identity → ActiveSecretV1 → HashValue → Except OpsError SecretPlaintext

/-- The selectors of the frontends, with their errors as texts. -/
def readSelector (describe : FrontendError → String) (value : String) :
    Except String SecretSelectorV1 := (Thorax.parseSecretSelector value).mapError describe

/-- An identity with what its keys unwrap. -/
def Identity.unlocked (crypto : CryptoProvider)
    (unwrap : Identity → Bytes → Bytes → Bytes → Bytes → Except CryptoError Bytes)
    (self : Identity) : UnlockedIdentity where
  userId := self.userId crypto
  signingPublicKey := self.signingPublicKey
  hpkePublicKey := self.hpkePublicKey
  sign := self.signCache
  unwrapContentKey := unwrap self

/-- The first entry of a key counts. -/
def fieldsByKey (entries : List SecretFieldEntryV1) : BTreeMap String Bytes :=
  entries.foldr (fun entry fields => fields.insert entry.key entry.value) ∅

/-- Projections read selectors as the frontends do and open secrets as the sessions do. -/
def sourceProvider (controller : ControllerProvider) (sealing : SealProvider)
    (describe : FrontendError → String)
    (unwrap : Identity → Bytes → Bytes → Bytes → Bytes → Except CryptoError Bytes) :
    ProjectionProvider where
  toControllerProvider := controller
  validateSecretSpec := ThoraxSecretSpec.validate (readSelector describe)
  parseSecretSelector := readSelector describe
  decryptSecretRecord identity active trustedRoot := do
    let opened ← Thorax.decryptSecretRecord sealing (Identity.unlocked controller.toCryptoProvider
      unwrap identity) active.signed active.value trustedRoot
    .ok ⟨opened.plaintext, fieldsByKey opened.fields⟩

/-! ### The runtime vault -/

/-- A directory that nothing has been written to. -/
def emptyDisk : Disk := ⟨fun _ => none, fun _ => ⟨none, none, none, fun _ => none, none⟩⟩

def runtimePaths : WorkspacePaths := ⟨.unix (asciiBytes ".thorax/vault.cord")⟩

section Runtime

variable (provider : StoreProvider)

/-- Write both files into an empty directory, load a session from them and bind the identity. -/
def loadRuntime (vaultBytes : Bytes) (ratchet : Ratchet) (identity : Identity) :
    Durable.Program Disk OpsError LockedSession := do
  liftStore (writeRatchetAtomic provider ratchet)
  liftStore (writeVaultBytesAtomic provider runtimePaths vaultBytes)
  let session ← load provider false runtimePaths
  let (_, session) ← (withIdentity provider identity).carry session
  pure session

def RuntimeVault.load (vaultBytes : Bytes) (ratchet : Ratchet) (identity : Identity) :
    Except OpsError LockedSession :=
  (loadRuntime provider vaultBytes ratchet identity emptyDisk).result

end Runtime

inductive ProjectionSourceState where
  | active
  | deleted
  | missing
  | notAuthorized
  | recipientUnavailable
  | conflicted
  | invalid
  deriving DecidableEq

section Projections

variable (provider : ProjectionProvider) (session : LockedSession) (identity : Identity)

def parseSelector (selector : String) : Except RuntimeVaultError SecretSelectorV1 :=
  (provider.parseSecretSelector selector).mapError (.invalidSelector selector)

def sourceState (selector : String) : Except RuntimeVaultError ProjectionSourceState := do
  let parsed ← parseSelector provider selector
  let effective := session.report.effective
  let userId := identity.userId provider.toCryptoProvider
  if (effective.authorityForUser userId).canRead parsed = false then .ok .notAuthorized
  else
    .ok (match effective.classifySecretForUser provider.toCryptoProvider parsed userId with
      | .activeDecryptable => .active
      | .notEncryptedForReader => .recipientUnavailable
      | .unauthorized => .notAuthorized
      | .missing =>
        if effective.secretIsDeleted provider.toCryptoProvider parsed then .deleted else .missing
      | .conflicted => .conflicted
      | .invalid => .invalid)

/-- A secret is read only where it is active for the reader. -/
def getSecret (selector : SecretSelectorV1) : Except OpsError SecretPlaintext := do
  let effective := session.report.effective
  match effective.classifySecretForUser provider.toCryptoProvider selector
      (identity.userId provider.toCryptoProvider) with
  | .missing => .error .secretMissing
  | .conflicted => .error .secretConflicted
  | .activeDecryptable =>
    match effective.secretRecord provider.toCryptoProvider selector,
        effective.rootSigningPublicKeyHash with
    | some active, some trustedRoot => provider.decryptSecretRecord identity active trustedRoot
    | none, _ => .error .secretMissing
    | some _, none => .error .missingEffectiveRoot
  | _ => .error .secretNotDecryptable

def value (mapping : SecretMapping) : Except RuntimeVaultError Bytes := do
  let parsed ← parseSelector provider mapping.selector
  let opened ← (getSecret provider session identity parsed).mapError .ops
  match mapping.field with
  | none => .ok opened.plaintext
  | some field =>
    match opened.fields[field]? with
    | some value => .ok value
    | none => .error (.missingField mapping.selector field)

def ProjectionSourceState.check : ProjectionSourceState → Except RuntimeVaultError Unit
  | .active | .deleted => .ok ()
  | .missing => .error .sourceMissing
  | .notAuthorized => .error .notAuthorized
  | .recipientUnavailable => .error .recipientUnavailable
  | .conflicted => .error .conflicted
  | .invalid => .error .invalidSource

def maxProjectedSecretBytes : ℕ := 1024 * 1024

/-- One mapping more, unless the data grow too large. -/
def addProjected (projected : BTreeMap String Bytes × ℕ) (entry : String × SecretMapping) :
    Except RuntimeVaultError (BTreeMap String Bytes × ℕ) := do
  let bytes ← value provider session identity entry.2
  let total := projected.2 + entry.1.utf8ByteSize + bytes.length
  if maxProjectedSecretBytes < total then .error .projectionTooLarge
  else .ok (projected.1.insert entry.1 bytes, total)

def projectData (spec : ThoraxSecretSpec) : Except RuntimeVaultError (BTreeMap String Bytes) := do
  let states ← spec.data.toList.mapM fun entry => sourceState provider session identity entry.2.selector
  let deleted := states.countP (· = .deleted)
  if deleted = states.length then .error .allSourcesDeleted
  else if 0 < deleted then .error .sourcesPartiallyDeleted
  else
    states.forM ProjectionSourceState.check
    let projected ← spec.data.toList.foldlM (addProjected provider session identity) (∅, 0)
    .ok projected.1

end Projections

/-! ### Statuses and destinations -/

def setSecretStatus (projection : ThoraxSecret) (revision : Option String) (condition : Condition) :
    Controller Unit :=
  let status : ThoraxSecretStatus := ⟨projection.generation, revision, [condition]⟩
  if projection.status = some status then pure ()
  else Controller.request (.patchSecretStatus projection.name status)

def ownsDestination (metadata : ObjectMeta) (uid : Uid) : Bool :=
  metadata.ownerReferences.any (isControlledBy · uid)

def deleteOwnedProjection (projection : ThoraxSecret) : Controller Unit := do
  match ← Controller.request (.getSecretMetadata projection.name) with
  | none => pure ()
  | some existing =>
    if ownsDestination existing.value projection.uid then
      Controller.request (.deleteSecret projection.name existing.version)
    else pure ()

def failProjection (projection : ThoraxSecret) (reason message : String) : Controller Unit := do
  if projection.spec.failurePolicy = .delete then
    deleteOwnedProjection projection
    setSecretStatus projection none (notReady reason message)
  else setSecretStatus projection none (notReady reason message)

def RuntimeVaultError.report : RuntimeVaultError → String × String
  | .sourcesPartiallyDeleted =>
    ("SourcePartiallyDeleted", "only some mapped sources were authentically deleted")
  | .notAuthorized => ("NotAuthorized", "a mapped source is outside the identity's read authority")
  | .recipientUnavailable =>
    ("RecipientUnavailable", "an authorized source is not encrypted to this identity")
  | .conflicted => ("Conflicted", "a mapped source has no verified winner")
  | .sourceMissing => ("SourceMissing", "a mapped source has no current value")
  | .missingField _ _ => ("SourceMissing", "a mapped field has no current value")
  | .projectionTooLarge => ("ProjectionTooLarge", "projected Secret data exceeds the 1 MiB limit")
  | .allSourcesDeleted | .invalidSource | .invalidSelector _ _ | .ops _ =>
    ("ProjectionFailed", "a mapped source could not be verified")

def handleProjectionSourceError (projection : ThoraxSecret) (error : RuntimeVaultError) :
    Controller Unit := do
  if error = .allSourcesDeleted then
    if projection.spec.sourceDeletionPolicy = .delete then
      deleteOwnedProjection projection
      setSecretStatus projection none
        (notReady "SourceDeleted" "all mapped sources were authentically deleted")
    else
      setSecretStatus projection none
        (notReady "SourceDeleted" "all mapped sources were authentically deleted")
  else failProjection projection error.report.1 error.report.2

/-- The Secret that a projection writes. -/
def projectedSecret (projection : ThoraxSecret) (data : BTreeMap String Bytes) (revision : String) :
    Secret where
  metadata :=
    { ownerReferences := some [ownerReference projection.uid]
      labels := some (projection.spec.template.labels.insert "thorax.backbone.dev/managed" "true")
      annotations := some (((projection.spec.template.annotations.insert
        "thorax.backbone.dev/vault" projection.spec.vaultRef).insert
        "thorax.backbone.dev/vault-revision" revision).insert
        "thorax.backbone.dev/observed-generation" (toString (projection.generation.getD 0))) }
  type := some projection.spec.template.secretType
  immutable := none
  data := some data

/-- Write the destination unless someone else owns it; the source of the data is marked. -/
def writeProjection (projection : ThoraxSecret) (vaultBytes : Bytes) (data : BTreeMap String Bytes)
    (revision : String) : Controller Bool := do
  let existing ← Controller.request (.getSecretMetadata projection.name)
  if existing.any (fun existing => !ownsDestination existing.value projection.uid) then
    setSecretStatus projection none (notReady "DestinationConflict"
      "destination Secret is not owned by this ThoraxSecret")
    pure false
  else
    let secret := projectedSecret projection data revision
    let _ ← Program.ask (.mark (.derivedFrom vaultBytes))
    let write := match existing with
      | some existing => Write.replace existing.version secret
      | none => .create secret
    match ← Program.ask (.writeSecret projection.name write) with
    | .ok _ => pure true
    | .error _ =>
      failProjection projection "ProjectionBlocked" (if existing.isSome then
        "owned destination Secret could not be updated"
        else "destination Secret could not be created")
      pure false

section Reconciliation

variable (provider : ProjectionProvider)

/-- What is read for a vault that says it is ready. -/
structure ReadyVault where
  vaultBytes : Bytes
  identity : ManagedIdentity
  ratchet : Ratchet
  revision : String

def readIdentity (vault : ThoraxVault) (secret : Secret) : Except ControllerError ManagedIdentity :=
  if (secret.metadata.ownerReferences.any (isControlledBy · vault.uid)) = false ∨
      secret.immutable ≠ some true ∨ secret.type ≠ some "Opaque" then
    .error (.invalid "identity Secret ownership or immutable shape is invalid")
  else
    match secret.data.bind (·[identityKey]?) with
    | none => .error (.invalid "identity Secret has no master seed")
    | some seed =>
      match provider.identityFromMasterSeed seed with
      | none => .error (.invalid "identity Secret has no usable master seed")
      | some keys => .ok ⟨seed, keys⟩

/-- The root of a source that could be decoded. -/
def sourceRoot (vaultBytes : Bytes) : Except ControllerError HashValue := do
  let store ← (decodeVault provider.toStoreProvider vaultBytes).mapError .core
  (trustedRootCandidate provider.toCryptoProvider store).mapError .ops

/-- An object that must be there. -/
def Controller.require {α : Type} (found : Option α) : Controller α :=
  .lift (match found with
    | some value => .ok value
    | none => .error (.kube .notFound))

def loadReadyVault (vault : ThoraxVault) : Controller ReadyVault := do
  let configMap ← Controller.request (.getConfigMap vault.spec.configMapRef.name)
  let configMap ← Controller.require configMap
  let vaultBytes ← .lift (match configMapBytes configMap vault.spec.configMapRef.key with
    | some bytes => .ok bytes
    | none => .error (.invalid "source ConfigMap key is absent"))
  let trustedRoot ← .lift (sourceRoot provider vaultBytes)
  let metadata ← Controller.request (.getSecretMetadata vault.spec.managedSecretName)
  let metadata ← Controller.require metadata
  if metadata.value.ownerReferences.any (isControlledBy · vault.uid) then
    let secret ← Controller.request (.getSecret vault.spec.managedSecretName)
    let identity ← .lift (readIdentity provider vault secret.value)
    let loaded ← Controller.backend (loadRatchet provider.toStoreProvider
      provider.toManagedCrypto ⟨identity, [ownerReference vault.uid]⟩ trustedRoot)
    match loaded with
    | none => .fail (.invalid "Ready vault has no ratchet state")
    | some (ratchet, _) =>
      pure ⟨vaultBytes, identity, ratchet, hex (provider.revisionHash vaultBytes).bytes⟩
  else .fail (.invalid "identity Secret is not owned by this vault")

def projectVault (projection : ThoraxSecret) (vault : ThoraxVault) : Controller ℕ := do
  let ready ← loadReadyVault provider vault
  let session ← .lift ((RuntimeVault.load provider.toStoreProvider ready.vaultBytes ready.ratchet
    ready.identity.keys).mapError fun _ => .runtime)
  match projectData provider session ready.identity.keys projection.spec with
  | .error error =>
    handleProjectionSourceError projection error
    pure 30
  | .ok data =>
    if ← writeProjection projection ready.vaultBytes data ready.revision then
      setSecretStatus projection (some ready.revision)
        ⟨"Ready", "True", "Projected", "all keys projected atomically"⟩
      pure steadyStateRequeue
    else pure 30

def reconcileSecretInner (projection : ThoraxSecret) : Controller ℕ := do
  .lift ((provider.validateSecretSpec projection.spec).mapError .api)
  match ← Controller.request (.getVault projection.spec.vaultRef) with
  | none =>
    failProjection projection "VaultNotReady" "referenced vault is absent"
    pure 30
  | some vault =>
    if isReady vault.status then projectVault provider projection vault
    else
      failProjection projection "VaultNotReady" "referenced vault is not Ready"
      pure 30

def reconcileSecret (projection : ThoraxSecret) : Controller ℕ := do
  match ← (reconcileSecretInner provider projection).attempt with
  | .ok delay => pure delay
  | .error _ =>
    failProjection projection "ProjectionFailed"
      "projection could not be derived from a verified source"
    pure 30

end Reconciliation

end Thorax.Kubernetes
