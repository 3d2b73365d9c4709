import Thorax.Kubernetes.Objects
import Thorax.Ops.Session

/-!
# The ratchet in a Secret

The rollback state of one identity for one root, kept in a Secret under a MAC that only the
identity can compute. A compare-and-swap reads the version first, compares it with the version the
caller has loaded and then writes under that version.
-/

namespace Thorax.Kubernetes

open Collections Remote Versioned

inductive ApiError where
  | invalidObjectName (field : String)
  | emptyData
  | invalidDataKey (key : String)
  | emptySelector (key : String)
  | invalidSelector (key reason : String)
  | reservedMetadata (key : String)
  | serviceAccountAnnotationKey (key : String)
  | forbiddenSecretType (secretType : String)
  | missingTypedKey (secretType key : String)
  | invalidArtifact (detail : String)
  | limitExceeded (field : String) (max : ℕ)
  | other (detail : String)
  deriving DecidableEq

inductive RatchetStateError where
  | kube (source : KubeError)
  | missingKey (key : String)
  | scopeMismatch
  | store (source : StoreError)
  | authentication
  | invalidShape
  deriving DecidableEq

/-- An identity that the controller manages: its seed and the keys derived from it. -/
structure ManagedIdentity where
  masterSeed : Bytes
  keys : Identity

/-- The cryptography of managed identities. What a MAC was computed for, it verifies for. -/
structure ManagedCrypto where
  ratchetMac : Bytes → HashValue → UserId → Bytes → Option Bytes
  verifyRatchetMac : Bytes → HashValue → UserId → Bytes → Bytes → Bool
  verify_ratchetMac : ∀ {seed root user bytes mac}, ratchetMac seed root user bytes = some mac →
    verifyRatchetMac seed root user bytes mac = true

def hexDigit (digit : ℕ) : Char :=
  if digit < 10 then Char.ofNat ('0'.toNat + digit) else Char.ofNat ('a'.toNat + (digit - 10))

def hex (bytes : Bytes) : String :=
  String.ofList (bytes.flatMap fun byte => [hexDigit (byte.toNat / 16), hexDigit (byte.toNat % 16)])

def shortHex (bytes : Bytes) : String := hex (bytes.take 8)

def ratchetSecretName (trustedRoot : HashValue) (userId : UserId) : String :=
  "thorax-ratchet-" ++ shortHex trustedRoot.bytes ++ "-" ++ shortHex userId.hash.bytes

def ratchetKey : String := "ratchet.cord"
def macKey : String := "ratchet.mac"
def rootKey : String := "trusted-root"
def userKey : String := "user-id"

/-- The Secret must be controlled by one of the expected owners and labelled as a ratchet. -/
def validateMetadata (metadata : ObjectMeta) (expectedOwnerReferences : List OwnerReference) :
    Except RatchetStateError Unit :=
  let expectedUids :=
    (expectedOwnerReferences.filter (·.controller = some true)).map OwnerReference.uid
  let owned := metadata.ownerReferences.any fun owners =>
    owners.any fun owner => owner.controller = some true && owner.uid ∈ expectedUids
  let labeled := metadata.labels.any fun labels =>
    labels["thorax.backbone.dev/component"]? = some "ratchet"
  if !owned || !labeled then .error .invalidShape else .ok ()

section Encodings

variable (provider : StoreProvider) (managed : ManagedCrypto)

def ManagedIdentity.userId (identity : ManagedIdentity) : UserId :=
  identity.keys.userId provider.toCryptoProvider

/-- The data of a ratchet Secret. -/
def ratchetData (ratchetBytes mac root user : Bytes) : BTreeMap String Bytes :=
  ((((∅ : BTreeMap String Bytes).insert ratchetKey ratchetBytes).insert macKey mac).insert
    rootKey root).insert userKey user

def ratchetLabels : BTreeMap String String :=
  ((∅ : BTreeMap String String).insert "app.kubernetes.io/managed-by"
    "thorax-kubernetes-controller").insert "thorax.backbone.dev/component" "ratchet"

def encodeSecret (identity : ManagedIdentity) (ratchet : Ratchet) :
    Except RatchetStateError Secret :=
  match encodeRatchet provider ratchet with
  | .error source => .error (.store source)
  | .ok ratchetBytes =>
    let userId := identity.userId provider
    match managed.ratchetMac identity.masterSeed ratchet.trustedRoot userId ratchetBytes with
    | none => .error .authentication
    | some mac => .ok
        { metadata := ⟨none, some ratchetLabels, none⟩
          type := some "Opaque"
          immutable := none
          data := some (ratchetData ratchetBytes mac ratchet.trustedRoot.bytes userId.hash.bytes) }

/-- The value of a key that must be there. -/
def requiredData (data : BTreeMap String Bytes) (key : String) : Except RatchetStateError Bytes :=
  match data[key]? with
  | some value => .ok value
  | none => .error (.missingKey key)

def decodeSecret (secret : Secret) (identity : ManagedIdentity) (trustedRoot : HashValue) :
    Except RatchetStateError Ratchet := do
  let data ← match secret.data with
    | some data => .ok data
    | none => .error (.missingKey ratchetKey)
  let ratchetBytes ← requiredData data ratchetKey
  let mac ← requiredData data macKey
  let root ← requiredData data rootKey
  let user ← requiredData data userKey
  let userId := identity.userId provider
  if root ≠ trustedRoot.bytes ∨ user ≠ userId.hash.bytes then .error .scopeMismatch
  else if managed.verifyRatchetMac identity.masterSeed trustedRoot userId ratchetBytes mac = false then
    .error .authentication
  else
    let ratchet ← (decodeRatchet provider .kubernetesSecret ratchetBytes).mapError .store
    if ratchet.trustedRoot ≠ trustedRoot then .error .scopeMismatch else .ok ratchet

end Encodings

/-! ### The backend -/

/-- Programs of the backend. -/
abbrev Backend (α : Type) := Program Op Op.Reply RatchetStateError α

/-- A call whose failure ends the program. -/
def Backend.request (op : Op) : Backend op.Answer := do
  .lift ((← Program.ask op).mapError .kube)

structure RatchetCredential where
  identity : ManagedIdentity
  ownerReferences : List OwnerReference

section Backend

variable (provider : StoreProvider) (managed : ManagedCrypto) (credential : RatchetCredential)
  (trustedRoot : HashValue)

def RatchetCredential.secretName : String :=
  ratchetSecretName trustedRoot (credential.identity.userId provider)

/-- What of a Secret that was read must hold before its content is looked at. -/
def validateSecret (secret : Secret) : Except RatchetStateError Unit := do
  validateMetadata secret.metadata credential.ownerReferences
  if secret.type ≠ some "Opaque" ∨ secret.immutable = some true then .error .invalidShape else .ok ()

def loadRatchet : Backend (Option (Ratchet × ℕ)) := do
  let name := credential.secretName provider trustedRoot
  match ← Backend.request (.getSecretMetadata name) with
  | none => pure none
  | some metadata =>
    .lift (validateMetadata metadata.value credential.ownerReferences)
    let secret ← Backend.request (.getSecret name)
    .lift (validateSecret credential secret.value)
    let ratchet ← .lift (decodeSecret provider managed secret.value credential.identity trustedRoot)
    pure (some (ratchet, secret.version))

/-- A load on behalf of a user, who must be the one of the credential. -/
def loadSnapshot (userId : UserId) : Backend (Option (Ratchet × ℕ)) := do
  if credential.identity.userId provider ≠ userId then .fail .scopeMismatch
  else loadRatchet provider managed credential trustedRoot

def getRevision : Backend (Option ℕ) := do
  match ← Backend.request (.getSecretMetadata (credential.secretName provider trustedRoot)) with
  | none => pure none
  | some metadata =>
    .lift (validateMetadata metadata.value credential.ownerReferences)
    pure (some metadata.version)

/-- The Secret that a save writes. -/
def savedSecret (ratchet : Ratchet) : Except RatchetStateError Secret :=
  (encodeSecret provider managed credential.identity ratchet).map fun secret =>
    { secret with metadata :=
      { secret.metadata with ownerReferences := some credential.ownerReferences } }

def saveRatchet (ratchet : Ratchet) (previousRevision : Option ℕ) : Backend ℕ := do
  let name := credential.secretName provider ratchet.trustedRoot
  let secret ← .lift (savedSecret provider managed credential ratchet)
  match previousRevision with
  | some version => Backend.request (.writeSecret name (.replace version secret))
  | none => Backend.request (.writeSecret name (.create secret))

/-- The outcome is marked before it is handed to the caller. -/
def concludeSwap (outcome : RatchetCasOutcome) : Backend RatchetCasOutcome := do
  let _ ← Program.ask (.mark (.swapped outcome))
  pure outcome

def compareAndSwap (userId : UserId) (expectedRevision : Option ℕ) (ratchet : Ratchet) :
    Backend RatchetCasOutcome := do
  if credential.identity.userId provider ≠ userId ∨ ratchet.trustedRoot ≠ trustedRoot then
    .fail .scopeMismatch
  else
    let previousRevision ← getRevision provider credential trustedRoot
    if expectedRevision ≠ previousRevision then concludeSwap .conflict
    else
      match ← (saveRatchet provider managed credential ratchet previousRevision).attempt with
      | .ok revision => concludeSwap (.stored ratchet revision)
      | .error (.kube .conflict) => concludeSwap .conflict
      | .error error => .fail error

end Backend

/-! ### What is saved is read back -/

/-- What a Secret decodes to is a ratchet of the root asked for. -/
lemma decodeSecret_eq_ok {provider : StoreProvider} {managed : ManagedCrypto} {secret : Secret}
    {identity : ManagedIdentity} {trustedRoot : HashValue} {ratchet : Ratchet}
    (h : decodeSecret provider managed secret identity trustedRoot = .ok ratchet) :
    ∃ bytes, decodeRatchet provider .kubernetesSecret bytes = .ok ratchet ∧
      ratchet.trustedRoot = trustedRoot := by
  unfold decodeSecret at h
  cases hdata : secret.data with
  | none => simp [hdata, bind, Except.bind] at h
  | some data =>
    simp only [hdata] at h
    obtain ⟨_, -, h⟩ := Durable.bind_eq_ok.mp h
    obtain ⟨ratchetBytes, -, h⟩ := Durable.bind_eq_ok.mp h
    obtain ⟨mac, -, h⟩ := Durable.bind_eq_ok.mp h
    obtain ⟨root, -, h⟩ := Durable.bind_eq_ok.mp h
    obtain ⟨user, -, h⟩ := Durable.bind_eq_ok.mp h
    split_ifs at h
    obtain ⟨decoded, hdecoded, h⟩ := Durable.bind_eq_ok.mp h
    split_ifs at h with hroot
    obtain rfl := Except.ok.inj h
    exact ⟨ratchetBytes, Durable.mapError_eq_ok.mp hdecoded, not_not.mp hroot⟩

lemma getElem?_ratchetData (ratchetBytes mac root user : Bytes) :
    (ratchetData ratchetBytes mac root user)[ratchetKey]? = some ratchetBytes ∧
      (ratchetData ratchetBytes mac root user)[macKey]? = some mac ∧
      (ratchetData ratchetBytes mac root user)[rootKey]? = some root ∧
      (ratchetData ratchetBytes mac root user)[userKey]? = some user := by
  have hne : ratchetKey ≠ macKey ∧ ratchetKey ≠ rootKey ∧ ratchetKey ≠ userKey ∧
      macKey ≠ rootKey ∧ macKey ≠ userKey ∧ rootKey ≠ userKey := by decide
  simp only [ratchetData, Std.ExtTreeMap.getElem?_insert, Std.LawfulEqOrd.compare_eq_iff_eq]
  simp [hne, Ne.symm]

section Saved

variable {provider : StoreProvider} {managed : ManagedCrypto} {credential : RatchetCredential}
  {ratchet : Ratchet} {secret : Secret}

lemma decodeSecret_savedSecret (h : savedSecret provider managed credential ratchet = .ok secret) :
    ∃ stored, decodeSecret provider managed secret credential.identity ratchet.trustedRoot =
      .ok stored ∧ ratchet.StoredAs stored := by
  unfold savedSecret encodeSecret at h
  cases hbytes : encodeRatchet provider ratchet with
  | error source => simp [hbytes, Except.map] at h
  | ok bytes =>
    simp only [hbytes] at h
    cases hmac : managed.ratchetMac credential.identity.masterSeed ratchet.trustedRoot
        (credential.identity.userId provider) bytes with
    | none => simp [hmac, Except.map] at h
    | some mac =>
      simp only [hmac, Except.map, Except.ok.injEq] at h
      subst h
      obtain ⟨stored, hread, hstored⟩ := storedAs_of_encodeRatchet .kubernetesSecret hbytes
      obtain ⟨hratchet, hmacKey, hrootKey, huserKey⟩ := getElem?_ratchetData bytes mac
        ratchet.trustedRoot.bytes (credential.identity.userId provider).hash.bytes
      refine ⟨stored, ?_, hstored⟩
      simp [decodeSecret, requiredData, hratchet, hmacKey, hrootKey, huserKey, bind, Except.bind,
        managed.verify_ratchetMac hmac, hread, hstored.trustedRoot, Except.mapError]

/-- A saved Secret has the shape that a load asks for. -/
lemma validateSecret_savedSecret {uid : Uid}
    (howner : credential.ownerReferences = [⟨uid, some true⟩])
    (h : savedSecret provider managed credential ratchet = .ok secret) :
    validateSecret credential secret = .ok () := by
  unfold savedSecret encodeSecret at h
  cases hbytes : encodeRatchet provider ratchet with
  | error source => simp [hbytes, Except.map] at h
  | ok bytes =>
    simp only [hbytes] at h
    cases hmac : managed.ratchetMac credential.identity.masterSeed ratchet.trustedRoot
        (credential.identity.userId provider) bytes with
    | none => simp [hmac, Except.map] at h
    | some mac =>
      simp only [hmac, Except.map, Except.ok.injEq] at h
      subst h
      have hlabel : ratchetLabels["thorax.backbone.dev/component"]? = some "ratchet" := by
        simp [ratchetLabels]
      simp [validateSecret, validateMetadata, howner, hlabel, bind, Except.bind]

end Saved

end Thorax.Kubernetes
