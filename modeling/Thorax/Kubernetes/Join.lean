import Thorax.Kubernetes.Projection
import Thorax.Library.Hex

/-!
# Join requests and approvals

An identity that is to join a vault is described by an artifact. The resource that carries the
artifact also spells out what is reviewed of it, and whoever reads the artifact from the resource
compares the two: what is spelled out is computed again from the artifact that was read.
-/

namespace Thorax.Kubernetes.Join

open Collections

/-! ### Artifacts -/

inductive JoinPurposeV1 where
  | enroll
  | restoreTrust
  deriving DecidableEq

structure DeploymentContextV1 where
  namespaceName : String
  vaultName : String
  vaultUid : String
  deriving DecidableEq

structure JoinCandidateV1 where
  purpose : JoinPurposeV1
  requestId : Bytes
  trustedRoot : HashValue
  trustedRootUserId : UserId
  deployment : DeploymentContextV1
  userId : UserId
  signingPublicKey : Bytes
  hpkePublicKey : Bytes
  suggestedSelectors : List SecretSelectorV1
  entryPoint : Option VaultRecordV1
  proof : Bytes
  deriving DecidableEq

inductive JoinCandidateStore where
  | v1 (candidate : JoinCandidateV1)
  deriving DecidableEq

structure EncryptedBaselineV1 where
  encapsulatedKey : Bytes
  ciphertext : Bytes
  deriving DecidableEq

structure JoinApprovalV1 where
  purpose : JoinPurposeV1
  requestId : Bytes
  trustedRoot : HashValue
  deployment : DeploymentContextV1
  userId : UserId
  approvedGrants : List GrantPermissionV1
  encryptedBaseline : EncryptedBaselineV1
  replacesUserId : Option UserId
  approvingAdmin : UserId
  approvingSigningPublicKey : Bytes
  signature : Bytes
  deriving DecidableEq

inductive JoinApprovalStore where
  | v1 (approval : JoinApprovalV1)
  deriving DecidableEq

/-- A serializer of one type, which reads what it has written. -/
structure Codec (α : Type) where
  serialize : α → Except CordError Bytes
  deserialize : Bytes → Except CordError α
  deserialize_serialize : ∀ {value bytes}, serialize value = .ok bytes →
    deserialize bytes = .ok value

/-- The encodings that are not the program's own. -/
structure Encodings where
  base64Encode : Bytes → String
  base64Decode : String → Except String Bytes
  base64Decode_base64Encode : ∀ bytes, base64Decode (base64Encode bytes) = .ok bytes
  candidates : Codec JoinCandidateStore
  approvals : Codec JoinApprovalStore
  records : Codec VaultRecordV1
  baselines : Codec EncryptedBaselineV1

def joinCandidateMagic : Bytes := "thorax-join-candidate\x00".toUTF8.toList

def joinApprovalMagic : Bytes := "thorax-join-approval\x00".toUTF8.toList

def maxJoinArtifactBytes : ℕ := 1024 * 1024

def errorText : CoreError → String
  | .validation detail => "validation failed: " ++ detail
  | .cord source => "cord error: " ++ source.text

def encodeArtifact {α : Type} (codec : Codec α) (valueMagic : Bytes) (value : α) :
    Except CoreError Bytes := do
  let payload ← (codec.serialize value).mapError .cord
  if maxJoinArtifactBytes < payload.length then
    .error (.validation "join artifact exceeds the 1 MiB limit")
  else .ok (valueMagic ++ payload)

def artifactPayload (valueMagic bytes : Bytes) : Except CoreError Bytes :=
  if maxJoinArtifactBytes + valueMagic.length < bytes.length then
    .error (.validation "join artifact exceeds the 1 MiB limit")
  else if valueMagic.isPrefixOf bytes then .ok (bytes.drop valueMagic.length)
  else .error (.validation "join artifact has an invalid magic prefix")

section Artifacts

variable (encodings : Encodings)

def encodeJoinCandidate (candidate : JoinCandidateV1) : Except CoreError Bytes :=
  encodeArtifact encodings.candidates joinCandidateMagic (.v1 candidate)

def decodeJoinCandidate (bytes : Bytes) : Except CoreError JoinCandidateV1 := do
  let payload ← artifactPayload joinCandidateMagic bytes
  let .v1 candidate ← (encodings.candidates.deserialize payload).mapError .cord
  .ok candidate

def encodeJoinApproval (approval : JoinApprovalV1) : Except CoreError Bytes :=
  encodeArtifact encodings.approvals joinApprovalMagic (.v1 approval)

def decodeJoinApproval (bytes : Bytes) : Except CoreError JoinApprovalV1 := do
  let payload ← artifactPayload joinApprovalMagic bytes
  let .v1 approval ← (encodings.approvals.deserialize payload).mapError .cord
  .ok approval

end Artifacts

/-! ### What is reviewed -/

/-- A join request, as it is reviewed. -/
structure ThoraxJoinRequestSpec where
  vaultRef : String
  purpose : JoinPurpose
  requestId : String
  trustedRoot : String
  userId : String
  signingPublicKey : String
  encryptionPublicKey : String
  suggestedSelectors : List String
  proof : String
  entryPoint : Option String
  artifact : String
  deriving DecidableEq

inductive TupleMatcherKind where
  | any
  | exact
  | prefixed
  deriving DecidableEq

structure TupleMatcherSpec where
  kind : TupleMatcherKind
  values : List String
  deriving DecidableEq

inductive LabelMatcherKind where
  | any
  | equals
  | isIn
  | absent
  deriving DecidableEq

structure LabelMatcherSpec where
  kind : LabelMatcherKind
  values : List String
  deriving DecidableEq

structure KeyspaceSelectorSpec where
  tuple : TupleMatcherSpec
  labels : BTreeMap String LabelMatcherSpec
  deriving DecidableEq

structure ReadGrantSpec where
  read : KeyspaceSelectorSpec
  deriving DecidableEq

structure ObjectReference where
  name : String
  uid : String
  deriving DecidableEq

/-- A join approval, as it is reviewed. -/
structure ThoraxJoinApprovalSpec where
  requestRef : ObjectReference
  purpose : JoinPurpose
  requestId : String
  trustedRoot : String
  userId : String
  approvedGrants : List ReadGrantSpec
  encryptedBaseline : String
  replacesUserId : Option String
  approvingAdmin : String
  signature : String
  artifact : String
  deriving DecidableEq

/-! ### Limits -/

def maxReviewFieldBytes : ℕ := 4096

def maxArtifactBytes : ℕ := 256 * 1024

def maxGrants : ℕ := 256

def maxMatcherValues : ℕ := 256

def checkNonemptyBytes (field value : String) (max : ℕ) : Except ApiError Unit :=
  if value = "" then .error (.limitExceeded field max) else checkBytes field value max

def validateJoinRequestLimits (spec : ThoraxJoinRequestSpec) : Except ApiError Unit := do
  [("requestID", spec.requestId), ("trustedRoot", spec.trustedRoot), ("userID", spec.userId),
    ("signingPublicKey", spec.signingPublicKey),
    ("encryptionPublicKey", spec.encryptionPublicKey), ("proof", spec.proof)].forM fun entry =>
      checkNonemptyBytes entry.1 entry.2 maxReviewFieldBytes
  checkCount "suggestedSelectors" spec.suggestedSelectors.length maxDataMappings
  spec.suggestedSelectors.forM (checkNonemptyBytes "suggestedSelectors" · maxSelectorBytes)
  match spec.entryPoint with
  | some entryPoint => checkBytes "entryPoint" entryPoint maxArtifactBytes
  | none => .ok ()
  checkNonemptyBytes "artifact" spec.artifact maxArtifactBytes

def validateSelectorSpec (spec : KeyspaceSelectorSpec) : Except ApiError Unit := do
  checkCount "grant.tuple.values" spec.tuple.values.length maxMatcherValues
  spec.tuple.values.forM (checkBytes "grant.tuple.values" · maxSelectorBytes)
  checkCount "grant.labels" spec.labels.size maxMetadataEntries
  spec.labels.toList.forM fun entry => do
    checkBytes "grant.labels.key" entry.1 maxSelectorBytes
    checkCount "grant.labels.values" entry.2.values.length maxMatcherValues
    entry.2.values.forM (checkBytes "grant.labels.values" · maxSelectorBytes)

def ThoraxJoinRequestSpec.validate (spec : ThoraxJoinRequestSpec) : Except ApiError Unit := do
  validateObjectName "vaultRef.name" spec.vaultRef
  validateJoinRequestLimits spec
  match spec.purpose, spec.entryPoint.isSome with
  | .enroll, false => .error (.other "Enroll requests require a self-signed entry point")
  | .restoreTrust, true => .error (.other "RestoreTrust requests must not carry an entry point")
  | _, _ => .ok ()

def ThoraxJoinApprovalSpec.validate (spec : ThoraxJoinApprovalSpec) : Except ApiError Unit := do
  validateObjectName "requestRef.name" spec.requestRef.name
  checkBytes "requestRef.uid" spec.requestRef.uid 128
  checkCount "approvedGrants" spec.approvedGrants.length maxGrants
  spec.approvedGrants.forM fun grant => validateSelectorSpec grant.read
  [("requestID", spec.requestId), ("trustedRoot", spec.trustedRoot), ("userID", spec.userId),
    ("approvingAdmin", spec.approvingAdmin), ("signature", spec.signature)].forM fun entry =>
      checkNonemptyBytes entry.1 entry.2 maxReviewFieldBytes
  match spec.replacesUserId with
  | some user => checkBytes "replacesUserID" user maxReviewFieldBytes
  | none => .ok ()
  checkNonemptyBytes "encryptedBaseline" spec.encryptedBaseline maxArtifactBytes
  checkNonemptyBytes "artifact" spec.artifact maxArtifactBytes
  if spec.purpose = .restoreTrust ∧ (spec.approvedGrants ≠ [] ∨ spec.replacesUserId.isSome) then
    .error (.other "RestoreTrust approvals cannot change grants or replace an identity")
  else .ok ()

/-! ### Mirrors -/

def hexEncode (bytes : Bytes) : String := String.ofList (Hex.encode bytes)

def JoinPurposeV1.reviewed : JoinPurposeV1 → JoinPurpose
  | .enroll => .enroll
  | .restoreTrust => .restoreTrust

def TupleMatcherSpec.fromCore : TupleMatcherV1 → TupleMatcherSpec
  | .any => ⟨.any, []⟩
  | .exact values => ⟨.exact, values⟩
  | .prefixed values => ⟨.prefixed, values⟩

def LabelMatcherSpec.fromCore : LabelMatcherV1 → LabelMatcherSpec
  | .any => ⟨.any, []⟩
  | .equals value => ⟨.equals, [value]⟩
  | .isIn values => ⟨.isIn, values⟩
  | .absent => ⟨.absent, []⟩

/-- The labels become a map: of matchers for one key the last is reviewed. -/
def KeyspaceSelectorSpec.fromCore (selector : KeyspaceSelectorV1) : KeyspaceSelectorSpec where
  tuple := .fromCore selector.tuple
  labels := selector.labels.foldl
    (fun labels label => labels.insert label.key (.fromCore label.matcher)) ∅

def ReadGrantSpec.fromCore (permission : GrantPermissionV1) : Except CoreError ReadGrantSpec :=
  match permission with
  | .readKeyspace selector => .ok ⟨.fromCore selector⟩
  | _ => .error (.validation "Kubernetes join approval contains non-read authority")

section Mirrors

variable (encodings : Encodings)

def ThoraxJoinRequestSpec.fromCandidate (candidate : JoinCandidateV1) :
    Except CoreError ThoraxJoinRequestSpec := do
  let artifact ← encodeJoinCandidate encodings candidate
  let entryPoint ← candidate.entryPoint.mapM fun record =>
    (encodings.records.serialize record).mapError .cord
  .ok
    { vaultRef := candidate.deployment.vaultName
      purpose := candidate.purpose.reviewed
      requestId := encodings.base64Encode candidate.requestId
      trustedRoot := hexEncode candidate.trustedRoot.bytes
      userId := hexEncode candidate.userId.hash.bytes
      signingPublicKey := encodings.base64Encode candidate.signingPublicKey
      encryptionPublicKey := encodings.base64Encode candidate.hpkePublicKey
      suggestedSelectors := candidate.suggestedSelectors.map selectorString
      proof := encodings.base64Encode candidate.proof
      entryPoint := entryPoint.map encodings.base64Encode
      artifact := encodings.base64Encode artifact }

def ThoraxJoinRequestSpec.candidate (spec : ThoraxJoinRequestSpec)
    (namespaceName vaultUid : String) : Except ApiError JoinCandidateV1 := do
  spec.validate
  let artifact ← (encodings.base64Decode spec.artifact).mapError .invalidArtifact
  let candidate ← (decodeJoinCandidate encodings artifact).mapError fun error =>
    .invalidArtifact (errorText error)
  let mirrored ← (fromCandidate encodings candidate).mapError fun error =>
    .invalidArtifact (errorText error)
  -- the artifact itself is not compared
  if { mirrored with artifact := spec.artifact } ≠ spec ∨
      candidate.deployment.namespaceName ≠ namespaceName ∨
      candidate.deployment.vaultUid ≠ vaultUid then
    .error (.invalidArtifact "reviewable fields differ from the signed payload")
  else .ok candidate

def ThoraxJoinApprovalSpec.fromApproval (approval : JoinApprovalV1) (requestRef : ObjectReference) :
    Except CoreError ThoraxJoinApprovalSpec := do
  let artifact ← encodeJoinApproval encodings approval
  let approvedGrants ← approval.approvedGrants.mapM ReadGrantSpec.fromCore
  let encryptedBaseline ← (encodings.baselines.serialize approval.encryptedBaseline).mapError .cord
  .ok
    { requestRef := requestRef
      purpose := approval.purpose.reviewed
      requestId := encodings.base64Encode approval.requestId
      trustedRoot := hexEncode approval.trustedRoot.bytes
      userId := hexEncode approval.userId.hash.bytes
      approvedGrants := approvedGrants
      encryptedBaseline := encodings.base64Encode encryptedBaseline
      replacesUserId := approval.replacesUserId.map fun user => hexEncode user.hash.bytes
      approvingAdmin := hexEncode approval.approvingAdmin.hash.bytes
      signature := encodings.base64Encode approval.signature
      artifact := encodings.base64Encode artifact }

def ThoraxJoinApprovalSpec.approval (spec : ThoraxJoinApprovalSpec) :
    Except ApiError JoinApprovalV1 := do
  spec.validate
  let artifact ← (encodings.base64Decode spec.artifact).mapError .invalidArtifact
  let approval ← (decodeJoinApproval encodings artifact).mapError fun error =>
    .invalidArtifact (errorText error)
  let mirrored ← (fromApproval encodings approval spec.requestRef).mapError fun error =>
    .invalidArtifact (errorText error)
  if mirrored ≠ spec then
    .error (.invalidArtifact "reviewable fields differ from the signed payload")
  else .ok approval

end Mirrors

end Thorax.Kubernetes.Join
