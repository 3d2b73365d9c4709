import Thorax.Validate.State
import Thorax.Validate.Structure

/-!
# The validation pipeline

Validation deduplicates the records, selects the trusted root, binds each signing key to the one
identity that holds it, verifies the records, resolves authority once to learn which counters are
legitimate, compares these with the rollback ratchet, and resolves authority again with the
regressed keys made inert.
-/

namespace Thorax

open Collections

/-! ### Distinct records -/

section Pipeline

variable (crypto : CryptoProvider)

/-- Keep the first record of each hash. -/
def distinctRecords (seenHashes : BTreeSet HashValue) : List VaultRecordV1 → List VaultRecordV1
  | [] => []
  | signed :: rest =>
    if seenHashes.contains (recordHash crypto signed) then distinctRecords seenHashes rest
    else signed :: distinctRecords (seenHashes.insert (recordHash crypto signed)) rest

/-- Whether an envelope counts as verified: its hash is known to be, or its signature checks. -/
def acceptsEnvelope (verified : BTreeSet HashValue) (signed : VaultRecordV1) : Bool :=
  verified.contains (recordHash crypto signed) || verifiesEnvelope crypto signed

/-! ### The root -/

structure SelectedRoot where
  root : VaultRootRecordV1
  signingPublicKey : Bytes
  rootSigningPublicKeyHash : HashValue
  deriving DecidableEq

/-- The root a record declares, when it is self-signed by the trusted key. -/
def rootMatch (trustedRoot : HashValue) (verified : BTreeSet HashValue) (signed : VaultRecordV1) :
    Option SelectedRoot :=
  match signed.body with
  | .known (.vaultRoot root) =>
    if root.id = deriveUserId crypto signed.signingPublicKey root.hpkePublicKey ∧
        acceptsEnvelope crypto verified signed ∧
        keyHash crypto signed.signingPublicKey = trustedRoot then
      some ⟨root, signed.signingPublicKey, keyHash crypto signed.signingPublicKey⟩
    else none
  | _ => none

def selectRoot (records : List VaultRecordV1) (trustedRoot : HashValue)
    (verified : BTreeSet HashValue) : Except ValidationIssue SelectedRoot :=
  match records.filterMap (rootMatch crypto trustedRoot verified) with
  | [] => .error .rootNotTrusted
  | [root] => .ok root
  | _ => .error .ambiguousRoot

def userFromRoot (root : SelectedRoot) : UserRecordV1 where
  id := root.root.id
  signingPublicKey := root.signingPublicKey
  hpkePublicKey := root.root.hpkePublicKey
  counter := 0

/-! ### Signing keys -/

/-- The user records whose identifier commits to their keys, with their envelopes. -/
def userBodies (records : List VaultRecordV1) : List (VaultRecordV1 × UserRecordV1) :=
  records.filterMap fun signed =>
    match signed.body with
    | .known (.user user) =>
      if structurallyValidUser crypto user = .ok () then some (signed, user) else none
    | _ => none

/-- The identities introduced so far, their keys, and who claims which key. -/
structure Introduction where
  claims : BTreeMap Bytes (BTreeSet UserId)
  introduced : BTreeMap UserId Bytes
  introducedKeys : BTreeSet Bytes

def Introduction.initial (root : SelectedRoot) : Introduction where
  claims := ∅
  introduced := (∅ : BTreeMap UserId Bytes).insert root.root.id root.signingPublicKey
  introducedKeys := (∅ : BTreeSet Bytes).insert root.signingPublicKey

/-- Introduce one more user; the envelope's key must already be introduced. -/
def introduceUser (verified : BTreeSet HashValue) (state : Introduction × Bool)
    (entry : VaultRecordV1 × UserRecordV1) : Introduction × Bool :=
  if state.1.introduced.contains entry.2.id then state
  else if !state.1.introducedKeys.contains entry.1.signingPublicKey then state
  else if !acceptsEnvelope crypto verified entry.1 then state
  else
    ({ claims := state.1.claims.alter entry.2.signingPublicKey fun claimants =>
        some ((claimants.getD ∅).insert entry.2.id)
       introduced := state.1.introduced.insert entry.2.id entry.2.signingPublicKey
       introducedKeys := state.1.introducedKeys.insert entry.2.signingPublicKey }, true)

def introduceUsers (verified : BTreeSet HashValue) (bodies : List (VaultRecordV1 × UserRecordV1))
    (state : Introduction) : Introduction × Bool :=
  bodies.foldl (introduceUser crypto verified) (state, false)

/-- Introduce users until a pass introduces none. Each changing pass introduces one of the bodies'
identities, so one pass more than there are bodies suffices. -/
def introduce (verified : BTreeSet HashValue) (root : SelectedRoot)
    (records : List VaultRecordV1) : Introduction :=
  Settle.loopUntil (introduceUsers crypto verified (userBodies crypto records))
    ((userBodies crypto records).length + 1) (.initial root)

/-- The identity an entry point attests: the envelope's key paired with the declared one. -/
def attestation (verified : BTreeSet HashValue) (rootId : UserId) (signed : VaultRecordV1) :
    Option UserId :=
  match signed.body with
  | .known (.entryPoint entryPoint) =>
    if entryPoint.trustedRootUserId = rootId ∧ acceptsEnvelope crypto verified signed then
      some (deriveUserId crypto signed.signingPublicKey entryPoint.hpkePublicKey)
    else none
  | _ => none

def attestedUsers (verified : BTreeSet HashValue) (rootId : UserId)
    (records : List VaultRecordV1) : BTreeSet UserId :=
  collectSet (attestation crypto verified rootId) records ∅

/-- A sole claimant holds the key, else the unique attested one does. -/
def resolveClaimants (attested claimants : BTreeSet UserId) : Option UserId :=
  match claimants.toList with
  | [claimant] => some claimant
  | all =>
    match all.filter (attested.contains ·) with
    | [claimant] => some claimant
    | _ => none

/-- Signing keys bound to identities. The root key is reserved for the root. -/
structure SignerResolution where
  signerForKey : BTreeMap Bytes UserId
  contestedKeys : List Bytes

def resolveSigners (root : SelectedRoot) (claims : BTreeMap Bytes (BTreeSet UserId))
    (attested : BTreeSet UserId) : SignerResolution where
  signerForKey := (claims.filterMap fun key claimants =>
    if key = root.signingPublicKey then none else resolveClaimants attested claimants).insert
      root.signingPublicKey root.root.id
  contestedKeys := (claims.toList.filter fun claim =>
    claim.1 ≠ root.signingPublicKey && (resolveClaimants attested claim.2).isNone).map Prod.fst

def signerResolution (verified : BTreeSet HashValue) (root : SelectedRoot)
    (records : List VaultRecordV1) : SignerResolution :=
  resolveSigners root (introduce crypto verified root records).claims
    (attestedUsers crypto verified root.root.id records)

/-! ### Verification -/

inductive RecordVerdict where
  | unknown
  | rejected (issue : ValidationIssue)
  /-- Signed under a contested key: dropped without an issue. -/
  | inert
  | verified (record : VerifiedRecord)

def judgeRecord (verified : BTreeSet HashValue) (root : SelectedRoot)
    (resolution : SignerResolution) (signed : VaultRecordV1) : RecordVerdict :=
  match signed.body with
  | .unknown _ => .unknown
  | .known body =>
    match structurallyValidateRecord crypto signed body root.root with
    | .error issue => .rejected issue
    | .ok () =>
      if resolution.contestedKeys.contains signed.signingPublicKey then .inert
      else
        match resolution.signerForKey[signed.signingPublicKey]? with
        | none => .rejected (.unknownSignerKey (keyHash crypto signed.signingPublicKey))
        | some signer =>
          if acceptsEnvelope crypto verified signed then
            .verified ⟨signed, body, recordHash crypto signed, signer⟩
          else .rejected (.invalidSignature (recordKeyFor body signer))

def RecordVerdict.verified? : RecordVerdict → Option VerifiedRecord
  | .verified record => some record
  | _ => none

def RecordVerdict.issue? : RecordVerdict → Option ValidationIssue
  | .rejected issue => some issue
  | _ => none

def RecordVerdict.isUnknown : RecordVerdict → Bool
  | .unknown => true
  | _ => false

/-- What is left of the records once envelopes are checked. -/
structure Screening where
  verifiedRecords : List VerifiedRecord
  issues : List ValidationIssue
  unknownRecords : ℕ
  ambiguousKeys : List HashValue

def screenRecords (verified : BTreeSet HashValue) (root : SelectedRoot)
    (records : List VaultRecordV1) : Screening :=
  let resolution := signerResolution crypto verified root records
  let verdicts := records.map (judgeRecord crypto verified root resolution)
  { verifiedRecords := verdicts.filterMap RecordVerdict.verified?
    issues := verdicts.filterMap RecordVerdict.issue?
    unknownRecords := verdicts.countP RecordVerdict.isUnknown
    ambiguousKeys := resolution.contestedKeys.map (keyHash crypto) }

/-! ### Admission of deletions -/

/-- The deletions that are admitted one by one and stay admitted. -/
def RecordBodyV1.isGatedDeletion : RecordBodyV1 → Bool
  | .userDeleted _ | .groupDeleted _ | .grantDeleted _ => true
  | _ => false

/-- Whether a grant deletion's signer holds the authority the deletion requires. -/
def grantDeletedAuthorized (signerAuth : AuthoritySet) (deleted : GrantDeletedRecordV1)
    (state : EffectiveState) : Bool :=
  match state.grants[deleted.id]? with
  | some active =>
    signerAuth.canCreatePermission deleted.permission &&
      signerAuth.canCreatePermission active.permission
  -- no live grant: an admin may tombstone freely, so that a restored principal does not
  -- resurrect its old grants
  | none => signerAuth.administer || signerAuth.canCreatePermission deleted.permission

def deletionAuthorized (state : EffectiveState) (record : VerifiedRecord) : Bool :=
  match record.body with
  | .userDeleted _ => (state.authorityForUser record.signer).administer
  | .groupDeleted _ => (state.authorityForUser record.signer).administer
  | .grantDeleted deleted =>
    grantDeletedAuthorized (state.authorityForUser record.signer) deleted state
  | _ => false

def deletionCandidates (records : List VerifiedRecord) : List VerifiedRecord :=
  records.filter (·.body.isGatedDeletion)

/-- The effective state under a set of admitted deletions. -/
def effectiveUnder (root : SelectedRoot) (records : List VerifiedRecord)
    (rollbackKeys : BTreeMap RecordKey ℕ) (admittedDeletions : BTreeSet HashValue) :
    EffectiveState :=
  computeEffectiveState crypto (userFromRoot root) root.rootSigningPublicKeyHash records
    admittedDeletions rollbackKeys

/-- The deletion admitted next: the first in Lamport order that its signer may issue now. -/
def nextAdmitted (root : SelectedRoot) (records : List VerifiedRecord)
    (rollbackKeys : BTreeMap RecordKey ℕ) (admittedDeletions : BTreeSet HashValue) :
    Option VerifiedRecord :=
  firstBy compareLww (fun record => !admittedDeletions.contains record.recordHash &&
    deletionAuthorized (effectiveUnder crypto root records rollbackKeys admittedDeletions) record)
    (deletionCandidates records)

/-- Admit deletions until none is left that may be issued. Each round admits one candidate. -/
def admitDeletions (root : SelectedRoot) (records : List VerifiedRecord)
    (rollbackKeys : BTreeMap RecordKey ℕ) : BTreeSet HashValue :=
  Settle.grow (fun admittedDeletions =>
    (nextAdmitted crypto root records rollbackKeys admittedDeletions).map fun record =>
      admittedDeletions.insert record.recordHash) (deletionCandidates records).length ∅

def resolveEffectiveWithDeletions (root : SelectedRoot) (records : List VerifiedRecord)
    (rollbackKeys : BTreeMap RecordKey ℕ) : EffectiveState × BTreeSet HashValue :=
  (effectiveUnder crypto root records rollbackKeys
      (admitDeletions crypto root records rollbackKeys),
    admitDeletions crypto root records rollbackKeys)

/-! ### Watermarks -/

def recordOrigin (body : RecordBodyV1) : Option KeyOrigin :=
  match body with
  | .secret record => some (.secret record.selector)
  | .secretDeleted record => some (.secret record.selector)
  | .userHandle record => some (.userHandle record.handle)
  | .vaultHandle record => some (.vaultHandle record.handle)
  | .groupMember record => some (.groupMember record.groupId record.memberId)
  | .groupMemberDeleted record => some (.groupMember record.groupId record.memberId)
  | _ => none

/-- The signers of entry points. -/
def entryPointSigners (records : List VerifiedRecord) : BTreeSet UserId :=
  collectSet (fun record : VerifiedRecord =>
    match record.body with
    | .entryPoint _ => some record.signer
    | _ => none) records ∅

/-- Whether a record may influence rollback memory and the Lamport clock. -/
def recordAdmitted (attested : BTreeSet UserId) (effective : EffectiveState)
    (admittedDeletions : BTreeSet HashValue) (record : VerifiedRecord) : Bool :=
  let auth := effective.authorityForUser record.signer
  match record.body with
  | .vaultRoot _ => true
  | .entryPoint _ => attested.contains record.signer
  | .user user => auth.administer && attested.contains user.id
  | .userDeleted _ | .groupDeleted _ | .grantDeleted _ =>
    admittedDeletions.contains record.recordHash
  | .userHandle _ | .vaultHandle _ | .group _ | .groupMember _ | .groupMemberDeleted _ =>
    auth.administer
  | .grant grant => auth.canCreatePermission grant.permission
  | .secret secret => auth.canWrite secret.selector
  | .secretDeleted secret => auth.canWrite secret.selector

def admittedWatermarks (records : List VerifiedRecord) (effective : EffectiveState)
    (admittedDeletions : BTreeSet HashValue) : BTreeMap RecordKey ℕ :=
  groupFold (fun record =>
      if recordAdmitted (entryPointSigners records) effective admittedDeletions record &&
        record.body.lwwCounter.isSome then some record.key else none)
    (fun entry record => max (entry.getD 0) record.counter) records ∅

/-- The preimage of each admitted key that has one, from the first record that names it. -/
def admittedOrigins (records : List VerifiedRecord) (effective : EffectiveState)
    (admittedDeletions : BTreeSet HashValue) : BTreeMap RecordKey KeyOrigin :=
  collectNew (fun record =>
    if recordAdmitted (entryPointSigners records) effective admittedDeletions record then
      (recordOrigin record.body).map (record.key, ·)
    else none) records ∅

/-! ### The report -/

/-- The remembered keys whose admitted counter went backward. -/
def regressedKeys (ratchet : Ratchet) (currentWatermarks : BTreeMap RecordKey ℕ) :
    BTreeMap RecordKey ℕ :=
  ratchet.watermarks.filter fun key remembered =>
    decide (currentWatermarks[key]?.getD 0 < remembered)

def rollbackConflict (records : List VerifiedRecord) (ratchet : Ratchet)
    (currentWatermarks : BTreeMap RecordKey ℕ) (observedOrigins : BTreeMap RecordKey KeyOrigin)
    (key : RecordKey) (remembered : ℕ) : ConflictReport where
  key := key
  counter := currentWatermarks[key]?.getD 0
  kind := .rollback remembered
  candidates := (sortBy (compareOn fun signed => crypto.serialize (.record signed))
    ((records.filter fun record =>
      record.key = key && record.counter = currentWatermarks[key]?.getD 0).map
        VerifiedRecord.signed)).destutter (· ≠ ·)
  origin := observedOrigins[key]?.or ratchet.origins[key]?

def raisedUpdate (ratchet : Ratchet) (currentWatermarks : BTreeMap RecordKey ℕ)
    (observedOrigins : BTreeMap RecordKey KeyOrigin) : RatchetUpdate where
  raisedWatermarks := currentWatermarks.filter fun key current =>
    decide (ratchet.watermarks[key]?.getD 0 < current)
  origins := observedOrigins.filter fun key _ => !ratchet.origins.contains key
  raisedFormatVersion := none

def warningsFor (unknownRecords : ℕ) : List ValidationWarning :=
  if 0 < unknownRecords then [.unknownRecords unknownRecords] else []

/-- The authority view without rollback exclusions. -/
def provisional (root : SelectedRoot) (records : List VerifiedRecord) :
    EffectiveState × BTreeSet HashValue :=
  resolveEffectiveWithDeletions crypto root records ∅

/-- The highest admitted counter at each key. -/
def currentWatermarks (root : SelectedRoot) (records : List VerifiedRecord) :
    BTreeMap RecordKey ℕ :=
  admittedWatermarks records (provisional crypto root records).1 (provisional crypto root records).2

def observedOrigins (root : SelectedRoot) (records : List VerifiedRecord) :
    BTreeMap RecordKey KeyOrigin :=
  admittedOrigins records (provisional crypto root records).1 (provisional crypto root records).2

/-- The final state of verified records: the second resolution with every conflict added. -/
def resolveRecords (ratchet : Ratchet) (root : SelectedRoot) (records : List VerifiedRecord) :
    EffectiveState :=
  let watermarks := currentWatermarks crypto root records
  let rollbackKeys := regressedKeys ratchet watermarks
  let effective := (resolveEffectiveWithDeletions crypto root records rollbackKeys).1
  let secretResolution := lwwResolution records rollbackKeys (classifySecret effective.authorities)
  let conflicted := effective.conflicted ∪
    materializeConflicts crypto records secretResolution.conflicted ∪
    rollbackKeys.map (rollbackConflict crypto records ratchet watermarks
      (observedOrigins crypto root records))
  { effective with conflicted := conflicted }.attachVerifiedRecords records (values watermarks).max?

def validateV1 (vault : VaultStoreV1) (ratchet : Ratchet) (verified : BTreeSet HashValue) :
    ValidationReport :=
  let records := distinctRecords crypto ∅ vault.records
  match selectRoot crypto records ratchet.trustedRoot verified with
  | .error issue =>
    { effective := .unresolved
      ratchetUpdate := .empty
      issues := [issue]
      warnings := [] }
  | .ok root =>
    let screening := screenRecords crypto verified root records
    let effective := resolveRecords crypto ratchet root screening.verifiedRecords
    { effective := effective
      ratchetUpdate := raisedUpdate ratchet
        (currentWatermarks crypto root screening.verifiedRecords)
        (observedOrigins crypto root screening.verifiedRecords)
      issues := screening.issues ++
        if effective.authorityUnresolved then [.authorityDidNotConverge] else []
      warnings := warningsFor screening.unknownRecords ++
        screening.ambiguousKeys.map .ambiguousSigningKey }

def validateVaultWithVerified (vault : VaultStore) (ratchet : Ratchet)
    (verified : BTreeSet HashValue) : ValidationReport :=
  if vault.formatVersion < ratchet.formatVersion then
    { effective := .unresolved
      ratchetUpdate := .empty
      issues := [.formatVersionRegression ratchet.formatVersion vault.formatVersion]
      warnings := [] }
  else
    match vault with
    | .v1 v1 =>
      let report := validateV1 crypto v1 ratchet verified
      if ratchet.formatVersion < vault.formatVersion && report.issues.isEmpty then
        { report with ratchetUpdate :=
          { report.ratchetUpdate with raisedFormatVersion := some vault.formatVersion } }
      else report

def validateVault (vault : VaultStore) (ratchet : Ratchet) : ValidationReport :=
  validateVaultWithVerified crypto vault ratchet ∅

end Pipeline

end Thorax
