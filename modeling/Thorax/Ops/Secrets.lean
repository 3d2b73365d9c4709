import Thorax.Ops.Records

/-!
# Secrets

Writing, deleting and re-encrypting secrets. A secret is sealed under a fresh content key, and the
key is wrapped once for every user who may read the selector at that time. What is bound to the
ciphertext is the place of the record: the key, the signer, the counter and the slots.
-/

namespace Thorax

open Collections Durable

/-! ### Values -/

structure SecretFieldEntryV1 where
  key : String
  value : Bytes
  deriving DecidableEq

/-- What is sealed in a secret. The fields are stored as a set. -/
structure SecretValueV1 where
  primary : Bytes
  fields : List SecretFieldEntryV1
  deriving DecidableEq

/-- An opened secret; its fields are sorted by key. -/
structure SecretPlaintext where
  selector : SecretSelectorV1
  plaintext : Bytes
  fields : List SecretFieldEntryV1
  deriving DecidableEq

def SecretPlaintext.toValue (self : SecretPlaintext) : SecretValueV1 := ⟨self.plaintext, self.fields⟩

def sealedValuePrefix : Bytes := asciiBytes "thorax-secret-"

def sealedValueV1Magic : Bytes := asciiBytes "thorax-secret-v1" ++ [0]

/-! ### What is bound to a ciphertext -/

structure RecipientSlotBindingV1 where
  trustedRoot : HashValue
  secretId : SecretId
  selector : SecretSelectorV1
  recipientId : UserId
  deriving DecidableEq

/-- The place of a sealed payload: where its record lands and which secret it is. -/
structure SealContext where
  recordKey : RecordKey
  signerKey : Bytes
  counter : ℕ
  secretId : SecretId
  selector : SecretSelectorV1
  deriving DecidableEq

structure SecretContentAadV1 where
  trustedRoot : HashValue
  context : SealContext
  nonce : Bytes
  recipientSlots : List RecipientSlotV1
  deriving DecidableEq

structure HpkeSealed where
  encapsulatedKey : Bytes
  ciphertext : Bytes
  deriving DecidableEq

def contentKeyLen : ℕ := 32

def contentNonceLen : ℕ := 12

/-- The ciphers and the serializer, code outside the repository. The randomness of one operation
is fixed in it. -/
structure SealProvider where
  /-- Recipient public key, info, associated data, content key. -/
  wrapContentKey : Bytes → Bytes → Bytes → Bytes → Except CryptoError HpkeSealed
  /-- Content key, nonce, associated data, plaintext. -/
  sealContent : Bytes → Bytes → Bytes → Bytes → Except CryptoError Bytes
  /-- Content key, nonce, associated data, ciphertext. -/
  openContent : Bytes → Bytes → Bytes → Bytes → Except CryptoError Bytes
  slotBindingBytes : RecipientSlotBindingV1 → Bytes
  contentAadBytes : SecretContentAadV1 → Bytes
  serializeValue : SecretValueV1 → Bytes
  deserializeValue : Bytes → Except CordError SecretValueV1

/-- What is generated afresh for one sealed payload. -/
structure SealRandomness where
  contentKey : Bytes
  nonce : Bytes
  deriving DecidableEq

/-- An identity whose keys are at hand: it signs, and unwraps the content keys of its slots given
the encapsulated key, the info, the associated data and the wrapped key. -/
structure UnlockedIdentity extends RecordSigner where
  unwrapContentKey : Bytes → Bytes → Bytes → Bytes → Except CryptoError Bytes

section Secrets

variable (provider : StoreProvider) (sealing : SealProvider)

/-! ### Sealing -/

/-- Present whenever a root matched local trust. -/
def effectiveTrustedRoot (effective : EffectiveState) : Except OpsError HashValue :=
  match effective.rootSigningPublicKeyHash with
  | some root => .ok root
  | none => .error .missingEffectiveRoot

/-- The slot of one reader. The binding is both the info and the associated data. -/
def sealSlot (effective : EffectiveState) (trustedRoot : HashValue) (context : SealContext)
    (contentKey : Bytes) (readerId : UserId) : Except OpsError RecipientSlotV1 :=
  match effective.users[readerId]? with
  | none => .error (.missingReaderUser readerId)
  | some user => do
    let slotBinding := sealing.slotBindingBytes
      ⟨trustedRoot, context.secretId, context.selector, readerId⟩
    let wrapped ← (sealing.wrapContentKey user.hpkePublicKey slotBinding slotBinding
      contentKey).mapError .crypto
    .ok ⟨readerId, wrapped.encapsulatedKey, wrapped.ciphertext⟩

def sealSecretPayload (effective : EffectiveState) (context : SealContext) (value : SecretValueV1)
    (random : SealRandomness) : Except OpsError SealedPayloadV1 := do
  let trustedRoot ← effectiveTrustedRoot effective
  let recipientSlots ← (effective.currentReaderEntries context.selector).mapM
    (sealSlot sealing effective trustedRoot context random.contentKey)
  let aad := sealing.contentAadBytes ⟨trustedRoot, context, random.nonce, recipientSlots⟩
  let ciphertext ← (sealing.sealContent random.contentKey random.nonce aad
    (sealedValueV1Magic ++ sealing.serializeValue value)).mapError .crypto
  .ok ⟨random.nonce, ciphertext, recipientSlots⟩

/-! ### Opening -/

/-- New values carry the magic; an unknown one fails, and bytes without any are a value of their
own, structured or raw. -/
def decodeSecretValue (opened : Bytes) : Except OpsError SecretValueV1 :=
  if sealedValueV1Magic.isPrefixOf opened then
    match sealing.deserializeValue (opened.drop sealedValueV1Magic.length) with
    | .ok value => .ok value
    | .error _ => .error .invalidSecretPlaintext
  else if sealedValuePrefix.isPrefixOf opened then .error .invalidSecretPlaintext
  else
    match sealing.deserializeValue opened with
    | .ok value => .ok value
    | .error _ => .ok ⟨opened, []⟩

def fixedArray (length : ℕ) (name : String) (bytes : Bytes) : Except CryptoError Bytes :=
  if bytes.length = length then .ok bytes
  else .error (.invalidLength name length bytes.length)

def decryptSecretRecord (identity : UnlockedIdentity) (signed : VaultRecordV1)
    (value : SecretRecordV1) (trustedRoot : HashValue) : Except OpsError SecretPlaintext :=
  match value.sealed.recipientSlots.find? (·.recipientId = identity.userId) with
  | none => .error (.recipientSlotMissing identity.userId)
  | some slot => do
    let slotBinding := sealing.slotBindingBytes ⟨trustedRoot, value.id, value.selector, slot.recipientId⟩
    let unwrapped ← (identity.unwrapContentKey slot.hpkeEncapsulatedKey slotBinding slotBinding
      slot.wrappedContentKey).mapError .crypto
    let contentKey ← (fixedArray contentKeyLen "content key" unwrapped).mapError .crypto
    let nonce ← (fixedArray contentNonceLen "content nonce" value.sealed.nonce).mapError .crypto
    let context : SealContext :=
      ⟨.secret value.id, signed.signingPublicKey, value.counter, value.id, value.selector⟩
    let aad := sealing.contentAadBytes
      ⟨trustedRoot, context, value.sealed.nonce, value.sealed.recipientSlots⟩
    let opened ← (sealing.openContent contentKey nonce aad value.sealed.ciphertext).mapError .crypto
    let decoded ← decodeSecretValue sealing opened
    .ok ⟨value.selector, decoded.primary, sortBy (compareOn SecretFieldEntryV1.key) decoded.fields⟩

def decryptSecretFromReport (report : ValidationReport) (identity : UnlockedIdentity)
    (selector : SecretSelectorV1) : Except OpsError SecretPlaintext :=
  match report.effective.secretRecord provider.toCryptoProvider selector with
  | none => .error .secretMissing
  | some active => do
    let trustedRoot ← effectiveTrustedRoot report.effective
    decryptSecretRecord sealing identity active.signed active.value trustedRoot

/-! ### Writing and deleting -/

def ensureSecretWritable (effective : EffectiveState) (selector : SecretSelectorV1)
    (user : UserId) : Except OpsError Unit :=
  if !effective.users.contains user then .error (.missingWriterUser user)
  else if effective.authorityUnresolved then .error .secretNotWritable
  else if (effective.authorityForUser user).canWrite selector then .ok ()
  else .error .secretNotWritable

structure SetSecretOutput where
  secretId : SecretId
  selector : SecretSelectorV1
  payload : SealedPayloadV1
  deriving DecidableEq

structure DeleteSecretOutput where
  secretId : SecretId
  selector : SecretSelectorV1
  deriving DecidableEq

/-- A secret sealed to its readers in a state, at a counter, and signed. -/
def sealedSecretRecord (identity : UnlockedIdentity) (report : ValidationReport)
    (selector : SecretSelectorV1) (value : SecretValueV1) (random : SealRandomness) (counter : ℕ) :
    Except OpsError (VaultRecordV1 × SealedPayloadV1) := do
  let secret := deriveSecretId provider.toCryptoProvider selector
  let payload ← sealSecretPayload sealing report.effective
    ⟨.secret secret, identity.signingPublicKey, counter, secret, selector⟩ value random
  let signed ← (Hazmat.secretRecord provider.toCryptoProvider identity.toRecordSigner selector
    payload counter).mapError .hazmat
  .ok (signed, payload)

/-- The record of a mutation of one secret must be the one that wins. -/
def currentOr (message : String) (hash : HashValue) (report : ValidationReport) :
    Except OpsError Unit :=
  if report.effective.secretRecordIsCurrent hash then .ok ()
  else .error (.operationNotEffective message)

def setSecretChange (identity : UnlockedIdentity) (selector : SecretSelectorV1)
    (value : SecretValueV1) (random : SealRandomness) : RecordChange SetSecretOutput where
  build report counter := do
    let (signed, payload) ← sealedSecretRecord provider sealing identity report selector value random
      counter
    .ok (signed, ⟨deriveSecretId provider.toCryptoProvider selector, selector, payload⟩)
  effective _ := currentOr "secret value did not take effect"

def deleteSecretChange (signer : RecordSigner) (selector : SecretSelectorV1) :
    RecordChange DeleteSecretOutput where
  build _ counter := do
    let signed ← (Hazmat.secretDeletedRecord provider.toCryptoProvider signer selector
      counter).mapError .hazmat
    .ok (signed, ⟨deriveSecretId provider.toCryptoProvider selector, selector⟩)
  effective _ := currentOr "secret deletion did not take effect"

/-- A mutation of one secret: the writer is checked against the session, the change is committed. -/
def writeSecret {α : Type} (contended : Bool) (transactionId : Bytes) (signer : RecordSigner)
    (selector : SecretSelectorV1) (change : RecordChange α) : SessionProgram α := do
  let session ← current
  onDisk (check (ensureSecretWritable session.report.effective selector signer.userId))
  let _ ← onDisk (check ((Hazmat.ensureIdentityConsistent provider.toCryptoProvider signer).mapError
    .hazmat))
  commitRecord provider contended transactionId change

def setSecretValue (contended : Bool) (transactionId : Bytes) (identity : UnlockedIdentity)
    (selector : SecretSelectorV1) (value : SecretValueV1) (random : SealRandomness) :
    SessionProgram SetSecretOutput :=
  writeSecret provider contended transactionId identity.toRecordSigner selector
    (setSecretChange provider sealing identity selector value random)

def deleteSecret (contended : Bool) (transactionId : Bytes) (identity : UnlockedIdentity)
    (selector : SecretSelectorV1) : SessionProgram DeleteSecretOutput :=
  writeSecret provider contended transactionId identity.toRecordSigner selector
    (deleteSecretChange provider identity.toRecordSigner selector)

/-! ### Convergence -/

structure ReconcileOutput where
  encrypted : List SecretSelectorV1
  needsRotation : List SecretSelectorV1
  deriving DecidableEq

def missingReaderCandidates (report : ValidationReport) : List SecretSelectorV1 :=
  (report.effective.secretRecords.map (·.value.selector)).filter
    (report.effective.secretMissingReader provider.toCryptoProvider)

/-- The candidates that an identity can decrypt. -/
def openedCandidates (report : ValidationReport) (identity : UnlockedIdentity) :
    List SecretPlaintext :=
  (missingReaderCandidates provider report).filterMap fun selector =>
    (decryptSecretFromReport provider sealing report identity selector).toOption

/-- The candidates that it cannot. -/
def closedCandidates (report : ValidationReport) (identity : UnlockedIdentity) :
    List SecretSelectorV1 :=
  (missingReaderCandidates provider report).filter fun selector =>
    !(decryptSecretFromReport provider sealing report identity selector).isOk

/-- One commit for the whole batch, all of it at the next counter. Nothing is checked of the state
after it. -/
def convergeChange (identity : UnlockedIdentity) (opened : List SecretPlaintext)
    (random : SecretSelectorV1 → SealRandomness) : Change Unit where
  update vault report := do
    let counter := nextCounter report.effective
    let records ← opened.mapM fun secret => sealedSecretRecord provider sealing identity report
      secret.selector secret.toValue (random secret.selector) counter
    .ok ((records.map Prod.fst).foldl VaultStore.appendRecord vault, ())
  check _ _ := .ok ()

def convergeReaders (contended : Bool) (transactionId : Bytes) (identity : UnlockedIdentity)
    (random : SecretSelectorV1 → SealRandomness) : SessionProgram ReconcileOutput := do
  let session ← current
  let opened := openedCandidates provider sealing session.report identity
  let needsRotation := closedCandidates provider sealing session.report identity
  if opened = [] then pure ⟨[], needsRotation⟩
  else
    commit provider contended transactionId (convergeChange provider sealing identity opened random)
    pure ⟨opened.map (·.selector), needsRotation⟩

end Secrets

/-! ### What is sealed -/

section Sealed

variable {provider : StoreProvider} {sealing : SealProvider} {effective : EffectiveState}
variable {context : SealContext} {value : SecretValueV1} {random : SealRandomness}
variable {payload : SealedPayloadV1}

/-- What the ciphers accept at a place: the keys of its readers, and the value. -/
structure CanSeal (sealing : SealProvider) (effective : EffectiveState) (context : SealContext)
    (value : SecretValueV1) (random : SealRandomness) : Prop where
  wraps : ∀ reader ∈ effective.currentReaderEntries context.selector, ∀ user,
    effective.users[reader]? = some user → ∀ binding, ∃ wrapped,
      sealing.wrapContentKey user.hpkePublicKey binding binding random.contentKey = .ok wrapped
  seals : ∀ aad, ∃ ciphertext, sealing.sealContent random.contentKey random.nonce aad
    (sealedValueV1Magic ++ sealing.serializeValue value) = .ok ciphertext

lemma mem_currentReaderEntries {selector : SecretSelectorV1} {user : UserId} :
    user ∈ effective.currentReaderEntries selector ↔
      user ∈ effective.users ∧ (effective.authorityForUser user).canRead selector = true := by
  rw [EffectiveState.currentReaderEntries, List.mem_filter, Std.ExtTreeMap.mem_keys]

lemma nodup_currentReaderEntries (selector : SecretSelectorV1) :
    (effective.currentReaderEntries selector).Nodup := by
  refine List.Nodup.filter _ ((Std.ExtTreeMap.distinct_keys (t := effective.users)).imp ?_)
  intro a b hab heq
  exact hab (heq ▸ Std.ReflCmp.compare_self)

/-- A payload has a slot for each reader, in order. -/
lemma slots_of_sealSecretPayload
    (h : sealSecretPayload sealing effective context value random = .ok payload) :
    payload.recipientSlots.map (·.recipientId) =
      effective.currentReaderEntries context.selector := by
  simp only [sealSecretPayload, bind_eq_ok] at h
  obtain ⟨trustedRoot, -, slots, hslots, ciphertext, -, h⟩ := h
  obtain rfl := Except.ok.inj h
  have hslot : ∀ reader slot, sealSlot sealing effective trustedRoot context random.contentKey
      reader = .ok slot → slot.recipientId = reader := by
    intro reader slot hslot
    unfold sealSlot at hslot
    split at hslot
    · cases hslot
    · obtain ⟨wrapped, -, hslot⟩ := bind_eq_ok.mp hslot
      rw [← Except.ok.inj hslot]
  clear h
  rw [mapM_eq_ok] at hslots
  generalize effective.currentReaderEntries context.selector = readers at hslots
  induction hslots with
  | nil => rfl
  | cons hhead _ ih => rw [List.map_cons, ih, hslot _ _ hhead]

/-- Under a selected root, what the ciphers accept can be sealed. -/
lemma exists_sealSecretPayload {root : HashValue}
    (hroot : effective.rootSigningPublicKeyHash = some root)
    (h : CanSeal sealing effective context value random) :
    ∃ payload, sealSecretPayload sealing effective context value random = .ok payload := by
  have hslots : ∀ readers : List UserId,
      (∀ reader ∈ readers, reader ∈ effective.currentReaderEntries context.selector) →
      ∃ slots, readers.mapM (sealSlot sealing effective root context random.contentKey) =
        .ok slots := by
    intro readers hreaders
    induction readers with
    | nil => exact ⟨[], rfl⟩
    | cons reader readers ih =>
      obtain ⟨hreader, hrest⟩ := List.forall_mem_cons.mp hreaders
      obtain ⟨slots, hslots⟩ := ih hrest
      obtain ⟨user, huser⟩ := Option.isSome_iff_exists.mp
        (Std.ExtTreeMap.isSome_getElem?_iff_mem.mpr (mem_currentReaderEntries.mp hreader).1)
      obtain ⟨wrapped, hwrapped⟩ := h.wraps reader hreader user huser
        (sealing.slotBindingBytes ⟨root, context.secretId, context.selector, reader⟩)
      refine ⟨⟨reader, wrapped.encapsulatedKey, wrapped.ciphertext⟩ :: slots, ?_⟩
      rw [mapM_eq_ok]
      refine .cons ?_ (mapM_eq_ok.mp hslots)
      simp [sealSlot, huser, hwrapped, bind, Except.bind]
  obtain ⟨slots, hslots⟩ := hslots _ fun _ hreader => hreader
  obtain ⟨ciphertext, hciphertext⟩ := h.seals
    (sealing.contentAadBytes ⟨root, context, random.nonce, slots⟩)
  refine ⟨⟨random.nonce, ciphertext, slots⟩, ?_⟩
  simp [sealSecretPayload, effectiveTrustedRoot, hroot, hslots, hciphertext, bind, Except.bind]

end Sealed

end Thorax
