import Thorax.Validate.Pipeline

/-!
# Record builders

A transparent provider and builders for signed records, after the test support of the program.
A hash is the hashed bytes under a tag for their domain, and a signature is the signing key
followed by the message, so that the provider has no collisions of its own and every record can
be evaluated.
-/

namespace Thorax.TestSupport

open Collections

/-! ### Canonical bytes -/

def sized (bytes : Bytes) : Bytes := UInt8.ofNat bytes.length :: bytes

def listBytes {α : Type} (encode : α → Bytes) (items : List α) : Bytes :=
  UInt8.ofNat items.length :: items.flatMap encode

def counterBytes (counter : ℕ) : Bytes :=
  (List.range 8).map fun i => UInt8.ofNat (counter / 256 ^ i)

def textBytes (text : String) : Bytes := sized (text.toList.map fun c => UInt8.ofNat c.toNat)

def hashBytes (hash : HashValue) : Bytes := sized hash.bytes

def idBytes {kind : IdKind} (id : Id kind) : Bytes := hashBytes id.hash

def principalBytes : PrincipalRefV1 → Bytes
  | .user id => 0 :: idBytes id
  | .group id => 1 :: idBytes id

def tupleBytes : TupleMatcherV1 → Bytes
  | .any => [0]
  | .exact parts => 1 :: listBytes textBytes parts
  | .prefixed parts => 2 :: listBytes textBytes parts

def matcherBytes : LabelMatcherV1 → Bytes
  | .any => [0]
  | .equals value => 1 :: textBytes value
  | .isIn values => 2 :: listBytes textBytes values
  | .absent => [3]

def keyspaceBytes (selector : KeyspaceSelectorV1) : Bytes :=
  tupleBytes selector.tuple ++
    listBytes (fun label => textBytes label.key ++ matcherBytes label.matcher) selector.labels

def selectorBytes (selector : SecretSelectorV1) : Bytes :=
  listBytes textBytes selector.tuple ++
    listBytes (fun label => textBytes label.key ++ textBytes label.value) selector.labels

def permissionBytes : GrantPermissionV1 → Bytes
  | .readKeyspace selector => 0 :: keyspaceBytes selector
  | .writeKeyspace selector => 1 :: keyspaceBytes selector
  | .manageKeyspace manage => 2 :: (keyspaceBytes manage.selector ++
      listBytes (fun cls => [UInt8.ofNat cls.index]) manage.grantable)
  | .administer => [3]

def sealedBytes (payload : SealedPayloadV1) : Bytes :=
  sized payload.nonce ++ sized payload.ciphertext ++ listBytes (fun slot =>
    idBytes slot.recipientId ++ sized slot.hpkeEncapsulatedKey ++ sized slot.wrappedContentKey)
      payload.recipientSlots

def bodyBytes : RecordBodyV1 → Bytes
  | .vaultRoot r => 0 :: (idBytes r.id ++ sized r.hpkePublicKey)
  | .entryPoint r =>
    1 :: (idBytes r.trustedRootUserId ++ sized r.hpkePublicKey ++ counterBytes r.counter)
  | .user r => 2 :: (idBytes r.id ++ sized r.signingPublicKey ++ sized r.hpkePublicKey ++
      counterBytes r.counter)
  | .userHandle r =>
    3 :: (idBytes r.id ++ textBytes r.handle ++ idBytes r.userId ++ counterBytes r.counter)
  | .group r =>
    4 :: (idBytes r.id ++ sized r.seed.bytes ++ textBytes r.handle ++ counterBytes r.counter)
  | .groupDeleted r => 5 :: (idBytes r.id ++ counterBytes r.counter)
  | .groupMember r => 6 :: (idBytes r.id ++ idBytes r.groupId ++ principalBytes r.memberId ++
      counterBytes r.counter)
  | .groupMemberDeleted r => 7 :: (idBytes r.id ++ idBytes r.groupId ++ principalBytes r.memberId ++
      counterBytes r.counter)
  | .grant r => 8 :: (idBytes r.id ++ sized r.seed.bytes ++ principalBytes r.subjectId ++
      permissionBytes r.permission ++ counterBytes r.counter)
  | .grantDeleted r =>
    9 :: (idBytes r.id ++ permissionBytes r.permission ++ counterBytes r.counter)
  | .userDeleted r => 10 :: (idBytes r.id ++ listBytes textBytes r.reason.toList ++
      counterBytes r.counter)
  | .secret r => 11 :: (idBytes r.id ++ selectorBytes r.selector ++ sealedBytes r.sealed ++
      counterBytes r.counter)
  | .secretDeleted r =>
    12 :: (idBytes r.id ++ selectorBytes r.selector ++ counterBytes r.counter)
  | .vaultHandle r => 13 :: (idBytes r.id ++ textBytes r.handle ++ counterBytes r.counter)

def evolvingBytes : Evolving RecordBodyV1 → Bytes
  | .known body => 0 :: bodyBytes body
  | .unknown raw => 1 :: raw

def canonicalBytes : Canonical → Bytes
  | .record signed => sized (evolvingBytes signed.body) ++ sized signed.signingPublicKey ++
      sized signed.signature
  | .body body => evolvingBytes body
  | .userIdInput signing hpke => sized signing ++ sized hpke
  | .publicKey key => key
  | .seed seed => seed.bytes
  | .text text => textBytes text
  | .groupMemberIdInput groupId memberId => idBytes groupId ++ principalBytes memberId
  | .selector selector => selectorBytes selector

/-! ### The provider -/

def domainTag : HashDomain → UInt8
  | .recordHash => 0
  | .user => 1
  | .key => 2
  | .userHandle => 3
  | .vaultHandle => 4
  | .group => 5
  | .groupMember => 6
  | .grant => 7
  | .secret => 8
  | .transactionFile => 9
  | .joinCommit => 10

def transparentCrypto : CryptoProvider where
  hash domain bytes := ⟨domainTag domain :: bytes⟩
  verifySignature key message signature := key ++ message == signature
  serialize := canonicalBytes

/-! ### Users and records -/

structure TestUser where
  signingPublicKey : Bytes
  hpkePublicKey : Bytes

def testUser (name : UInt8) : TestUser := ⟨[name], [name]⟩

def TestUser.id (user : TestUser) : UserId :=
  deriveUserId transparentCrypto user.signingPublicKey user.hpkePublicKey

def signedRecord (signer : TestUser) (body : RecordBodyV1) : VaultRecordV1 where
  body := .known body
  signingPublicKey := signer.signingPublicKey
  signature := signer.signingPublicKey ++ evolvingBytes (.known body)

/-- What verification makes of a signed body. -/
def verifiedBody (signer : TestUser) (body : RecordBodyV1) : VerifiedRecord where
  signed := signedRecord signer body
  body := body
  recordHash := recordHash transparentCrypto (signedRecord signer body)
  signer := signer.id

lemma verifiesEnvelope_signedRecord (signer : TestUser) (body : RecordBodyV1) :
    verifiesEnvelope transparentCrypto (signedRecord signer body) = true := by
  simp [verifiesEnvelope, transparentCrypto, signedRecord, signedRecordMessage, canonicalBytes]

/-- The user whose root record every fixture starts with. -/
def rootUser : TestUser := testUser 0

def freshRatchet : Ratchet := .new (keyHash transparentCrypto rootUser.signingPublicKey)

/-- A ratchet for the same root that remembers some counters. -/
def ratchetWith (watermarks : List (RecordKey × ℕ)) : Ratchet :=
  { freshRatchet with watermarks := collectMap some watermarks ∅ }

def vaultRootRecord : VaultRecordV1 :=
  signedRecord rootUser (.vaultRoot ⟨rootUser.id, rootUser.hpkePublicKey⟩)

/-- The root that validation selects from the root record. -/
def selectedRoot : SelectedRoot where
  root := ⟨rootUser.id, rootUser.hpkePublicKey⟩
  signingPublicKey := rootUser.signingPublicKey
  rootSigningPublicKeyHash := keyHash transparentCrypto rootUser.signingPublicKey

def userRecord (signer user : TestUser) (counter : ℕ) : VaultRecordV1 :=
  signedRecord signer (.user ⟨user.id, user.signingPublicKey, user.hpkePublicKey, counter⟩)

def trustRoot (user : TestUser) (counter : ℕ) : VaultRecordV1 :=
  signedRecord user (.entryPoint ⟨rootUser.id, user.hpkePublicKey, counter⟩)

def grantId (seed : UInt8) : GrantId := deriveGrantId transparentCrypto ⟨[seed]⟩

def grantRecord (seed : UInt8) (issuer : TestUser) (subject : PrincipalRefV1)
    (permission : GrantPermissionV1) (counter : ℕ) : VaultRecordV1 :=
  signedRecord issuer (.grant ⟨grantId seed, ⟨[seed]⟩, subject, permission, counter⟩)

def grantDeletedRecord (signer : TestUser) (seed : UInt8) (permission : GrantPermissionV1)
    (counter : ℕ) : VaultRecordV1 :=
  signedRecord signer (.grantDeleted ⟨grantId seed, permission, counter⟩)

def userDeletedRecord (signer : TestUser) (userId : UserId) (counter : ℕ) : VaultRecordV1 :=
  signedRecord signer (.userDeleted ⟨userId, none, counter⟩)

/-- The selector the builders write secrets at. -/
def testSelector : SecretSelectorV1 := ⟨[], []⟩

def testSecretId : SecretId := deriveSecretId transparentCrypto testSelector

def secretRecord (signer : TestUser) (slotReaders : List TestUser) (counter : ℕ) : VaultRecordV1 :=
  signedRecord signer (.secret
    { id := testSecretId
      selector := testSelector
      sealed := ⟨[], [], slotReaders.map fun user => ⟨user.id, [], []⟩⟩
      counter := counter })

def secretDeletedRecord (signer : TestUser) (counter : ℕ) : VaultRecordV1 :=
  signedRecord signer (.secretDeleted ⟨testSecretId, testSelector, counter⟩)

/-- Validate a list of records under the trusted root and a ratchet. -/
def validateWithRatchet (records : List VaultRecordV1) (ratchet : Ratchet) : ValidationReport :=
  validateVault transparentCrypto (.v1 ⟨records⟩) ratchet

def validate (records : List VaultRecordV1) : ValidationReport :=
  validateWithRatchet records freshRatchet

end Thorax.TestSupport
