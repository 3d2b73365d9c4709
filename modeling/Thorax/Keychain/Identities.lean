import Thorax.Crypto
import Thorax.Errors
import Thorax.Keychain.Migration

/-!
# Identities under a passphrase

An identity is its master seed: its keys and its user id derive from it. The keychain seals the seed
under a key that is derived from a passphrase, for one root and one user, and unlocking opens it
again. Beside it an identity may be injected, which is taken only where none is stored.
-/

namespace Thorax.Keychain

open Durable

def masterSeedLen : ℕ := 32
def passphraseSaltLen : ℕ := 16
def passphraseNonceLen : ℕ := 12
def argon2MemoryCostKib : ℕ := 64 * 1024
def argon2Iterations : ℕ := 3
def argon2Parallelism : ℕ := 1
def minArgon2MemoryCostKib : ℕ := 8 * 1024
def maxArgon2MemoryCostKib : ℕ := 256 * 1024
def maxArgon2Iterations : ℕ := 10
def maxArgon2Parallelism : ℕ := 8

/-- What is sealed: the seed is the whole identity. -/
structure LocalIdentityV1 where
  masterSeed : Bytes
  deriving DecidableEq

inductive IdentityError where
  | keychain (source : KeychainError)
  | crypto (source : CryptoError)
  | identityNotFound (userId : UserId)
  | invalidIdentity (userId : UserId)
  | unlockFailed
  | passphraseProvider (reason : String)
  | passphraseMismatch
  | identityProvider (reason : String)
  | invalidKdfParameters
  | argon2 (reason : String)
  | noKeychainAvailable (userId : UserId)
  deriving DecidableEq

/-- The derivation of keys, the password hash and the cipher. What the cipher has sealed it opens
with the same key, nonce and associated data. -/
structure IdentityProvider extends KeychainProvider where
  crypto : CryptoProvider
  localCodec : Codec LocalIdentityV1
  serializeAad : HashValue → UserId → Except CordError Bytes
  /-- The signing and the HPKE public key of a seed. -/
  expandKeys : Bytes → Except CryptoError (Bytes × Bytes)
  hashPassword : String → Bytes → KdfParamsV1 → Except String Bytes
  /-- Key, nonce, associated data and text. -/
  encrypt : Bytes → Bytes → Bytes → Bytes → Option Bytes
  decrypt : Bytes → Bytes → Bytes → Bytes → Option Bytes
  decrypt_encrypt : ∀ {key nonce aad plaintext ciphertext},
    encrypt key nonce aad plaintext = some ciphertext →
      decrypt key nonce aad ciphertext = some plaintext

/-- What a request asks for. Its labels and its purpose only show in the prompt. -/
structure KeychainRequest where
  trustedRoot : HashValue
  userId : UserId

structure KeychainIdentityRef where
  backend : String
  trustedRoot : HashValue
  userId : UserId
  path : Option KeychainPath
  deriving DecidableEq

structure PassphraseProvider where
  requestPassphrase : KeychainRequest → Except IdentityError String
  requestNewPassphrase : KeychainRequest → Except IdentityError String

abbrev ManualIdentityProvider := KeychainRequest → Except IdentityError (Option LocalIdentityV1)

/-- The salt and the nonce that a sealing draws. -/
structure SealRandomness where
  salt : Bytes
  nonce : Bytes
  length_salt : salt.length = passphraseSaltLen
  length_nonce : nonce.length = passphraseNonceLen

section Identities

variable (provider : IdentityProvider)

/-! ### Identities -/

def deriveIdentityKeys (masterSeed : Bytes) : Except CryptoError (Bytes × Bytes) :=
  if masterSeed.length ≠ masterSeedLen then
    .error (.invalidLength "identity master seed" masterSeedLen masterSeed.length)
  else provider.expandKeys masterSeed

/-- An identity: its public keys are those of its seed. -/
structure Identity where
  masterSeed : Bytes
  signingPublicKey : Bytes
  hpkePublicKey : Bytes
  derived : deriveIdentityKeys provider masterSeed = .ok (signingPublicKey, hpkePublicKey)

variable {provider} in
def Identity.userId (self : Identity provider) : UserId :=
  deriveUserId provider.crypto self.signingPublicKey self.hpkePublicKey

def Identity.fromMasterSeed (masterSeed : Bytes) : Except CryptoError (Identity provider) :=
  match h : deriveIdentityKeys provider masterSeed with
  | .ok keys => .ok ⟨masterSeed, keys.1, keys.2, h⟩
  | .error source => .error source

variable {provider} in
def localIdentityFromIdentity (identity : Identity provider) : LocalIdentityV1 :=
  ⟨identity.masterSeed⟩

def identityFromLocal (own : LocalIdentityV1) : Except IdentityError (Identity provider) :=
  (Identity.fromMasterSeed provider own.masterSeed).mapError .crypto

lemma Identity.eq_of_masterSeed {identity other : Identity provider}
    (h : identity.masterSeed = other.masterSeed) : identity = other := by
  obtain ⟨seed, signing, hpke, hderived⟩ := identity
  obtain ⟨seed', signing', hpke', hderived'⟩ := other
  obtain rfl : seed = seed' := h
  obtain ⟨rfl, rfl⟩ := Prod.mk.inj (Except.ok.inj (hderived.symm.trans hderived'))
  rfl

lemma Identity.fromMasterSeed_eq_ok {masterSeed : Bytes} {identity : Identity provider} :
    Identity.fromMasterSeed provider masterSeed = .ok identity ↔
      identity.masterSeed = masterSeed := by
  unfold Identity.fromMasterSeed
  constructor
  · intro h
    split at h
    · cases h
      rfl
    · cases h
  · rintro rfl
    split
    · exact congrArg Except.ok (Identity.eq_of_masterSeed provider rfl)
    next hfailed =>
      rw [identity.derived] at hfailed
      cases hfailed

/-- An identity comes back from its seed, and from no other. -/
@[simp] lemma identityFromLocal_eq_ok {own : LocalIdentityV1} {identity : Identity provider} :
    identityFromLocal provider own = .ok identity ↔ own = localIdentityFromIdentity identity := by
  rw [identityFromLocal, mapError_eq_ok, Identity.fromMasterSeed_eq_ok]
  obtain ⟨seed⟩ := own
  simp [localIdentityFromIdentity, eq_comm]

/-! ### Sealing and opening -/

def defaultKdfParams : KdfParamsV1 where
  algorithm := "argon2id-v1.3"
  memoryCostKib := argon2MemoryCostKib
  iterations := argon2Iterations
  parallelism := argon2Parallelism

/-- The key of a passphrase. The parameters come from a file, and are checked before they are
used. -/
def derivePassphraseKey (passphrase : String) (salt : Bytes) (kdf : KdfParamsV1) :
    Except IdentityError Bytes :=
  if kdf.algorithm ≠ "argon2id-v1.3" ∨ salt.length ≠ passphraseSaltLen ∨
      ¬ (minArgon2MemoryCostKib ≤ kdf.memoryCostKib ∧
        kdf.memoryCostKib ≤ maxArgon2MemoryCostKib) ∨
      ¬ (1 ≤ kdf.iterations ∧ kdf.iterations ≤ maxArgon2Iterations) ∨
      ¬ (1 ≤ kdf.parallelism ∧ kdf.parallelism ≤ maxArgon2Parallelism) then
    .error .invalidKdfParameters
  else (provider.hashPassword passphrase salt kdf).mapError .argon2

def envelopeAadBytes (trustedRoot : HashValue) (user : UserId) : Except IdentityError Bytes :=
  (provider.serializeAad trustedRoot user).mapError fun source => .keychain (.cord source)

def sealLocalIdentity (random : SealRandomness) (passphrase : String) (trustedRoot : HashValue)
    (userId : UserId) (own : LocalIdentityV1) : Except IdentityError SealedIdentityV1 := do
  let kdf := defaultKdfParams
  let plaintext ← (provider.localCodec.serialize own).mapError fun source => .keychain (.cord source)
  let aad ← envelopeAadBytes provider trustedRoot userId
  let key ← derivePassphraseKey provider passphrase random.salt kdf
  match provider.encrypt key random.nonce aad plaintext with
  | none => .error .unlockFailed
  | some ciphertext => .ok ⟨trustedRoot, userId, kdf, random.salt, random.nonce, ciphertext⟩

def openLocalIdentity (passphrase : String) (trustedRoot : HashValue) (user : UserId)
    (envelope : SealedIdentityV1) : Except IdentityError LocalIdentityV1 := do
  if envelope.trustedRoot ≠ trustedRoot ∨ envelope.userId ≠ user ∨
      envelope.nonce.length ≠ passphraseNonceLen then
    .error (.invalidIdentity user)
  else do
    let aad ← envelopeAadBytes provider envelope.trustedRoot envelope.userId
    let key ← derivePassphraseKey provider passphrase envelope.salt envelope.kdf
    match provider.decrypt key envelope.nonce aad envelope.ciphertext with
    | none => .error .unlockFailed
    | some plaintext =>
      (provider.localCodec.deserialize plaintext).mapError fun source => .keychain (.cord source)

/-! ### The keychain of passphrases -/

/-- An operation on the files, whose errors are among those of the keychain. -/
def onFiles {α : Type} (program : Program KeychainFiles KeychainError α) :
    Program KeychainFiles IdentityError α :=
  program.zoom id (fun files _ => files) .keychain

def storeIdentity (passphrases : PassphraseProvider) (random : SealRandomness)
    (request : KeychainRequest) (identity : Identity provider) :
    Program KeychainFiles IdentityError KeychainIdentityRef := do
  .ensure (request.userId = identity.userId) (.invalidIdentity request.userId)
  let own := localIdentityFromIdentity identity
  let passphrase ← .read fun _ => passphrases.requestNewPassphrase request
  let sealed ← .read fun _ =>
    sealLocalIdentity provider random passphrase request.trustedRoot identity.userId own
  let path := identityPath request.trustedRoot identity.userId
  onFiles (migrateRootCombinedLocked provider.toKeychainProvider request.trustedRoot)
  onFiles (writeIdentityExact provider.toKeychainProvider request.trustedRoot path identity.userId
    sealed)
  let restored ← .read fun _ => identityFromLocal provider own
  .ensure (restored.userId = identity.userId) (.invalidIdentity identity.userId)
  return ⟨"passphrase", request.trustedRoot, identity.userId, some path⟩

/-- The sealed identity of a request, wherever an earlier version has left it. -/
def findSealedIdentity (request : KeychainRequest) :
    Program KeychainFiles IdentityError SealedIdentityV1 := do
  let path := identityPath request.trustedRoot request.userId
  onFiles (migrateRootCombinedLocked provider.toKeychainProvider request.trustedRoot)
  let split ← onFiles (.read fun files =>
    readIdentityAt provider.toKeychainProvider files request.trustedRoot path request.userId)
  .skipWhen split.isSome (onFiles (migrateLegacyUserLocked provider.toKeychainProvider
    request.trustedRoot (legacyIdentityPath request.userId)))
  let split ← onFiles (.read fun files =>
    readIdentityAt provider.toKeychainProvider files request.trustedRoot path request.userId)
  .read fun _ =>
    match split with
    | none => .error (.identityNotFound request.userId)
    | some sealed => .ok sealed

def unlockIdentity (passphrases : PassphraseProvider) (request : KeychainRequest) :
    Program KeychainFiles IdentityError (Identity provider) := do
  let sealed ← findSealedIdentity provider request
  let passphrase ← .read fun _ => passphrases.requestPassphrase request
  let own ← .read fun _ =>
    openLocalIdentity provider passphrase request.trustedRoot request.userId sealed
  .read fun _ => identityFromLocal provider own

/-! ### Injected identities -/

def manualUnlockIdentity (manual : ManualIdentityProvider) (request : KeychainRequest) :
    Except IdentityError (Identity provider) := do
  match ← manual request with
  | none => .error (.identityNotFound request.userId)
  | some own => do
    let identity ← identityFromLocal provider own
    -- nothing binds an injected seed to the request but its id
    if identity.userId ≠ request.userId then .error (.invalidIdentity request.userId)
    else .ok identity

/-- Only a missing identity lets an injected one in. -/
def autoUnlockIdentity (passphrases : PassphraseProvider) (manual : ManualIdentityProvider)
    (request : KeychainRequest) : Program KeychainFiles IdentityError (Identity provider) :=
  (unlockIdentity provider passphrases request).orElse fun
    | .identityNotFound _ => .read fun _ =>
      match manualUnlockIdentity provider manual request with
      | .ok identity => .ok identity
      | .error (.identityNotFound _) => .error (.noKeychainAvailable request.userId)
      | .error error => .error error
    | error => .fail error

/-! ### The selected user -/

def readCurrentUser (trustedRoot : HashValue) :
    Program KeychainFiles KeychainError (Option CurrentUserV1) := do
  migrateRootCombinedLocked provider.toKeychainProvider trustedRoot
  .read fun files =>
    readCurrentUserAt provider.toKeychainProvider files (currentUserPath trustedRoot)

def writeCurrentUser (trustedRoot : HashValue) (current : Option CurrentUserV1) :
    Program KeychainFiles KeychainError Unit := do
  migrateRootCombinedLocked provider.toKeychainProvider trustedRoot
  match current with
  | some current =>
    writeCurrentUserExact provider.toKeychainProvider (currentUserPath trustedRoot) current
  | none => removeFileDurable (currentUserPath trustedRoot)

end Identities

end Thorax.Keychain
