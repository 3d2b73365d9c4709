import Thorax.Keychain.Identities
import Thorax.Properties.KeychainMigration

/-!
# What is stored in the keychain unlocks

Whatever the keychain does, and wherever it is cut off, it leaves an identity file alone that it
was not asked to store, and it never brings back a keychain of an earlier version. So an identity
that was stored goes on being found where it lies, and its passphrase opens it. And whatever lies
in the files, nothing else unlocks: an injected identity is taken only where none can be read.
-/

namespace Thorax.Keychain

open Durable Program

variable {provider : IdentityProvider} {trustedRoot : HashValue} {user : UserId}
  {files before after : KeychainFiles}

/-! ### Sealing -/

lemma sealLocalIdentity_eq_ok {random : SealRandomness} {passphrase : String}
    {own : LocalIdentityV1} {sealed : SealedIdentityV1} :
    sealLocalIdentity provider random passphrase trustedRoot user own = .ok sealed ↔
      ∃ plaintext aad key ciphertext, provider.localCodec.serialize own = .ok plaintext ∧
        provider.serializeAad trustedRoot user = .ok aad ∧
        derivePassphraseKey provider passphrase random.salt defaultKdfParams = .ok key ∧
        provider.encrypt key random.nonce aad plaintext = some ciphertext ∧
        sealed = ⟨trustedRoot, user, defaultKdfParams, random.salt, random.nonce, ciphertext⟩ := by
  simp only [sealLocalIdentity, envelopeAadBytes, bind_eq_ok, mapError_eq_ok]
  constructor
  · rintro ⟨plaintext, hplaintext, aad, haad, key, hkey, h⟩
    cases hcipher : provider.encrypt key random.nonce aad plaintext with
    | none => simp [hcipher] at h
    | some ciphertext =>
      simp only [hcipher, Except.ok.injEq] at h
      exact ⟨plaintext, aad, key, ciphertext, hplaintext, haad, hkey, hcipher, h.symm⟩
  · rintro ⟨plaintext, aad, key, ciphertext, hplaintext, haad, hkey, hcipher, rfl⟩
    exact ⟨plaintext, hplaintext, aad, haad, key, hkey, by simp [hcipher]⟩

lemma openLocalIdentity_eq_ok {passphrase : String} {envelope : SealedIdentityV1}
    {own : LocalIdentityV1} :
    openLocalIdentity provider passphrase trustedRoot user envelope = .ok own ↔
      (envelope.trustedRoot = trustedRoot ∧ envelope.userId = user ∧
        envelope.nonce.length = passphraseNonceLen) ∧
      ∃ aad key plaintext, provider.serializeAad trustedRoot user = .ok aad ∧
        derivePassphraseKey provider passphrase envelope.salt envelope.kdf = .ok key ∧
        provider.decrypt key envelope.nonce aad envelope.ciphertext = some plaintext ∧
        provider.localCodec.deserialize plaintext = .ok own := by
  simp only [openLocalIdentity, envelopeAadBytes]
  split_ifs with hmismatch
  · simp only [false_iff]
    rintro ⟨⟨hroot, huser, hnonce⟩, -⟩
    rcases hmismatch with h | h | h
    · exact h hroot
    · exact h huser
    · exact h hnonce
  · simp only [not_or, not_not] at hmismatch
    obtain ⟨rfl, rfl, hnonce⟩ := hmismatch
    simp only [bind_eq_ok, mapError_eq_ok, hnonce, and_self, true_and]
    constructor
    · rintro ⟨aad, haad, key, hkey, h⟩
      cases hplain : provider.decrypt key envelope.nonce aad envelope.ciphertext with
      | none => simp [hplain] at h
      | some plaintext =>
        simp only [hplain, mapError_eq_ok] at h
        exact ⟨aad, key, plaintext, haad, hkey, hplain, h⟩
    · rintro ⟨aad, key, plaintext, haad, hkey, hplain, h⟩
      exact ⟨aad, haad, key, hkey, by simp [hplain, h]⟩

/-- What was sealed opens again under its passphrase. -/
lemma openLocalIdentity_sealLocalIdentity {random : SealRandomness} {passphrase : String}
    {own : LocalIdentityV1} {sealed : SealedIdentityV1}
    (h : sealLocalIdentity provider random passphrase trustedRoot user own = .ok sealed) :
    openLocalIdentity provider passphrase trustedRoot user sealed = .ok own := by
  obtain ⟨plaintext, aad, key, ciphertext, hplaintext, haad, hkey, hcipher, rfl⟩ :=
    sealLocalIdentity_eq_ok.mp h
  exact openLocalIdentity_eq_ok.mpr ⟨⟨rfl, rfl, random.length_nonce⟩, aad, key, plaintext, haad,
    hkey, provider.decrypt_encrypt hcipher, provider.localCodec.roundTrip hplaintext⟩

/-! ### What is left alone -/

/-- The identity file of the user is as it was, if there was one, and no keychain of an earlier
version has come. -/
structure Spares (trustedRoot : HashValue) (user : UserId) (before after : KeychainFiles) :
    Prop where
  identity : (before (identityPath trustedRoot user)).isSome →
    after (identityPath trustedRoot user) = before (identityPath trustedRoot user)
  sources : ∀ path, path.file = .keychain → before path = none → after path = none

instance : IsPreorder KeychainFiles (Spares trustedRoot user) where
  refl _ := ⟨fun _ => rfl, fun _ _ h => h⟩
  trans before between after h h' := by
    refine ⟨fun hsome => ?_, fun path hpath hnone => h'.sources path hpath
      (h.sources path hpath hnone)⟩
    have hsame := h.identity hsome
    rw [h'.identity (hsame ▸ hsome), hsame]

/-- A change of another file than those. -/
lemma spares_update {path : KeychainPath} (content : Option Bytes)
    (hne : path ≠ identityPath trustedRoot user) (hsplit : path.file ≠ .keychain) :
    Spares trustedRoot user files (Function.update files path content) where
  identity _ := Function.update_of_ne hne.symm _ _
  sources other hother hnone := by
    have hne : other ≠ path := by
      rintro rfl
      exact hsplit hother
    rwa [Function.update_of_ne hne]

lemma KeepsSplit.identity (h : KeepsSplit before after)
    (hsome : (before (identityPath trustedRoot user)).isSome) :
    after (identityPath trustedRoot user) = before (identityPath trustedRoot user) :=
  h.eq_of_isSome (by simp [identityPath]) hsome

lemma spares_of_migration {migration : Migration} {root : HashValue}
    (h : (migration.run provider.toKeychainProvider root).Leaves before after) :
    Spares trustedRoot user before after where
  identity := (carries_of_leaves h).split.identity
  sources path hpath hnone := by
    by_cases hsource : path = migration.source root
    · -- without its source the migration does nothing
      have hrests := @rests_of_none provider.toKeychainProvider _ _ _ (hsource ▸ hnone)
      rw [hrests.leaves h, hnone]
    · rcases (achieves_run migration before).leaves h with hgrows | ⟨_, hfinished⟩
      · rw [hgrows.sources path hpath, hnone]
      · obtain ⟨grown, hgrows, hbeside⟩ := hfinished.grows
        rw [hbeside path hsource, hgrows.sources path hpath, hnone]

/-! ### Operations -/

lemma advances_onFiles {R : KeychainFiles → KeychainFiles → Prop} [IsPreorder KeychainFiles R]
    {α : Type} {program : Program KeychainFiles KeychainError α}
    (h : Program.Advances R program files fun _ _ => True) :
    Program.Advances R (onFiles program) files fun _ _ => True := by
  rw [Program.Advances, Achieves] at h
  rw [Program.Advances, Achieves, onFiles, meets_zoom]
  refine h.mono (fun _ h => h) fun r t ht => ?_
  cases r with
  | error e => exact ht
  | ok a => exact ht

lemma advances_migration (migration : Migration) (root : HashValue) :
    Program.Advances (Spares trustedRoot user) (migration.run provider.toKeychainProvider root)
      files fun _ _ => True :=
  advances_of_leaves fun _ => spares_of_migration

lemma advances_writePrivate {path : KeychainPath} (bytes : Bytes)
    (hne : path ≠ identityPath trustedRoot user) (hsplit : path.file ≠ .keychain) :
    Program.Advances (Spares trustedRoot user) (writePrivateAtomic path bytes) files
      fun _ _ => True :=
  advances_write (spares_update (some bytes) hne hsplit) trivial

lemma spares_writeIdentityExact {root : HashValue} {other : UserId} {sealed : SealedIdentityV1}
    (hne : identityPath root other ≠ identityPath trustedRoot user) :
    Program.Advances (Spares trustedRoot user) (writeIdentityExact provider.toKeychainProvider root
      (identityPath root other) other sealed) files fun _ _ => True := by
  apply advances_ensure_bind
  intro _
  apply advances_read_bind
  intro bytes _
  apply advances_ensure_bind
  intro _
  apply advances_bind (advances_writePrivate bytes hne (by simp [identityPath]))
  intro _ _ _
  apply advances_read_bind
  intro _ _
  exact advances_ensure fun _ => trivial

lemma spares_writeCurrentUserExact {root : HashValue} {current : CurrentUserV1} :
    Program.Advances (Spares trustedRoot user) (writeCurrentUserExact provider.toKeychainProvider
      (currentUserPath root) current) files fun _ _ => True := by
  have hne : currentUserPath root ≠ identityPath trustedRoot user := by
    simp [currentUserPath, identityPath]
  apply advances_read_bind
  intro bytes _
  apply advances_ensure_bind
  intro _
  apply advances_bind (advances_writePrivate bytes hne (by simp [currentUserPath]))
  intro _ _ _
  apply advances_read_bind
  intro _ _
  exact advances_ensure fun _ => trivial

/-- What the keychain is used for. -/
inductive Operation (provider : IdentityProvider) where
  | store (passphrases : PassphraseProvider) (random : SealRandomness) (request : KeychainRequest)
      (identity : Identity provider)
  | unlock (passphrases : PassphraseProvider) (manual : ManualIdentityProvider)
      (request : KeychainRequest)
  | readCurrentUser (trustedRoot : HashValue)
  | writeCurrentUser (trustedRoot : HashValue) (current : Option CurrentUserV1)

def Operation.run : Operation provider → Program KeychainFiles IdentityError Unit
  | .store passphrases random request identity => do
    let _ ← storeIdentity provider passphrases random request identity
  | .unlock passphrases manual request => do
    let _ ← autoUnlockIdentity provider passphrases manual request
  | .readCurrentUser trustedRoot => do
    let _ ← onFiles (Keychain.readCurrentUser provider trustedRoot)
  | .writeCurrentUser trustedRoot current =>
    onFiles (Keychain.writeCurrentUser provider trustedRoot current)

/-- The operation is asked to store an identity of the user for the root. -/
def Operation.Stores (trustedRoot : HashValue) (user : UserId) : Operation provider → Prop
  | .store _ _ request _ => request.trustedRoot = trustedRoot ∧ request.userId = user
  | _ => False

lemma spares_storeIdentity {passphrases : PassphraseProvider} {random : SealRandomness}
    {request : KeychainRequest} {identity : Identity provider}
    (hother : ¬ (request.trustedRoot = trustedRoot ∧ request.userId = user)) :
    Program.Advances (Spares trustedRoot user)
      (storeIdentity provider passphrases random request identity) files fun _ _ => True := by
  apply advances_ensure_bind
  intro hown
  have hne : identityPath request.trustedRoot identity.userId ≠ identityPath trustedRoot user := by
    rw [← of_decide_eq_true hown]
    simpa [identityPath] using hother
  apply advances_read_bind
  intro passphrase _
  apply advances_read_bind
  intro sealed _
  apply advances_bind (advances_onFiles (advances_migration .combined _))
  intro _ _ _
  apply advances_bind (advances_onFiles (spares_writeIdentityExact hne))
  intro _ _ _
  apply advances_read_bind
  intro restored _
  apply advances_ensure_bind
  intro _
  exact advances_pure trivial

lemma spares_findSealedIdentity {request : KeychainRequest} :
    Program.Advances (Spares trustedRoot user) (findSealedIdentity provider request) files
      fun _ _ => True := by
  apply advances_bind (advances_onFiles (advances_migration .combined _))
  intro _ _ _
  apply advances_bind (advances_onFiles (advances_read fun _ _ => trivial))
  intro split _ _
  apply advances_bind (advances_skipWhen (fun _ => trivial)
    (advances_onFiles (advances_migration (.legacy request.userId) _)))
  intro _ _ _
  apply advances_bind (advances_onFiles (advances_read fun _ _ => trivial))
  intro _ _ _
  exact advances_read fun _ _ => trivial

lemma spares_unlockIdentity {passphrases : PassphraseProvider} {request : KeychainRequest} :
    Program.Advances (Spares trustedRoot user) (unlockIdentity provider passphrases request) files
      fun _ _ => True := by
  apply advances_bind spares_findSealedIdentity
  intro sealed _ _
  apply advances_read_bind
  intro passphrase _
  apply advances_read_bind
  intro own _
  exact advances_read fun _ _ => trivial

lemma spares_autoUnlockIdentity {passphrases : PassphraseProvider}
    {manual : ManualIdentityProvider} {request : KeychainRequest} :
    Program.Advances (Spares trustedRoot user)
      (autoUnlockIdentity provider passphrases manual request) files fun _ _ => True := by
  apply advances_orElse spares_unlockIdentity
  intro error t
  cases error with
  | identityNotFound _ => exact advances_read fun _ _ => trivial
  | _ => exact advances_fail

lemma spares_readCurrentUser {root : HashValue} :
    Program.Advances (Spares trustedRoot user) (readCurrentUser provider root) files
      fun _ _ => True := by
  apply advances_bind (advances_migration .combined root)
  intro _ _ _
  exact advances_read fun _ _ => trivial

/-- Only storing an identity of the user for the root changes what is stored of it. -/
lemma spares_run {operation : Operation provider} (hother : ¬ operation.Stores trustedRoot user) :
    Program.Advances (Spares trustedRoot user) operation.run files fun _ _ => True := by
  cases operation with
  | store passphrases random request identity =>
    exact advances_bind (spares_storeIdentity hother) fun _ _ _ => advances_pure trivial
  | unlock passphrases manual request =>
    apply advances_bind spares_autoUnlockIdentity
    exact fun _ _ _ => advances_pure trivial
  | readCurrentUser root =>
    apply advances_bind (advances_onFiles spares_readCurrentUser)
    exact fun _ _ _ => advances_pure trivial
  | writeCurrentUser root current =>
    apply advances_onFiles
    apply advances_bind (advances_migration .combined root)
    intro _ _ _
    cases current with
    | some current => exact spares_writeCurrentUserExact
    | none =>
      exact advances_write (spares_update none (by simp [currentUserPath, identityPath])
        (by simp [currentUserPath])) trivial

/-! ### What lies in the keychain -/

@[simp] lemma ends_onFiles {α : Type} {program : Program KeychainFiles KeychainError α} {a : α} :
    (onFiles program).Ends before a after ↔ program.Ends before a after := by
  simp [onFiles]

/-- A combined keychain is gone once it has been taken apart. -/
lemma none_of_migrated {root : HashValue}
    (h : (migrateRootCombinedLocked provider.toKeychainProvider root).Ends before () after) :
    after (keychainPath root) = none := by
  simp only [migrateRootCombinedLocked, ends_bind, ends_read, ends_skipWhen, Except.ok.injEq] at h
  obtain ⟨present, _, ⟨rfl, rfl⟩, h⟩ := h
  split at h
  next habsent =>
    subst h
    simpa using habsent
  next =>
    -- the source is removed last
    simp only [splitCombined, ends_bind, removeFileDurable, ends_write] at h
    obtain ⟨_, _, _, _, _, _, _, _, _, _, _, _, _, _, _, _, _, _, _, _, _, rfl⟩ := h
    exact Function.update_self _ _ _

/-- The identity lies in its own file, and its root has no combined keychain. -/
structure Settled (provider : IdentityProvider) (files : KeychainFiles)
    (sealed : SealedIdentityV1) : Prop where
  holds : HoldsIdentity provider.toKeychainProvider files sealed
  absent : files (keychainPath sealed.trustedRoot) = none

lemma Settled.of_spares {sealed : SealedIdentityV1} (h : Settled provider before sealed)
    (hspares : Spares sealed.trustedRoot sealed.userId before after) :
    Settled provider after sealed where
  holds := by
    have hsame := hspares.identity (isSome_of_readIdentityAt h.holds)
    have hholds := h.holds
    rwa [HoldsIdentity, ← readIdentityAt_congr hsame] at hholds
  absent := hspares.sources _ rfl h.absent

lemma ends_writeIdentityExact {path : KeychainPath} {sealed : SealedIdentityV1}
    (h : (writeIdentityExact provider.toKeychainProvider trustedRoot path user sealed).Ends before
      () after) : (sealed.trustedRoot = trustedRoot ∧ sealed.userId = user) ∧
      (∃ bytes, after = Function.update before path (some bytes)) ∧
      readIdentityAt provider.toKeychainProvider after trustedRoot path user =
        .ok (some sealed) := by
  simp only [writeIdentityExact, writePrivateAtomic, ends_bind, ends_ensure, ends_read, ends_write,
    decide_eq_true_eq] at h
  obtain ⟨-, _, ⟨hown, rfl⟩, bytes, _, ⟨-, rfl⟩, -, _, ⟨-, rfl⟩, -, _, rfl, written, _,
    ⟨hwritten, rfl⟩, rfl, rfl⟩ := h
  exact ⟨hown, ⟨bytes, rfl⟩, hwritten⟩

/-- A store that succeeds has sealed the identity under the new passphrase, and settled it. -/
lemma settled_of_storeIdentity {passphrases : PassphraseProvider} {random : SealRandomness}
    {request : KeychainRequest} {identity : Identity provider} {ref : KeychainIdentityRef}
    (h : (storeIdentity provider passphrases random request identity).Ends before ref after) :
    request.userId = identity.userId ∧ ∃ passphrase sealed,
      passphrases.requestNewPassphrase request = .ok passphrase ∧
      sealLocalIdentity provider random passphrase request.trustedRoot request.userId
        (localIdentityFromIdentity identity) = .ok sealed ∧ Settled provider after sealed := by
  simp only [storeIdentity, ends_bind, ends_ensure, ends_read, ends_onFiles, ends_pure,
    decide_eq_true_eq] at h
  obtain ⟨-, _, ⟨hown, rfl⟩, passphrase, _, ⟨hpassphrase, rfl⟩, sealed, _, ⟨hsealed, rfl⟩, ⟨⟩,
    migrated, hmigrated, ⟨⟩, written, hwritten, restored, _, ⟨-, rfl⟩, -, _, ⟨-, rfl⟩, -, rfl⟩ := h
  obtain ⟨⟨hroot, huser⟩, ⟨bytes, rfl⟩, hread⟩ := ends_writeIdentityExact hwritten
  refine ⟨hown, passphrase, sealed, hpassphrase, hown ▸ hsealed, ?_, ?_⟩
  · rwa [HoldsIdentity, hroot, huser]
  · rw [hroot, Function.update_of_ne (by simp [keychainPath, identityPath])]
    exact none_of_migrated hmigrated

lemma ends_migrated_of_none (h : files (keychainPath trustedRoot) = none) :
    (migrateRootCombinedLocked provider.toKeychainProvider trustedRoot).Ends files () files := by
  have hrests : (Migration.combined.run provider.toKeychainProvider trustedRoot).Rests files :=
    rests_of_none h
  exact hrests.2

/-- What is settled is found where it lies. -/
lemma Settled.ends_findSealedIdentity {request : KeychainRequest} {sealed : SealedIdentityV1}
    (h : Settled provider files sealed) (hroot : sealed.trustedRoot = request.trustedRoot)
    (huser : sealed.userId = request.userId) :
    (findSealedIdentity provider request).Ends files sealed files := by
  have hread := h.holds
  have habsent := h.absent
  rw [HoldsIdentity, hroot, huser] at hread
  rw [hroot] at habsent
  simp only [findSealedIdentity, ends_bind, ends_onFiles, ends_read, ends_skipWhen]
  refine ⟨(), files, ends_migrated_of_none habsent, some sealed, files, ⟨hread, rfl⟩, (), files,
    by simp, some sealed, files, ⟨hread, rfl⟩, rfl, rfl⟩

/-- What is stored unlocks. Once an identity has been stored for a root and a user, and however
often the keychain is used after that, by whichever operation, each of them finished or cut off
anywhere, as long as none of them stores an identity of that user for that root again: the
passphrase it was stored under unlocks that identity, and unlocking leaves the files as they
are. -/
theorem storedIdentity_unlocks (provider : IdentityProvider) {passphrases : PassphraseProvider}
    {random : SealRandomness} {request : KeychainRequest} {identity : Identity provider}
    {ref : KeychainIdentityRef} {before stored after : KeychainFiles}
    (hstored : (storeIdentity provider passphrases random request identity).Ends before ref stored)
    (hruns : Runs {program | ∃ operation : Operation provider,
      ¬ operation.Stores request.trustedRoot request.userId ∧ operation.run = program}
        stored after)
    (passphrases' : PassphraseProvider) (manual : ManualIdentityProvider)
    (hpassphrase : passphrases'.requestPassphrase request =
      passphrases.requestNewPassphrase request) :
    identity.userId = request.userId ∧
      (unlockIdentity provider passphrases' request).Ends after identity after ∧
      (autoUnlockIdentity provider passphrases' manual request).Ends after identity after := by
  obtain ⟨hown, passphrase, sealed, hnew, hsealed, hsettled⟩ := settled_of_storeIdentity hstored
  obtain ⟨_, _, _, _, -, -, -, -, hfields⟩ := sealLocalIdentity_eq_ok.mp hsealed
  have hroot : sealed.trustedRoot = request.trustedRoot := by rw [hfields]
  have huser : sealed.userId = request.userId := by rw [hfields]
  have hspares : Spares sealed.trustedRoot sealed.userId stored after := by
    apply hruns.keeps
    rintro _ ⟨operation, hother, rfl⟩ s t hleaves
    rw [hroot, huser]
    exact (spares_run hother).leaves hleaves
  have hunlock : (unlockIdentity provider passphrases' request).Ends after identity after := by
    simp only [unlockIdentity, ends_bind, ends_read, identityFromLocal_eq_ok]
    exact ⟨sealed, after, (hsettled.of_spares hspares).ends_findSealedIdentity hroot huser,
      passphrase, after, ⟨hpassphrase.trans hnew, rfl⟩, localIdentityFromIdentity identity, after,
      ⟨openLocalIdentity_sealLocalIdentity hsealed, rfl⟩, rfl, rfl⟩
  exact ⟨hown.symm, hunlock, ends_orElse.mpr (Or.inl hunlock)⟩

/-! ### What is never taken for the identity -/

/-- A keychain of an earlier version is missing or can be read, and holds no identity of the user
for the root. -/
def LacksIdentity (provider : IdentityProvider) (files : KeychainFiles) (request : KeychainRequest)
    (source : KeychainPath) : Prop :=
  ∃ records, readKeychainRecordsAt provider.toKeychainProvider files source = .ok records ∧
    ∀ sealed, .known (.identity sealed) ∈ records →
      ¬ (sealed.trustedRoot = request.trustedRoot ∧ sealed.userId = request.userId)

/-- No identity of the user for the root is stored: there is no file for it, damaged or not, and
neither of the keychains of earlier versions is damaged or holds it. -/
structure Missing (provider : IdentityProvider) (files : KeychainFiles)
    (request : KeychainRequest) : Prop where
  own : files (identityPath request.trustedRoot request.userId) = none
  combined : LacksIdentity provider files request (keychainPath request.trustedRoot)
  legacy : LacksIdentity provider files request (legacyIdentityPath request.userId)

lemma lacksIdentity_congr {request : KeychainRequest} {source : KeychainPath}
    (h : after source = before source) :
    LacksIdentity provider after request source ↔ LacksIdentity provider before request source := by
  simp only [LacksIdentity, readKeychainRecordsAt_congr h]

/-- A failure for want of an identity. -/
def IsNotFound {α : Type} (r : Except IdentityError α) : Prop :=
  ∃ userId, r = .error (.identityNotFound userId)

/-- What goes wrong with a file is not taken for a missing identity. -/
lemma not_isNotFound_onFiles {α : Type} {program : Program KeychainFiles KeychainError α} :
    ¬ IsNotFound (onFiles program files).result := by
  simp [IsNotFound, onFiles, zoom, mapError_eq_error]

/-- A migration that succeeds has read its source. -/
lemma reads_of_ends {migration : Migration}
    (h : (migration.run provider.toKeychainProvider trustedRoot).Ends before () after) :
    ∃ records, readKeychainRecordsAt provider.toKeychainProvider before
      (migration.source trustedRoot) = .ok records := by
  cases hsource : before (migration.source trustedRoot) with
  | none => exact ⟨[], by simp [readKeychainRecordsAt, readFileBounded, hsource]⟩
  | some bytes =>
    cases migration with
    | combined =>
      simp only [Migration.source] at hsource
      simp only [Migration.run, migrateRootCombinedLocked, splitCombined, ends_bind, ends_read,
        ends_skipWhen, Except.ok.injEq] at h
      obtain ⟨_, _, ⟨rfl, rfl⟩, h⟩ := h
      rw [hsource, Option.isSome_some, Bool.not_true, if_neg Bool.false_ne_true] at h
      obtain ⟨records, _, ⟨hrecords, -⟩, -⟩ := h
      exact ⟨records, hrecords⟩
    | legacy user =>
      simp only [Migration.source] at hsource
      simp only [Migration.run, migrateLegacyUserLocked, splitLegacy, ends_bind, ends_read,
        ends_skipWhen, Except.ok.injEq] at h
      obtain ⟨_, _, ⟨rfl, rfl⟩, h⟩ := h
      rw [hsource, Option.isSome_some, Bool.not_true, if_neg Bool.false_ne_true] at h
      obtain ⟨records, _, ⟨hrecords, -⟩, -⟩ := h
      exact ⟨records, hrecords⟩

lemma finished_of_ends {migration : Migration}
    (h : (migration.run provider.toKeychainProvider trustedRoot).Ends before () after) :
    Finished provider.toKeychainProvider trustedRoot migration before after :=
  Meets.ends (achieves_run migration before) h

/-- Where a migration leaves no file for the identity, its source did not hold it. -/
lemma lacksIdentity_of_ends {migration : Migration} {request : KeychainRequest}
    (h : (migration.run provider.toKeychainProvider request.trustedRoot).Ends before () after)
    (hnone : after (identityPath request.trustedRoot request.userId) = none) :
    LacksIdentity provider before request (migration.source request.trustedRoot) := by
  obtain ⟨records, hrecords⟩ := reads_of_ends h
  refine ⟨records, hrecords, fun sealed hmem ⟨hroot, huser⟩ => ?_⟩
  have htakes : migration.Takes request.trustedRoot (.known (.identity sealed)) := by
    cases migration <;> exact hroot
  have hholds : HoldsIdentity provider.toKeychainProvider after sealed :=
    (finished_of_ends h).taken _ ⟨records, hrecords, hmem⟩ htakes
  have hsome := isSome_of_readIdentityAt hholds
  rw [hroot, huser, hnone] at hsome
  cases hsome

lemma none_of_finished {migration : Migration}
    (h : Finished provider.toKeychainProvider trustedRoot migration before after)
    (hnone : after (identityPath trustedRoot user) = none) :
    before (identityPath trustedRoot user) = none := by
  cases hbefore : before (identityPath trustedRoot user) with
  | none => rfl
  | some bytes =>
    rw [h.carries.split _ bytes (by simp [identityPath]) hbefore] at hnone
    cases hnone

/-- A search that ends without an identity has looked at every place, and found each in order: both
migrations come first. -/
lemma missing_of_findSealedIdentity {request : KeychainRequest}
    (h : IsNotFound (findSealedIdentity provider request files).result) :
    Missing provider files request := by
  obtain ⟨userId, h⟩ := h
  rw [findSealedIdentity, result_bind_eq_error] at h
  obtain h | ⟨_, migrated, hcombined, h⟩ := h
  · exact absurd ⟨userId, h⟩ not_isNotFound_onFiles
  rw [result_bind_eq_error] at h
  obtain h | ⟨split, _, hsplit, h⟩ := h
  · exact absurd ⟨userId, h⟩ not_isNotFound_onFiles
  rw [ends_onFiles, ends_read] at hsplit
  obtain ⟨hsplit, rfl⟩ := hsplit
  rw [result_bind_eq_error] at h
  obtain h | ⟨_, taken, hlegacy, h⟩ := h
  · cases hsome : split.isSome with
    | true =>
      rw [hsome, skipWhen, if_pos rfl] at h
      cases h
    | false =>
      rw [hsome, skipWhen, if_neg Bool.false_ne_true] at h
      exact absurd ⟨userId, h⟩ not_isNotFound_onFiles
  rw [result_bind_eq_error] at h
  obtain h | ⟨found, _, hfound, h⟩ := h
  · exact absurd ⟨userId, h⟩ not_isNotFound_onFiles
  rw [ends_onFiles, ends_read] at hfound
  obtain ⟨hfound, rfl⟩ := hfound
  cases found with
  | some sealed => cases h
  | none =>
  -- nothing is found in the end, so nothing was found at first, and the second migration has run
  have hnone : taken (identityPath request.trustedRoot request.userId) = none := by
    simpa using isSome_of_readIdentityAt hfound
  rw [ends_onFiles] at hcombined
  cases split with
  | some sealed =>
    rw [Option.isSome_some, ends_skipWhen, if_pos rfl] at hlegacy
    subst hlegacy
    rw [hsplit] at hfound
    cases hfound
  | none =>
    rw [Option.isSome_none, ends_skipWhen, if_neg Bool.false_ne_true, ends_onFiles] at hlegacy
    change (Migration.combined.run _ _).Ends _ _ _ at hcombined
    change ((Migration.legacy request.userId).run _ _).Ends _ _ _ at hlegacy
    have hmigrated := none_of_finished (finished_of_ends hlegacy) hnone
    have hlacks := lacksIdentity_of_ends hcombined hmigrated
    refine ⟨none_of_finished (finished_of_ends hcombined) hmigrated, hlacks, ?_⟩
    by_cases hsame : legacyIdentityPath request.userId = keychainPath request.trustedRoot
    · rwa [hsame]
    · obtain ⟨grown, hgrows, hbeside⟩ := (finished_of_ends hcombined).grows
      have hkept := (hbeside _ hsame).trans (hgrows.sources _ rfl)
      exact (lacksIdentity_congr hkept).mp (lacksIdentity_of_ends hlegacy hnone)

lemma not_isNotFound_openLocalIdentity {passphrase : String} {envelope : SealedIdentityV1} :
    ¬ IsNotFound (openLocalIdentity provider passphrase trustedRoot user envelope) := by
  rintro ⟨missing, h⟩
  simp only [openLocalIdentity] at h
  split_ifs at h
  · cases h
  · simp only [envelopeAadBytes, derivePassphraseKey, bind_eq_error, mapError_eq_error] at h
    rcases h with ⟨_, -, h⟩ | ⟨aad, -, h | ⟨key, -, h⟩⟩
    · cases h
    · split_ifs at h
      · cases h
      · simp [mapError_eq_error] at h
    · split at h
      · cases h
      · simp [mapError_eq_error] at h

/-- Unlocking misses an identity only where a search for it does. -/
lemma missing_of_unlockIdentity {passphrases : PassphraseProvider} {request : KeychainRequest}
    (hprompt : ¬ IsNotFound (passphrases.requestPassphrase request))
    (h : IsNotFound (unlockIdentity provider passphrases request files).result) :
    Missing provider files request := by
  obtain ⟨missing, hfailed⟩ := h
  simp only [unlockIdentity, result_bind_eq_error, result_read] at hfailed
  rcases hfailed with hfailed | ⟨sealed, _, -, hfailed | ⟨passphrase, _, -, hfailed |
    ⟨own, _, -, hfailed⟩⟩⟩
  · exact missing_of_findSealedIdentity ⟨missing, hfailed⟩
  · exact absurd ⟨missing, hfailed⟩ hprompt
  · exact absurd ⟨missing, hfailed⟩ not_isNotFound_openLocalIdentity
  · simp [identityFromLocal, mapError_eq_error] at hfailed

/-- A sealing that a store has made. -/
structure StoredIdentity (provider : IdentityProvider) where
  trustedRoot : HashValue
  passphrase : String
  random : SealRandomness
  identity : Identity provider

/-- The cipher opens what the stores have sealed, under the same key and associated data, and
nothing else; the associated data of another root or user is another, and so is the key of another
passphrase. -/
structure Separates (provider : IdentityProvider) (stores : Set (StoredIdentity provider)) :
    Prop where
  opened : ∀ {key nonce aad plaintext ciphertext},
    provider.decrypt key nonce aad ciphertext = some plaintext → ∃ stored ∈ stores,
      derivePassphraseKey provider stored.passphrase stored.random.salt defaultKdfParams = .ok key ∧
      provider.serializeAad stored.trustedRoot stored.identity.userId = .ok aad ∧
      provider.localCodec.serialize (localIdentityFromIdentity stored.identity) = .ok plaintext
  aad : ∀ {root root' user user' bytes}, provider.serializeAad root user = .ok bytes →
    provider.serializeAad root' user' = .ok bytes → root = root' ∧ user = user'
  passphrase : ∀ {passphrase passphrase' salt salt' kdf kdf' key},
    provider.hashPassword passphrase salt kdf = .ok key →
      provider.hashPassword passphrase' salt' kdf' = .ok key → passphrase = passphrase'

lemma hashPassword_of_derivePassphraseKey {passphrase : String} {salt key : Bytes}
    {kdf : KdfParamsV1} (h : derivePassphraseKey provider passphrase salt kdf = .ok key) :
    provider.hashPassword passphrase salt kdf = .ok key := by
  simp only [derivePassphraseKey] at h
  split_ifs at h
  exact mapError_eq_ok.mp h

/-- What opens is what a store has sealed for that root and user under that passphrase. -/
lemma stored_of_openLocalIdentity {stores : Set (StoredIdentity provider)}
    (hseparates : Separates provider stores) {passphrase : String} {envelope : SealedIdentityV1}
    {own : LocalIdentityV1}
    (h : openLocalIdentity provider passphrase trustedRoot user envelope = .ok own) :
    ∃ stored ∈ stores, stored.trustedRoot = trustedRoot ∧ stored.identity.userId = user ∧
      stored.passphrase = passphrase ∧ localIdentityFromIdentity stored.identity = own := by
  obtain ⟨-, aad, key, plaintext, haad, hkey, hplain, hown⟩ := openLocalIdentity_eq_ok.mp h
  obtain ⟨stored, hmem, hkey', haad', hplain'⟩ := hseparates.opened hplain
  obtain ⟨hroot, huser⟩ := hseparates.aad haad' haad
  have hpassphrase := hseparates.passphrase (hashPassword_of_derivePassphraseKey hkey')
    (hashPassword_of_derivePassphraseKey hkey)
  have hread := provider.localCodec.roundTrip hplain'
  exact ⟨stored, hmem, hroot, huser, hpassphrase, Except.ok.inj (hread.symm.trans hown)⟩

lemma ends_unlockIdentity {passphrases : PassphraseProvider} {request : KeychainRequest}
    {identity : Identity provider}
    (h : (unlockIdentity provider passphrases request).Ends before identity after) :
    ∃ passphrase sealed, passphrases.requestPassphrase request = .ok passphrase ∧
      openLocalIdentity provider passphrase request.trustedRoot request.userId sealed =
        .ok (localIdentityFromIdentity identity) := by
  simp only [unlockIdentity, ends_bind, ends_read, identityFromLocal_eq_ok] at h
  obtain ⟨sealed, _, -, passphrase, _, ⟨hpassphrase, rfl⟩, own, _, ⟨hopen, rfl⟩, rfl, -⟩ := h
  exact ⟨passphrase, sealed, hpassphrase, hopen⟩

lemma manualUnlockIdentity_eq_ok {manual : ManualIdentityProvider} {request : KeychainRequest}
    {identity : Identity provider} :
    manualUnlockIdentity provider manual request = .ok identity ↔
      manual request = .ok (some (localIdentityFromIdentity identity)) ∧
        identity.userId = request.userId := by
  rw [manualUnlockIdentity, bind_eq_ok]
  constructor
  · rintro ⟨injected, hmanual, h⟩
    cases injected with
    | none => cases h
    | some own =>
      obtain ⟨found, hfound, h⟩ := bind_eq_ok.mp h
      split_ifs at h with hother
      obtain rfl := Except.ok.inj h
      rw [identityFromLocal_eq_ok] at hfound
      exact ⟨hfound ▸ hmanual, not_not.mp hother⟩
  · rintro ⟨hmanual, huser⟩
    refine ⟨_, hmanual, bind_eq_ok.mpr ⟨identity, (identityFromLocal_eq_ok provider).mpr rfl, ?_⟩⟩
    rw [if_neg (not_not.mpr huser)]

/-- What unlocks was stored. Whatever lies in the files of the keychain, an identity that unlocks is
the one asked for: it was stored for that root and user under the passphrase that was entered, or
it was injected. An injected identity is taken only where there is no file for the root and user
and both keychains of earlier versions are missing, or can be read and hold none: neither a wrong
passphrase nor a damaged file lets one in. The prompt is the application's, and must not itself
report a missing identity. -/
theorem unlocked_wasStored (provider : IdentityProvider) {stores : Set (StoredIdentity provider)}
    (hseparates : Separates provider stores) {passphrases : PassphraseProvider}
    {manual : ManualIdentityProvider} {request : KeychainRequest}
    (hprompt : ¬ IsNotFound (passphrases.requestPassphrase request)) {files after : KeychainFiles}
    {identity : Identity provider}
    (h : (autoUnlockIdentity provider passphrases manual request).Ends files identity after) :
    identity.userId = request.userId ∧
      ((∃ stored ∈ stores, stored.identity = identity ∧ stored.trustedRoot = request.trustedRoot ∧
          passphrases.requestPassphrase request = .ok stored.passphrase) ∨
        Missing provider files request ∧
          manual request = .ok (some (localIdentityFromIdentity identity))) := by
  rcases ends_orElse.mp h with hunlocked | ⟨e, hfailed, hmanual⟩
  · obtain ⟨passphrase, sealed, hpassphrase, hopen⟩ := ends_unlockIdentity hunlocked
    obtain ⟨stored, hmem, hroot, huser, rfl, hown⟩ := stored_of_openLocalIdentity hseparates hopen
    have hsame : stored.identity = identity :=
      Identity.eq_of_masterSeed provider (congrArg LocalIdentityV1.masterSeed hown)
    exact ⟨hsame ▸ huser, Or.inl ⟨stored, hmem, hsame, hroot, hpassphrase⟩⟩
  · cases e with
    | identityNotFound missing =>
      have hmissing := missing_of_unlockIdentity hprompt ⟨missing, hfailed⟩
      rw [ends_read] at hmanual
      cases hinjected : manualUnlockIdentity provider manual request with
      | ok found =>
        simp only [hinjected, Except.ok.injEq] at hmanual
        obtain ⟨rfl, -⟩ := hmanual
        obtain ⟨hrequest, huser⟩ := manualUnlockIdentity_eq_ok.mp hinjected
        exact ⟨huser, Or.inr ⟨hmissing, hrequest⟩⟩
      | error e =>
        simp only [hinjected] at hmanual
        split at hmanual
        · next heq => cases heq
        · exact absurd hmanual.1 (by simp)
        · exact absurd hmanual.1 (by simp)
    | _ => exact absurd hmanual not_ends_fail

section Example

open TestSupport

def testRandom : SealRandomness := ⟨List.replicate 16 0, List.replicate 12 0, rfl, rfl⟩

def sealedRootUser : SealedIdentityV1 :=
  ⟨testRoot, rootUser.id, defaultKdfParams, testRandom.salt, testRandom.nonce, [9]⟩

def testSeed : Bytes := List.replicate 32 7

/-- Two passphrases with keys, and a cipher that has sealed one seed under the first. -/
def testIdentities : IdentityProvider where
  toKeychainProvider := { testKeychain with
    identityCodec := tableCodec [sealedRootUser]
    currentUserCodec := tableCodec [⟨rootUser.id, none⟩] }
  crypto := transparentCrypto
  localCodec := tableCodec [⟨testSeed⟩]
  serializeAad root user := tablePosition [(testRoot, rootUser.id)] (root, user)
  expandKeys _ := .ok (rootUser.signingPublicKey, rootUser.hpkePublicKey)
  hashPassword passphrase _ _ :=
    (tablePosition ["right", "wrong"] passphrase).mapError fun _ => "out of memory"
  encrypt key _ aad plaintext :=
    if key = [0] ∧ aad = [0] ∧ plaintext = [0] then some [9] else none
  decrypt key _ aad ciphertext :=
    if key = [0] ∧ aad = [0] ∧ ciphertext = [9] then some [0] else none
  decrypt_encrypt := by
    intro key nonce aad plaintext ciphertext h
    split_ifs at h with hsealed
    cases h
    simp [hsealed]

def testIdentity : Identity testIdentities :=
  ⟨testSeed, rootUser.signingPublicKey, rootUser.hpkePublicKey, rfl⟩

def testRequest : KeychainRequest := ⟨testRoot, rootUser.id⟩

def typed (passphrase : String) : PassphraseProvider :=
  ⟨fun _ => .ok passphrase, fun _ => .ok passphrase⟩

def storedFiles : KeychainFiles :=
  (storeIdentity testIdentities (typed "right") testRandom testRequest testIdentity
    fun _ => none).last

def selectedFiles : KeychainFiles :=
  (Operation.run (.writeCurrentUser testRoot (some ⟨rootUser.id, none⟩) : Operation testIdentities)
    storedFiles).last

/-- A selector is written after the identity, and the identity unlocks. -/
theorem storedIdentity_unlocks_selected :
    (unlockIdentity testIdentities (typed "right") testRequest).Ends selectedFiles testIdentity
      selectedFiles := by
  have hstored : (storeIdentity testIdentities (typed "right") testRandom testRequest
      testIdentity).Ends (fun _ => none) ⟨"passphrase", testRoot, rootUser.id,
        some (identityPath testRoot rootUser.id)⟩ storedFiles := ⟨rfl, rfl⟩
  have hruns : Runs {program | ∃ operation : Operation testIdentities,
      ¬ operation.Stores testRequest.trustedRoot testRequest.userId ∧ operation.run = program}
        storedFiles selectedFiles :=
    .single ⟨_, ⟨.writeCurrentUser testRoot (some ⟨rootUser.id, none⟩), id, rfl⟩, Or.inr rfl⟩
  exact (storedIdentity_unlocks testIdentities hstored hruns (typed "right") (fun _ => .ok none)
    rfl).2.1

def testStore : StoredIdentity testIdentities := ⟨testRoot, "right", testRandom, testIdentity⟩

lemma separates_testStore : Separates testIdentities {testStore} where
  opened := by
    intro key nonce aad plaintext ciphertext h
    simp only [testIdentities] at h
    split_ifs at h with hsealed
    obtain ⟨rfl, rfl, -⟩ := hsealed
    cases h
    exact ⟨testStore, rfl, rfl, rfl, rfl⟩
  aad := fun h h' => Prod.mk.inj (tablePosition_injective h h')
  passphrase := fun h h' => tablePosition_injective (mapError_eq_ok.mp h) (mapError_eq_ok.mp h')

/-- The stored identity unlocks under its passphrase, with another one at hand to be injected. -/
theorem unlocked_wasStored_typed :
    ∃ stored ∈ ({testStore} : Set (StoredIdentity testIdentities)),
      stored.identity = testIdentity ∧ stored.passphrase = "right" := by
  have hunlocked : (autoUnlockIdentity testIdentities (typed "right")
      (fun _ => .ok (some ⟨List.replicate 32 8⟩)) testRequest).Ends storedFiles testIdentity
        storedFiles := ⟨rfl, rfl⟩
  have hprompt : ¬ IsNotFound ((typed "right").requestPassphrase testRequest) := by
    rintro ⟨_, h⟩
    cases h
  obtain ⟨-, ⟨stored, hmem, hsame, -, hpassphrase⟩ | ⟨-, hinjected⟩⟩ :=
    unlocked_wasStored testIdentities separates_testStore hprompt hunlocked
  · exact ⟨stored, hmem, hsame, (Except.ok.inj hpassphrase).symm⟩
  · cases Option.some.inj (Except.ok.inj hinjected)

end Example

end Thorax.Keychain
