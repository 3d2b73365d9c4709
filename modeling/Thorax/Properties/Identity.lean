import Thorax.Resolution.Served
import Thorax.TestSupport

/-!
# Attested identities

A user identifier commits to a signing key and an HPKE key, a signature attests to the signing
key only, and an entry point is the one record in which the holder of a signing key declares the
HPKE key that goes with it.
-/

namespace Thorax

open Collections
open Std (ExtTreeMap ExtTreeSet)

/-! ### Resolution of signing keys -/

section Signers

variable {crypto : CryptoProvider} {verified : BTreeSet HashValue} {root : SelectedRoot}
variable {records : List VaultRecordV1}

/-- A user is the only one to claim a key. -/
def SoleClaimant (crypto : CryptoProvider) (verified : BTreeSet HashValue) (root : SelectedRoot)
    (records : List VaultRecordV1) (key : Bytes) (user : UserId) : Prop :=
  ∀ other, Claims crypto verified (userBodies crypto records) root key other ↔ other = user

/-- Who claims a key is determined by which records there are. -/
lemma soleClaimant_congr {records' : List VaultRecordV1}
    (h : ∀ signed, signed ∈ records ↔ signed ∈ records') {key : Bytes} {user : UserId}
    (hsole : SoleClaimant crypto verified root records key user) :
    SoleClaimant crypto verified root records' key user := by
  have hsub : ∀ {l l' : List VaultRecordV1}, (∀ signed, signed ∈ l → signed ∈ l') →
      userBodies crypto l ⊆ userBodies crypto l' := by
    intro l l' hl entry hentry
    obtain ⟨hmem, hrest⟩ := mem_userBodies.mp hentry
    exact mem_userBodies.mpr ⟨hl _ hmem, hrest⟩
  intro other
  rw [← hsole other]
  exact ⟨Claims.mono (hsub fun signed => (h signed).mpr),
    Claims.mono (hsub fun signed => (h signed).mp)⟩

lemma mem_attestedUsers {user : UserId} :
    user ∈ attestedUsers crypto verified root.root.id records ↔
      ∃ signed ∈ records, attestation crypto verified root.root.id signed = some user := by
  simp [attestedUsers, mem_collectSet]

lemma attestation_eq_some {signed : VaultRecordV1} {rootId user : UserId} :
    attestation crypto verified rootId signed = some user ↔ ∃ entryPoint,
      signed.body = .known (.entryPoint entryPoint) ∧ entryPoint.trustedRootUserId = rootId ∧
      acceptsEnvelope crypto verified signed = true ∧
      deriveUserId crypto signed.signingPublicKey entryPoint.hpkePublicKey = user := by
  unfold attestation
  split
  · next entryPoint hbody =>
    simp only [Option.ite_none_right_eq_some, Option.some.injEq, hbody, Evolving.known.injEq,
      RecordBodyV1.entryPoint.injEq, exists_eq_left', and_assoc]
  · next hbody =>
    simp only [reduceCtorEq, false_iff, not_exists, not_and]
    exact fun entryPoint h => absurd h (hbody entryPoint)

/-- A resolved claimant is the only one, or attested. -/
lemma resolveClaimants_eq_some {attested claimants : BTreeSet UserId} {user : UserId}
    (h : resolveClaimants attested claimants = some user) :
    user ∈ claimants ∧ ((∀ other, other ∈ claimants ↔ other = user) ∨ user ∈ attested) := by
  unfold resolveClaimants at h
  split at h
  · next claimant hlist =>
    obtain rfl := Option.some.inj h
    have hmem : ∀ other, other ∈ claimants ↔ other = claimant := by
      intro other
      rw [← ExtTreeSet.mem_toList, hlist, List.mem_singleton]
    exact ⟨(hmem claimant).mpr rfl, Or.inl hmem⟩
  · split at h
    · next claimant hlist =>
      obtain rfl := Option.some.inj h
      have hin : claimant ∈ claimants.toList.filter (attested.contains ·) := by simp [hlist]
      obtain ⟨hcl, hatt⟩ := List.mem_filter.mp hin
      exact ⟨ExtTreeSet.mem_toList.mp hcl, Or.inr (ExtTreeSet.contains_iff_mem.mp hatt)⟩
    · cases h

/-- A key that is not the root's resolves to a claimant, who is the only one or attested. -/
lemma claims_of_signerForKey (hids : IdentitiesSeparate (userBodies crypto records) root)
    {key : Bytes} {user : UserId} (hne : user ≠ root.root.id)
    (h : (signerResolution crypto verified root records).signerForKey[key]? = some user) :
    Claims crypto verified (userBodies crypto records) root key user ∧
      (SoleClaimant crypto verified root records key user ∨
        user ∈ attestedUsers crypto verified root.root.id records) := by
  simp only [signerResolution, resolveSigners, ExtTreeMap.getElem?_insert,
    Std.LawfulEqCmp.compare_eq_iff_eq, ExtTreeMap.getElem?_filterMap'] at h
  by_cases hroot : root.signingPublicKey = key
  · rw [if_pos hroot] at h
    exact absurd (Option.some.inj h).symm hne
  · rw [if_neg hroot] at h
    obtain ⟨claimants, hcl, hres⟩ := Option.bind_eq_some_iff.mp h
    rw [if_neg (Ne.symm hroot)] at hres
    obtain ⟨hmem, hsole⟩ := resolveClaimants_eq_some hres
    have hspec := (claims_spec verified hids key).1
    simp only [hcl, Option.getD_some] at hspec
    refine ⟨(hspec user).mp hmem, hsole.imp_left fun hall other => ?_⟩
    rw [← hspec, hall]

end Signers

/-! ### Effective users -/

section Users

variable {crypto : CryptoProvider} {ratchet : Ratchet} {root : SelectedRoot}

/-- An effective user other than the root has a user record and an entry point of its own. -/
lemma records_of_effective_user {records : List VerifiedRecord} {id : UserId} {user : UserRecordV1}
    (h : (resolveRecords crypto ratchet root records).users[id]? = some user)
    (hne : id ≠ root.root.id) :
    (∃ record ∈ records, record.body = .user user ∧ user.id = id) ∧
      ∃ record ∈ records, (∃ entryPoint, record.body = .entryPoint entryPoint) ∧
        record.signer = id := by
  rw [(resolveRecords_fields crypto ratchet root records).1, finalState,
    resolveEffectiveWithDeletions, getElem?_effective_users, if_neg hne] at h
  obtain ⟨w, hw, hfilter⟩ := Option.bind_eq_some_iff.mp h
  obtain ⟨hbody, hattested⟩ := Option.filter_eq_some_iff.mp hfilter
  obtain ⟨hmem, _, _, hkey⟩ := View.mem_pool.mp (View.winner_mem_pool hw)
  obtain ⟨e, he, _, hentry, hsigner⟩ :=
    mem_entryPointUsers.mp (ExtTreeSet.contains_iff_mem.mp hattested)
  have hw' : w.body = .user user := by
    cases hb : w.body <;> simp_all [RecordBodyV1.user?]
  refine ⟨⟨w, hmem, hw', ?_⟩, e, he, hentry, hsigner⟩
  simpa [VerifiedRecord.key, hw', recordKeyFor] using hkey

/-- The key of a verified record is uncontested and resolves to its signer. -/
lemma resolves_of_verified {records : List VaultRecordV1} {verified : BTreeSet HashValue}
    {record : VerifiedRecord}
    (h : record ∈ (screenRecords crypto verified root records).verifiedRecords) :
    record.signed.signingPublicKey ∉
        (signerResolution crypto verified root records).contestedKeys ∧
      (signerResolution crypto verified root records).signerForKey[
        record.signed.signingPublicKey]? = some record.signer := by
  obtain ⟨signed, _, hjudged⟩ := mem_verifiedRecords.mp h
  obtain ⟨_, hsigned, _, _, hcontested, hresolves, _⟩ := judgeRecord_eq_verified.mp hjudged
  exact hsigned ▸ ⟨hcontested, hresolves⟩

/-- The identifier of a verified user record is derived from its keys. -/
lemma id_of_verified_user {records : List VaultRecordV1} {verified : BTreeSet HashValue}
    {record : VerifiedRecord} {user : UserRecordV1}
    (h : record ∈ (screenRecords crypto verified root records).verifiedRecords)
    (hbody : record.body = .user user) :
    user.id = deriveUserId crypto user.signingPublicKey user.hpkePublicKey := by
  have hstruct := structurallyValidateBody_of_record (structure_of_verified h)
  rw [hbody] at hstruct
  exact structurallyValidUser_iff.mp hstruct

end Users

/-! ### Attestation -/

section Attestation

variable (crypto : CryptoProvider) (root : SelectedRoot)

/-- An envelope in which the holder of a user's signing key vouches for the root and declares the
user's HPKE key. -/
def Attests (user : UserRecordV1) (signed : VaultRecordV1) : Prop :=
  ∃ entryPoint, signed.body = .known (.entryPoint entryPoint) ∧
    entryPoint.trustedRootUserId = root.root.id ∧ verifiesEnvelope crypto signed = true ∧
    signed.signingPublicKey = user.signingPublicKey ∧
    entryPoint.hpkePublicKey = user.hpkePublicKey

/-- A user whose keys are both declared by a verified entry point, so that the identifier is
derived from what the holder of the signing key signed. -/
def AttestedInFull (records : List VerifiedRecord) (user : UserRecordV1) : Prop :=
  ∃ record ∈ records, Attests crypto root user record.signed ∧
    ∃ entryPoint, record.body = .entryPoint entryPoint ∧
      deriveUserId crypto record.signed.signingPublicKey entryPoint.hpkePublicKey = user.id

/-- An entry point within the counter ceiling. -/
def WithinCeiling (signed : VaultRecordV1) : Prop :=
  ∀ body, signed.body = .known body → ∀ counter, body.lwwCounter = some counter →
    counter ≤ maxLwwCounter

variable {crypto root} {records : List VaultRecordV1} {user : UserRecordV1}

/-- Identifiers of pairings named in the vault determine the pairing. -/
lemma pairing_of_id (hcf : CollisionFree crypto records) {a b : VaultRecordV1} (ha : a ∈ records)
    (hb : b ∈ records) {key hpke key' hpke' : Bytes}
    (hka : (HashDomain.user, Canonical.userIdInput key hpke) ∈ recordPreimages a)
    (hkb : (HashDomain.user, Canonical.userIdInput key' hpke') ∈ recordPreimages b)
    (heq : deriveUserId crypto key hpke = deriveUserId crypto key' hpke') :
    key = key' ∧ hpke = hpke' := by
  have := hcf.eq_of_hash ha hb hka hkb (Id.mk.inj heq)
  exact Canonical.userIdInput.inj this

/-- A user who is attested is so by an envelope under its own signing key. -/
lemma attests_of_mem_attestedUsers (hcf : CollisionFree crypto records)
    {signed : VaultRecordV1} (hsigned : signed ∈ records)
    (hbody : signed.body = .known (.user user))
    (hid : user.id = deriveUserId crypto user.signingPublicKey user.hpkePublicKey)
    (h : user.id ∈ attestedUsers crypto ∅ root.root.id records) :
    ∃ envelope ∈ records, Attests crypto root user envelope := by
  obtain ⟨envelope, hmem, hatt⟩ := mem_attestedUsers.mp h
  obtain ⟨entryPoint, hentry, hroot, hacc, hderive⟩ := attestation_eq_some.mp hatt
  obtain ⟨hkey, hhpke⟩ := pairing_of_id hcf hmem hsigned (by simp [recordPreimages, hentry])
    (by simp [recordPreimages, hbody]) (hderive.trans hid)
  refine ⟨envelope, hmem, entryPoint, hentry, hroot, ?_, hkey, hhpke⟩
  simpa [acceptsEnvelope] using hacc

/-- The entry point of an effective user stands under the user's signing key: its key resolves to
the user, and the identifier determines the key. -/
lemma signingKey_of_effective_user {ratchet : Ratchet} {trustedRoot : HashValue} {id : UserId}
    (hcf : CollisionFree crypto records)
    (hroot : selectRoot crypto records trustedRoot ∅ = .ok root)
    (huser : (resolveRecords crypto ratchet root
      (screenRecords crypto ∅ root records).verifiedRecords).users[id]? = some user)
    (hne : id ≠ root.root.id) :
    ∃ record ∈ (screenRecords crypto ∅ root records).verifiedRecords,
      record.signer = id ∧ record.signed.signingPublicKey = user.signingPublicKey := by
  obtain ⟨⟨w, hw, hwbody, hid⟩, e, he, -, hsigner⟩ := records_of_effective_user huser hne
  refine ⟨e, he, hsigner, ?_⟩
  have hresolves := (resolves_of_verified he).2
  rw [hsigner] at hresolves
  obtain ⟨⟨entry, ⟨hentry, _⟩, hentryKey, hentryId, _⟩, -⟩ :=
    claims_of_signerForKey (identitiesSeparate hcf hroot) hne hresolves
  obtain ⟨hentryMem, hentryBody, hentryDerive⟩ := mem_userBodies.mp hentry
  have heq : deriveUserId crypto entry.2.signingPublicKey entry.2.hpkePublicKey =
      deriveUserId crypto user.signingPublicKey user.hpkePublicKey := by
    rw [← hentryDerive, ← id_of_verified_user hw hwbody, hentryId, hid]
  have hwsigned : w.signed.body = .known (.user user) := hwbody ▸ body_of_verified hw
  rw [← hentryKey]
  exact (pairing_of_id hcf hentryMem (signed_mem_of_verified hw)
    (by simp [recordPreimages, hentryBody]) (by simp [recordPreimages, hwsigned]) heq).1

/-- The signing key of an effective user is uncontested and resolves to the user. -/
lemma resolves_of_effective_user {ratchet : Ratchet} {trustedRoot : HashValue} {id : UserId}
    (hcf : CollisionFree crypto records)
    (hroot : selectRoot crypto records trustedRoot ∅ = .ok root)
    (huser : (resolveRecords crypto ratchet root
      (screenRecords crypto ∅ root records).verifiedRecords).users[id]? = some user) :
    user.signingPublicKey ∉ (signerResolution crypto ∅ root records).contestedKeys ∧
      (signerResolution crypto ∅ root records).signerForKey[user.signingPublicKey]? =
        some id := by
  by_cases hne : id = root.root.id
  · -- the root's key is reserved for the root
    subst hne
    have hget := (getElem?_effective_users crypto root _ _ _ _).symm.trans huser
    rw [if_pos rfl] at hget
    obtain rfl := Option.some.inj hget
    constructor
    · simp [signerResolution, resolveSigners, userFromRoot]
    · simp [signerResolution, resolveSigners, userFromRoot]
  · obtain ⟨record, hrecord, hsigner, hkey⟩ := signingKey_of_effective_user hcf hroot huser hne
    have hresolves := resolves_of_verified hrecord
    rwa [hkey, hsigner] at hresolves

/-- An attesting envelope within the ceiling is verified as soon as another record under its key
is. -/
lemma attestedInFull_of_attests {record : VerifiedRecord} {signed : VaultRecordV1}
    (hrecord : record ∈ (screenRecords crypto ∅ root records).verifiedRecords)
    (hkey : record.signed.signingPublicKey = user.signingPublicKey) (hsigned : signed ∈ records)
    (hattests : Attests crypto root user signed) (hceiling : WithinCeiling signed)
    (hid : user.id = deriveUserId crypto user.signingPublicKey user.hpkePublicKey) :
    AttestedInFull crypto root (screenRecords crypto ∅ root records).verifiedRecords user := by
  obtain ⟨other, _, hjudged⟩ := mem_verifiedRecords.mp hrecord
  obtain ⟨_, hother, _, _, hcontested, hsigner, _⟩ := judgeRecord_eq_verified.mp hjudged
  obtain ⟨entryPoint, hbody, hroot, hverifies, hsk, hhpke⟩ := hattests
  have hstruct : structurallyValidateRecord crypto signed (.entryPoint entryPoint) root.root =
      .ok () := by
    have hle := hceiling _ hbody entryPoint.counter rfl
    simp [structurallyValidateRecord, structurallyValidateBody, RecordBodyV1.lwwCounter, hroot,
      Nat.not_lt.mpr hle]
  rw [← hother, hkey, ← hsk] at hcontested hsigner
  refine ⟨⟨signed, .entryPoint entryPoint, recordHash crypto signed, record.signer⟩,
    mem_verifiedRecords.mpr ⟨signed, hsigned, judgeRecord_eq_verified.mpr
      ⟨hbody, rfl, rfl, hstruct, hcontested, hsigner, ?_⟩⟩,
    ⟨entryPoint, hbody, hroot, hverifies, hsk, hhpke⟩, entryPoint, rfl, ?_⟩
  · simp [acceptsEnvelope, hverifies]
  · rw [hsk, hhpke, hid]

end Attestation

section Main

variable {crypto : CryptoProvider} {vault : VaultStore} {ratchet : Ratchet} {root : SelectedRoot}
variable {records : List VerifiedRecord} {id : UserId} {user : UserRecordV1}

/-- An effective user is attested in full exactly when it is attested in case it is the only one
to claim its signing key, and one of its attestations, if there are any, is within the ceiling. -/
theorem attestedInFull_iff (hcf : CollisionFree crypto vault.records)
    (hres : resolvedRecords crypto vault ratchet = some (root, records))
    (huser : (validateVault crypto vault ratchet).effective.users[id]? = some user)
    (hne : id ≠ root.root.id) :
    AttestedInFull crypto root records user ↔
      (SoleClaimant crypto ∅ root vault.records user.signingPublicKey id →
        ∃ signed ∈ vault.records, Attests crypto root user signed) ∧
      ((∃ signed ∈ vault.records, Attests crypto root user signed) →
        ∃ signed ∈ vault.records, Attests crypto root user signed ∧ WithinCeiling signed) := by
  obtain ⟨_, hroot, rfl⟩ := resolvedRecords_eq_some.mp hres
  rw [(validateVault_of_resolved hres).1] at huser
  have hmem : ∀ signed, signed ∈ distinctRecords crypto ∅ vault.records ↔ signed ∈ vault.records :=
    fun signed => mem_distinctRecords hcf
  have hcf' : CollisionFree crypto (distinctRecords crypto ∅ vault.records) :=
    hcf.mono fun signed h => (hmem signed).mp h
  obtain ⟨⟨w, hw, hwbody, hid⟩, -⟩ := records_of_effective_user huser hne
  constructor
  · -- a verified entry point is within the ceiling and stands in the vault
    rintro ⟨record, hrecord, hattests, _⟩
    have hin := (hmem _).mp (signed_mem_of_verified hrecord)
    refine ⟨fun _ => ⟨record.signed, hin, hattests⟩, fun _ => ⟨record.signed, hin, hattests, ?_⟩⟩
    intro body hbody counter hcounter
    obtain rfl := Evolving.known.inj ((body_of_verified hrecord).symm.trans hbody)
    exact counter_le_of_structure (structure_of_verified hrecord) hcounter
  · rintro ⟨hsole, hceiling⟩
    have hwsigned : w.signed.body = .known (.user user) := hwbody ▸ body_of_verified hw
    have hderive := id_of_verified_user hw hwbody
    obtain ⟨e, he, hsigner, hkey⟩ := signingKey_of_effective_user hcf' hroot huser hne
    have hresolves := (resolves_of_verified he).2
    rw [hsigner] at hresolves
    obtain ⟨-, hholds⟩ := claims_of_signerForKey (identitiesSeparate hcf' hroot) hne hresolves
    have hattested : ∃ signed ∈ vault.records, Attests crypto root user signed := by
      rcases hholds with hholds | hholds
      · rw [hkey] at hholds
        exact hsole (soleClaimant_congr (fun signed => hmem signed) hholds)
      · rw [← hid] at hholds
        obtain ⟨signed, hsigned, hattests⟩ := attests_of_mem_attestedUsers hcf'
          (signed_mem_of_verified hw) hwsigned hderive hholds
        exact ⟨signed, (hmem signed).mp hsigned, hattests⟩
    obtain ⟨signed, hsigned, hattests, hle⟩ := hceiling hattested
    exact attestedInFull_of_attests he hkey ((hmem signed).mpr hsigned) hattests hle hderive

section Counterexample

open TestSupport

/-- Alice's signing key with an HPKE key that is not hers. -/
def mispairedAlice : TestUser := ⟨[1], [2]⟩

/-- The root pairs Alice's signing key with a foreign HPKE key, and Alice's own entry point
declares her key. -/
def mispairedVault : VaultStore :=
  .v1 ⟨[vaultRootRecord, userRecord rootUser mispairedAlice 1, trustRoot (testUser 1) 1]⟩

/-- The mispaired user is effective, and no verified record attests the pairing. -/
theorem mispaired_user_not_attested :
    ∃ records user, resolvedRecords transparentCrypto mispairedVault freshRatchet =
        some (selectedRoot, records) ∧
      (validateVault transparentCrypto mispairedVault freshRatchet).issues = [] ∧
      (validateVault transparentCrypto mispairedVault freshRatchet).effective.users[
        mispairedAlice.id]? = some user ∧ mispairedAlice.id ≠ selectedRoot.root.id ∧
      ¬ AttestedInFull transparentCrypto selectedRoot records user := by
  have hv : (resolvedRecords transparentCrypto mispairedVault freshRatchet).map Prod.fst =
      some selectedRoot := rfl
  obtain ⟨⟨root, records⟩, hres, rfl⟩ := Option.map_eq_some_iff.mp hv
  refine ⟨records, ⟨mispairedAlice.id, [1], [2], 1⟩, hres, by decide +kernel, by decide +kernel,
    by decide, ?_⟩
  rintro ⟨record, hrecord, ⟨entryPoint, hbody, _, _, _, hhpke⟩, _⟩
  obtain ⟨_, _, rfl⟩ := resolvedRecords_eq_some.mp hres
  have hmem := (mem_of_mem_distinctRecords (signed_mem_of_verified hrecord)).1
  simp only [mispairedVault, VaultStore.records, List.mem_cons, List.not_mem_nil, or_false] at hmem
  rcases hmem with hs | hs | hs
  · simp [hs, vaultRootRecord, signedRecord] at hbody
  · simp [hs, userRecord, signedRecord] at hbody
  · simp only [hs, trustRoot, signedRecord, Evolving.known.injEq, RecordBodyV1.entryPoint.injEq,
      testUser] at hbody
    subst hbody
    simp at hhpke

/-- A vault whose only other user is paired with the key its entry point declares. -/
def pairedVault : VaultStore :=
  .v1 ⟨[vaultRootRecord, userRecord rootUser (testUser 1) 1, trustRoot (testUser 1) 1]⟩

theorem attestedInFull_pairedVault :
    ∃ records user, resolvedRecords transparentCrypto pairedVault freshRatchet =
        some (selectedRoot, records) ∧
      (validateVault transparentCrypto pairedVault freshRatchet).effective.users[
        (testUser 1).id]? = some user ∧
      AttestedInFull transparentCrypto selectedRoot records user := by
  have hv : (resolvedRecords transparentCrypto pairedVault freshRatchet).map Prod.fst =
      some selectedRoot := rfl
  obtain ⟨⟨root, records⟩, hres, hroot⟩ := Option.map_eq_some_iff.mp hv
  obtain rfl : root = selectedRoot := hroot
  have huser : (validateVault transparentCrypto pairedVault freshRatchet).effective.users[
      (testUser 1).id]? = some ⟨(testUser 1).id, [1], [1], 1⟩ := by decide +kernel
  refine ⟨records, _, hres, huser, (attestedInFull_iff (by decide) hres huser
    (by decide)).mpr ?_⟩
  have hattests : Attests transparentCrypto selectedRoot ⟨(testUser 1).id, [1], [1], 1⟩
      (trustRoot (testUser 1) 1) :=
    ⟨_, rfl, rfl, verifiesEnvelope_signedRecord _ _, rfl, rfl⟩
  have hmem : trustRoot (testUser 1) 1 ∈ pairedVault.records := by simp [pairedVault,
    VaultStore.records]
  refine ⟨fun _ => ⟨_, hmem, hattests⟩, fun _ => ⟨_, hmem, hattests, ?_⟩⟩
  intro body hbody counter hcounter
  obtain rfl := Evolving.known.inj hbody
  obtain rfl := Option.some.inj hcounter
  decide

end Counterexample

end Main

end Thorax
