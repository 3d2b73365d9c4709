import Thorax.Resolution.Principals
import Thorax.TestSupport

/-!
# Secrets and the principal graph

Vaults that differ in the records of secrets only resolve to the same principal graph, with the
same conflicts and the same remembered counters at the keys of principals.
-/

namespace Thorax

open Collections
open Std (ExtTreeMap)

/-- Whether a signed record is a secret or the deletion of one. -/
def VaultRecordV1.isSecret (signed : VaultRecordV1) : Bool :=
  match signed.body with
  | .known body => body.isSecret
  | .unknown _ => false

/-- Reports that agree on everything but the secrets. -/
structure SamePrincipals (report report' : ValidationReport) : Prop where
  rootUserId : report'.effective.rootUserId = report.effective.rootUserId
  rootKey : report'.effective.rootSigningPublicKeyHash = report.effective.rootSigningPublicKeyHash
  users : report'.effective.users = report.effective.users
  handles : report'.effective.handles = report.effective.handles
  vaultHandles : report'.effective.vaultHandles = report.effective.vaultHandles
  groups : report'.effective.groups = report.effective.groups
  memberships : report'.effective.memberships = report.effective.memberships
  grants : report'.effective.grants = report.effective.grants
  entryPoints : report'.effective.entryPoints = report.effective.entryPoints
  deletedUsers : report'.effective.deletedUsers = report.effective.deletedUsers
  deletedGroups : report'.effective.deletedGroups = report.effective.deletedGroups
  deletedGrants : report'.effective.deletedGrants = report.effective.deletedGrants
  authorities : report'.effective.authorities = report.effective.authorities
  authorityUnresolved :
    report'.effective.authorityUnresolved = report.effective.authorityUnresolved
  conflicts : ∀ key : RecordKey, key.isSecret = false →
    report'.effective.conflicted[key]? = report.effective.conflicted[key]?
  watermarks : ∀ key : RecordKey, key.isSecret = false →
    report'.ratchetUpdate.raisedWatermarks[key]? = report.ratchetUpdate.raisedWatermarks[key]?
  contested : ∀ keyHash, .ambiguousSigningKey keyHash ∈ report'.warnings ↔
    .ambiguousSigningKey keyHash ∈ report.warnings

section Independence

variable {crypto : CryptoProvider} {known : BTreeSet HashValue} {ratchet : Ratchet}
variable {vault vault' : VaultStore} {root : SelectedRoot}

/-! ### Screening -/

variable (hcf : CollisionFree crypto (vault.records ++ vault'.records))
variable (hsame : ∀ signed : VaultRecordV1, signed.isSecret = false →
  (signed ∈ vault.records ↔ signed ∈ vault'.records))

include hcf

omit hsame in
lemma collisionFree_distinct :
    CollisionFree crypto (distinctRecords crypto ∅ vault.records) ∧
      CollisionFree crypto (distinctRecords crypto ∅ vault'.records) := by
  constructor
  · apply hcf.mono
    intro signed hmem
    exact List.mem_append_left _ (mem_of_mem_distinctRecords hmem).1
  · apply hcf.mono
    intro signed hmem
    exact List.mem_append_right _ (mem_of_mem_distinctRecords hmem).1

include hsame

/-- The distinct records of the two vaults differ in secrets only. -/
lemma mem_distinctRecords_iff {signed : VaultRecordV1} (h : signed.isSecret = false) :
    signed ∈ distinctRecords crypto ∅ vault.records ↔
      signed ∈ distinctRecords crypto ∅ vault'.records := by
  rw [mem_distinctRecords (hcf.mono (List.subset_append_left _ _)),
    mem_distinctRecords (hcf.mono (List.subset_append_right _ _))]
  exact hsame signed h

lemma selectRoot_of_same :
    selectRoot crypto (distinctRecords crypto ∅ vault.records) ratchet.trustedRoot known =
      selectRoot crypto (distinctRecords crypto ∅ vault'.records) ratchet.trustedRoot known := by
  -- secrets declare no root
  have hfilter : ∀ records : List VaultRecordV1,
      selectRoot crypto (records.filter (!·.isSecret)) ratchet.trustedRoot known =
        selectRoot crypto records ratchet.trustedRoot known := by
    intro records
    have hmatch : (records.filter (!·.isSecret)).filterMap
        (rootMatch crypto ratchet.trustedRoot known) =
        records.filterMap (rootMatch crypto ratchet.trustedRoot known) := by
      rw [List.filterMap_filter]
      apply List.filterMap_congr
      intro signed _
      split_ifs with hsecret
      · rfl
      · unfold rootMatch
        split
        · next root hbody => simp [VaultRecordV1.isSecret, hbody, RecordBodyV1.isSecret] at hsecret
        · rfl
    simp only [selectRoot, hmatch]
  have hnodup : ∀ records : List VaultRecordV1,
      ((distinctRecords crypto ∅ records).filter (!·.isSecret)).Nodup := fun records =>
    (distinctRecords_nodup.imp fun hab heq => hab (by rw [heq])).filter _
  rw [← hfilter, ← hfilter (distinctRecords crypto ∅ vault'.records)]
  apply selectRoot_perm
  rw [List.perm_ext_iff_of_nodup (hnodup _) (hnodup _)]
  intro signed
  simp only [List.mem_filter, Bool.not_eq_eq_eq_not, Bool.not_true]
  exact and_congr_left fun h => mem_distinctRecords_iff hcf hsame h

/-- Signing keys resolve alike: secrets introduce and attest no one. -/
lemma signerResolution_of_same
    (hroot : selectRoot crypto (distinctRecords crypto ∅ vault.records) ratchet.trustedRoot known =
      .ok root) :
    signerResolution crypto known root (distinctRecords crypto ∅ vault.records) =
      signerResolution crypto known root (distinctRecords crypto ∅ vault'.records) := by
  obtain ⟨hcf1, hcf2⟩ := collisionFree_distinct hcf
  apply signerResolution_congr (identitiesSeparate hcf1 hroot)
    (identitiesSeparate hcf2 ((selectRoot_of_same hcf hsame).symm.trans hroot))
  · intro entry
    rw [mem_userBodies, mem_userBodies]
    refine and_congr_left fun hbody => mem_distinctRecords_iff hcf hsame ?_
    simp [VaultRecordV1.isSecret, hbody.1, RecordBodyV1.isSecret]
  · apply set_ext
    intro user
    simp only [attestedUsers, mem_collectSet]
    refine or_congr_right (exists_congr fun signed => and_congr_left fun hatt =>
      mem_distinctRecords_iff hcf hsame ?_)
    unfold attestation at hatt
    split at hatt
    · next entryPoint hbody => simp [VaultRecordV1.isSecret, hbody, RecordBodyV1.isSecret]
    · cases hatt

/-- The verified records that are not secrets are the same. -/
lemma samePrincipalRecords
    (hroot : selectRoot crypto (distinctRecords crypto ∅ vault.records) ratchet.trustedRoot known =
      .ok root) :
    SamePrincipalRecords crypto
      (screenRecords crypto known root (distinctRecords crypto ∅ vault.records)).verifiedRecords
      (screenRecords crypto known root
        (distinctRecords crypto ∅ vault'.records)).verifiedRecords := by
  obtain ⟨hcf1, hcf2⟩ := collisionFree_distinct hcf
  refine ⟨?_, hashesSeparate_verified hcf1, hashesSeparate_verified hcf2,
    bytesSeparate_verified hcf1, originsAgree_verified hcf1⟩
  have hnodup : ∀ records : List VaultRecordV1, (principals (screenRecords crypto known root
      (distinctRecords crypto ∅ records)).verifiedRecords).Nodup := fun records =>
    (distinctHashes_verified.imp fun hab heq => hab (by rw [heq])).filter _
  rw [List.perm_ext_iff_of_nodup (hnodup _) (hnodup _)]
  intro record
  simp only [mem_principals, mem_verifiedRecords]
  refine and_congr_left fun hprincipal => ?_
  rw [signerResolution_of_same hcf hsame hroot]
  refine exists_congr fun signed => and_congr_left fun hverdict =>
    mem_distinctRecords_iff hcf hsame ?_
  simpa [VaultRecordV1.isSecret, (judgeRecord_eq_verified.mp hverdict).1] using hprincipal

/-! ### Reports -/

variable (known ratchet) in
/-- The two vaults resolve together. -/
lemma resolvedWith_of_same :
    (resolvedWith crypto known vault ratchet = none ∧
      resolvedWith crypto known vault' ratchet = none) ∨
    ∃ root records records', resolvedWith crypto known vault ratchet = some (root, records) ∧
      resolvedWith crypto known vault' ratchet = some (root, records') := by
  obtain ⟨v1⟩ := vault
  obtain ⟨v1'⟩ := vault'
  have hroot : selectRoot crypto (distinctRecords crypto ∅ v1.records) ratchet.trustedRoot known =
      selectRoot crypto (distinctRecords crypto ∅ v1'.records) ratchet.trustedRoot known :=
    selectRoot_of_same hcf hsame
  simp only [resolvedWith, VaultStore.formatVersion, VaultStore.records, hroot]
  by_cases hold : 1 < ratchet.formatVersion
  · simp only [hold, if_true, and_self, true_or]
  · simp only [hold, if_false]
    cases selectRoot crypto (distinctRecords crypto ∅ v1'.records) ratchet.trustedRoot known with
    | error issue => exact Or.inl ⟨rfl, rfl⟩
    | ok root => exact Or.inr ⟨root, _, _, rfl, rfl⟩

end Independence

/-- Vaults that differ in secrets only have the same principal graph. -/
theorem secrets_cannot_influence_principals (crypto : CryptoProvider) (ratchet : Ratchet)
    (known : BTreeSet HashValue) (vault vault' : VaultStore)
    (hcf : CollisionFree crypto (vault.records ++ vault'.records))
    (hsame : ∀ signed : VaultRecordV1, signed.isSecret = false →
      (signed ∈ vault.records ↔ signed ∈ vault'.records)) :
    SamePrincipals (validateVaultWithVerified crypto vault ratchet known)
      (validateVaultWithVerified crypto vault' ratchet known) := by
  rcases resolvedWith_of_same known ratchet hcf hsame with
    ⟨hres, hres'⟩ | ⟨root, records, records', hres, hres'⟩
  · obtain ⟨heff, hupdate, hwarnings, _⟩ := validateVaultWithVerified_of_unresolved hres
    obtain ⟨heff', hupdate', hwarnings', _⟩ := validateVaultWithVerified_of_unresolved hres'
    constructor <;> simp only [heff, heff', hupdate, hupdate', hwarnings, hwarnings', implies_true]
  · obtain ⟨heff, hraised, _, _, hwarnings⟩ := validateVaultWithVerified_of_resolved hres
    obtain ⟨heff', hraised', _, _, hwarnings'⟩ := validateVaultWithVerified_of_resolved hres'
    obtain ⟨_, hroot, rfl⟩ := resolvedWith_eq_some.mp hres
    obtain ⟨_, _, rfl⟩ := resolvedWith_eq_some.mp hres'
    have hrecords := samePrincipalRecords hcf hsame hroot
    have hfield : ∀ {α : Type} (field : EffectiveState → α), field (finalState crypto ratchet root _) =
        field (finalState crypto ratchet root _) :=
      fun field => congrArg field (hrecords.finalState_eq ratchet root)
    have hkeys := signerResolution_of_same hcf hsame hroot
    constructor
    case conflicts =>
      intro key hkey
      rw [heff, heff']
      exact hrecords.conflicted_eq ratchet root hkey
    case watermarks =>
      intro key hkey
      rw [hraised, hraised', ExtTreeMap.getElem?_filter', ExtTreeMap.getElem?_filter',
        hrecords.currentWatermarks_eq root hkey]
    case contested =>
      intro keyHash
      rw [hwarnings, hwarnings', mem_warningsFor_ambiguous, mem_warningsFor_ambiguous]
      simp only [screenRecords, hkeys]
    -- every other field is one of the final state
    all_goals rw [heff, heff']
    case rootUserId => exact hfield EffectiveState.rootUserId
    case rootKey => exact hfield EffectiveState.rootSigningPublicKeyHash
    case users => exact hfield EffectiveState.users
    case handles => exact hfield EffectiveState.handles
    case vaultHandles => exact hfield EffectiveState.vaultHandles
    case groups => exact hfield EffectiveState.groups
    case memberships => exact hfield EffectiveState.memberships
    case grants => exact hfield EffectiveState.grants
    case entryPoints => exact hfield EffectiveState.entryPoints
    case deletedUsers => exact hfield EffectiveState.deletedUsers
    case deletedGroups => exact hfield EffectiveState.deletedGroups
    case deletedGrants => exact hfield EffectiveState.deletedGrants
    case authorities => exact hfield EffectiveState.authorities
    case authorityUnresolved => exact hfield EffectiveState.authorityUnresolved

section Witness

open TestSupport

/-- A vault whose root wrote a secret, and the vault with a deletion by an unknown signer
instead. -/
theorem secrets_cannot_influence_principals_deletion :
    SamePrincipals
      (validateVaultWithVerified transparentCrypto
        (.v1 ⟨[vaultRootRecord, userRecord rootUser (testUser 1) 1, trustRoot (testUser 1) 1,
          secretRecord rootUser [rootUser] 7]⟩) freshRatchet ∅)
      (validateVaultWithVerified transparentCrypto
        (.v1 ⟨[vaultRootRecord, trustRoot (testUser 1) 1, secretDeletedRecord (testUser 2) 9,
          userRecord rootUser (testUser 1) 1]⟩) freshRatchet ∅) := by
  refine secrets_cannot_influence_principals transparentCrypto freshRatchet ∅ _ _ ?_ ?_
  · decide +kernel
  · intro signed hprincipal
    simp only [VaultStore.records, List.mem_cons, List.not_mem_nil, or_false]
    constructor
    · rintro (rfl | rfl | rfl | rfl)
      · exact Or.inl rfl
      · exact Or.inr (Or.inr (Or.inr rfl))
      · exact Or.inr (Or.inl rfl)
      · cases hprincipal
    · rintro (rfl | rfl | rfl | rfl)
      · exact Or.inl rfl
      · exact Or.inr (Or.inr (Or.inl rfl))
      · cases hprincipal
      · exact Or.inr (Or.inl rfl)

end Witness

end Thorax
