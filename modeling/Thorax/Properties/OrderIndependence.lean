import Thorax.Resolution.Screening
import Thorax.TestSupport

/-!
# Order and multiplicity

A vault is a set of records. Validation visits them one after another, with several first-come
choices on the way, and the report does not depend on the order or on repetitions.
-/

namespace Thorax

/-- Two reports that no consumer can tell apart, up to the order of their issues. -/
structure SameOutcome (crypto : CryptoProvider) (a b : ValidationReport) : Prop where
  users : a.effective.users = b.effective.users
  handles : a.effective.handles = b.effective.handles
  vaultHandles : a.effective.vaultHandles = b.effective.vaultHandles
  groups : a.effective.groups = b.effective.groups
  memberships : a.effective.memberships = b.effective.memberships
  grants : a.effective.grants = b.effective.grants
  entryPoints : a.effective.entryPoints = b.effective.entryPoints
  deletedUsers : a.effective.deletedUsers = b.effective.deletedUsers
  deletedGroups : a.effective.deletedGroups = b.effective.deletedGroups
  deletedGrants : a.effective.deletedGrants = b.effective.deletedGrants
  authorities : a.effective.authorities = b.effective.authorities
  authorityUnresolved : a.effective.authorityUnresolved = b.effective.authorityUnresolved
  conflicted : a.effective.conflicted = b.effective.conflicted
  ratchetUpdate : a.ratchetUpdate = b.ratchetUpdate
  nextCounter : nextCounter a.effective = nextCounter b.effective
  warnings : a.warnings = b.warnings
  issues : a.issues.Perm b.issues
  secretRecord : ∀ selector,
    a.effective.secretRecord crypto selector = b.effective.secretRecord crypto selector
  secretIsDeleted : ∀ selector,
    a.effective.secretIsDeleted crypto selector = b.effective.secretIsDeleted crypto selector
  secretMissingReader : ∀ selector,
    a.effective.secretMissingReader crypto selector =
      b.effective.secretMissingReader crypto selector
  classifySecretForUser : ∀ selector user,
    a.effective.classifySecretForUser crypto selector user =
      b.effective.classifySecretForUser crypto selector user

section SameOutcome

variable {crypto : CryptoProvider}

lemma SameOutcome.refl (a : ValidationReport) : SameOutcome crypto a a := by
  constructor <;> intros <;> rfl

/-- Reports agree when their states have one view and their record lists the same records. -/
lemma SameOutcome.of_view {a b : ValidationReport} (hview : a.effective.view = b.effective.view)
    (ha : a.effective.Indexed) (hb : b.effective.Indexed)
    (hrecords : a.effective.verifiedRecords.Perm b.effective.verifiedRecords)
    (hsep : HashesSeparate a.effective.verifiedRecords)
    (hupdate : a.ratchetUpdate = b.ratchetUpdate) (hwarnings : a.warnings = b.warnings)
    (hissues : a.issues.Perm b.issues) : SameOutcome crypto a b := by
  have hview' := hview
  simp only [EffectiveState.view, EffectiveState.mk.injEq] at hview'
  obtain ⟨_, _, hu, hh, hv, hg, hm, hgr, he, hdu, hdg, hdgr, hauth, hunres, hconf, hmax, _⟩ :=
    hview'
  exact
    { users := hu
      handles := hh
      vaultHandles := hv
      groups := hg
      memberships := hm
      grants := hgr
      entryPoints := he
      deletedUsers := hdu
      deletedGroups := hdg
      deletedGrants := hdgr
      authorities := hauth
      authorityUnresolved := hunres
      conflicted := hconf
      ratchetUpdate := hupdate
      nextCounter := by simp only [Thorax.nextCounter, hmax]
      warnings := hwarnings
      issues := hissues
      secretRecord := secretRecord_congr hview ha hb hrecords hsep crypto
      secretIsDeleted := secretIsDeleted_congr hview ha hb hrecords hsep crypto
      secretMissingReader := secretMissingReader_congr hview ha hb hrecords hsep crypto
      classifySecretForUser := classifySecretForUser_congr hview ha hb hrecords hsep crypto }

end SameOutcome

/-- Lists of the same records, in any order and with any repetitions, validate alike when no two
hashes of the vault collide. -/
theorem validateV1_sameOutcome (crypto : CryptoProvider) (ratchet : Ratchet)
    (verified : BTreeSet HashValue) (records records' : List VaultRecordV1)
    (hcf : CollisionFree crypto records) (h : ∀ signed, signed ∈ records ↔ signed ∈ records') :
    SameOutcome crypto (validateV1 crypto ⟨records⟩ ratchet verified)
      (validateV1 crypto ⟨records'⟩ ratchet verified) := by
  have hperm := distinctRecords_perm hcf h
  have hcf' : CollisionFree crypto (distinctRecords crypto ∅ records) :=
    hcf.mono fun signed hs => (mem_of_mem_distinctRecords hs).1
  simp only [validateV1, ← selectRoot_perm hperm]
  cases hroot : selectRoot crypto (distinctRecords crypto ∅ records) ratchet.trustedRoot
      verified with
  | error issue => exact .refl _
  | ok root =>
    obtain ⟨hverified, hissues, hunknown, hambiguous⟩ := screenRecords_perm hperm hcf' hroot
    have hsep : HashesSeparate (screenRecords crypto verified root (distinctRecords crypto ∅
        records)).verifiedRecords := hashesSeparate_verified hcf'
    have hbytes : BytesSeparate crypto (screenRecords crypto verified root (distinctRecords crypto ∅
        records)).verifiedRecords := bytesSeparate_verified hcf'
    have horigins : OriginsAgree (screenRecords crypto verified root (distinctRecords crypto ∅
        records)).verifiedRecords := originsAgree_verified hcf'
    have hview := resolveRecords_view_perm hverified hsep hbytes ratchet root horigins
    refine SameOutcome.of_view hview (resolveRecords_indexed _ _ _ _)
      (resolveRecords_indexed _ _ _ _) hverified hsep ?_ ?_ ?_
    · simp only [currentWatermarks_perm hverified hsep hbytes,
        observedOrigins_perm hverified hsep hbytes root horigins]
    · simp only [hunknown, hambiguous]
    · simp only [EffectiveState.authorityUnresolved_of_view hview]
      exact hissues.append_right _

section Witness

open TestSupport

/-- A vault with a delegated writer, a contested secret and a deleted user. -/
def orderFixture : List VaultRecordV1 :=
  [vaultRootRecord, userRecord rootUser (testUser 1) 1, trustRoot (testUser 1) 1,
    grantRecord 0 rootUser (.user (testUser 1).id) (.writeKeyspace .all) 2,
    secretRecord rootUser [rootUser] 3, secretRecord (testUser 1) [testUser 1] 3,
    userRecord rootUser (testUser 2) 4, trustRoot (testUser 2) 4,
    userDeletedRecord rootUser (testUser 2).id 5]

theorem validateV1_sameOutcome_reversed :
    CollisionFree transparentCrypto orderFixture ∧
      SameOutcome transparentCrypto
        (validateV1 transparentCrypto ⟨orderFixture⟩ freshRatchet ∅)
        (validateV1 transparentCrypto ⟨orderFixture.reverse ++ orderFixture⟩ freshRatchet ∅) := by
  have hcf : CollisionFree transparentCrypto orderFixture := by decide +kernel
  exact ⟨hcf, validateV1_sameOutcome transparentCrypto freshRatchet ∅ orderFixture
    (orderFixture.reverse ++ orderFixture) hcf (by simp)⟩

end Witness

end Thorax
