import Thorax.Properties.InEffect
import Thorax.Resolution.Admission

/-!
# The root user

The root is the one identity that the ratchet trusts, and no record takes anything from it: whatever
is added to a vault, the root stays in effect and administers, the records it signs are verified as
its own and compete at their keys, and its last word settles a key, as long as what it speaks about
is there.
-/

namespace Thorax

open Collections
open Std (ExtTreeMap ExtTreeSet)

section Root

variable {crypto : CryptoProvider} {ratchet : Ratchet} {root : SelectedRoot}
variable {records : List VerifiedRecord} {record : VerifiedRecord} {known : BTreeSet HashValue}

/-! ### Authority -/

/-- The root administers in every round. -/
lemma administer_roundState (rollbackKeys : BTreeMap RecordKey ℕ) (admitted : BTreeSet HashValue)
    (n : ℕ) : (signerAuth (roundState root records rollbackKeys admitted n).2
      root.root.id).administer = true := by
  have hroot : AuthoritySet.root.Holds .administer := AuthoritySet.holds_administer.mpr rfl
  rw [← AuthoritySet.holds_administer]
  cases n with
  | zero => exact holdsAt_rootAuthorities.mpr ⟨rfl, hroot⟩
  | succ n =>
    rw [roundState_succ]
    exact holdsAt_computeAuthorities.mpr (.root hroot)

variable (crypto ratchet root records) in
lemma administer_final :
    (signerAuth (finalView crypto ratchet root records).selecting root.root.id).administer = true ∧
      (signerAuth (finalView crypto ratchet root records).authorities root.root.id).administer =
        true :=
  ⟨administer_roundState _ _ 63, administer_roundState _ _ 64⟩

variable (crypto root records) in
lemma administer_effective (rollbackKeys : BTreeMap RecordKey ℕ) (admitted : BTreeSet HashValue) :
    ((effectiveUnder crypto root records rollbackKeys admitted).authorityForUser
      root.root.id).administer = true := by
  rw [← AuthoritySet.holds_administer]
  exact holdsAt_effectiveUnder.mpr (.root (AuthoritySet.holds_administer.mpr rfl))

/-! ### Deletions -/

/-- A deletion that the root signed is admitted. -/
lemma admitted_of_root {rollbackKeys : BTreeMap RecordKey ℕ} (hmem : record ∈ records)
    (hsigner : record.signer = root.root.id) (hgated : record.body.isGatedDeletion = true) :
    record.recordHash ∈ admitDeletions crypto root records rollbackKeys := by
  by_contra hnot
  have hnone : admitNext crypto root records rollbackKeys
      (admitDeletions crypto root records rollbackKeys) = none := admitNext_admitDeletions
  simp only [admitNext, Option.map_eq_none_iff, nextAdmitted, firstBy_eq_none] at hnone
  have hrefused := hnone record (List.mem_filter.mpr ⟨hmem, hgated⟩)
  have hadmin := administer_effective crypto root records rollbackKeys
    (admitDeletions crypto root records rollbackKeys)
  have hauthorized : deletionAuthorized (effectiveUnder crypto root records rollbackKeys
      (admitDeletions crypto root records rollbackKeys)) record = true := by
    unfold deletionAuthorized
    cases hb : record.body with
    | userDeleted _ => exact hsigner ▸ hadmin
    | groupDeleted _ => exact hsigner ▸ hadmin
    | grantDeleted deleted =>
      simp only [hsigner]
      unfold grantDeletedAuthorized
      split <;> simp [AuthoritySet.canCreatePermission, hadmin]
    | _ => simp [hb, RecordBodyV1.isGatedDeletion] at hgated
  rw [hauthorized, Bool.and_true, Bool.not_eq_false', ExtTreeSet.contains_iff_mem] at hrefused
  exact hnot hrefused

/-! ### Records of the root -/

/-- What a record speaks about is there: the principals it names, and never the root itself. -/
def EffectiveState.Takes (self : EffectiveState) (rootUser : UserId) (body : RecordBodyV1) : Prop :=
  match body with
  | .vaultRoot _ => False
  | .user r => r.id ≠ rootUser
  | .userDeleted r => r.id ≠ rootUser
  | .userHandle r => r.userId ∈ self.users
  | .groupMember r =>
    r.groupId ∈ self.groups ∧ principalExists r.memberId self.users self.groups = true
  | .grant r => principalExists r.subjectId self.users self.groups = true
  | _ => True

/-- The root user is in effect. -/
lemma users_root : (resolveRecords crypto ratchet root records).users[root.root.id]? =
    some (userFromRoot root) :=
  (getElem?_effective_users crypto root records _ _ root.root.id).trans (if_pos rfl)

/-- A record that the root signed competes at its key. -/
lemma competes_of_root (hmem : record ∈ records) (hsigner : record.signer = root.root.id)
    (htakes : (resolveRecords crypto ratchet root records).Takes root.root.id record.body) :
    (finalView crypto ratchet root records).competes record = true := by
  obtain ⟨hselecting, hfinal⟩ := administer_final crypto ratchet root records
  have hroot : (finalView crypto ratchet root records).rootUser = root.root.id := rfl
  have husers : (finalView crypto ratchet root records).users =
      (resolveRecords crypto ratchet root records).users := effectiveView_users crypto _ _ _ _
  have hgroups : (finalView crypto ratchet root records).groups =
      (resolveRecords crypto ratchet root records).groups := effectiveView_groups crypto _ _ _ _
  have hadmitted : record.body.isGatedDeletion = true →
      (finalView crypto ratchet root records).admitted.contains record.recordHash = true :=
    fun hgated => ExtTreeSet.contains_iff_mem.mpr (admitted_of_root hmem hsigner hgated)
  unfold View.competes
  cases hb : record.body with
  | vaultRoot r => simp [hb, EffectiveState.Takes] at htakes
  | entryPoint r =>
    simp only [husers, hsigner, ExtTreeMap.contains_iff_mem, ← ExtTreeMap.isSome_getElem?_iff_mem,
      users_root, Option.isSome_some]
  | user r =>
    rw [hb] at htakes
    simpa [hroot, hsigner, hselecting, EffectiveState.Takes] using htakes
  | userDeleted r =>
    rw [hb] at htakes hadmitted
    simpa [EffectiveState.Takes, hroot, hadmitted rfl] using htakes
  | groupDeleted r => exact hadmitted (by rw [hb]; rfl)
  | grantDeleted r => exact hadmitted (by rw [hb]; rfl)
  | userHandle r =>
    rw [hb] at htakes
    simpa [EffectiveState.Takes, hsigner, hfinal, husers] using htakes
  | groupMember r =>
    rw [hb] at htakes
    simpa [EffectiveState.Takes, hsigner, hselecting, husers, hgroups] using htakes
  | grant r =>
    rw [hb] at htakes
    simpa [EffectiveState.Takes, hsigner, husers, hgroups, AuthoritySet.canCreatePermission, hselecting] using htakes
  | secret r => simp [hsigner, AuthoritySet.canWrite, hfinal]
  | secretDeleted r => simp [hsigner, AuthoritySet.canWrite, hfinal]
  | group r => simp [hsigner, hselecting]
  | groupMemberDeleted r => simp [hsigner, hselecting]
  | vaultHandle r => simp [hsigner, hfinal]

/-- A record of the root whose counter is greatest is the one that won its key. -/
lemma finalWinner_of_root (hmem : record ∈ records) (hsigner : record.signer = root.root.id)
    (htakes : (resolveRecords crypto ratchet root records).Takes root.root.id record.body)
    (hfree : record.key ∉ rollbackKeys crypto ratchet root records)
    (hlast : ∀ other ∈ records, other.key = record.key →
      other = record ∨ other.counter < record.counter) :
    finalWinner crypto ratchet root records record.key = some record := by
  have hpool : record ∈ (finalView crypto ratchet root records).pool records
      (rollbackKeys crypto ratchet root records) record.key :=
    View.mem_pool.mpr ⟨hmem, hfree, competes_of_root hmem hsigner htakes, rfl⟩
  have honly : ∀ other ∈ (finalView crypto ratchet root records).leaders records
      (rollbackKeys crypto ratchet root records) record.key, other = record := by
    intro other hother
    obtain ⟨hother, hle⟩ := View.mem_leaders.mp hother
    obtain ⟨hother, _, _, hkey⟩ := View.mem_pool.mp hother
    exact (hlast other hother hkey).resolve_right (hle record hpool).not_gt
  cases hw : finalWinner crypto ratchet root records record.key with
  | some w => rw [honly w (View.winner_eq_some hw).1]
  | none =>
    rcases View.winner_eq_none.mp hw with hempty | htied
    · rw [hempty] at hpool
      cases hpool
    · obtain ⟨a, ha, b, hb, hne⟩ := View.tied_eq_true.mp htied
      exact absurd (by rw [honly a ha, honly b hb]) hne

/-! ### Envelopes of the root -/

variable (crypto known root) in
/-- The root's key is never contested and always resolves to the root. -/
lemma signerResolution_root (signedRecords : List VaultRecordV1) :
    root.signingPublicKey ∉ (signerResolution crypto known root signedRecords).contestedKeys ∧
      (signerResolution crypto known root signedRecords).signerForKey[root.signingPublicKey]? =
        some root.root.id := by
  simp [signerResolution, resolveSigners]

/-- What the root signed is verified as the root's. -/
lemma exists_verified_of_root {signedRecords : List VaultRecordV1} {signed : VaultRecordV1}
    {body : RecordBodyV1} (hmem : signed ∈ signedRecords) (hbody : signed.body = .known body)
    (hkey : signed.signingPublicKey = root.signingPublicKey)
    (haccepts : acceptsEnvelope crypto known signed = true)
    (hvalid : structurallyValidateRecord crypto signed body root.root = .ok ()) :
    ⟨signed, body, recordHash crypto signed, root.root.id⟩ ∈
      (screenRecords crypto known root signedRecords).verifiedRecords := by
  obtain ⟨hfree, hsigner⟩ := signerResolution_root crypto root known signedRecords
  rw [← hkey] at hfree hsigner
  exact mem_verifiedRecords.mpr ⟨signed, hmem, judgeRecord_eq_verified.mpr
    ⟨hbody, rfl, rfl, hvalid, hfree, hsigner, haccepts⟩⟩

/-! ### Growing vaults -/

/-- Further records do not change which root is selected unless one of them declares a root under
the trusted key. -/
lemma selectRoot_grown {signedRecords grown : List VaultRecordV1} {trustedRoot : HashValue}
    (hcf : CollisionFree crypto grown) (hsub : signedRecords ⊆ grown)
    (hforeign : ∀ signed ∈ grown, signed ∉ signedRecords →
      rootMatch crypto trustedRoot known signed = none)
    (h : selectRoot crypto (distinctRecords crypto ∅ signedRecords) trustedRoot known = .ok root) :
    selectRoot crypto (distinctRecords crypto ∅ grown) trustedRoot known = .ok root := by
  rw [selectRoot_eq_ok] at h ⊢
  have hmatching : ∀ l : List VaultRecordV1, l.filterMap (rootMatch crypto trustedRoot known) =
      (l.filter fun signed => (rootMatch crypto trustedRoot known signed).isSome).filterMap
        (rootMatch crypto trustedRoot known) := by
    intro l
    rw [List.filterMap_filter]
    refine List.filterMap_congr fun signed _ => ?_
    cases rootMatch crypto trustedRoot known signed <;> rfl
  have hnodup : ∀ l : List VaultRecordV1, (distinctRecords crypto ∅ l).Nodup := fun l =>
    distinctRecords_nodup.imp fun hab heq => hab (by rw [heq])
  have hperm : ((distinctRecords crypto ∅ grown).filter fun signed =>
      (rootMatch crypto trustedRoot known signed).isSome).Perm
      ((distinctRecords crypto ∅ signedRecords).filter fun signed =>
        (rootMatch crypto trustedRoot known signed).isSome) := by
    rw [List.perm_ext_iff_of_nodup ((hnodup _).filter _) ((hnodup _).filter _)]
    intro signed
    simp only [List.mem_filter, mem_distinctRecords hcf,
      mem_distinctRecords (hcf.mono hsub)]
    refine ⟨fun ⟨hmem, hmatch⟩ => ⟨?_, hmatch⟩, fun ⟨hmem, hmatch⟩ => ⟨hsub hmem, hmatch⟩⟩
    by_contra hnot
    rw [hforeign signed hmem hnot] at hmatch
    cases hmatch
  rw [hmatching] at h ⊢
  have hroot := hperm.filterMap (rootMatch crypto trustedRoot known)
  rw [h] at hroot
  exact List.perm_singleton.mp hroot

/-- What no record takes from the root. -/
structure RootPrevails (crypto : CryptoProvider) (known : BTreeSet HashValue) (ratchet : Ratchet)
    (root : SelectedRoot) (vault : VaultStoreV1) (records : List VerifiedRecord)
    (state : EffectiveState) : Prop where
  trusted : keyHash crypto root.signingPublicKey = ratchet.trustedRoot
  present : state.users[root.root.id]? = some (userFromRoot root)
  administers : (state.authorityForUser root.root.id).administer = true
  /-- What the root signed counts as the root's. -/
  verified : ∀ signed ∈ vault.records, ∀ body, signed.body = .known body →
    signed.signingPublicKey = root.signingPublicKey → acceptsEnvelope crypto known signed = true →
    structurallyValidateRecord crypto signed body root.root = .ok () →
    ∃ record ∈ records, record.signed = signed ∧ record.body = body ∧ record.signer = root.root.id
  /-- The root's last word puts an object into effect. A user has to vouch for the root as well. -/
  sets : ∀ record ∈ records, record.signer = root.root.id → record.body.isObject = true →
    record.body.isDeletion = false → state.Takes root.root.id record.body →
    ¬ state.RollbackAt record.key →
    (∀ other ∈ records, other.key = record.key → other = record ∨ other.counter < record.counter) →
    (∀ r, record.body = .user r → ∃ other ∈ records, ¬ state.RollbackAt other.key ∧
      (∃ entryPoint, other.body = .entryPoint entryPoint) ∧ other.signer = r.id) →
    state.InEffect record.body
  /-- The root's last word takes an object out of effect. -/
  deletes : ∀ record ∈ records, record.signer = root.root.id → record.body.isDeletion = true →
    state.Takes root.root.id record.body → ¬ state.RollbackAt record.key →
    (∀ other ∈ records, other.key = record.key → other = record ∨ other.counter < record.counter) →
    ∀ body, recordKeyFor body record.signer = record.key → ¬ state.InEffect body

/-- Only objects that are not deleted are in effect. -/
lemma EffectiveState.InEffect.live {state : EffectiveState} {body : RecordBodyV1}
    (h : state.InEffect body) : body.isObject = true ∧ body.isDeletion = false := by
  cases body <;> first | exact ⟨rfl, rfl⟩ | exact h.elim

/-- Whatever is added to a vault by others, its root stays and prevails. Its last word at a key that
did not regress takes effect where the principals it names are there and are not the root, and a
user it introduces where the user has an entry point in force. -/
theorem root_prevails {vault vault' : VaultStoreV1}
    (h : resolvedWith crypto known (.v1 vault) ratchet = some (root, records))
    (hsub : vault.records ⊆ vault'.records)
    (hforeign : ∀ signed ∈ vault'.records, signed ∉ vault.records →
      rootMatch crypto ratchet.trustedRoot known signed = none)
    (hcf : CollisionFree crypto vault'.records) :
    ∃ records', resolvedWith crypto known (.v1 vault') ratchet = some (root, records') ∧
      RootPrevails crypto known ratchet root vault' records'
        (validateVaultWithVerified crypto (.v1 vault') ratchet known).effective := by
  obtain ⟨hversion, hroot, -⟩ := resolvedWith_eq_some.mp h
  have hgrown := selectRoot_grown hcf hsub hforeign hroot
  have hresolved : resolvedWith crypto known (.v1 vault') ratchet = some (root,
      (screenRecords crypto known root (distinctRecords crypto ∅ vault'.records)).verifiedRecords) :=
    resolvedWith_eq_some.mpr ⟨hversion, hgrown, rfl⟩
  refine ⟨_, hresolved, ?_⟩
  rw [(validateVaultWithVerified_of_resolved hresolved).1]
  obtain ⟨_, _, hmatch⟩ := exists_root_record hgrown
  constructor
  case trusted => exact (rootMatch_eq_some.mp hmatch).2.2.2.2.1
  case present => exact users_root
  case administers => exact administer_effective crypto root _ _ _
  case verified =>
    intro signed hmem body hbody hkey haccepts hvalid
    exact ⟨_, exists_verified_of_root ((mem_distinctRecords hcf).mpr hmem) hbody hkey haccepts hvalid,
      rfl, rfl, rfl⟩
  case sets =>
    intro record hmem hsigner hobject hlive htakes hfree hlast hvouched
    rw [rollbackAt_resolveRecords] at hfree
    have hwinner := finalWinner_of_root hmem hsigner htakes hfree hlast
    have hne := (View.key_ne_of_competes (competes_of_root hmem hsigner htakes)).2
    refine (EffectiveState.inEffect_iff hobject hlive (not_conflicted_of_winner hwinner) hne).mpr
      ⟨⟨record, hwinner, rfl⟩, fun r hr => mem_entryPointUsers.mpr ?_⟩
    obtain ⟨other, hother, hkept, hentry⟩ := hvouched r hr
    exact ⟨other, hother, rollbackAt_resolveRecords.not.mp hkept, hentry⟩
  case deletes =>
    intro record hmem hsigner hdeletion htakes hfree hlast body hkey heffect
    rw [rollbackAt_resolveRecords] at hfree
    have hwinner := finalWinner_of_root hmem hsigner htakes hfree hlast
    have hne := (View.key_ne_of_competes (competes_of_root hmem hsigner htakes)).2
    obtain ⟨hobject, hlive⟩ := heffect.live
    obtain ⟨⟨w, hw, hbody⟩, -⟩ := (EffectiveState.inEffect_iff hobject hlive
      (hkey ▸ not_conflicted_of_winner hwinner) (hkey ▸ hne)).mp heffect
    rw [hkey] at hw
    rw [← hbody, Option.some.inj (hw.symm.trans hwinner), hdeletion] at hlive
    cases hlive

end Root

section Example

open TestSupport

/-- The root and Alice, who administers. -/
def rootAndAlice : VaultStoreV1 where
  records := [vaultRootRecord, userRecord rootUser (testUser 1) 1, trustRoot (testUser 1) 1,
    grantRecord 0 rootUser (.user (testUser 1).id) .administer 2]

/-- Alice deletes the root and declares a root of her own, and the root deletes Alice. -/
def turnedVault : VaultStoreV1 where
  records := rootAndAlice.records ++ [userDeletedRecord (testUser 1) rootUser.id 3,
    signedRecord (testUser 1) (.vaultRoot ⟨(testUser 1).id, (testUser 1).hpkePublicKey⟩),
    userDeletedRecord rootUser (testUser 1).id 4]

theorem root_prevails_turned : ∃ records', resolvedWith transparentCrypto ∅ (.v1 turnedVault)
      freshRatchet = some (selectedRoot, records') ∧
    RootPrevails transparentCrypto ∅ freshRatchet selectedRoot turnedVault records'
      (validateVaultWithVerified transparentCrypto (.v1 turnedVault) freshRatchet ∅).effective := by
  have hresolved : ∃ records, resolvedWith transparentCrypto ∅ (.v1 rootAndAlice) freshRatchet =
      some (selectedRoot, records) :=
    ⟨(screenRecords transparentCrypto ∅ selectedRoot (distinctRecords transparentCrypto ∅
      rootAndAlice.records)).verifiedRecords, by decide +kernel⟩
  obtain ⟨records, hresolved⟩ := hresolved
  exact root_prevails hresolved (List.subset_append_left _ _) (by decide +kernel)
    (by decide +kernel)

end Example

end Thorax
