import Thorax.Resolution.Served
import Thorax.TestSupport

/-!
# Soundness of resolved authority

The rounds of a resolution select under authorities that may still change. Once they have settled,
every object in effect rests on a record whose signer may issue it under the final authorities,
and these are what the objects in effect confer.
-/

namespace Thorax

open Collections
open Std (ExtTreeMap ExtTreeSet)

/-- The record that won a key has this body, and its signer's final authority allows it. -/
def EffectiveState.Backed (self : EffectiveState) (winner : RecordKey → Option VerifiedRecord)
    (key : RecordKey) (body : RecordBodyV1) (allowed : AuthoritySet → Bool) : Prop :=
  ∃ w, winner key = some w ∧ w.body = body ∧ allowed (self.authorityForUser w.signer) = true

/-- Every object in effect was issued by a signer who may issue it under the final authorities and
names principals that are in effect, no such object is disputed, and the authorities are what the
grants and memberships in effect confer. -/
structure EffectiveState.Sound (state : EffectiveState) (crypto : CryptoProvider)
    (rootUser : UserId) (winner : RecordKey → Option VerifiedRecord) : Prop where
  user : ∀ k value, state.users[k]? = some value → k ≠ rootUser →
    state.Backed winner (.user k) (.user value) AuthoritySet.administer
  entryPoint : ∀ k ∈ state.users, k ≠ rootUser →
    ∃ record ∈ state.verifiedRecords, (∃ entryPoint, record.body = .entryPoint entryPoint) ∧
      record.signer = k ∧ ¬ state.RollbackAt record.key
  group : ∀ k value, state.groups[k]? = some value →
    state.Backed winner (.group k) (.group value) AuthoritySet.administer
  membership : ∀ k value, state.memberships[k]? = some value →
    state.Backed winner (.groupMember k) (.groupMember value) AuthoritySet.administer ∧
      value.groupId ∈ state.groups ∧ principalExists value.memberId state.users state.groups = true
  grant : ∀ k value, state.grants[k]? = some value →
    state.Backed winner (.grant k) (.grant value) (·.canCreatePermission value.permission) ∧
      principalExists value.subjectId state.users state.groups = true
  handle : ∀ k value, state.handles[k]? = some value →
    state.Backed winner (.userHandle k) (.userHandle value) AuthoritySet.administer ∧
      value.userId ∈ state.users
  vaultHandle : ∀ k value, state.vaultHandles[k]? = some value →
    state.Backed winner (.vaultHandle k) (.vaultHandle value) AuthoritySet.administer
  secret : ∀ selector active, state.secretRecord crypto selector = some active →
    ∃ record ∈ state.verifiedRecords, record.signed = active.signed ∧
      record.body = .secret active.value ∧
      (state.authorityForUser record.signer).canWrite active.value.selector = true
  undisputed : ∀ key counter, state.Serves crypto key counter → key ∉ state.conflicted
  closure : ∀ principal permission, Authorities.HoldsAt state.authorities principal permission ↔
    Derives rootUser (values state.grants) (values state.memberships) principal permission

section Sound

variable {crypto : CryptoProvider} {ratchet : Ratchet} {root : SelectedRoot}
variable {records : List VerifiedRecord}

/-! ### Winners -/

variable (crypto ratchet root records) in
/-- The record that a key settles on in the final resolution. -/
def finalWinner (key : RecordKey) : Option VerifiedRecord :=
  (finalView crypto ratchet root records).winner records
    (rollbackKeys crypto ratchet root records) key

/-- A winner is a verified record that competes at its key. -/
lemma finalWinner_spec {key : RecordKey} {w : VerifiedRecord}
    (hw : finalWinner crypto ratchet root records key = some w) :
    w ∈ records ∧ key ∉ rollbackKeys crypto ratchet root records ∧
      (finalView crypto ratchet root records).competes w = true := by
  obtain ⟨hmem, hroll, hcomp, hkey⟩ := View.mem_pool.mp (View.winner_mem_pool hw)
  rw [hkey] at hroll
  exact ⟨hmem, hroll, hcomp⟩

/-- A key with a winner is not in conflict. -/
lemma not_conflicted_of_winner {key : RecordKey} {w : VerifiedRecord}
    (hw : finalWinner crypto ratchet root records key = some w) :
    key ∉ (resolveRecords crypto ratchet root records).conflicted := by
  rw [mem_conflicted_iff_tied]
  rintro (hroll | htied)
  · exact (finalWinner_spec hw).2.1 hroll
  · have hnone : finalWinner crypto ratchet root records key = none :=
      View.winner_eq_none.mpr (Or.inr htied)
    rw [hw] at hnone
    cases hnone

/-- The record that won a key, for a value that is read off its body. -/
lemma exists_winner_of_bind {V : Type} {winner : Option VerifiedRecord}
    (value? : RecordBodyV1 → Option V) {value : V} {body : V → RecordBodyV1}
    (hbody : ∀ b v, value? b = some v → b = body v)
    (h : (winner.bind fun w => value? w.body) = some value) :
    ∃ w, winner = some w ∧ w.body = body value := by
  obtain ⟨w, hw, hvalue⟩ := Option.bind_eq_some_iff.mp h
  exact ⟨w, hw, hbody w.body value hvalue⟩

lemma winner_of_entryPoint {k : UserId} {value : EntryPointRecordV1}
    (h : (resolveRecords crypto ratchet root records).entryPoints[k]? = some value) :
    ∃ w, finalWinner crypto ratchet root records (.entryPoint k) = some w ∧
      w.body = .entryPoint value := by
  refine exists_winner_of_bind RecordBodyV1.entryPoint? ?_
    ((getElem?_effective_entryPoints crypto root records _ _ k).symm.trans h)
  intro b v hv
  cases b <;> simp_all [RecordBodyV1.entryPoint?]

lemma winner_of_user {k : UserId} {value : UserRecordV1}
    (h : (resolveRecords crypto ratchet root records).users[k]? = some value)
    (hne : k ≠ root.root.id) :
    (∃ w, finalWinner crypto ratchet root records (.user k) = some w ∧ w.body = .user value) ∧
      k ∈ entryPointUsers records (rollbackKeys crypto ratchet root records) := by
  have hget := (getElem?_effective_users crypto root records _ _ k).symm.trans h
  rw [if_neg hne] at hget
  obtain ⟨w, hw, hvalue⟩ := Option.bind_eq_some_iff.mp hget
  obtain ⟨hvalue, hattested⟩ := Option.filter_eq_some_iff.mp hvalue
  refine ⟨⟨w, hw, ?_⟩, ExtTreeSet.contains_iff_mem.mp hattested⟩
  cases hb : w.body <;> simp_all [RecordBodyV1.user?]

lemma winner_of_group {k : GroupId} {value : GroupRecordV1}
    (h : (resolveRecords crypto ratchet root records).groups[k]? = some value) :
    ∃ w, finalWinner crypto ratchet root records (.group k) = some w ∧ w.body = .group value := by
  refine exists_winner_of_bind RecordBodyV1.group? ?_
    ((getElem?_effective_groups crypto root records _ _ k).symm.trans h)
  intro b v hv
  cases b <;> simp_all [RecordBodyV1.group?]

lemma winner_of_membership {k : GroupMemberId} {value : GroupMemberRecordV1}
    (h : (resolveRecords crypto ratchet root records).memberships[k]? = some value) :
    ∃ w, finalWinner crypto ratchet root records (.groupMember k) = some w ∧
      w.body = .groupMember value := by
  refine exists_winner_of_bind RecordBodyV1.groupMember? ?_
    ((getElem?_effective_memberships crypto root records _ _ k).symm.trans h)
  intro b v hv
  cases b <;> simp_all [RecordBodyV1.groupMember?]

lemma winner_of_grant {k : GrantId} {value : GrantRecordV1}
    (h : (resolveRecords crypto ratchet root records).grants[k]? = some value) :
    ∃ w, finalWinner crypto ratchet root records (.grant k) = some w ∧ w.body = .grant value := by
  refine exists_winner_of_bind RecordBodyV1.grant? ?_
    ((getElem?_effective_grants crypto root records _ _ k).symm.trans h)
  intro b v hv
  cases b <;> simp_all [RecordBodyV1.grant?]

lemma winner_of_handle {k : UserHandleId} {value : UserHandleRecordV1}
    (h : (resolveRecords crypto ratchet root records).handles[k]? = some value) :
    ∃ w, finalWinner crypto ratchet root records (.userHandle k) = some w ∧
      w.body = .userHandle value := by
  refine exists_winner_of_bind RecordBodyV1.userHandle? ?_
    ((getElem?_effective_handles crypto root records _ _ k).symm.trans h)
  intro b v hv
  cases b <;> simp_all [RecordBodyV1.userHandle?]

lemma winner_of_vaultHandle {k : VaultHandleId} {value : VaultHandleRecordV1}
    (h : (resolveRecords crypto ratchet root records).vaultHandles[k]? = some value) :
    ∃ w, finalWinner crypto ratchet root records (.vaultHandle k) = some w ∧
      w.body = .vaultHandle value := by
  refine exists_winner_of_bind RecordBodyV1.vaultHandle? ?_
    ((getElem?_effective_vaultHandles crypto root records _ _ k).symm.trans h)
  intro b v hv
  cases b <;> simp_all [RecordBodyV1.vaultHandle?]

/-! ### Disputes -/

/-- An active secret is the latest record of its own secret. -/
lemma latest_of_secretRecord {selector : SecretSelectorV1} {active : ActiveSecretV1}
    (h : (resolveRecords crypto ratchet root records).secretRecord crypto selector =
      some active) :
    ∃ latest ∈ records, latest.signed = active.signed ∧ latest.body = .secret active.value ∧
      (signerAuth (resolveRecords crypto ratchet root records).authorities
        latest.signer).canWrite active.value.selector = true ∧
      active.value.id = deriveSecretId crypto selector ∧
      RecordKey.secret active.value.id ∉ (resolveRecords crypto ratchet root records).conflicted := by
  unfold EffectiveState.secretRecord at h
  split_ifs at h with hconf
  obtain ⟨latest, hlatest, hactive⟩ := Option.bind_eq_some_iff.mp h
  obtain ⟨hlatest, _⟩ := Option.filter_eq_some_iff.mp hlatest
  obtain ⟨hmem, hkey, _⟩ := EffectiveState.latestAuthorizedSecretRecord_eq_some
    (resolveRecords_indexed crypto ratchet root records) hlatest
  unfold EffectiveState.activeSecret at hactive
  split at hactive
  · next value hbody =>
    obtain rfl := Option.some.inj hactive
    simp only [secretIndexKey, hbody, secretRecordIdentity, Option.ite_none_right_eq_some,
      Option.some.injEq] at hkey
    refine ⟨latest, hmem, rfl, hbody, hkey.1, hkey.2, ?_⟩
    rw [hkey.2]
    simpa [EffectiveState.secretConflict] using hconf
  · cases hactive

/-- What the state serves at a key other than the root user's is not disputed. -/
lemma not_conflicted_of_serves {key : RecordKey} {counter : ℕ} (hroot : key ≠ .user root.root.id)
    (h : (resolveRecords crypto ratchet root records).Serves crypto key counter) :
    key ∉ (resolveRecords crypto ratchet root records).conflicted := by
  cases key with
  | vaultRoot => exact h.elim
  | entryPoint k =>
    obtain ⟨value, hvalue, _⟩ := h
    obtain ⟨w, hw, _⟩ := winner_of_entryPoint hvalue
    exact not_conflicted_of_winner hw
  | user k =>
    obtain ⟨value, hvalue, _⟩ := h
    obtain ⟨⟨w, hw, _⟩, _⟩ := winner_of_user hvalue fun heq => hroot (by rw [heq])
    exact not_conflicted_of_winner hw
  | userHandle k =>
    obtain ⟨value, hvalue, _⟩ := h
    obtain ⟨w, hw, _⟩ := winner_of_handle hvalue
    exact not_conflicted_of_winner hw
  | group k =>
    obtain ⟨value, hvalue, _⟩ := h
    obtain ⟨w, hw, _⟩ := winner_of_group hvalue
    exact not_conflicted_of_winner hw
  | groupMember k =>
    obtain ⟨value, hvalue, _⟩ := h
    obtain ⟨w, hw, _⟩ := winner_of_membership hvalue
    exact not_conflicted_of_winner hw
  | grant k =>
    obtain ⟨value, hvalue, _⟩ := h
    obtain ⟨w, hw, _⟩ := winner_of_grant hvalue
    exact not_conflicted_of_winner hw
  | vaultHandle k =>
    obtain ⟨value, hvalue, _⟩ := h
    obtain ⟨w, hw, _⟩ := winner_of_vaultHandle hvalue
    exact not_conflicted_of_winner hw
  | secret k =>
    obtain ⟨active, hmem | ⟨selector, hsel⟩, rfl, _⟩ := h
    · -- the listing leaves out the secrets whose key is in conflict
      obtain ⟨_, latest, _, hconf, hactive⟩ := mem_secretRecords.mp hmem
      unfold EffectiveState.activeSecret at hactive
      split at hactive
      · next value hbody =>
        obtain rfl := Option.some.inj hactive
        simpa [VerifiedRecord.key, hbody, recordKeyFor] using hconf
      · cases hactive
    · exact (latest_of_secretRecord hsel).choose_spec.2.2.2.2.2

/-! ### Authority -/

/-- Once the rounds have settled, principals are selected under the final authorities. -/
lemma finalView_selecting
    (h : (resolveRecords crypto ratchet root records).authorityUnresolved = false) :
    (finalView crypto ratchet root records).selecting =
      (resolveRecords crypto ratchet root records).authorities :=
  selecting_of_settled crypto root records _ _ h

variable (crypto ratchet root records) in
/-- What the ratchet remembers about the root's own user key is still reached by an admitted
record: a user record or deletion of the root, which never competes. -/
def RootUserReached : Prop :=
  ∀ remembered, ratchet.watermarks[RecordKey.user root.root.id]? = some remembered →
    0 < remembered → ∃ record, CountsAt records (provisional crypto root records).1
      (provisional crypto root records).2 (.user root.root.id) record ∧
      remembered ≤ record.counter

/-- The root's user key is in conflict exactly when it has regressed. -/
lemma rootUserReached_iff : RootUserReached crypto ratchet root records ↔
    RecordKey.user root.root.id ∉ (resolveRecords crypto ratchet root records).conflicted := by
  rw [mem_conflicted_iff_tied, or_iff_left not_tied_rootUser, mem_rollbackKeys, not_lt]
  constructor
  · intro h
    cases hrem : ratchet.watermarks[RecordKey.user root.root.id]? with
    | none => exact Nat.zero_le _
    | some remembered =>
      rcases Nat.eq_zero_or_pos remembered with rfl | hpos
      · exact Nat.zero_le _
      · obtain ⟨record, hcounts, hle⟩ := h remembered hrem hpos
        exact hle.trans (counter_le_admittedWatermarks hcounts)
  · intro h remembered hrem hpos
    rw [hrem, Option.getD_some] at h
    cases hw : (currentWatermarks crypto root records)[RecordKey.user root.root.id]? with
    | none =>
      rw [hw] at h
      exact absurd (hpos.trans_le h) (lt_irrefl 0)
    | some current =>
      obtain ⟨⟨record, hcounts, rfl⟩, _⟩ := admittedWatermarks_eq_some.mp hw
      rw [hw] at h
      exact ⟨record, hcounts, h⟩

/-- A settled resolution is sound as long as the root's own user key has not regressed. -/
lemma sound_resolveRecords
    (h : (resolveRecords crypto ratchet root records).authorityUnresolved = false)
    (hreached : RootUserReached crypto ratchet root records) :
    (resolveRecords crypto ratchet root records).Sound crypto root.root.id
      (finalWinner crypto ratchet root records) := by
  have hselecting := finalView_selecting h
  have hauth : (finalView crypto ratchet root records).authorities =
      (resolveRecords crypto ratchet root records).authorities :=
    effectiveView_authorities crypto root records _ _
  have husers : (finalView crypto ratchet root records).users =
      (resolveRecords crypto ratchet root records).users :=
    effectiveView_users crypto root records _ _
  have hgroups : (finalView crypto ratchet root records).groups =
      (resolveRecords crypto ratchet root records).groups :=
    effectiveView_groups crypto root records _ _
  constructor
  case user =>
    intro k value hvalue hne
    obtain ⟨⟨w, hw, hbody⟩, _⟩ := winner_of_user hvalue hne
    have hcomp := (finalWinner_spec hw).2.2
    simp only [View.competes, hbody, hselecting, Bool.and_eq_true] at hcomp
    exact ⟨w, hw, hbody, hcomp.2⟩
  case entryPoint =>
    intro k hk hne
    obtain ⟨value, hvalue⟩ := Option.isSome_iff_exists.mp (ExtTreeMap.isSome_getElem?_iff_mem.mpr hk)
    obtain ⟨record, hmem, hroll, hbody, hsigner⟩ :=
      mem_entryPointUsers.mp (winner_of_user hvalue hne).2
    exact ⟨record, hmem, hbody, hsigner, mt rollbackAt_resolveRecords.mp hroll⟩
  case group =>
    intro k value hvalue
    obtain ⟨w, hw, hbody⟩ := winner_of_group hvalue
    have hcomp := (finalWinner_spec hw).2.2
    simp only [View.competes, hbody, hselecting] at hcomp
    exact ⟨w, hw, hbody, hcomp⟩
  case membership =>
    intro k value hvalue
    obtain ⟨w, hw, hbody⟩ := winner_of_membership hvalue
    have hcomp := (finalWinner_spec hw).2.2
    simp only [View.competes, hbody, hselecting, hgroups, husers, Bool.and_eq_true] at hcomp
    obtain ⟨⟨hadmin, hgroup⟩, hmember⟩ := hcomp
    exact ⟨⟨w, hw, hbody, hadmin⟩, ExtTreeMap.contains_iff_mem.mp hgroup, hmember⟩
  case grant =>
    intro k value hvalue
    obtain ⟨w, hw, hbody⟩ := winner_of_grant hvalue
    have hcomp := (finalWinner_spec hw).2.2
    simp only [View.competes, hbody, hselecting, hgroups, husers, Bool.and_eq_true] at hcomp
    exact ⟨⟨w, hw, hbody, hcomp.2⟩, hcomp.1⟩
  case handle =>
    intro k value hvalue
    obtain ⟨w, hw, hbody⟩ := winner_of_handle hvalue
    have hcomp := (finalWinner_spec hw).2.2
    simp only [View.competes, hbody, hauth, husers, Bool.and_eq_true] at hcomp
    exact ⟨⟨w, hw, hbody, hcomp.1⟩, ExtTreeMap.contains_iff_mem.mp hcomp.2⟩
  case vaultHandle =>
    intro k value hvalue
    obtain ⟨w, hw, hbody⟩ := winner_of_vaultHandle hvalue
    have hcomp := (finalWinner_spec hw).2.2
    simp only [View.competes, hbody, hauth] at hcomp
    exact ⟨w, hw, hbody, hcomp⟩
  case secret =>
    intro selector active hactive
    obtain ⟨latest, hmem, hsigned, hbody, hwrite, _⟩ := latest_of_secretRecord hactive
    exact ⟨latest, hmem, hsigned, hbody, hwrite⟩
  case undisputed =>
    intro key counter hserves
    by_cases hroot : key = .user root.root.id
    · rw [hroot]
      exact rootUserReached_iff.mp hreached
    · exact not_conflicted_of_serves hroot hserves
  case closure => exact fun principal permission =>
    @holdsAt_effectiveUnder crypto root records _ _ principal permission

end Sound

/-! ### Validation -/

section Validation

variable (crypto : CryptoProvider) (vault : VaultStore) (ratchet : Ratchet)
variable (verified : BTreeSet HashValue)

/-- A validation has selected a root and everything it puts into effect is sound. -/
def SoundlyResolved : Prop :=
  ∃ root records, resolvedWith crypto verified vault ratchet = some (root, records) ∧
    (validateVaultWithVerified crypto vault ratchet verified).effective.rootUserId =
      some root.root.id ∧
    (validateVaultWithVerified crypto vault ratchet verified).effective.Sound crypto root.root.id
      (finalWinner crypto ratchet root records)

/-- A validation whose authority resolves is sound exactly when the ratchet remembers nothing about
the root's own user key that no admitted record reaches. -/
theorem soundlyResolved_iff
    (h : (validateVaultWithVerified crypto vault ratchet
      verified).effective.authorityUnresolved = false) :
    SoundlyResolved crypto vault ratchet verified ↔
      ∃ root records, resolvedWith crypto verified vault ratchet = some (root, records) ∧
        RootUserReached crypto ratchet root records := by
  cases hres : resolvedWith crypto verified vault ratchet with
  | none =>
    rw [(validateVaultWithVerified_of_unresolved hres).1] at h
    cases h
  | some resolved =>
    obtain ⟨root, records⟩ := resolved
    have heffective := (validateVaultWithVerified_of_resolved hres).1
    rw [heffective] at h
    rw [SoundlyResolved, heffective, hres]
    constructor
    · rintro ⟨root', records', heq, _, hsound⟩
      obtain ⟨rfl, rfl⟩ := Prod.mk.inj (Option.some.inj heq)
      -- the root user is always served, with counter zero
      exact ⟨root, records, rfl,
        rootUserReached_iff.mpr (hsound.undisputed _ 0 (serves_rootUser.mpr rfl))⟩
    · rintro ⟨root', records', heq, hreached⟩
      obtain ⟨rfl, rfl⟩ := Prod.mk.inj (Option.some.inj heq)
      exact ⟨root, records, rfl, rfl, sound_resolveRecords h hreached⟩

end Validation

section Counterexample

open TestSupport

/-- The root vouched for itself and signed a user record of its own. -/
def rootUserVault : VaultStore :=
  .v1 ⟨[vaultRootRecord, trustRoot rootUser 1, userRecord rootUser rootUser 5]⟩

/-- What a machine remembers that has seen the root's own user record. -/
def rootUserRatchet : Ratchet :=
  freshRatchet.applyUpdate (validateVault transparentCrypto rootUserVault freshRatchet).ratchetUpdate

/-- In a vault with all its records the remembered counter of the root's key is reached. -/
theorem soundlyResolved_rootUserVault :
    (validateVaultWithVerified transparentCrypto rootUserVault rootUserRatchet
        ∅).effective.authorityUnresolved = false ∧
      SoundlyResolved transparentCrypto rootUserVault rootUserRatchet ∅ := by
  have hresolved : (validateVaultWithVerified transparentCrypto rootUserVault rootUserRatchet
      ∅).effective.authorityUnresolved = false := by decide +kernel
  refine ⟨hresolved, (soundlyResolved_iff _ _ _ _ hresolved).mpr ⟨selectedRoot,
    [verifiedBody rootUser (.vaultRoot ⟨rootUser.id, rootUser.hpkePublicKey⟩),
      verifiedBody rootUser (.entryPoint ⟨rootUser.id, rootUser.hpkePublicKey, 1⟩),
      verifiedBody rootUser (.user ⟨rootUser.id, rootUser.signingPublicKey,
        rootUser.hpkePublicKey, 5⟩)], ?_, rootUserReached_iff.mpr ?_⟩⟩
  · decide +kernel
  · decide +kernel

/-- Without the root's user record its key is in conflict, and the root is still in effect. -/
theorem not_soundlyResolved_rootOnly :
    (validateVaultWithVerified transparentCrypto (.v1 ⟨[vaultRootRecord]⟩) rootUserRatchet
        ∅).effective.authorityUnresolved = false ∧
      ¬ SoundlyResolved transparentCrypto (.v1 ⟨[vaultRootRecord]⟩) rootUserRatchet ∅ := by
  refine ⟨by decide +kernel, ?_⟩
  rintro ⟨root, records, hres, hroot, hsound⟩
  have heffective := (validateVaultWithVerified_of_resolved hres).1
  have hid : root.root.id = rootUser.id := by
    have : (validateVaultWithVerified transparentCrypto (.v1 ⟨[vaultRootRecord]⟩) rootUserRatchet
        ∅).effective.rootUserId = some rootUser.id := by decide +kernel
    exact Option.some.inj (hroot.symm.trans this)
  refine hsound.undisputed (.user rootUser.id) 0 ?_ ?_
  · rw [heffective, ← hid]
    exact serves_rootUser.mpr rfl
  · decide +kernel

end Counterexample

end Thorax
