import Thorax.Resolution.Authority
import Thorax.Resolution.View

/-!
# What a state serves

The live values of an effective state, key by key, in terms of the competition at the key.
-/

namespace Thorax

open Collections
open Std (ExtTreeMap ExtTreeSet LawfulEqCmp OrientedCmp)

/-! ### The effective state under admitted deletions -/

lemma mem_entryPointUsers {records : List VerifiedRecord} {rollbackKeys : BTreeMap RecordKey ℕ}
    {user : UserId} : user ∈ entryPointUsers records rollbackKeys ↔
      ∃ record ∈ records, record.key ∉ rollbackKeys ∧
        (∃ entryPoint, record.body = .entryPoint entryPoint) ∧ record.signer = user := by
  simp only [entryPointUsers, mem_collectSet, ExtTreeSet.not_mem_empty, false_or,
    ← ExtTreeMap.contains_iff_mem]
  refine exists_congr fun record => and_congr_right fun _ => ?_
  cases record.body <;> simp

section Effective

variable (crypto : CryptoProvider) (root : SelectedRoot) (records : List VerifiedRecord)
variable (rollbackKeys : BTreeMap RecordKey ℕ) (admitted : BTreeSet HashValue)

lemma getElem?_effective_users (k : UserId) :
    (effectiveUnder crypto root records rollbackKeys admitted).users[k]? =
      if k = root.root.id then some (userFromRoot root)
      else ((effectiveView root records rollbackKeys admitted).winner records rollbackKeys
        (.user k)).bind fun w =>
          w.body.user?.filter fun _ => (entryPointUsers records rollbackKeys).contains k := by
  rw [(effectiveUnder_fields crypto root records rollbackKeys admitted).1]
  exact getElem?_selected_users _ roundState_last rfl k

lemma getElem?_effective_groups (k : GroupId) :
    (effectiveUnder crypto root records rollbackKeys admitted).groups[k]? =
      ((effectiveView root records rollbackKeys admitted).winner records rollbackKeys
        (.group k)).bind (·.body.group?) := by
  rw [(effectiveUnder_fields crypto root records rollbackKeys admitted).2.1]
  exact getElem?_selected_groups _ roundState_last rfl k

lemma getElem?_effective_memberships (k : GroupMemberId) :
    (effectiveUnder crypto root records rollbackKeys admitted).memberships[k]? =
      ((effectiveView root records rollbackKeys admitted).winner records rollbackKeys
        (.groupMember k)).bind (·.body.groupMember?) := by
  rw [(effectiveUnder_fields crypto root records rollbackKeys admitted).2.2.1]
  exact getElem?_selected_memberships _ roundState_last rfl k

lemma getElem?_effective_grants (k : GrantId) :
    (effectiveUnder crypto root records rollbackKeys admitted).grants[k]? =
      ((effectiveView root records rollbackKeys admitted).winner records rollbackKeys
        (.grant k)).bind (·.body.grant?) := by
  rw [(effectiveUnder_fields crypto root records rollbackKeys admitted).2.2.2.1]
  exact getElem?_selected_grants _ roundState_last rfl k

/-- The users and groups of the view are those of the state. -/
lemma effectiveView_users : (effectiveView root records rollbackKeys admitted).users =
    (effectiveUnder crypto root records rollbackKeys admitted).users := by
  rw [(effectiveUnder_fields crypto root records rollbackKeys admitted).1, roundState_last]
  rfl

lemma effectiveView_groups : (effectiveView root records rollbackKeys admitted).groups =
    (effectiveUnder crypto root records rollbackKeys admitted).groups := by
  rw [(effectiveUnder_fields crypto root records rollbackKeys admitted).2.1, roundState_last]
  rfl

lemma effectiveView_authorities : (effectiveView root records rollbackKeys admitted).authorities =
    (effectiveUnder crypto root records rollbackKeys admitted).authorities := by
  rw [(effectiveUnder_fields crypto root records rollbackKeys admitted).2.2.2.2.2.2.2]
  rfl

/-- Once the rounds have settled, the last selection was made under the authorities it yields. -/
lemma selecting_of_settled
    (h : (effectiveUnder crypto root records rollbackKeys admitted).authorityUnresolved = false) :
    (effectiveView root records rollbackKeys admitted).selecting =
      (effectiveUnder crypto root records rollbackKeys admitted).authorities := by
  simp only [effectiveUnder, computeEffectiveState, Bool.not_eq_eq_eq_not, Bool.not_false] at h
  obtain ⟨i, hi, heq⟩ := (Settle.settle_snd _ _ _).mp h
  have hle : i ≤ 63 := Nat.le_of_lt_succ hi
  have hlast : roundState root records rollbackKeys admitted 63 =
      roundState root records rollbackKeys admitted 64 :=
    (Settle.iterate_of_fixed _ heq hle).trans (Settle.iterate_of_fixed _ heq hi.le).symm
  rw [← effectiveView_authorities]
  exact congrArg Prod.snd hlast

/-- The authorities are computed from the memberships and grants that are in effect. -/
lemma effective_authorities_eq :
    (effectiveUnder crypto root records rollbackKeys admitted).authorities =
      computeAuthoritiesFromSelected root.root.id
        (effectiveUnder crypto root records rollbackKeys admitted).memberships
        (effectiveUnder crypto root records rollbackKeys admitted).grants := by
  obtain ⟨_, _, hmem, hgrants, _, _, _, hauth⟩ :=
    effectiveUnder_fields crypto root records rollbackKeys admitted
  rw [hauth, hmem, hgrants, roundState_succ root records rollbackKeys admitted 63]
  rfl

variable {crypto root records rollbackKeys admitted} in
/-- The authorities of an effective state are what its grants and memberships confer. -/
lemma holdsAt_effectiveUnder {principal : PrincipalRefV1} {permission : GrantPermissionV1} :
    Authorities.HoldsAt (effectiveUnder crypto root records rollbackKeys admitted).authorities
      principal permission ↔
    Derives root.root.id (values (effectiveUnder crypto root records rollbackKeys admitted).grants)
      (values (effectiveUnder crypto root records rollbackKeys admitted).memberships) principal
        permission := by
  rw [effective_authorities_eq, holdsAt_computeAuthorities]

/-- The three resolutions that follow the rounds. -/
lemma effectiveUnder_last :
    let state := effectiveUnder crypto root records rollbackKeys admitted
    let view := effectiveView root records rollbackKeys admitted
    let handles := lwwResolution records rollbackKeys
      (classifyUserHandle view.authorities view.users)
    let vaultHandles := lwwResolution records rollbackKeys (classifyVaultHandle view.authorities)
    let entryPoints := lwwResolution records rollbackKeys (classifyEntryPoint view.users)
    state.handles = (partitionLww handles.winners RecordBodyV1.userHandle?).1 ∧
      state.vaultHandles = (partitionLww vaultHandles.winners RecordBodyV1.vaultHandle?).1 ∧
      state.entryPoints = (partitionLww entryPoints.winners RecordBodyV1.entryPoint?).1 ∧
      state.conflicted = materializeConflicts crypto records
        ((roundState root records rollbackKeys admitted 64).1.conflicted ∪ handles.conflicted ∪
          vaultHandles.conflicted ∪ entryPoints.conflicted) := by
  have husers : (effectiveView root records rollbackKeys admitted).users =
      (roundState root records rollbackKeys admitted 64).1.users := by
    rw [roundState_last]
    rfl
  have hauth : (effectiveView root records rollbackKeys admitted).authorities =
      (roundState root records rollbackKeys admitted 64).2 := rfl
  simp only [husers, hauth, effectiveUnder, computeEffectiveState, settle_rounds, and_self]

lemma getElem?_effective_handles (k : UserHandleId) :
    (effectiveUnder crypto root records rollbackKeys admitted).handles[k]? =
      ((effectiveView root records rollbackKeys admitted).winner records rollbackKeys
        (.userHandle k)).bind (·.body.userHandle?) := by
  rw [(effectiveUnder_last crypto root records rollbackKeys admitted).1, getElem?_partitionLww,
    View.getElem?_winners fun record k => View.classifyUserHandle_iff _ record k]

lemma getElem?_effective_vaultHandles (k : VaultHandleId) :
    (effectiveUnder crypto root records rollbackKeys admitted).vaultHandles[k]? =
      ((effectiveView root records rollbackKeys admitted).winner records rollbackKeys
        (.vaultHandle k)).bind (·.body.vaultHandle?) := by
  rw [(effectiveUnder_last crypto root records rollbackKeys admitted).2.1, getElem?_partitionLww,
    View.getElem?_winners fun record k => View.classifyVaultHandle_iff _ record k]

lemma getElem?_effective_entryPoints (k : UserId) :
    (effectiveUnder crypto root records rollbackKeys admitted).entryPoints[k]? =
      ((effectiveView root records rollbackKeys admitted).winner records rollbackKeys
        (.entryPoint k)).bind (·.body.entryPoint?) := by
  rw [(effectiveUnder_last crypto root records rollbackKeys admitted).2.2.1, getElem?_partitionLww,
    View.getElem?_winners fun record k => View.classifyEntryPoint_iff _ record k]

/-- The disputes of the state are its ties, except for those at secrets. -/
lemma mem_effective_conflicted (key : RecordKey) :
    key ∈ (effectiveUnder crypto root records rollbackKeys admitted).conflicted ↔
      (effectiveView root records rollbackKeys admitted).tied records rollbackKeys key = true ∧
        ∀ secret, key ≠ .secret secret := by
  rw [(effectiveUnder_last crypto root records rollbackKeys admitted).2.2.2,
    mem_materializeConflicts]
  simp only [ExtTreeMap.mem_union_iff]
  rw [mem_selected_conflicted _ roundState_last (rfl : effectiveView root records rollbackKeys
      admitted = _),
    View.mem_conflicted (fun _ _ h => RecordKey.userHandle.inj h)
      (fun record k => View.classifyUserHandle_iff _ record k),
    View.mem_conflicted (fun _ _ h => RecordKey.vaultHandle.inj h)
      (fun record k => View.classifyVaultHandle_iff _ record k),
    View.mem_conflicted (fun _ _ h => RecordKey.entryPoint.inj h)
      (fun record k => View.classifyEntryPoint_iff _ record k)]
  cases key with
  | vaultRoot =>
    -- nothing competes at the key of the root record
    suffices (effectiveView root records rollbackKeys admitted).tied records rollbackKeys
        .vaultRoot = false by simp [this]
    rw [← Bool.not_eq_true, View.tied_eq_true]
    rintro ⟨a, ha, _⟩
    obtain ⟨_, _, hcomp, hkey⟩ := View.mem_pool.mp (View.mem_leaders.mp ha).1
    exact (View.key_ne_of_competes hcomp).1 hkey
  | _ => simp

end Effective

/-! ### The final state -/

section Final

variable (crypto : CryptoProvider) (ratchet : Ratchet) (root : SelectedRoot)
variable (records : List VerifiedRecord)

/-- The view under which the final state is judged. -/
def finalView : View :=
  effectiveView root records (rollbackKeys crypto ratchet root records)
    (admitDeletions crypto root records (rollbackKeys crypto ratchet root records))

/-- Resolution adds conflicts, counters and the index to the final state. -/
lemma resolveRecords_fields :
    let state := resolveRecords crypto ratchet root records
    let final := finalState crypto ratchet root records
    state.users = final.users ∧ state.groups = final.groups ∧
      state.memberships = final.memberships ∧ state.grants = final.grants ∧
      state.handles = final.handles ∧ state.vaultHandles = final.vaultHandles ∧
      state.entryPoints = final.entryPoints ∧ state.authorities = final.authorities :=
  ⟨rfl, rfl, rfl, rfl, rfl, rfl, rfl, rfl⟩

lemma secretIndexKey_iff (view : View) (record : VerifiedRecord) (secret : SecretId) :
    secretIndexKey view.authorities record = some secret ↔
      view.competes record = true ∧ record.key = .secret secret := by
  rw [← View.classifySecret_iff]
  unfold secretIndexKey classifySecret secretRecordIdentity
  cases record.body <;> simp

/-- A key is in conflict when it regressed or is tied. -/
lemma mem_conflicted_iff_tied (key : RecordKey) :
    key ∈ (resolveRecords crypto ratchet root records).conflicted ↔
      key ∈ rollbackKeys crypto ratchet root records ∨
        (finalView crypto ratchet root records).tied records
          (rollbackKeys crypto ratchet root records) key = true := by
  have hauth : (finalState crypto ratchet root records).authorities =
      (finalView crypto ratchet root records).authorities :=
    (effectiveView_authorities crypto root records _ _).symm
  have hsecret : key ∈ (lwwResolution records (rollbackKeys crypto ratchet root records)
      (classifySecret (finalView crypto ratchet root records).authorities)).conflicted ↔ _ :=
    View.mem_conflicted (fun _ _ h => RecordKey.secret.inj h)
      (fun record k => View.classifySecret_iff _ record k) key
  rw [mem_conflicted_resolveRecords, secretTies, hauth, hsecret]
  rw [show key ∈ (finalState crypto ratchet root records).conflicted ↔ _ from
    mem_effective_conflicted crypto root records _ _ key]
  apply or_congr_right
  constructor
  · rintro (⟨h, _⟩ | ⟨_, h⟩) <;> exact h
  · intro h
    by_cases hk : ∃ k, RecordKey.secret k = key
    · exact Or.inr ⟨hk, h⟩
    · exact Or.inl ⟨h, fun secret heq => hk ⟨secret, heq.symm⟩⟩

end Final

/-! ### Served values -/

/-- The state serves a value with this counter at a key. -/
def EffectiveState.Serves (self : EffectiveState) (crypto : CryptoProvider) (key : RecordKey)
    (counter : ℕ) : Prop :=
  match key with
  | .vaultRoot => False
  | .entryPoint k => ∃ value, self.entryPoints[k]? = some value ∧ value.counter = counter
  | .user k => ∃ value, self.users[k]? = some value ∧ value.counter = counter
  | .userHandle k => ∃ value, self.handles[k]? = some value ∧ value.counter = counter
  | .group k => ∃ value, self.groups[k]? = some value ∧ value.counter = counter
  | .groupMember k => ∃ value, self.memberships[k]? = some value ∧ value.counter = counter
  | .grant k => ∃ value, self.grants[k]? = some value ∧ value.counter = counter
  | .secret k => ∃ active : ActiveSecretV1,
      (active ∈ self.secretRecords ∨ ∃ selector, self.secretRecord crypto selector = some active) ∧
        active.value.id = k ∧ active.value.counter = counter
  | .vaultHandle k => ∃ value, self.vaultHandles[k]? = some value ∧ value.counter = counter

section Serves

variable {crypto : CryptoProvider} {ratchet : Ratchet} {root : SelectedRoot}
variable {records : List VerifiedRecord}

/-- The latest record of a secret that is not in conflict is one of its leaders. -/
lemma latest_mem_leaders {secret : SecretId} {latest : VerifiedRecord}
    (hconf : RecordKey.secret secret ∉ (resolveRecords crypto ratchet root records).conflicted)
    (h : (resolveRecords crypto ratchet root records).latestAuthorizedSecretRecord secret =
      some latest) :
    latest ∈ (finalView crypto ratchet root records).leaders records
      (rollbackKeys crypto ratchet root records) (.secret secret) := by
  obtain ⟨hmem, hkey, hle⟩ := EffectiveState.latestAuthorizedSecretRecord_eq_some
    (resolveRecords_indexed crypto ratchet root records) h
  have hauth : (resolveRecords crypto ratchet root records).authorities =
      (finalView crypto ratchet root records).authorities :=
    (effectiveView_authorities crypto root records _ _).symm
  rw [hauth] at hkey hle
  obtain ⟨hcomp, hk⟩ := (secretIndexKey_iff _ latest secret).mp hkey
  have hroll : RecordKey.secret secret ∉ rollbackKeys crypto ratchet root records := fun hr =>
    hconf ((mem_conflicted_iff_tied crypto ratchet root records _).mpr (Or.inl hr))
  refine View.mem_leaders.mpr ⟨View.mem_pool.mpr ⟨hmem, hk ▸ hroll, hcomp, hk⟩, fun other ho => ?_⟩
  obtain ⟨homem, _, hocomp, hokey⟩ := View.mem_pool.mp ho
  exact counter_le_of_compareLww (hle other homem ((secretIndexKey_iff _ other secret).mpr
    ⟨hocomp, hokey⟩))

/-- A secret that is not in conflict has a latest record exactly when it has a winner, and the two
agree on the body. -/
lemma latest_iff_winner {secret : SecretId} {body : RecordBodyV1}
    (hconf : RecordKey.secret secret ∉ (resolveRecords crypto ratchet root records).conflicted) :
    (∃ latest, (resolveRecords crypto ratchet root records).latestAuthorizedSecretRecord secret =
        some latest ∧ latest.body = body) ↔
      ∃ w, (finalView crypto ratchet root records).winner records
        (rollbackKeys crypto ratchet root records) (.secret secret) = some w ∧ w.body = body := by
  have htied : (finalView crypto ratchet root records).tied records
      (rollbackKeys crypto ratchet root records) (.secret secret) = false := by
    rw [← Bool.not_eq_true]
    exact fun ht => hconf ((mem_conflicted_iff_tied crypto ratchet root records _).mpr (Or.inr ht))
  constructor
  · rintro ⟨latest, hl, rfl⟩
    have hlead := latest_mem_leaders hconf hl
    cases hw : (finalView crypto ratchet root records).winner records
        (rollbackKeys crypto ratchet root records) (.secret secret) with
    | none =>
      rcases View.winner_eq_none.mp hw with hnil | ht
      · have hpool := (View.mem_leaders.mp hlead).1
        simp [hnil] at hpool
      · simp [htied] at ht
    | some w => exact ⟨w, rfl, ((View.winner_eq_some hw).2 latest hlead).symm⟩
  · rintro ⟨w, hw, rfl⟩
    have hpool := View.winner_mem_pool hw
    obtain ⟨hmem, _, hcomp, hkey⟩ := View.mem_pool.mp hpool
    have hauth : (resolveRecords crypto ratchet root records).authorities =
        (finalView crypto ratchet root records).authorities :=
      (effectiveView_authorities crypto root records _ _).symm
    cases hl : (resolveRecords crypto ratchet root records).latestAuthorizedSecretRecord secret with
    | none =>
      have hnone := (EffectiveState.latestAuthorizedSecretRecord_eq_none
        (resolveRecords_indexed crypto ratchet root records)).mp hl w hmem
      rw [hauth] at hnone
      exact absurd ((secretIndexKey_iff _ w secret).mpr ⟨hcomp, hkey⟩) hnone
    | some latest =>
      exact ⟨latest, rfl, (View.winner_eq_some hw).2 latest (latest_mem_leaders hconf hl)⟩

/-- What an extractor of values serves, when it agrees with `live` and with the counters. -/
lemma serves_bind {V : Type} {view : View} {winner : Option VerifiedRecord}
    {value : VerifiedRecord → Option V} {counterOf : V → ℕ} {c : ℕ}
    (hlive : ∀ w, winner = some w → (view.live w.body = true ↔ (value w).isSome))
    (hcounter : ∀ w v, winner = some w → value w = some v → w.counter = counterOf v) :
    (∃ v, winner.bind value = some v ∧ counterOf v = c) ↔
      ∃ w, winner = some w ∧ view.live w.body = true ∧ w.counter = c := by
  constructor
  · rintro ⟨v, hv, rfl⟩
    obtain ⟨w, hw, hwv⟩ := Option.bind_eq_some_iff.mp hv
    exact ⟨w, hw, (hlive w hw).mpr (by simp [hwv]), hcounter w v hw hwv⟩
  · rintro ⟨w, hw, hl, rfl⟩
    obtain ⟨v, hv⟩ := Option.isSome_iff_exists.mp ((hlive w hw).mp hl)
    exact ⟨v, by simp [hw, hv], (hcounter w v hw hv).symm⟩

lemma mem_secretRecords {self : EffectiveState} {active : ActiveSecretV1} :
    active ∈ self.secretRecords ↔ ∃ secret latest,
      self.latestAuthorizedSecretRecord secret = some latest ∧ latest.key ∉ self.conflicted ∧
        EffectiveState.activeSecret latest = some active := by
  simp only [EffectiveState.secretRecords, List.mem_filterMap, mem_sortBy, List.mem_filter,
    mem_values, EffectiveState.latestAuthorizedSecretRecord, Option.bind_eq_some_iff]
  constructor
  · rintro ⟨slot, ⟨⟨secret, hslot⟩, hconf⟩, latest, hlatest, hactive⟩
    refine ⟨secret, latest, ⟨slot, hslot, hlatest⟩, ?_, hactive⟩
    simpa [hlatest, ← ExtTreeMap.contains_iff_mem] using hconf
  · rintro ⟨secret, latest, ⟨slot, hslot, hlatest⟩, hconf, hactive⟩
    refine ⟨slot, ⟨⟨secret, hslot⟩, ?_⟩, latest, hlatest, hactive⟩
    simpa [hlatest, ← ExtTreeMap.contains_iff_mem] using hconf

/-- The secrets served at a key are the values of its latest record. -/
lemma serves_secret {secret : SecretId} {c : ℕ}
    (hconf : RecordKey.secret secret ∉ (resolveRecords crypto ratchet root records).conflicted) :
    (resolveRecords crypto ratchet root records).Serves crypto (.secret secret) c ↔
      ∃ latest value, (resolveRecords crypto ratchet root records).latestAuthorizedSecretRecord
        secret = some latest ∧ latest.body = .secret value ∧ value.counter = c := by
  have hindexed := resolveRecords_indexed crypto ratchet root records
  -- the latest record of any secret stands at that secret's key
  have hkey : ∀ s latest value, (resolveRecords crypto ratchet root
      records).latestAuthorizedSecretRecord s = some latest → latest.body = .secret value →
      value.id = s ∧ latest.key = .secret s := by
    intro s latest value hl hb
    have hk := (EffectiveState.latestAuthorizedSecretRecord_eq_some hindexed hl).2.1
    simp only [secretIndexKey, hb, secretRecordIdentity, Option.ite_none_right_eq_some,
      Option.some.injEq] at hk
    exact ⟨hk.2, by simp [VerifiedRecord.key, hb, recordKeyFor, hk.2]⟩
  have hactive : ∀ latest active, EffectiveState.activeSecret latest = some active →
      latest.body = .secret active.value := by
    intro latest active h
    unfold EffectiveState.activeSecret at h
    split at h
    · next value hb =>
      obtain rfl := Option.some.inj h
      exact hb
    · cases h
  simp only [EffectiveState.Serves]
  constructor
  · rintro ⟨active, hfrom, hid, hc⟩
    rcases hfrom with hmem | ⟨selector, hsel⟩
    · obtain ⟨s, latest, hl, _, hact⟩ := mem_secretRecords.mp hmem
      have hb := hactive latest active hact
      obtain rfl : s = secret := (hkey s latest _ hl hb).1.symm.trans hid
      exact ⟨latest, active.value, hl, hb, hc⟩
    · unfold EffectiveState.secretRecord at hsel
      split_ifs at hsel
      obtain ⟨latest, hl, hact⟩ := Option.bind_eq_some_iff.mp hsel
      obtain ⟨hl, _⟩ := Option.filter_eq_some_iff.mp hl
      have hb := hactive latest active hact
      rw [(hkey _ latest _ hl hb).1.symm.trans hid] at hl
      exact ⟨latest, active.value, hl, hb, hc⟩
  · rintro ⟨latest, value, hl, hb, hc⟩
    obtain ⟨hid, hk⟩ := hkey secret latest value hl hb
    refine ⟨⟨latest.signed, value⟩, Or.inl (mem_secretRecords.mpr
      ⟨secret, latest, hl, hk ▸ hconf, ?_⟩), hid, hc⟩
    simp [EffectiveState.activeSecret, hb]

/-- At a key that is not in conflict, the state serves what the competition settles on. The root
user alone is served without a record. -/
lemma serves_iff {key : RecordKey} {c : ℕ}
    (hconf : key ∉ (resolveRecords crypto ratchet root records).conflicted)
    (hroot : key ≠ .user root.root.id) :
    (resolveRecords crypto ratchet root records).Serves crypto key c ↔
      ∃ w, (finalView crypto ratchet root records).winner records
          (rollbackKeys crypto ratchet root records) key = some w ∧
        (finalView crypto ratchet root records).live w.body = true ∧ w.counter = c := by
  have hwkey : ∀ w, (finalView crypto ratchet root records).winner records
      (rollbackKeys crypto ratchet root records) key = some w →
      recordKeyFor w.body w.signer = key :=
    fun w hw => (View.mem_pool.mp (View.winner_mem_pool hw)).2.2.2
  obtain ⟨hu, hg, hm, hgr, hh, hv, he, _⟩ := resolveRecords_fields crypto ratchet root records
  cases key with
  | vaultRoot =>
    simp only [EffectiveState.Serves, false_iff, not_exists, not_and]
    intro w hw hl
    have hk := hwkey w hw
    cases hb : w.body <;> simp_all [recordKeyFor, View.live]
  | entryPoint k =>
    simp only [EffectiveState.Serves, he, finalState, resolveEffectiveWithDeletions,
      getElem?_effective_entryPoints]
    apply serves_bind
    · intro w hw
      have hk := hwkey w hw
      cases hb : w.body <;> simp_all [recordKeyFor, View.live, RecordBodyV1.isDeletion,
        RecordBodyV1.entryPoint?]
    · intro w v hw hv
      cases hb : w.body <;> simp_all [RecordBodyV1.entryPoint?, VerifiedRecord.counter,
        RecordBodyV1.lwwCounter]
  | user k =>
    have hne : k ≠ root.root.id := fun heq => hroot (by rw [heq])
    simp only [EffectiveState.Serves, hu, finalState, resolveEffectiveWithDeletions,
      getElem?_effective_users, hne, if_false]
    apply serves_bind
    · intro w hw
      have hk := hwkey w hw
      cases hb : w.body with
      | user value =>
        obtain rfl : value.id = k := by simpa [hb, recordKeyFor] using hk
        simp only [View.live, RecordBodyV1.user?, Option.filter]
        rw [show (finalView crypto ratchet root records).attested = entryPointUsers records
          (rollbackKeys crypto ratchet root records) from rfl]
        split_ifs with hatt <;> simp [hatt]
      | _ => simp_all [recordKeyFor, View.live, RecordBodyV1.isDeletion, RecordBodyV1.user?]
    · intro w v hw hv
      obtain ⟨hv, _⟩ := Option.filter_eq_some_iff.mp hv
      cases hb : w.body <;> simp_all [RecordBodyV1.user?, VerifiedRecord.counter,
        RecordBodyV1.lwwCounter]
  | userHandle k =>
    simp only [EffectiveState.Serves, hh, finalState, resolveEffectiveWithDeletions,
      getElem?_effective_handles]
    apply serves_bind
    · intro w hw
      have hk := hwkey w hw
      cases hb : w.body <;> simp_all [recordKeyFor, View.live, RecordBodyV1.isDeletion,
        RecordBodyV1.userHandle?]
    · intro w v hw hv
      cases hb : w.body <;> simp_all [RecordBodyV1.userHandle?, VerifiedRecord.counter,
        RecordBodyV1.lwwCounter]
  | group k =>
    simp only [EffectiveState.Serves, hg, finalState, resolveEffectiveWithDeletions,
      getElem?_effective_groups]
    apply serves_bind
    · intro w hw
      have hk := hwkey w hw
      cases hb : w.body <;> simp_all [recordKeyFor, View.live, RecordBodyV1.isDeletion,
        RecordBodyV1.group?]
    · intro w v hw hv
      cases hb : w.body <;> simp_all [RecordBodyV1.group?, VerifiedRecord.counter,
        RecordBodyV1.lwwCounter]
  | groupMember k =>
    simp only [EffectiveState.Serves, hm, finalState, resolveEffectiveWithDeletions,
      getElem?_effective_memberships]
    apply serves_bind
    · intro w hw
      have hk := hwkey w hw
      cases hb : w.body <;> simp_all [recordKeyFor, View.live, RecordBodyV1.isDeletion,
        RecordBodyV1.groupMember?]
    · intro w v hw hv
      cases hb : w.body <;> simp_all [RecordBodyV1.groupMember?, VerifiedRecord.counter,
        RecordBodyV1.lwwCounter]
  | grant k =>
    simp only [EffectiveState.Serves, hgr, finalState, resolveEffectiveWithDeletions,
      getElem?_effective_grants]
    apply serves_bind
    · intro w hw
      have hk := hwkey w hw
      cases hb : w.body <;> simp_all [recordKeyFor, View.live, RecordBodyV1.isDeletion,
        RecordBodyV1.grant?]
    · intro w v hw hv
      cases hb : w.body <;> simp_all [RecordBodyV1.grant?, VerifiedRecord.counter,
        RecordBodyV1.lwwCounter]
  | secret k =>
    rw [serves_secret hconf]
    constructor
    · rintro ⟨latest, value, hl, hb, rfl⟩
      obtain ⟨w, hw, hwb⟩ := (latest_iff_winner hconf).mp ⟨latest, hl, hb⟩
      exact ⟨w, hw, by simp [hwb, View.live, RecordBodyV1.isDeletion],
        by simp [VerifiedRecord.counter, hwb, RecordBodyV1.lwwCounter]⟩
    · rintro ⟨w, hw, hl, rfl⟩
      obtain ⟨latest, hlat, hlb⟩ := (latest_iff_winner hconf).mpr ⟨w, hw, rfl⟩
      have hk := hwkey w hw
      cases hb : w.body with
      | secret value =>
        exact ⟨latest, value, hlat, hlb.trans hb,
          by simp [VerifiedRecord.counter, hb, RecordBodyV1.lwwCounter]⟩
      | _ => simp_all [recordKeyFor, View.live, RecordBodyV1.isDeletion]
  | vaultHandle k =>
    simp only [EffectiveState.Serves, hv, finalState, resolveEffectiveWithDeletions,
      getElem?_effective_vaultHandles]
    apply serves_bind
    · intro w hw
      have hk := hwkey w hw
      cases hb : w.body <;> simp_all [recordKeyFor, View.live, RecordBodyV1.isDeletion,
        RecordBodyV1.vaultHandle?]
    · intro w v hw hv
      cases hb : w.body <;> simp_all [RecordBodyV1.vaultHandle?, VerifiedRecord.counter,
        RecordBodyV1.lwwCounter]

/-- No record competes at the key of the root user, so it is never tied. -/
lemma not_tied_rootUser : ¬ (finalView crypto ratchet root records).tied records
    (rollbackKeys crypto ratchet root records) (.user root.root.id) = true := by
  intro h
  obtain ⟨a, ha, _⟩ := View.tied_eq_true.mp h
  obtain ⟨_, _, hcomp, hkey⟩ := View.mem_pool.mp (View.mem_leaders.mp ha).1
  exact (View.key_ne_of_competes hcomp).2 hkey

/-- The root user is served with counter zero. -/
lemma serves_rootUser {counter : ℕ} :
    (resolveRecords crypto ratchet root records).Serves crypto (.user root.root.id) counter ↔
      counter = 0 := by
  have husers : (resolveRecords crypto ratchet root records).users[root.root.id]? =
      some (userFromRoot root) := by
    rw [(resolveRecords_fields crypto ratchet root records).1]
    refine (getElem?_effective_users crypto root records _ _ root.root.id).trans ?_
    simp
  simp [EffectiveState.Serves, husers, userFromRoot, eq_comm]

end Serves

end Thorax
