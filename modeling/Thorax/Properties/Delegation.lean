import Thorax.Resolution.Growth
import Thorax.TestSupport

/-!
# Delegation

Every round of the resolution extends a delegation by one hop, and there are 64 of them. Records
that are appended in fewer batches than that always take effect; a chain of 64 grants does not
settle.
-/

namespace Thorax

open Collections
open Std (ExtTreeMap ExtTreeSet)

/-! ### Records that take effect -/

/-- A state shows a record's value at the record's key. Nothing is shown of root records, and the
root user is shown without a record. -/
def EffectiveState.Shows (self : EffectiveState) (records : List VerifiedRecord)
    (record : VerifiedRecord) : Prop :=
  match record.body with
  | .entryPoint value => self.entryPoints[record.signer]? = some value
  | .user value => self.rootUserId ≠ some value.id ∧ self.users[value.id]? = some value
  | .userHandle value => self.handles[value.id]? = some value
  | .group value => self.groups[value.id]? = some value
  | .groupMember value => self.memberships[value.id]? = some value
  | .grant value => self.grants[value.id]? = some value
  | .secret value =>
    (self.attachVerifiedRecords records none).latestAuthorizedSecretRecord value.id = some record
  | .vaultHandle value => self.vaultHandles[value.id]? = some value
  | _ => False

/-- The principals a record is about are effective; a user has vouched for the root and is not
the root. -/
def EffectiveState.NamesPresent (self : EffectiveState) (records : List VerifiedRecord)
    (record : VerifiedRecord) : Prop :=
  match record.body with
  | .entryPoint _ => record.signer ∈ self.users
  | .user value => self.rootUserId ≠ some value.id ∧ ∃ other ∈ records,
      (∃ entryPoint, other.body = .entryPoint entryPoint) ∧ other.signer = value.id
  | .userHandle value => value.userId ∈ self.users
  | .groupMember value => value.groupId ∈ self.groups ∧
      principalExists value.memberId self.users self.groups = true
  | .grant value => principalExists value.subjectId self.users self.groups = true
  | .group _ | .secret _ | .vaultHandle _ => True
  | _ => False

/-- The grants among records whose subjects are effective. -/
def EffectiveState.presentGrants (self : EffectiveState) (records : List VerifiedRecord) :
    List GrantRecordV1 :=
  (records.filterMap (·.body.grant?)).filter fun grant =>
    principalExists grant.subjectId self.users self.groups

/-- The memberships among records whose group and member are effective. -/
def EffectiveState.presentMemberships (self : EffectiveState) (records : List VerifiedRecord) :
    List GroupMemberRecordV1 :=
  (records.filterMap (·.body.groupMember?)).filter fun member =>
    self.groups.contains member.groupId && principalExists member.memberId self.users self.groups

section Effective

variable {crypto : CryptoProvider} {root : SelectedRoot} {admitted : BTreeSet HashValue}
variable {records : List VerifiedRecord} {record : VerifiedRecord}

/-- At the key of a record nothing else can win. -/
lemma Additive.winner_key (h : Additive records) (hmem : record ∈ records) (view : View) :
    view.winner records ∅ record.key = if view.competes record then some record else none := by
  split_ifs with hcomp
  · exact h.winner_eq_some.mpr ⟨hmem, hcomp, rfl⟩
  · cases hw : view.winner records ∅ record.key with
    | none => rfl
    | some w =>
      obtain ⟨hw, hwcomp, hkey⟩ := h.winner_eq_some.mp hw
      rw [h.eq_of_key hw hmem hkey] at hwcomp
      exact absurd hwcomp hcomp

variable (crypto) in
/-- A record whose signer stays authorised competes when the principals it is about are there. -/
lemma competes_iff_namesPresent (h : Additive records)
    (hauth : AuthorisedFrom root admitted records 62) (hmem : record ∈ records)
    (huser : ∀ user, record.body ≠ .user user) :
    (effectiveView root records ∅ admitted).competes record = true ↔
      (effectiveUnder crypto root records ∅ admitted).NamesPresent records record := by
  have hselecting := hauth 63 (by decide) record hmem
  have hfinal := hauth 64 (by decide) record hmem
  have husers := effectiveView_users crypto root records ∅ admitted
  have hgroups := effectiveView_groups crypto root records ∅ admitted
  have hsel : (effectiveView root records ∅ admitted).selecting =
      roundAuthorities root admitted records 63 := rfl
  have hauthorities : (effectiveView root records ∅ admitted).authorities =
      roundAuthorities root admitted records 64 := rfl
  have hdeletion := h.noDeletion record hmem
  unfold View.competes EffectiveState.NamesPresent
  cases hb : record.body <;>
    simp_all [RecordBodyV1.authorisedBy, RecordBodyV1.isDeletion]

/-- What is shown at a record's key, when the state selects values with `value`. -/
lemma bind_winner_key {V : Type} (value : RecordBodyV1 → Option V) (h : Additive records)
    (hmem : record ∈ records) {view : View} {v : V} (hvalue : value record.body = some v) :
    (view.winner records ∅ record.key).bind (fun w => value w.body) = some v ↔
      view.competes record = true := by
  rw [h.winner_key hmem]
  split_ifs with hcomp <;> simp [hcomp, hvalue]

variable (crypto) in
/-- A record is shown exactly when the principals it is about are there. -/
lemma shows_iff_namesPresent (h : Additive records)
    (hauth : AuthorisedFrom root admitted records 62) (hmem : record ∈ records) :
    (effectiveUnder crypto root records ∅ admitted).Shows records record ↔
      (effectiveUnder crypto root records ∅ admitted).NamesPresent records record := by
  have hcompetes := competes_iff_namesPresent crypto h hauth hmem
  have hdeletion := h.noDeletion record hmem
  cases hb : record.body with
  | vaultRoot _ => simp [EffectiveState.Shows, EffectiveState.NamesPresent, hb]
  | userDeleted _ | groupDeleted _ | groupMemberDeleted _ | grantDeleted _ | secretDeleted _ =>
    simp [hb, RecordBodyV1.isDeletion] at hdeletion
  | entryPoint value =>
    have hkey : record.key = .entryPoint record.signer := by
      simp [VerifiedRecord.key, hb, recordKeyFor]
    rw [← hcompetes (by simp [hb]), ← bind_winner_key RecordBodyV1.entryPoint? h hmem
      (by rw [hb]; rfl), hkey, ← getElem?_effective_entryPoints crypto]
    simp only [EffectiveState.Shows, hb]
  | user value =>
    have hkey : record.key = .user value.id := by simp [VerifiedRecord.key, hb, recordKeyFor]
    have hroot : (effectiveUnder crypto root records ∅ admitted).rootUserId =
        some root.root.id := rfl
    simp only [EffectiveState.Shows, EffectiveState.NamesPresent, hb, hroot, ne_eq,
      Option.some.injEq]
    refine and_congr_right fun hne => ?_
    have hcomp : (effectiveView root records ∅ admitted).competes record = true := by
      have hadm := hauth 63 (by decide) record hmem
      simp only [hb, RecordBodyV1.authorisedBy] at hadm
      simp only [View.competes, hb, Bool.and_eq_true, decide_eq_true_eq]
      exact ⟨Ne.symm hne, hadm⟩
    rw [getElem?_effective_users, if_neg (Ne.symm hne), ← hkey, h.winner_key hmem, if_pos hcomp]
    simp [hb, RecordBodyV1.user?, Option.filter_eq_some_iff, mem_entryPointUsers]
  | userHandle value =>
    have hkey : record.key = .userHandle value.id := by simp [VerifiedRecord.key, hb, recordKeyFor]
    rw [← hcompetes (by simp [hb]), ← bind_winner_key RecordBodyV1.userHandle? h hmem
      (by rw [hb]; rfl), hkey, ← getElem?_effective_handles crypto]
    simp only [EffectiveState.Shows, hb]
  | group value =>
    have hkey : record.key = .group value.id := by simp [VerifiedRecord.key, hb, recordKeyFor]
    rw [← hcompetes (by simp [hb]), ← bind_winner_key RecordBodyV1.group? h hmem
      (by rw [hb]; rfl), hkey, ← getElem?_effective_groups crypto]
    simp only [EffectiveState.Shows, hb]
  | groupMember value =>
    have hkey : record.key = .groupMember value.id := by simp [VerifiedRecord.key, hb, recordKeyFor]
    rw [← hcompetes (by simp [hb]), ← bind_winner_key RecordBodyV1.groupMember? h hmem
      (by rw [hb]; rfl), hkey, ← getElem?_effective_memberships crypto]
    simp only [EffectiveState.Shows, hb]
  | grant value =>
    have hkey : record.key = .grant value.id := by simp [VerifiedRecord.key, hb, recordKeyFor]
    rw [← hcompetes (by simp [hb]), ← bind_winner_key RecordBodyV1.grant? h hmem
      (by rw [hb]; rfl), hkey, ← getElem?_effective_grants crypto]
    simp only [EffectiveState.Shows, hb]
  | vaultHandle value =>
    have hkey : record.key = .vaultHandle value.id := by simp [VerifiedRecord.key, hb, recordKeyFor]
    rw [← hcompetes (by simp [hb]), ← bind_winner_key RecordBodyV1.vaultHandle? h hmem
      (by rw [hb]; rfl), hkey, ← getElem?_effective_vaultHandles crypto]
    simp only [EffectiveState.Shows, hb]
  | secret value =>
    have hcomp := (hcompetes (by simp [hb])).mpr (by simp [EffectiveState.NamesPresent, hb])
    have hindexed : ((effectiveUnder crypto root records ∅ admitted).attachVerifiedRecords records
        none).Indexed := rfl
    have hindex : ∀ other secret, secretIndexKey ((effectiveUnder crypto root records ∅
        admitted).attachVerifiedRecords records none).authorities other = some secret ↔
        (effectiveView root records ∅ admitted).competes other = true ∧
          other.key = .secret secret := by
      intro other secret
      rw [← secretIndexKey_iff, effectiveView_authorities crypto]
      rfl
    have hkey : record.key = .secret value.id := by simp [VerifiedRecord.key, hb, recordKeyFor]
    simp only [EffectiveState.Shows, EffectiveState.NamesPresent, hb, iff_true]
    cases hlatest : ((effectiveUnder crypto root records ∅ admitted).attachVerifiedRecords records
        none).latestAuthorizedSecretRecord value.id with
    | none =>
      exact absurd ((hindex record value.id).mpr ⟨hcomp, hkey⟩)
        ((EffectiveState.latestAuthorizedSecretRecord_eq_none hindexed).mp hlatest record hmem)
    | some latest =>
      obtain ⟨hlmem, hlkey, _⟩ :=
        EffectiveState.latestAuthorizedSecretRecord_eq_some hindexed hlatest
      rw [h.eq_of_key hlmem hmem (((hindex _ _).mp hlkey).2.trans hkey.symm)]

/-- The grants of the state are the grants among the records that have a subject. -/
lemma mem_values_grants (h : Additive records) (hauth : AuthorisedFrom root admitted records 62)
    {grant : GrantRecordV1} :
    grant ∈ values (effectiveUnder crypto root records ∅ admitted).grants ↔
      grant ∈ (effectiveUnder crypto root records ∅ admitted).presentGrants records := by
  simp only [mem_values, EffectiveState.presentGrants, List.mem_filter, List.mem_filterMap]
  constructor
  · rintro ⟨k, hk⟩
    rw [getElem?_effective_grants] at hk
    obtain ⟨w, hw, hvalue⟩ := Option.bind_eq_some_iff.mp hk
    obtain ⟨hmem, hcomp, _⟩ := h.winner_eq_some.mp hw
    have hb : w.body = .grant grant := by
      cases hb : w.body <;> simp_all [RecordBodyV1.grant?]
    have hnames := (competes_iff_namesPresent crypto h hauth hmem (by simp [hb])).mp hcomp
    simp only [EffectiveState.NamesPresent, hb] at hnames
    exact ⟨⟨w, hmem, hvalue⟩, hnames⟩
  · rintro ⟨⟨record, hmem, hvalue⟩, hpresent⟩
    have hb : record.body = .grant grant := by
      cases hb : record.body <;> simp_all [RecordBodyV1.grant?]
    have hshows := (shows_iff_namesPresent crypto h hauth hmem).mpr (by
      simpa only [EffectiveState.NamesPresent, hb] using hpresent)
    simp only [EffectiveState.Shows, hb] at hshows
    exact ⟨grant.id, hshows⟩

lemma mem_values_memberships (h : Additive records)
    (hauth : AuthorisedFrom root admitted records 62) {member : GroupMemberRecordV1} :
    member ∈ values (effectiveUnder crypto root records ∅ admitted).memberships ↔
      member ∈ (effectiveUnder crypto root records ∅ admitted).presentMemberships records := by
  simp only [mem_values, EffectiveState.presentMemberships, List.mem_filter, List.mem_filterMap,
    Bool.and_eq_true, ExtTreeMap.contains_iff_mem]
  constructor
  · rintro ⟨k, hk⟩
    rw [getElem?_effective_memberships] at hk
    obtain ⟨w, hw, hvalue⟩ := Option.bind_eq_some_iff.mp hk
    obtain ⟨hmem, hcomp, _⟩ := h.winner_eq_some.mp hw
    have hb : w.body = .groupMember member := by
      cases hb : w.body <;> simp_all [RecordBodyV1.groupMember?]
    have hnames := (competes_iff_namesPresent crypto h hauth hmem (by simp [hb])).mp hcomp
    simp only [EffectiveState.NamesPresent, hb] at hnames
    exact ⟨⟨w, hmem, hvalue⟩, hnames⟩
  · rintro ⟨⟨record, hmem, hvalue⟩, hpresent⟩
    have hb : record.body = .groupMember member := by
      cases hb : record.body <;> simp_all [RecordBodyV1.groupMember?]
    have hshows := (shows_iff_namesPresent crypto h hauth hmem).mpr (by
      simpa only [EffectiveState.NamesPresent, hb] using hpresent)
    simp only [EffectiveState.Shows, hb] at hshows
    exact ⟨member.id, hshows⟩

/-- Records appended in fewer than 64 batches settle, every record takes effect that names
principals who do, and the authorities are the least fixpoint of granting and membership. -/
theorem delegation_resolves {n : ℕ} (h : Additive records)
    (happended : Appended crypto root admitted n records) (hn : n < 64) :
    let state := effectiveUnder crypto root records ∅ admitted
    state.authorityUnresolved = false ∧
      (∀ record ∈ records, state.Shows records record ↔ state.NamesPresent records record) ∧
      ∀ principal permission, Authorities.HoldsAt state.authorities principal permission ↔
        Derives root.root.id (state.presentGrants records) (state.presentMemberships records)
          principal permission := by
  have hauth : AuthorisedFrom root admitted records 62 := fun m hm =>
    authorisedFrom_of_appended h happended m (by omega)
  refine ⟨settled_of_authorisedFrom hauth, fun record => shows_iff_namesPresent crypto h hauth,
    fun principal permission => ?_⟩
  rw [holdsAt_effectiveUnder]
  constructor
  · exact Derives.mono (fun grant => (mem_values_grants h hauth).mp)
      (fun member => (mem_values_memberships h hauth).mp)
  · exact Derives.mono (fun grant => (mem_values_grants h hauth).mpr)
      (fun member => (mem_values_memberships h hauth).mpr)

end Effective

/-! ### A chain of grants -/

section Chain

open TestSupport

/-- The user at a distance from the root. -/
def hopUser (i : ℕ) : TestUser := ⟨List.replicate (i + 1) 0, List.replicate (i + 1) 0⟩

/-- The root's record of a user. -/
def hopRecord (i : ℕ) : VerifiedRecord :=
  verifiedBody rootUser (.user ⟨(hopUser i).id, (hopUser i).signingPublicKey,
    (hopUser i).hpkePublicKey, 0⟩)

def hopEntryPoint (i : ℕ) : VerifiedRecord :=
  verifiedBody (hopUser i) (.entryPoint ⟨rootUser.id, (hopUser i).hpkePublicKey, 0⟩)

def hopGrantId (i : ℕ) : GrantId := deriveGrantId transparentCrypto ⟨List.replicate i 0⟩

def hopGrantRecord (i : ℕ) : GrantRecordV1 :=
  ⟨hopGrantId i, ⟨List.replicate i 0⟩, .user (hopUser (i + 1)).id, .administer, 0⟩

/-- A user makes the next one an administrator. -/
def hopGrant (i : ℕ) : VerifiedRecord := verifiedBody (hopUser i) (.grant (hopGrantRecord i))

/-- A number of users, and grants along the first of them. -/
def chain (users grants : ℕ) : List VerifiedRecord :=
  (List.range users).map (fun i => hopRecord (i + 1)) ++
    (List.range users).map (fun i => hopEntryPoint (i + 1)) ++ (List.range grants).map hopGrant

lemma mem_chain {users grants : ℕ} {record : VerifiedRecord} : record ∈ chain users grants ↔
    (∃ i < users, hopRecord (i + 1) = record) ∨ (∃ i < users, hopEntryPoint (i + 1) = record) ∨
      ∃ i < grants, hopGrant i = record := by
  simp [chain]

lemma hopUser_id_inj {i j : ℕ} : (hopUser i).id = (hopUser j).id ↔ i = j := by
  refine ⟨fun h => ?_, fun h => h ▸ rfl⟩
  have hbytes : (hopUser i).id.hash.bytes.length = (hopUser j).id.hash.bytes.length := by rw [h]
  simp only [TestUser.id, deriveUserId, deriveHash, transparentCrypto, canonicalBytes, sized,
    hopUser, List.length_cons, List.length_append, List.length_replicate] at hbytes
  omega

lemma hopGrantId_inj {i j : ℕ} : hopGrantId i = hopGrantId j ↔ i = j := by
  refine ⟨fun h => ?_, fun h => h ▸ rfl⟩
  have hbytes : (hopGrantId i).hash.bytes.length = (hopGrantId j).hash.bytes.length := by rw [h]
  simp only [hopGrantId, deriveGrantId, deriveHash, transparentCrypto, canonicalBytes,
    List.length_cons, List.length_replicate] at hbytes
  omega

lemma additive_chain (users grants : ℕ) : Additive (chain users grants) where
  noDeletion record hmem := by
    rcases mem_chain.mp hmem with ⟨i, _, rfl⟩ | ⟨i, _, rfl⟩ | ⟨i, _, rfl⟩ <;> rfl
  keys := by
    simp only [chain, List.map_append, List.map_map, List.nodup_append]
    refine ⟨⟨?_, ?_, ?_⟩, ?_, ?_⟩
    · refine List.nodup_range.map fun i j h => ?_
      simpa [VerifiedRecord.key, hopRecord, verifiedBody, recordKeyFor, hopUser_id_inj] using h
    · refine List.nodup_range.map fun i j h => ?_
      simpa [VerifiedRecord.key, hopEntryPoint, verifiedBody, recordKeyFor, hopUser_id_inj] using h
    · simp [VerifiedRecord.key, hopEntryPoint, hopRecord, verifiedBody, recordKeyFor]
    · refine List.nodup_range.map fun i j h => ?_
      simpa [VerifiedRecord.key, hopGrant, hopGrantRecord, verifiedBody, recordKeyFor,
        hopGrantId_inj] using h
    · simp only [VerifiedRecord.key, hopEntryPoint, hopRecord, hopGrant, verifiedBody, recordKeyFor,
        List.mem_append, List.mem_map, List.mem_range, Function.comp_apply]
      rintro key (⟨_, _, rfl⟩ | ⟨_, _, rfl⟩) other ⟨_, _, rfl⟩ <;> simp

/-- The authorities of the chain after a number of rounds. -/
def chainRound (users grants round : ℕ) : Authorities :=
  roundAuthorities selectedRoot ∅ (chain users grants) round

/-- The root administers in every round. -/
lemma chainRound_root (users grants round : ℕ) :
    (chainRound users grants round).HoldsAt (.user rootUser.id) .administer := by
  have hroot : AuthoritySet.root.Holds .administer := AuthoritySet.holds_administer.mpr rfl
  cases round with
  | zero => exact holdsAt_rootAuthorities.mpr ⟨rfl, hroot⟩
  | succ round =>
    rw [chainRound, roundState_succ_snd]
    exact holdsAt_computeAuthorities.mpr (.root hroot)

/-- Every user of the chain is selected in every round. -/
lemma chain_user_selected {users grants round i : ℕ} (hi : i < users) :
    (hopUser (i + 1)).id ∈ (selection selectedRoot ∅ (chain users grants)
      (chainRound users grants round)).users := by
  have hne : (hopUser (i + 1)).id ≠ (userFromRoot selectedRoot).id := fun h =>
    absurd (hopUser_id_inj (j := 0).mp h) (by omega)
  have hmem : hopRecord (i + 1) ∈ chain users grants := mem_chain.mpr (Or.inl ⟨i, hi, rfl⟩)
  have hattested : (hopUser (i + 1)).id ∈ entryPointUsers (chain users grants) ∅ :=
    mem_entryPointUsers.mpr ⟨hopEntryPoint (i + 1), mem_chain.mpr (Or.inr (Or.inl ⟨i, hi, rfl⟩)),
      by simp, ⟨_, rfl⟩, rfl⟩
  have hkey : (hopRecord (i + 1)).key = .user (hopUser (i + 1)).id := rfl
  have hadm := AuthoritySet.holds_administer.mp (chainRound_root users grants round)
  rw [← ExtTreeMap.isSome_getElem?_iff_mem, selection,
    getElem?_selected_users ∅ rfl rfl, if_neg hne, ← hkey,
    (additive_chain users grants).winner_key hmem, if_pos]
  · simp [hopRecord, verifiedBody, RecordBodyV1.user?, Option.filter,
      ExtTreeSet.contains_iff_mem.mpr hattested]
  · simp only [View.competes, hopRecord, verifiedBody, selectionView, Bool.and_eq_true]
    exact ⟨decide_eq_true hne, hadm⟩

/-- A grant of the chain is selected when its issuer administers. -/
lemma chain_grant_selected {users grants round i : ℕ} (hi : i < grants) (hle : grants ≤ users)
    (hissuer : (chainRound users grants round).HoldsAt (.user (hopUser i).id) .administer) :
    (selection selectedRoot ∅ (chain users grants)
      (chainRound users grants round)).grants[hopGrantId i]? = some (hopGrantRecord i) := by
  have hmem : hopGrant i ∈ chain users grants := mem_chain.mpr (Or.inr (Or.inr ⟨i, hi, rfl⟩))
  have hkey : (hopGrant i).key = .grant (hopGrantId i) := rfl
  rw [selection, getElem?_selected_grants ∅ rfl rfl, ← hkey,
    (additive_chain users grants).winner_key hmem, if_pos]
  · rfl
  · simp only [View.competes, hopGrant, hopGrantRecord, verifiedBody, selectionView,
      Bool.and_eq_true, principalExists, ExtTreeMap.contains_iff_mem]
    exact ⟨chain_user_selected (hi.trans_le hle),
      AuthoritySet.canCreatePermission_iff.mpr (Or.inl hissuer)⟩

/-- After as many rounds as there are hops to a user, the user administers. -/
lemma chain_administers {users grants round i : ℕ} (hround : i ≤ round) (hi : i ≤ grants)
    (hle : grants ≤ users) :
    (chainRound users grants round).HoldsAt (.user (hopUser i).id) .administer := by
  induction round generalizing i with
  | zero =>
    obtain rfl : i = 0 := by omega
    exact chainRound_root users grants 0
  | succ round ih =>
    cases i with
    | zero => exact chainRound_root users grants (round + 1)
    | succ i =>
      rw [chainRound, roundState_succ_snd]
      exact holdsAt_computeAuthorities.mpr (.grant (mem_values.mpr ⟨_, chain_grant_selected
        (by omega) hle (ih (by omega) (by omega))⟩))

/-- Authority of the chain that is held by the users up to some hop only. -/
def ReachesTo (authorities : Authorities) (hop : ℕ) : Prop :=
  ∀ principal permission, authorities.HoldsAt principal permission →
    ∃ i ≤ hop, principal = .user (hopUser i).id

/-- A selected grant of the chain was issued by a user who holds authority. -/
lemma chain_grant_issuer {users grants hop : ℕ} {authorities : Authorities}
    (hreach : ReachesTo authorities hop) {k : GrantId} {grant : GrantRecordV1}
    (h : (selection selectedRoot ∅ (chain users grants) authorities).grants[k]? = some grant) :
    ∃ i ≤ hop, grant = hopGrantRecord i ∧ k = hopGrantId i := by
  rw [selection, getElem?_selected_grants ∅ rfl rfl] at h
  obtain ⟨w, hw, hvalue⟩ := Option.bind_eq_some_iff.mp h
  obtain ⟨hmem, hcomp, hkey⟩ := (additive_chain users grants).winner_eq_some.mp hw
  rcases mem_chain.mp hmem with ⟨i, _, rfl⟩ | ⟨i, _, rfl⟩ | ⟨i, _, rfl⟩
  · cases hvalue
  · cases hvalue
  · obtain rfl := Option.some.inj hvalue
    simp only [View.competes, hopGrant, hopGrantRecord, verifiedBody, selectionView,
      Bool.and_eq_true, AuthoritySet.canCreatePermission_iff, ManageKeyspaceGrantV1.covers,
      Bool.false_eq_true, and_false, exists_false, or_false] at hcomp
    obtain ⟨j, hj, heq⟩ := hreach (.user (hopUser i).id) _ hcomp.2
    obtain rfl := hopUser_id_inj.mp (PrincipalRefV1.user.inj heq)
    exact ⟨i, hj, rfl, (RecordKey.grant.inj hkey).symm⟩

/-- Authority reaches one hop further in each round. -/
lemma chainRound_reachesTo (users grants round : ℕ) :
    ReachesTo (chainRound users grants round) round := by
  induction round with
  | zero =>
    intro principal permission h
    obtain ⟨rfl, _⟩ := holdsAt_rootAuthorities.mp h
    exact ⟨0, le_rfl, rfl⟩
  | succ round ih =>
    intro principal permission h
    rw [chainRound, roundState_succ_snd, holdsAt_computeAuthorities] at h
    induction h with
    | root _ => exact ⟨0, Nat.zero_le _, rfl⟩
    | grant hgrant =>
      obtain ⟨k, hk⟩ := mem_values.mp hgrant
      obtain ⟨i, hi, rfl, _⟩ := chain_grant_issuer ih hk
      exact ⟨i + 1, by omega, rfl⟩
    | membership hmember _ _ =>
      -- the chain has no memberships
      obtain ⟨k, hk⟩ := mem_values.mp hmember
      rw [selection, getElem?_selected_memberships ∅ rfl rfl] at hk
      obtain ⟨w, hw, hvalue⟩ := Option.bind_eq_some_iff.mp hk
      obtain ⟨hmem, _, _⟩ := (additive_chain users grants).winner_eq_some.mp hw
      rcases mem_chain.mp hmem with ⟨i, _, rfl⟩ | ⟨i, _, rfl⟩ | ⟨i, _, rfl⟩ <;> cases hvalue

/-- A chain of at least 64 grants does not settle. -/
lemma chain_unresolved {users grants : ℕ} (hgrants : 64 ≤ grants) (hle : grants ≤ users) :
    (effectiveUnder transparentCrypto selectedRoot (chain users grants) ∅ ∅).authorityUnresolved =
      true := by
  have hfinal : (roundState selectedRoot (chain users grants) ∅ ∅ 64).1.grants[hopGrantId 63]? =
      some (hopGrantRecord 63) := by
    rw [roundState_succ_fst]
    exact chain_grant_selected (by omega) hle (chain_administers le_rfl (by omega) hle)
  have hbefore : (roundState selectedRoot (chain users grants) ∅ ∅ 63).1.grants[hopGrantId 63]? ≠
      some (hopGrantRecord 63) := by
    rw [roundState_succ_fst]
    intro h
    obtain ⟨i, hi, _, heq⟩ := chain_grant_issuer (chainRound_reachesTo users grants 62) h
    have := hopGrantId_inj.mp heq
    omega
  have hsettled : (Settle.settle (resolutionRound (chain users grants) (userFromRoot selectedRoot) ∅
      ∅) maxRounds (initialRound (userFromRoot selectedRoot).id)).2 = false := by
    rw [← Bool.not_eq_true, Settle.settle_snd]
    rintro ⟨i, hi, heq⟩
    have hi : i < 64 := hi
    -- a settled state would be that of round 63 and of round 64
    have h63 := Settle.iterate_of_fixed _ heq (j := 63) (by omega)
    have h64 := Settle.iterate_of_fixed _ heq (j := 64) (by omega)
    exact hbefore ((congrArg (fun state => state.1.grants[hopGrantId 63]?)
      (h63.trans h64.symm)).trans hfinal)
  simp only [effectiveUnder, computeEffectiveState, hsettled, Bool.not_false]

/-- The record at a position of the chain needs no authority but the root's, or is a grant that
the chain up to it precedes. -/
lemma getElem?_chain {users grants i : ℕ} {record : VerifiedRecord}
    (h : (chain users grants)[i]? = some record) :
    (∃ j, record = hopRecord j ∨ record = hopEntryPoint j) ∨
      ∃ j < grants, record = hopGrant j ∧ (chain users grants).take i = chain users j := by
  have hlength : ((List.range users).map (fun i => hopRecord (i + 1)) ++
      (List.range users).map (fun i => hopEntryPoint (i + 1))).length = users + users := by simp
  rcases lt_or_ge i (users + users) with hi | hi
  · rw [chain, List.getElem?_append_left (by omega)] at h
    rcases List.mem_append.mp (List.mem_of_getElem? h) with hmem | hmem
    · obtain ⟨j, _, rfl⟩ := List.mem_map.mp hmem
      exact Or.inl ⟨j + 1, Or.inl rfl⟩
    · obtain ⟨j, _, rfl⟩ := List.mem_map.mp hmem
      exact Or.inl ⟨j + 1, Or.inr rfl⟩
  · obtain ⟨j, rfl⟩ := Nat.exists_eq_add_of_le hi
    rw [chain, List.getElem?_append_right (by omega), hlength, Nat.add_sub_cancel_left,
      List.getElem?_map] at h
    obtain ⟨k, hk, rfl⟩ := Option.map_eq_some_iff.mp h
    obtain ⟨hj, rfl⟩ := List.getElem?_eq_some_iff.mp hk
    rw [List.length_range] at hj
    refine Or.inr ⟨j, hj, by rw [List.getElem_range], ?_⟩
    rw [chain, ← hlength, List.take_length_add_append, ← List.map_take, List.take_range,
      Nat.min_eq_left hj.le, chain]

/-- Every record is authorised by the effective state of the records before it. -/
def AppendedInOrder (crypto : CryptoProvider) (root : SelectedRoot)
    (records : List VerifiedRecord) : Prop :=
  ∀ (i : ℕ) (record : VerifiedRecord), records[i]? = some record → record.body.authorisedBy
    ((effectiveUnder crypto root (records.take i) ∅ ∅).authorityForUser record.signer) = true

lemma appendedInOrder_chain {users grants : ℕ} (hle : grants ≤ users + 1) (h : grants ≤ 64) :
    AppendedInOrder transparentCrypto selectedRoot (chain users grants) := by
  intro i record hrecord
  rcases getElem?_chain hrecord with ⟨j, rfl | rfl⟩ | ⟨j, hj, rfl, htake⟩
  · refine AuthoritySet.holds_administer.mp ?_
    exact holdsAt_effectiveUnder.mpr (.root (AuthoritySet.holds_administer.mpr rfl))
  · rfl
  · rw [htake, EffectiveState.authorityForUser, authorities_effectiveUnder]
    simp only [hopGrant, verifiedBody, hopGrantRecord, RecordBodyV1.authorisedBy]
    exact AuthoritySet.canCreatePermission_iff.mpr (Or.inl
      (chain_administers (by omega) le_rfl (by omega)))

/-- A chain of 64 grants, each authorised when it is appended, does not settle; and a grant to a
user whom no record introduces settles without effect. -/
theorem delegation_not_always_effective :
    (Additive (chain 64 64) ∧ AppendedInOrder transparentCrypto selectedRoot (chain 64 64) ∧
      (effectiveUnder transparentCrypto selectedRoot (chain 64 64) ∅ ∅).authorityUnresolved =
        true) ∧
    Additive (chain 0 1) ∧ AppendedInOrder transparentCrypto selectedRoot (chain 0 1) ∧
      hopGrant 0 ∈ chain 0 1 ∧
      ¬ (effectiveUnder transparentCrypto selectedRoot (chain 0 1) ∅ ∅).Shows (chain 0 1)
        (hopGrant 0) := by
  refine ⟨⟨additive_chain 64 64, appendedInOrder_chain (by decide) le_rfl,
    chain_unresolved le_rfl le_rfl⟩, additive_chain 0 1, appendedInOrder_chain le_rfl (by decide),
    mem_chain.mpr (Or.inr (Or.inr ⟨0, by decide, rfl⟩)), ?_⟩
  simp only [EffectiveState.Shows, hopGrant, verifiedBody]
  decide +kernel

/-- Two hops are appended in two batches. -/
theorem delegation_resolves_two_hops :
    (effectiveUnder transparentCrypto selectedRoot (chain 2 2) ∅ ∅).authorityUnresolved = false ∧
      (effectiveUnder transparentCrypto selectedRoot (chain 2 2) ∅ ∅).Shows (chain 2 2)
        (hopGrant 1) := by
  have hfirst : Appended transparentCrypto selectedRoot ∅ 1 ([] ++ chain 2 1) :=
    .batch .nil (by decide +kernel)
  have happended : Appended transparentCrypto selectedRoot ∅ 2 ([] ++ chain 2 1 ++ [hopGrant 1]) :=
    .batch hfirst (by decide +kernel)
  obtain ⟨hsettled, hshows, _⟩ := delegation_resolves (additive_chain 2 2) happended (by decide)
  refine ⟨hsettled, (hshows _ (by simp [chain, List.range_succ])).mpr ?_⟩
  simp only [EffectiveState.NamesPresent, hopGrant, verifiedBody]
  decide +kernel

end Chain

end Thorax
