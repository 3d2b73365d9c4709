import Thorax.Resolution.Authority
import Thorax.Resolution.Served

/-!
# Growth of the principal graph

Without deletions and with one record at each key nothing competes, and a round of the
resolution can only gain by more records or more authority. The rounds then climb, and a batch of
records takes effect one round after the records that authorise it.
-/

namespace Thorax

open Collections
open Std (ExtTreeMap ExtTreeSet LawfulEqCmp)

/-! ### Authority that a record requires -/

/-- Whether a signer's authority is enough for a record. Entry points require none. -/
def RecordBodyV1.authorisedBy (auth : AuthoritySet) : RecordBodyV1 → Bool
  | .vaultRoot _ | .entryPoint _ => true
  | .user _ | .userDeleted _ | .userHandle _ | .vaultHandle _ | .group _ | .groupDeleted _
  | .groupMember _ | .groupMemberDeleted _ => auth.administer
  | .grant value => auth.canCreatePermission value.permission
  | .grantDeleted deleted => auth.canCreatePermission deleted.permission
  | .secret value => auth.canWrite value.selector
  | .secretDeleted deleted => auth.canWrite deleted.selector

lemma RecordBodyV1.authorisedBy_mono {a b : AuthoritySet} (h : ∀ p, a.Holds p → b.Holds p)
    {body : RecordBodyV1} (ha : body.authorisedBy a = true) : body.authorisedBy b = true := by
  cases body with
  | vaultRoot _ | entryPoint _ => rfl
  | grant _ | grantDeleted _ => exact AuthoritySet.canCreatePermission_mono h ha
  | secret _ | secretDeleted _ => exact AuthoritySet.canWrite_mono h ha
  | _ => exact AuthoritySet.administer_mono h ha

/-- Authorities that confer no more than others. -/
def Authorities.Within (a b : Authorities) : Prop := ∀ q p, a.HoldsAt q p → b.HoldsAt q p

lemma Authorities.Within.authorisedBy {a b : Authorities} (h : a.Within b)
    {record : VerifiedRecord}
    (ha : record.body.authorisedBy (signerAuth a record.signer) = true) :
    record.body.authorisedBy (signerAuth b record.signer) = true :=
  RecordBodyV1.authorisedBy_mono (h (.user record.signer)) ha

/-! ### Congruence of selections -/

section Congruence

variable {K : Type} [Ord K] [Std.TransOrd K]

lemma lwwResolution_congr {records : List VerifiedRecord} {rollbackKeys : BTreeMap RecordKey ℕ}
    {classify classify' : VerifiedRecord → Option K}
    (h : ∀ record ∈ records, classify record = classify' record) :
    lwwResolution records rollbackKeys classify = lwwResolution records rollbackKeys classify' := by
  have hslots : lwwSlots records rollbackKeys classify =
      lwwSlots records rollbackKeys classify' := by
    unfold lwwSlots groupFold
    refine List.foldl_ext _ _ _ fun slots record hmem => ?_
    simp only [h record hmem]
  simp only [lwwResolution, hslots]

/-- A selection asks of the authorities only whether each signer may issue its record. -/
lemma selectAuthorizedRecords_congr {records : List VerifiedRecord} {rootUserRecord : UserRecordV1}
    {attested : BTreeSet UserId} {admitted : BTreeSet HashValue}
    {rollbackKeys : BTreeMap RecordKey ℕ} {a b : Authorities}
    (h : ∀ record ∈ records, record.body.authorisedBy (signerAuth a record.signer) =
      record.body.authorisedBy (signerAuth b record.signer)) :
    selectAuthorizedRecords records rootUserRecord attested admitted rollbackKeys a =
      selectAuthorizedRecords records rootUserRecord attested admitted rollbackKeys b := by
  have husers : lwwResolution records rollbackKeys (classifyUser admitted a rootUserRecord.id) =
      lwwResolution records rollbackKeys (classifyUser admitted b rootUserRecord.id) :=
    lwwResolution_congr (by
      intro record hmem
      have := h record hmem
      unfold classifyUser
      cases hb : record.body <;> simp_all [RecordBodyV1.authorisedBy])
  have hgroups : lwwResolution records rollbackKeys (classifyGroup admitted a) =
      lwwResolution records rollbackKeys (classifyGroup admitted b) :=
    lwwResolution_congr (by
      intro record hmem
      have := h record hmem
      unfold classifyGroup
      cases hb : record.body <;> simp_all [RecordBodyV1.authorisedBy])
  have hmemberships : ∀ users groups,
      lwwResolution records rollbackKeys (classifyMembership a users groups) =
        lwwResolution records rollbackKeys (classifyMembership b users groups) :=
    fun users groups => lwwResolution_congr (by
      intro record hmem
      have := h record hmem
      unfold classifyMembership
      cases hb : record.body <;> simp_all [RecordBodyV1.authorisedBy])
  have hgrants : ∀ users groups,
      lwwResolution records rollbackKeys (classifyGrant admitted a users groups) =
        lwwResolution records rollbackKeys (classifyGrant admitted b users groups) :=
    fun users groups => lwwResolution_congr (by
      intro record hmem
      have := h record hmem
      unfold classifyGrant
      cases hb : record.body <;> simp_all [RecordBodyV1.authorisedBy])
  simp only [selectAuthorizedRecords, husers, hgroups, hmemberships, hgrants]

end Congruence

/-! ### Records that do not compete -/

/-- Records without deletions, at most one at each key. -/
structure Additive (records : List VerifiedRecord) : Prop where
  noDeletion : ∀ record ∈ records, record.body.isDeletion = false
  keys : (records.map VerifiedRecord.key).Nodup

namespace Additive

variable {records records' : List VerifiedRecord} {view : View} {key : RecordKey}

lemma eq_of_key (h : Additive records) {a b : VerifiedRecord} (ha : a ∈ records) (hb : b ∈ records)
    (hkey : a.key = b.key) : a = b := List.inj_on_of_nodup_map h.keys ha hb hkey

lemma of_append_left (h : Additive (records ++ records')) : Additive records where
  noDeletion record hmem := h.noDeletion record (List.mem_append_left _ hmem)
  keys := by
    have := h.keys
    rw [List.map_append] at this
    exact this.of_append_left

lemma not_tied (h : Additive records) : view.tied records ∅ key = false := by
  rw [← Bool.not_eq_true, View.tied_eq_true]
  rintro ⟨a, ha, b, hb, hne⟩
  obtain ⟨ha, _, _, hka⟩ := View.mem_pool.mp (View.mem_leaders.mp ha).1
  obtain ⟨hb, _, _, hkb⟩ := View.mem_pool.mp (View.mem_leaders.mp hb).1
  exact hne (by rw [h.eq_of_key ha hb (hka.trans hkb.symm)])

/-- The record at a key wins as soon as it competes. -/
lemma winner_eq_some (h : Additive records) {w : VerifiedRecord} :
    view.winner records ∅ key = some w ↔
      w ∈ records ∧ view.competes w = true ∧ w.key = key := by
  have hpool : ∀ {r}, r ∈ view.pool records ∅ key ↔
      r ∈ records ∧ view.competes r = true ∧ r.key = key := by
    intro r
    simp [View.mem_pool]
  constructor
  · exact fun hw => hpool.mp (View.winner_mem_pool hw)
  · intro hw
    cases hwin : view.winner records ∅ key with
    | none =>
      rcases View.winner_eq_none.mp hwin with hnil | htied
      · have := hpool.mpr hw
        simp [hnil] at this
      · simp [h.not_tied] at htied
    | some w' =>
      obtain ⟨hmem, _, hkey⟩ := hpool.mp (View.winner_mem_pool hwin)
      rw [h.eq_of_key hmem hw.1 (hkey.trans hw.2.2.symm)]

/-- What wins among some records also wins among more, if it still competes there. -/
lemma bind_winner_mono (h : Additive records) (h' : Additive records')
    (hsub : ∀ record ∈ records, record ∈ records') {view' : View} {V : Type} {v : V}
    {f f' : VerifiedRecord → Option V}
    (hcompetes : ∀ w ∈ records, f w = some v → view.competes w = true →
      view'.competes w = true ∧ f' w = some v)
    (hv : (view.winner records ∅ key).bind f = some v) :
    (view'.winner records' ∅ key).bind f' = some v := by
  obtain ⟨w, hw, hfw⟩ := Option.bind_eq_some_iff.mp hv
  obtain ⟨hmem, hcomp, hkey⟩ := h.winner_eq_some.mp hw
  obtain ⟨hcomp', hfw'⟩ := hcompetes w hmem hfw hcomp
  rw [h'.winner_eq_some.mpr ⟨hsub w hmem, hcomp', hkey⟩]
  exact hfw'

end Additive

/-! ### Selections grow -/

section Selection

variable {root : SelectedRoot} {admitted : BTreeSet HashValue}
variable {records records' : List VerifiedRecord} {a b : Authorities}

/-- The selection among all the records, with none of the keys inert. -/
def selection (root : SelectedRoot) (admitted : BTreeSet HashValue)
    (records : List VerifiedRecord) (authorities : Authorities) : SelectedAuthorizedRecords :=
  selectAuthorizedRecords records (userFromRoot root) (entryPointUsers records ∅) admitted ∅
    authorities

variable (h : Additive records) (h' : Additive records')
variable (hsub : ∀ record ∈ records, record ∈ records') (hab : a.Within b)

include hsub in
lemma entryPointUsers_mono {user : UserId} (hmem : user ∈ entryPointUsers records ∅) :
    user ∈ entryPointUsers records' ∅ := by
  simp only [entryPointUsers, mem_collectSet] at hmem ⊢
  refine hmem.imp_right ?_
  rintro ⟨record, hr, heq⟩
  exact ⟨record, hsub record hr, heq⟩

include h h' hsub hab

lemma selection_users_mono {k : UserId} {user : UserRecordV1}
    (hk : (selection root admitted records a).users[k]? = some user) :
    (selection root admitted records' b).users[k]? = some user := by
  rw [selection, getElem?_selected_users a rfl rfl] at hk
  rw [selection, getElem?_selected_users b rfl rfl]
  split_ifs at hk ⊢ with hroot
  · exact hk
  · refine h.bind_winner_mono h' hsub (fun w hw hvalue hcomp => ?_) hk
    obtain ⟨hbody, hatt⟩ := Option.filter_eq_some_iff.mp hvalue
    refine ⟨?_, Option.filter_eq_some_iff.mpr ⟨hbody, ?_⟩⟩
    · unfold RecordBodyV1.user? at hbody
      split at hbody
      · next value hb =>
        simp only [View.competes, hb, selectionView, Bool.and_eq_true] at hcomp ⊢
        exact ⟨hcomp.1, AuthoritySet.administer_mono (hab _) hcomp.2⟩
      · cases hbody
    · exact ExtTreeSet.contains_iff_mem.mpr (entryPointUsers_mono hsub
        (ExtTreeSet.contains_iff_mem.mp hatt))

lemma selection_groups_mono {k : GroupId} {group : GroupRecordV1}
    (hk : (selection root admitted records a).groups[k]? = some group) :
    (selection root admitted records' b).groups[k]? = some group := by
  rw [selection, getElem?_selected_groups a rfl rfl] at hk
  rw [selection, getElem?_selected_groups b rfl rfl]
  refine h.bind_winner_mono h' hsub (fun w hw hvalue hcomp => ⟨?_, hvalue⟩) hk
  unfold RecordBodyV1.group? at hvalue
  split at hvalue
  · next value hb =>
    simp only [View.competes, hb, selectionView] at hcomp ⊢
    exact AuthoritySet.administer_mono (hab _) hcomp
  · cases hvalue

lemma selection_principalExists_mono (principal : PrincipalRefV1)
    (hex : principalExists principal (selection root admitted records a).users
      (selection root admitted records a).groups = true) :
    principalExists principal (selection root admitted records' b).users
      (selection root admitted records' b).groups = true := by
  cases principal with
  | user user =>
    rw [principalExists, ExtTreeMap.contains_eq_isSome_getElem?, Option.isSome_iff_exists] at hex ⊢
    exact hex.imp fun _ => selection_users_mono h h' hsub hab
  | group group =>
    rw [principalExists, ExtTreeMap.contains_eq_isSome_getElem?, Option.isSome_iff_exists] at hex ⊢
    exact hex.imp fun _ => selection_groups_mono h h' hsub hab

lemma selection_memberships_mono {k : GroupMemberId} {member : GroupMemberRecordV1}
    (hk : (selection root admitted records a).memberships[k]? = some member) :
    (selection root admitted records' b).memberships[k]? = some member := by
  rw [selection, getElem?_selected_memberships a rfl rfl] at hk
  rw [selection, getElem?_selected_memberships b rfl rfl]
  refine h.bind_winner_mono h' hsub (fun w hw hvalue hcomp => ⟨?_, hvalue⟩) hk
  unfold RecordBodyV1.groupMember? at hvalue
  split at hvalue
  · next value hb =>
    simp only [View.competes, hb, selectionView, Bool.and_eq_true] at hcomp ⊢
    obtain ⟨⟨hadm, hgroup⟩, hmember⟩ := hcomp
    refine ⟨⟨AuthoritySet.administer_mono (hab _) hadm, ?_⟩,
      selection_principalExists_mono h h' hsub hab _ hmember⟩
    exact selection_principalExists_mono h h' hsub hab (.group value.groupId) hgroup
  · cases hvalue

lemma selection_grants_mono {k : GrantId} {grant : GrantRecordV1}
    (hk : (selection root admitted records a).grants[k]? = some grant) :
    (selection root admitted records' b).grants[k]? = some grant := by
  rw [selection, getElem?_selected_grants a rfl rfl] at hk
  rw [selection, getElem?_selected_grants b rfl rfl]
  refine h.bind_winner_mono h' hsub (fun w hw hvalue hcomp => ⟨?_, hvalue⟩) hk
  unfold RecordBodyV1.grant? at hvalue
  split at hvalue
  · next value hb =>
    simp only [View.competes, hb, selectionView, Bool.and_eq_true] at hcomp ⊢
    exact ⟨selection_principalExists_mono h h' hsub hab _ hcomp.1,
      AuthoritySet.canCreatePermission_mono (hab _) hcomp.2⟩
  · cases hvalue

end Selection

/-! ### Rounds climb -/

section Rounds

variable {root : SelectedRoot} {admitted : BTreeSet HashValue}
variable {records records' : List VerifiedRecord}

/-- The authorities after a number of rounds. -/
def roundAuthorities (root : SelectedRoot) (admitted : BTreeSet HashValue)
    (records : List VerifiedRecord) (n : ℕ) : Authorities :=
  (roundState root records ∅ admitted n).2

lemma roundState_succ_fst (n : ℕ) : (roundState root records ∅ admitted (n + 1)).1 =
    selection root admitted records (roundAuthorities root admitted records n) := by
  rw [roundState_succ]
  rfl

lemma roundState_succ_snd (n : ℕ) : roundAuthorities root admitted records (n + 1) =
    computeAuthoritiesFromSelected root.root.id
      (selection root admitted records (roundAuthorities root admitted records n)).memberships
      (selection root admitted records (roundAuthorities root admitted records n)).grants := by
  rw [roundAuthorities, roundState_succ]
  rfl

/-- A round that starts from the same selection ends with the same state. -/
lemma roundState_congr {m n : ℕ}
    (h : selection root admitted records (roundAuthorities root admitted records m) =
      selection root admitted records (roundAuthorities root admitted records n)) :
    roundState root records ∅ admitted (m + 1) = roundState root records ∅ admitted (n + 1) := by
  refine Prod.ext ?_ ?_
  · rw [roundState_succ_fst, roundState_succ_fst, h]
  · exact (roundState_succ_snd m).trans ((congrArg (fun selected : SelectedAuthorizedRecords =>
      computeAuthoritiesFromSelected root.root.id selected.memberships selected.grants) h).trans
        (roundState_succ_snd n).symm)

/-- More records and more rounds confer more. -/
lemma roundAuthorities_mono (h : Additive records) (h' : Additive records')
    (hsub : ∀ record ∈ records, record ∈ records') {m n : ℕ} (hmn : m ≤ n) :
    (roundAuthorities root admitted records m).Within
      (roundAuthorities root admitted records' n) := by
  induction m generalizing n with
  | zero =>
    intro q p hq
    cases n with
    | zero => exact hq
    | succ n =>
      obtain ⟨rfl, hroot⟩ := holdsAt_rootAuthorities.mp hq
      rw [roundState_succ_snd]
      exact holdsAt_computeAuthorities.mpr (.root hroot)
  | succ m ih =>
    obtain ⟨n, rfl⟩ : ∃ k, n = k + 1 := ⟨n - 1, by omega⟩
    have hwithin := ih (n := n) (by omega)
    intro q p hq
    rw [roundState_succ_snd, holdsAt_computeAuthorities] at hq ⊢
    refine hq.mono (fun grant hg => ?_) (fun member hm => ?_)
    · obtain ⟨k, hk⟩ := mem_values.mp hg
      exact mem_values.mpr ⟨k, selection_grants_mono h h' hsub hwithin hk⟩
    · obtain ⟨k, hk⟩ := mem_values.mp hm
      exact mem_values.mpr ⟨k, selection_memberships_mono h h' hsub hwithin hk⟩

/-- Every record is authorised from some round on. -/
def AuthorisedFrom (root : SelectedRoot) (admitted : BTreeSet HashValue)
    (records : List VerifiedRecord) (n : ℕ) : Prop :=
  ∀ m, n ≤ m → ∀ record ∈ records,
    record.body.authorisedBy (signerAuth (roundAuthorities root admitted records m) record.signer) =
      true

/-- Once every record is authorised the rounds repeat themselves. -/
lemma AuthorisedFrom.roundState_eq {k m n : ℕ} (h : AuthorisedFrom root admitted records k)
    (hm : k ≤ m) (hn : k ≤ n) :
    roundState root records ∅ admitted (m + 1) = roundState root records ∅ admitted (n + 1) := by
  refine roundState_congr (selectAuthorizedRecords_congr fun record hmem => ?_)
  rw [h m hm record hmem, h n hn record hmem]

/-- No records confer nothing beyond the root's authority. -/
lemma roundAuthorities_nil (n : ℕ) :
    (roundAuthorities root admitted [] n).Within (roundAuthorities root admitted [] 0) := by
  intro q p hq
  cases n with
  | zero => exact hq
  | succ n =>
    have hnone : ∀ {key : RecordKey} {view : View}, view.winner [] ∅ key = none :=
      View.winner_eq_none.mpr (Or.inl rfl)
    rw [roundState_succ_snd, holdsAt_computeAuthorities] at hq
    refine holdsAt_rootAuthorities.mpr ?_
    induction hq with
    | root hroot => exact ⟨rfl, hroot⟩
    | grant hgrant =>
      obtain ⟨k, hk⟩ := mem_values.mp hgrant
      rw [selection, getElem?_selected_grants ∅ rfl rfl, hnone] at hk
      cases hk
    | membership hmember _ _ =>
      obtain ⟨k, hk⟩ := mem_values.mp hmember
      rw [selection, getElem?_selected_memberships ∅ rfl rfl, hnone] at hk
      cases hk

end Rounds

/-! ### Appending in batches -/

/-- Records that can be appended in a number of batches, each record authorised by the effective
state of the batches before its own. -/
inductive Appended (crypto : CryptoProvider) (root : SelectedRoot)
    (admitted : BTreeSet HashValue) : ℕ → List VerifiedRecord → Prop
  | nil : Appended crypto root admitted 0 []
  | batch {n : ℕ} {earlier batch : List VerifiedRecord} :
      Appended crypto root admitted n earlier →
      (∀ record ∈ batch, record.body.authorisedBy
        ((effectiveUnder crypto root earlier ∅ admitted).authorityForUser record.signer) = true) →
      Appended crypto root admitted (n + 1) (earlier ++ batch)

section Appending

variable {crypto : CryptoProvider} {root : SelectedRoot} {admitted : BTreeSet HashValue}
variable {records : List VerifiedRecord} {n : ℕ}

lemma authorities_effectiveUnder :
    (effectiveUnder crypto root records ∅ admitted).authorities =
      roundAuthorities root admitted records 64 :=
  (effectiveUnder_fields crypto root records ∅ admitted).2.2.2.2.2.2.2

/-- A batch is authorised in the round that its number names. -/
lemma authorisedFrom_of_appended (h : Additive records)
    (happended : Appended crypto root admitted n records) :
    AuthorisedFrom root admitted records (n - 1) := by
  induction happended with
  | nil => exact fun m _ record hmem => absurd hmem List.not_mem_nil
  | @batch n earlier batch happ hbatch ih =>
    have hearlier := h.of_append_left
    have hsub : ∀ record ∈ earlier, record ∈ earlier ++ batch := fun _ =>
      List.mem_append_left batch
    intro m hm record hmem
    have hm : n ≤ m := hm
    rcases List.mem_append.mp hmem with hmem | hmem
    · exact (roundAuthorities_mono hearlier h hsub le_rfl).authorisedBy
        (ih hearlier m (by omega) record hmem)
    · -- the earlier records have settled by round `n`, or round 64 comes first
      have hwithin : (roundAuthorities root admitted earlier 64).Within
          (roundAuthorities root admitted (earlier ++ batch) m) := by
        rcases le_or_gt 64 n with hn | hn
        · exact roundAuthorities_mono hearlier h hsub (hn.trans hm)
        · have hlast : (roundAuthorities root admitted earlier 64).Within
              (roundAuthorities root admitted earlier n) := by
            cases happ with
            | nil => exact roundAuthorities_nil 64
            | @batch k _ _ _ _ =>
              have heq := (ih hearlier).roundState_eq (m := 63) (n := k) (by omega) (by omega)
              rw [roundAuthorities, heq]
              exact fun _ _ hq => hq
          exact fun q p hq => roundAuthorities_mono hearlier h hsub hm q p (hlast q p hq)
      have hauth := hbatch record hmem
      rw [EffectiveState.authorityForUser, authorities_effectiveUnder] at hauth
      exact hwithin.authorisedBy hauth

/-- Records that are appended in less than 64 batches settle within the 64 rounds. -/
lemma settled_of_authorisedFrom (h : AuthorisedFrom root admitted records 62) :
    (effectiveUnder crypto root records ∅ admitted).authorityUnresolved = false := by
  have hsettled : (Settle.settle (resolutionRound records (userFromRoot root) admitted ∅) maxRounds
      (initialRound (userFromRoot root).id)).2 = true := by
    rw [Settle.settle_snd]
    exact ⟨63, by decide, h.roundState_eq (by decide) (by decide)⟩
  simp only [effectiveUnder, computeEffectiveState, hsettled, Bool.not_true]

end Appending

end Thorax
