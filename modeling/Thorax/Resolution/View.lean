import Thorax.Resolution.Report

/-!
# Competition

One predicate for all fourteen kinds of body: whether a record competes at its key, given the
view of the vault under which it is judged. With it a resolution is the same statement at every
key: the competitors with the highest counter either agree on a body or the key is tied.
-/

namespace Thorax

open Collections
open Std (ExtTreeMap ExtTreeSet LawfulEqCmp)

/-- The view under which records are judged. The principal graph is selected under the
authorities of the round before; handles and secrets under the final ones. -/
structure View where
  rootUser : UserId
  attested : BTreeSet UserId
  admitted : BTreeSet HashValue
  selecting : Authorities
  users : BTreeMap UserId UserRecordV1
  groups : BTreeMap GroupId GroupRecordV1
  authorities : Authorities

namespace View

/-- Whether a record competes at its key. -/
def competes (view : View) (record : VerifiedRecord) : Bool :=
  match record.body with
  | .vaultRoot _ => false
  | .entryPoint _ => view.users.contains record.signer
  | .user user =>
    decide (user.id ≠ view.rootUser) && (signerAuth view.selecting record.signer).administer
  | .userDeleted deleted =>
    decide (deleted.id ≠ view.rootUser) && view.admitted.contains record.recordHash
  | .group _ => (signerAuth view.selecting record.signer).administer
  | .groupDeleted _ => view.admitted.contains record.recordHash
  | .groupMember member => (signerAuth view.selecting record.signer).administer &&
      view.groups.contains member.groupId && principalExists member.memberId view.users view.groups
  | .groupMemberDeleted _ => (signerAuth view.selecting record.signer).administer
  | .grant grant => principalExists grant.subjectId view.users view.groups &&
      (signerAuth view.selecting record.signer).canCreatePermission grant.permission
  | .grantDeleted _ => view.admitted.contains record.recordHash
  | .userHandle handle =>
    (signerAuth view.authorities record.signer).administer && view.users.contains handle.userId
  | .vaultHandle _ => (signerAuth view.authorities record.signer).administer
  | .secret value => (signerAuth view.authorities record.signer).canWrite value.selector
  | .secretDeleted deleted => (signerAuth view.authorities record.signer).canWrite deleted.selector

/-- Whether a winning body is a value; a user also has to have vouched for the root. -/
def live (view : View) (body : RecordBodyV1) : Bool :=
  match body with
  | .user user => view.attested.contains user.id
  | .vaultRoot _ => false
  | body => !body.isDeletion

/-- Nothing competes at the key of the root record or at that of the root user. -/
lemma key_ne_of_competes {view : View} {record : VerifiedRecord}
    (h : view.competes record = true) :
    record.key ≠ .vaultRoot ∧ record.key ≠ .user view.rootUser := by
  unfold competes at h
  unfold VerifiedRecord.key
  cases hb : record.body <;> simp_all [recordKeyFor]

section Classify

variable (view : View) (record : VerifiedRecord)

lemma classifyUser_iff (k : UserId) :
    classifyUser view.admitted view.selecting view.rootUser record = some k ↔
      view.competes record = true ∧ record.key = .user k := by
  unfold classifyUser competes VerifiedRecord.key
  cases record.body <;> simp [recordKeyFor]

lemma classifyGroup_iff (k : GroupId) :
    classifyGroup view.admitted view.selecting record = some k ↔
      view.competes record = true ∧ record.key = .group k := by
  unfold classifyGroup competes VerifiedRecord.key
  cases record.body <;> simp [recordKeyFor]

lemma classifyMembership_iff (k : GroupMemberId) :
    classifyMembership view.selecting view.users view.groups record = some k ↔
      view.competes record = true ∧ record.key = .groupMember k := by
  unfold classifyMembership competes VerifiedRecord.key
  cases record.body <;> simp [recordKeyFor, and_assoc]

lemma classifyGrant_iff (k : GrantId) :
    classifyGrant view.admitted view.selecting view.users view.groups record = some k ↔
      view.competes record = true ∧ record.key = .grant k := by
  unfold classifyGrant competes VerifiedRecord.key
  cases record.body <;> simp [recordKeyFor, and_assoc]

lemma classifyUserHandle_iff (k : UserHandleId) :
    classifyUserHandle view.authorities view.users record = some k ↔
      view.competes record = true ∧ record.key = .userHandle k := by
  unfold classifyUserHandle competes VerifiedRecord.key
  cases record.body <;> simp [recordKeyFor]

lemma classifyVaultHandle_iff (k : VaultHandleId) :
    classifyVaultHandle view.authorities record = some k ↔
      view.competes record = true ∧ record.key = .vaultHandle k := by
  unfold classifyVaultHandle competes VerifiedRecord.key
  cases record.body <;> simp [recordKeyFor]

lemma classifyEntryPoint_iff (k : UserId) :
    classifyEntryPoint view.users record = some k ↔
      view.competes record = true ∧ record.key = .entryPoint k := by
  unfold classifyEntryPoint competes VerifiedRecord.key
  cases record.body <;> simp [recordKeyFor]

lemma classifySecret_iff (k : SecretId) :
    classifySecret view.authorities record = some k ↔
      view.competes record = true ∧ record.key = .secret k := by
  unfold classifySecret competes VerifiedRecord.key
  cases record.body <;> simp [recordKeyFor]

end Classify

/-! ### Pools by record key -/

section Pools

variable (view : View) (records : List VerifiedRecord) (rollbackKeys : BTreeMap RecordKey ℕ)

/-- The records that compete at a key. -/
def pool (key : RecordKey) : List VerifiedRecord :=
  records.filter fun record =>
    !rollbackKeys.contains record.key && view.competes record && record.key = key

def leaders (key : RecordKey) : List VerifiedRecord :=
  Lww.leaders VerifiedRecord.counter (view.pool records rollbackKeys key)

/-- The record that represents what a key settles on, if it settles. -/
def winner (key : RecordKey) : Option VerifiedRecord :=
  Lww.winner VerifiedRecord.body VerifiedRecord.recordHash (view.leaders records rollbackKeys key)

/-- A key whose leaders diverge. -/
def tied (key : RecordKey) : Bool :=
  Lww.diverging VerifiedRecord.body (view.leaders records rollbackKeys key)

variable {view records rollbackKeys}

lemma mem_pool {key : RecordKey} {record : VerifiedRecord} :
    record ∈ view.pool records rollbackKeys key ↔
      record ∈ records ∧ record.key ∉ rollbackKeys ∧ view.competes record = true ∧
        record.key = key := by
  simp [pool, ← ExtTreeMap.contains_iff_mem, and_assoc]

lemma mem_leaders {key : RecordKey} {record : VerifiedRecord} :
    record ∈ view.leaders records rollbackKeys key ↔ record ∈ view.pool records rollbackKeys key ∧
      ∀ other ∈ view.pool records rollbackKeys key, other.counter ≤ record.counter :=
  Lww.mem_leaders _

/-- A winner leads the pool and shares its body with the other leaders. -/
lemma winner_eq_some {key : RecordKey} {w : VerifiedRecord}
    (h : view.winner records rollbackKeys key = some w) :
    w ∈ view.leaders records rollbackKeys key ∧
      ∀ record ∈ view.leaders records rollbackKeys key, record.body = w.body :=
  Lww.winner_eq_some _ _ h

lemma winner_mem_pool {key : RecordKey} {w : VerifiedRecord}
    (h : view.winner records rollbackKeys key = some w) :
    w ∈ view.pool records rollbackKeys key := (mem_leaders.mp (winner_eq_some h).1).1

lemma counter_le_winner {key : RecordKey} {w record : VerifiedRecord}
    (h : view.winner records rollbackKeys key = some w)
    (hr : record ∈ view.pool records rollbackKeys key) : record.counter ≤ w.counter :=
  (mem_leaders.mp (winner_eq_some h).1).2 record hr

/-- A key without a winner has no competitors or is tied. -/
lemma winner_eq_none {key : RecordKey} :
    view.winner records rollbackKeys key = none ↔
      view.pool records rollbackKeys key = [] ∨ view.tied records rollbackKeys key = true := by
  unfold winner tied
  rw [Lww.winner_eq_none]
  exact or_congr_left (Lww.leaders_eq_nil _)

lemma tied_eq_true {key : RecordKey} : view.tied records rollbackKeys key = true ↔
    ∃ a ∈ view.leaders records rollbackKeys key, ∃ b ∈ view.leaders records rollbackKeys key,
      a.body ≠ b.body := by
  rw [tied, ← not_iff_not, Bool.not_eq_true, Lww.diverging_eq_false]
  push Not
  rfl

/-- A classification that agrees with `competes` at one kind of key resolves its pools. -/
lemma leadersAt_eq {K : Type} [DecidableEq K] {classify : VerifiedRecord → Option K}
    {mkKey : K → RecordKey} {k : K}
    (h : ∀ record, classify record = some k ↔ view.competes record = true ∧ record.key = mkKey k) :
    leadersAt records rollbackKeys classify k = view.leaders records rollbackKeys (mkKey k) := by
  unfold leadersAt leaders Thorax.pool pool
  congr 1
  apply List.filter_congr
  intro record _
  rw [Bool.and_assoc]
  congr 1
  rw [Bool.eq_iff_iff]
  simp [h]

section Resolution

variable {K : Type} [Ord K] [Std.TransOrd K] [Std.LawfulEqOrd K] [DecidableEq K]
variable {classify : VerifiedRecord → Option K} {mkKey : K → RecordKey}

lemma getElem?_winners
    (h : ∀ record k, classify record = some k ↔ view.competes record = true ∧ record.key = mkKey k)
    (k : K) : (lwwResolution records rollbackKeys classify).winners[k]? =
      view.winner records rollbackKeys (mkKey k) := by
  rw [Thorax.getElem?_winners, leadersAt_eq fun record => h record k, winner]

/-- Ties are reported at the keys of the kind that is resolved. -/
lemma mem_conflicted (hinj : Function.Injective mkKey)
    (h : ∀ record k, classify record = some k ↔ view.competes record = true ∧ record.key = mkKey k)
    (key : RecordKey) : key ∈ (lwwResolution records rollbackKeys classify).conflicted ↔
      (∃ k, mkKey k = key) ∧ view.tied records rollbackKeys key = true := by
  have hkey : ∀ record k, classify record = some k → record.key = mkKey k :=
    fun record k hc => ((h record k).mp hc).2
  by_cases hk : ∃ k, mkKey k = key
  · obtain ⟨k, rfl⟩ := hk
    rw [Thorax.mem_conflicted _ _ _ hkey hinj, leadersAt_eq fun record => h record k, tied]
    simp
  · have hnone := getElem?_conflicted_of_ne records rollbackKeys classify hkey (not_exists.mp hk)
    rw [← ExtTreeMap.isSome_getElem?_iff_mem, hnone]
    simp [hk]

end Resolution

end Pools

end View

/-! ### The selected records -/

section Selection

variable (records : List VerifiedRecord) (rootUserRecord : UserRecordV1)
variable (attested : BTreeSet UserId) (admitted : BTreeSet HashValue)
variable (rollbackKeys : BTreeMap RecordKey ℕ) (authorities final : Authorities)

/-- The view under which a selection is made. -/
def selectionView : View :=
  let selected := selectAuthorizedRecords records rootUserRecord attested admitted rollbackKeys
    authorities
  { rootUser := rootUserRecord.id
    attested := attested
    admitted := admitted
    selecting := authorities
    users := selected.users
    groups := selected.groups
    authorities := final }

/-- The users of a selection are the root and the attested winners. -/
lemma getElem?_selectUsers {winners : BTreeMap UserId VerifiedRecord} {user : UserId}
    (hkey : ∀ k record, winners[k]? = some record → k ≠ rootUserRecord.id) :
    (selectUsers rootUserRecord attested winners)[user]? =
      if user = rootUserRecord.id then some rootUserRecord
      else winners[user]?.bind fun record =>
        record.body.user?.filter fun _ => attested.contains user := by
  have hfold : selectUsers rootUserRecord attested winners =
      collectMap (fun entry : UserId × VerifiedRecord =>
        (entry.2.body.user?.filter fun _ => attested.contains entry.1).map (entry.1, ·))
        winners.toList ((∅ : BTreeMap UserId UserRecordV1).insert rootUserRecord.id
          rootUserRecord) := by
    rw [selectUsers, ExtTreeMap.foldl_eq_foldl_toList, collectMap]
    congr 1
    funext users entry
    cases entry.2.body <;> simp [RecordBodyV1.user?, Option.filter]
    split_ifs <;> rfl
  rw [hfold]
  by_cases hsome : ∃ record value, winners[user]? = some record ∧
      (record.body.user?.filter fun _ => attested.contains user) = some value
  · obtain ⟨record, value, hw, hv⟩ := hsome
    have hne : user ≠ rootUserRecord.id := hkey user record hw
    rw [getElem?_collectMap_of_mem
      (a := (user, record)) (v := value) (ExtTreeMap.mem_toList_iff_getElem?_eq_some.mpr hw)
      (by simp [hv]), if_neg hne, hw, Option.bind_some, hv]
    rintro ⟨k, r⟩ hmem w hfw
    simp only [Option.map_eq_some_iff, Prod.mk.injEq] at hfw
    obtain ⟨w', hw', rfl, rfl⟩ := hfw
    rw [ExtTreeMap.mem_toList_iff_getElem?_eq_some, hw] at hmem
    obtain rfl := Option.some.inj hmem
    exact Option.some.inj (hw'.symm.trans hv)
  · rw [getElem?_collectMap_of_not_mem, ExtTreeMap.getElem?_insert]
    · simp only [LawfulEqCmp.compare_eq_iff_eq, ExtTreeMap.getElem?_empty]
      by_cases hroot : rootUserRecord.id = user
      · simp [hroot]
      · rw [if_neg hroot, if_neg (Ne.symm hroot)]
        symm
        rw [Option.bind_eq_none_iff]
        intro record hw
        by_contra hne
        obtain ⟨value, hv⟩ := Option.ne_none_iff_exists'.mp hne
        exact hsome ⟨record, value, hw, hv⟩
    · rintro ⟨k, r⟩ hmem v hfv
      simp only [Option.map_eq_some_iff, Prod.mk.injEq] at hfv
      obtain ⟨v', hv', rfl, rfl⟩ := hfv
      exact hsome ⟨r, v', ExtTreeMap.mem_toList_iff_getElem?_eq_some.mp hmem, hv'⟩

variable {records rootUserRecord attested admitted rollbackKeys authorities}
variable {selected : SelectedAuthorizedRecords} {view : View}
variable (hsel : selected = selectAuthorizedRecords records rootUserRecord attested admitted
  rollbackKeys authorities)
variable (hview : view = selectionView records rootUserRecord attested admitted rollbackKeys
  authorities final)

include hsel hview

lemma getElem?_selected_groups (k : GroupId) : selected.groups[k]? =
    (view.winner records rollbackKeys (.group k)).bind (·.body.group?) := by
  rw [← View.getElem?_winners (fun record k => view.classifyGroup_iff record k), hsel, hview]
  exact getElem?_partitionLww _ _ k

lemma getElem?_selected_memberships (k : GroupMemberId) : selected.memberships[k]? =
    (view.winner records rollbackKeys (.groupMember k)).bind (·.body.groupMember?) := by
  rw [← View.getElem?_winners (fun record k => view.classifyMembership_iff record k), hsel, hview]
  exact getElem?_partitionLww _ _ k

lemma getElem?_selected_grants (k : GrantId) : selected.grants[k]? =
    (view.winner records rollbackKeys (.grant k)).bind (·.body.grant?) := by
  rw [← View.getElem?_winners (fun record k => view.classifyGrant_iff record k), hsel, hview]
  exact getElem?_partitionLww _ _ k

lemma getElem?_selected_users (k : UserId) : selected.users[k]? =
    if k = rootUserRecord.id then some rootUserRecord
    else (view.winner records rollbackKeys (.user k)).bind fun w =>
      w.body.user?.filter fun _ => attested.contains k := by
  rw [← View.getElem?_winners (fun record k => view.classifyUser_iff record k), hsel, hview]
  refine getElem?_selectUsers rootUserRecord attested fun k record hw => ?_
  -- no record competes at the key of the root user
  rw [Thorax.getElem?_winners] at hw
  have hmem := (mem_pool.mp (mem_leadersAt.mp (Lww.winner_eq_some _ _ hw).1).1).2.2
  unfold classifyUser at hmem
  split at hmem
  · simp only [Bool.or_eq_true, decide_eq_true_eq, Option.ite_none_left_eq_some, not_or,
      Option.some.injEq] at hmem
    exact hmem.2 ▸ hmem.1.1
  · simp only [Bool.or_eq_true, decide_eq_true_eq, Option.ite_none_left_eq_some, not_or,
      Option.some.injEq] at hmem
    exact hmem.2 ▸ hmem.1.1
  · cases hmem

lemma selected_conflicted : selected.conflicted =
    (lwwResolution records rollbackKeys
      (classifyUser view.admitted view.selecting view.rootUser)).conflicted ∪
    (lwwResolution records rollbackKeys
      (classifyGroup view.admitted view.selecting)).conflicted ∪
    (lwwResolution records rollbackKeys
      (classifyMembership view.selecting view.users view.groups)).conflicted ∪
    (lwwResolution records rollbackKeys
      (classifyGrant view.admitted view.selecting view.users view.groups)).conflicted := by
  subst hsel hview
  rfl

/-- The disputes of a selection are the ties in the principal graph. -/
lemma mem_selected_conflicted (key : RecordKey) : key ∈ selected.conflicted ↔
    ((∃ k, RecordKey.user k = key) ∨ (∃ k, RecordKey.group k = key) ∨
      (∃ k, RecordKey.groupMember k = key) ∨ ∃ k, RecordKey.grant k = key) ∧
      view.tied records rollbackKeys key = true := by
  rw [selected_conflicted final hsel hview]
  simp only [ExtTreeMap.mem_union_iff]
  rw [View.mem_conflicted (fun _ _ h => RecordKey.user.inj h)
      (fun record k => view.classifyUser_iff record k),
    View.mem_conflicted (fun _ _ h => RecordKey.group.inj h)
      (fun record k => view.classifyGroup_iff record k),
    View.mem_conflicted (fun _ _ h => RecordKey.groupMember.inj h)
      (fun record k => view.classifyMembership_iff record k),
    View.mem_conflicted (fun _ _ h => RecordKey.grant.inj h)
      (fun record k => view.classifyGrant_iff record k)]
  simp only [← or_and_right, or_assoc]

end Selection

/-! ### The effective state -/

section Effective

variable (root : SelectedRoot) (records : List VerifiedRecord)
variable (rollbackKeys : BTreeMap RecordKey ℕ) (admitted : BTreeSet HashValue)

/-- The state after a number of rounds. -/
def roundState (n : ℕ) : SelectedAuthorizedRecords × Authorities :=
  (resolutionRound records (userFromRoot root) admitted rollbackKeys)^[n]
    (initialRound root.root.id)

lemma roundState_succ (n : ℕ) : roundState root records rollbackKeys admitted (n + 1) =
    resolutionRound records (userFromRoot root) admitted rollbackKeys
      (roundState root records rollbackKeys admitted n) :=
  Function.iterate_succ_apply' _ _ _

/-- The view under which the effective state is judged. -/
def effectiveView : View :=
  selectionView records (userFromRoot root) (entryPointUsers records rollbackKeys) admitted
    rollbackKeys (roundState root records rollbackKeys admitted 63).2
    (roundState root records rollbackKeys admitted 64).2

variable {root records rollbackKeys admitted}

lemma settle_rounds :
    (Settle.settle (resolutionRound records (userFromRoot root) admitted rollbackKeys) maxRounds
      (initialRound (userFromRoot root).id)).1 = roundState root records rollbackKeys admitted 64 :=
  Settle.settle_fst _ _ _

/-- The fields of the effective state, read off the last round. -/
lemma effectiveUnder_fields (crypto : CryptoProvider) (root : SelectedRoot)
    (records : List VerifiedRecord) (rollbackKeys : BTreeMap RecordKey ℕ)
    (admitted : BTreeSet HashValue) :
    let state := effectiveUnder crypto root records rollbackKeys admitted
    let final := roundState root records rollbackKeys admitted 64
    state.users = final.1.users ∧ state.groups = final.1.groups ∧
      state.memberships = final.1.memberships ∧ state.grants = final.1.grants ∧
      state.deletedUsers = final.1.deletedUsers ∧ state.deletedGroups = final.1.deletedGroups ∧
      state.deletedGrants = final.1.deletedGrants ∧ state.authorities = final.2 := by
  simp only [effectiveUnder, computeEffectiveState, settle_rounds, and_self]

/-- The last selection is made under the authorities of the round before. -/
lemma roundState_last : (roundState root records rollbackKeys admitted 64).1 =
    selectAuthorizedRecords records (userFromRoot root) (entryPointUsers records rollbackKeys)
      admitted rollbackKeys (roundState root records rollbackKeys admitted 63).2 := by
  rw [roundState_succ root records rollbackKeys admitted 63]
  rfl

end Effective

end Thorax
