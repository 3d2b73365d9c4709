import Thorax.Library.Loops
import Thorax.Resolution.Admission
import Thorax.Resolution.Introduction
import Thorax.TestSupport

/-!
# The loops of validation

Three loops of validation have no bound in the program: users are introduced until a pass introduces
none, deletions are admitted until none may be, and the permissions of groups are passed on until
nobody gains any. Each ends, and the last one ends with the least authorities that are closed under
memberships: besides what the root holds by itself, a principal holds what was granted to it or to a
group that a chain of memberships leads to.
-/

namespace Thorax

open Collections Settle

/-! ### Reaching groups -/

section Reach

variable (memberships : List GroupMemberRecordV1) (grants : List GrantRecordV1) (rootUser : UserId)

/-- A principal is a member of a group. -/
def MemberOf (member group : PrincipalRefV1) : Prop :=
  ∃ membership ∈ memberships, membership.memberId = member ∧ group = .group membership.groupId

/-- A permission is granted to a principal or to a group it reaches. -/
def GrantedThrough (principal : PrincipalRefV1) (permission : GrantPermissionV1) : Prop :=
  ∃ grant ∈ grants, Relation.ReflTransGen (MemberOf memberships) principal grant.subjectId ∧
    grant.permission = permission

/-- Who holds what, with the root and the grants respected and members given what their groups
have. -/
structure ClosedHolding (holds : PrincipalRefV1 → GrantPermissionV1 → Prop) : Prop where
  root : ∀ permission, AuthoritySet.root.Holds permission → holds (.user rootUser) permission
  granted : ∀ grant ∈ grants, holds grant.subjectId grant.permission
  members : ∀ membership ∈ memberships, ∀ permission,
    holds (.group membership.groupId) permission → holds membership.memberId permission

variable {memberships grants rootUser} {principal : PrincipalRefV1} {permission : GrantPermissionV1}

/-- What is granted further up a chain of memberships is derived further down. -/
lemma derives_of_reaches {holder : PrincipalRefV1}
    (hreach : Relation.ReflTransGen (MemberOf memberships) principal holder)
    (h : Derives rootUser grants memberships holder permission) :
    Derives rootUser grants memberships principal permission := by
  induction hreach using Relation.ReflTransGen.head_induction_on with
  | refl => exact h
  | head hmember _ ih =>
    obtain ⟨membership, hmem, rfl, rfl⟩ := hmember
    exact .membership hmem ih

lemma derives_iff_grantedThrough : Derives rootUser grants memberships principal permission ↔
    (principal = .user rootUser ∧ AuthoritySet.root.Holds permission) ∨
      GrantedThrough memberships grants principal permission := by
  constructor
  · intro h
    induction h with
    | root hroot => exact Or.inl ⟨rfl, hroot⟩
    | grant hgrant => exact Or.inr ⟨_, hgrant, .refl, rfl⟩
    | membership hmem _ ih =>
      -- a group is not the root user, so what it holds was granted
      rcases ih with ⟨hgroup, -⟩ | ⟨grant, hgrant, hreach, hpermission⟩
      · cases hgroup
      · exact Or.inr ⟨grant, hgrant, .head ⟨_, hmem, rfl, rfl⟩ hreach, hpermission⟩
  · rintro (⟨rfl, hroot⟩ | ⟨grant, hgrant, hreach, rfl⟩)
    · exact .root hroot
    · exact derives_of_reaches hreach (.grant hgrant)

lemma closedHolding_derives :
    ClosedHolding memberships grants rootUser (Derives rootUser grants memberships) where
  root _ := .root
  granted _ := .grant
  members _ hmem _ := .membership hmem

lemma ClosedHolding.of_derives {holds : PrincipalRefV1 → GrantPermissionV1 → Prop}
    (hclosed : ClosedHolding memberships grants rootUser holds)
    (h : Derives rootUser grants memberships principal permission) : holds principal permission := by
  induction h with
  | root hroot => exact hclosed.root _ hroot
  | grant hgrant => exact hclosed.granted _ hgrant
  | membership hmem _ ih => exact hclosed.members _ hmem _ ih

end Reach

/-! ### The ends of the loops -/

section Ends

variable (crypto : CryptoProvider) (verified : BTreeSet HashValue) (root : SelectedRoot)

/-- Users are introduced in as many passes as there are user records, and one more. -/
lemma introduce_rounds (records : List VaultRecordV1) :
    ∃ n ≤ (userBodies crypto records).length + 1,
      Rounds (introduceUsers crypto verified (userBodies crypto records)) n (.initial root)
        (introduce crypto verified root records) := by
  have hpass : ∀ state, IntroductionInv crypto verified (userBodies crypto records) root state →
      IntroductionInv crypto verified (userBodies crypto records) root
        (introduceUsers crypto verified (userBodies crypto records) state).1 :=
    fun state hinv => (foldl_introduceUser_spec (fun _ h => h) (state, false) hinv).1
  obtain ⟨n, hn, hrun⟩ := rounds_loopUntil hpass
    (fun state => (userBodies crypto records).countP fun entry =>
      state.introduced.contains entry.2.id)
    (fun state hinv => countP_introduceUsers_lt hinv) (fun state _ => List.countP_le_length)
    introductionInv_initial (Nat.lt_add_right _ (Nat.lt_succ_self _))
  exact ⟨n, by omega, hrun⟩

/-- Deletions are admitted one by one, each of them once. -/
lemma admitDeletions_growth (records : List VerifiedRecord) (rollbackKeys : BTreeMap RecordKey ℕ) :
    ∃ n ≤ (deletionCandidates records).length,
      Growth (admitNext crypto root records rollbackKeys) n ∅
        (admitDeletions crypto root records rollbackKeys) := by
  have hstop := @admitNext_admitDeletions crypto root records rollbackKeys
  rw [admitDeletions_eq_grow] at hstop ⊢
  exact growth_grow hstop

end Ends

section Authorities

variable {rootUser : UserId} {memberships : BTreeMap GroupMemberId GroupMemberRecordV1}
variable {grants : BTreeMap GrantId GrantRecordV1}

variable (rootUser memberships grants) in
/-- Permissions are passed on in as many passes as there are members to gain one, and one more. -/
lemma computeAuthorities_rounds :
    ∃ n ≤ (values memberships).length * ((values grants).length + 4) + 1,
      Rounds (propagateMemberships (values memberships)) n
        (grantedAuthorities rootUser (values grants))
        (computeAuthoritiesFromSelected rootUser memberships grants) := by
  have hpass : ∀ authorities,
      PropagationInv rootUser (values grants) (values memberships) authorities →
        PropagationInv rootUser (values grants) (values memberships)
          (propagateMemberships (values memberships) authorities).1 :=
    fun authorities hinv => propagationInv_pass hinv
  obtain ⟨n, hn, hrun⟩ := rounds_loopUntil hpass (gained (values memberships) (values grants))
    (fun _ => gained_propagateMemberships) (fun _ _ => gained_le _ _ _)
    (propagationInv_granted rootUser (values grants) (values memberships))
    (Nat.lt_add_right _ (Nat.lt_succ_self _))
  exact ⟨n, by omega, hrun⟩

/-- A principal holds what was granted to it or to a group it reaches; the root also holds what it
has by itself. -/
lemma holdsAt_iff_grantedThrough {principal : PrincipalRefV1} {permission : GrantPermissionV1} :
    (computeAuthoritiesFromSelected rootUser memberships grants).HoldsAt principal permission ↔
      (principal = .user rootUser ∧ AuthoritySet.root.Holds permission) ∨
        GrantedThrough (values memberships) (values grants) principal permission :=
  holdsAt_computeAuthorities.trans derives_iff_grantedThrough

/-- The computed authorities are the least that are closed. -/
lemma isLeast_computeAuthorities :
    IsLeast {holds | ClosedHolding (values memberships) (values grants) rootUser holds}
      (computeAuthoritiesFromSelected rootUser memberships grants).HoldsAt := by
  have hholds : (computeAuthoritiesFromSelected rootUser memberships grants).HoldsAt =
      Derives rootUser (values grants) (values memberships) :=
    funext fun _ => funext fun _ => propext holdsAt_computeAuthorities
  rw [hholds]
  exact ⟨closedHolding_derives, fun _ hclosed _ _ h => hclosed.of_derives h⟩

end Authorities

/-- What is asked of the loops: each ends where the bounded loop of the model does, and the last one
with the least closed authorities, which are what is granted through memberships. -/
structure LoopsEnd (crypto : CryptoProvider) (verified : BTreeSet HashValue) (root : SelectedRoot)
    (signed : List VaultRecordV1) (records : List VerifiedRecord)
    (rollbackKeys : BTreeMap RecordKey ℕ) (memberships : BTreeMap GroupMemberId GroupMemberRecordV1)
    (grants : BTreeMap GrantId GrantRecordV1) : Prop where
  introduction : ∃ n ≤ (userBodies crypto signed).length + 1,
    Rounds (introduceUsers crypto verified (userBodies crypto signed)) n (.initial root)
      (introduce crypto verified root signed)
  deletions : ∃ n ≤ (deletionCandidates records).length,
    Growth (admitNext crypto root records rollbackKeys) n ∅
      (admitDeletions crypto root records rollbackKeys)
  propagation : ∃ n ≤ (values memberships).length * ((values grants).length + 4) + 1,
    Rounds (propagateMemberships (values memberships)) n
      (grantedAuthorities root.root.id (values grants))
      (computeAuthoritiesFromSelected root.root.id memberships grants)
  least : IsLeast {holds | ClosedHolding (values memberships) (values grants) root.root.id holds}
    (computeAuthoritiesFromSelected root.root.id memberships grants).HoldsAt
  union : ∀ principal permission,
    (computeAuthoritiesFromSelected root.root.id memberships grants).HoldsAt principal permission ↔
      (principal = .user root.root.id ∧ AuthoritySet.root.Holds permission) ∨
        GrantedThrough (values memberships) (values grants) principal permission

/-- The loops end, for every sequence of records and every graph of groups. -/
theorem loops_end (crypto : CryptoProvider) (verified : BTreeSet HashValue) (root : SelectedRoot)
    (signed : List VaultRecordV1) (records : List VerifiedRecord)
    (rollbackKeys : BTreeMap RecordKey ℕ) (memberships : BTreeMap GroupMemberId GroupMemberRecordV1)
    (grants : BTreeMap GrantId GrantRecordV1) :
    LoopsEnd crypto verified root signed records rollbackKeys memberships grants where
  introduction := introduce_rounds crypto verified root signed
  deletions := admitDeletions_growth crypto root records rollbackKeys
  propagation := computeAuthorities_rounds root.root.id memberships grants
  least := isLeast_computeAuthorities
  union _ _ := holdsAt_iff_grantedThrough

open TestSupport

/-- The root administers the vault without a grant. -/
theorem not_granted_only : ¬ ∀ rootUser memberships grants principal permission,
    (computeAuthoritiesFromSelected rootUser memberships grants).HoldsAt principal permission ↔
      GrantedThrough (values memberships) (values grants) principal permission := by
  intro h
  have hroot : (computeAuthoritiesFromSelected rootUser.id ∅ ∅).HoldsAt (.user rootUser.id)
      .administer :=
    holdsAt_iff_grantedThrough.mpr (Or.inl ⟨rfl, AuthoritySet.holds_administer.mpr rfl⟩)
  obtain ⟨grant, hgrant, -⟩ := (h rootUser.id ∅ ∅ _ _).mp hroot
  simp [values] at hgrant

end Thorax
