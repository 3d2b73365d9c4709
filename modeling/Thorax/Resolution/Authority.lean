import Thorax.Resolution.Pools

/-!
# Authorities are a least fixpoint

The authorities of a selection are computed by passes over the memberships. What they confer is
what can be derived from the root by granting and by passing a group's permissions on to its
members, and the bound on the number of passes is never what ends them.
-/

namespace Thorax

open Collections
open Std (ExtTreeMap LawfulEqCmp)

/-! ### Propagation -/

/-- What a principal holds under authorities. -/
def Authorities.HoldsAt (authorities : Authorities) (principal : PrincipalRefV1)
    (permission : GrantPermissionV1) : Prop :=
  (authorities[principal]?.getD .empty).Holds permission

/-- What grants and memberships confer on a principal, starting from the root. -/
inductive Derives (rootUser : UserId) (grants : List GrantRecordV1)
    (memberships : List GroupMemberRecordV1) : PrincipalRefV1 → GrantPermissionV1 → Prop
  | root {permission : GrantPermissionV1} : AuthoritySet.root.Holds permission →
      Derives rootUser grants memberships (.user rootUser) permission
  | grant {grant : GrantRecordV1} : grant ∈ grants →
      Derives rootUser grants memberships grant.subjectId grant.permission
  | membership {membership : GroupMemberRecordV1} {permission : GrantPermissionV1} :
      membership ∈ memberships →
      Derives rootUser grants memberships (.group membership.groupId) permission →
      Derives rootUser grants memberships membership.memberId permission

section Propagation

variable {rootUser : UserId} {grants : List GrantRecordV1} {memberships : List GroupMemberRecordV1}
variable {principal : PrincipalRefV1} {permission : GrantPermissionV1}

/-- More grants and memberships confer more. -/
lemma Derives.mono {grants' : List GrantRecordV1} {memberships' : List GroupMemberRecordV1}
    (hgrants : ∀ grant ∈ grants, grant ∈ grants')
    (hmemberships : ∀ membership ∈ memberships, membership ∈ memberships')
    (h : Derives rootUser grants memberships principal permission) :
    Derives rootUser grants' memberships' principal permission := by
  induction h with
  | root hroot => exact .root hroot
  | grant hgrant => exact .grant (hgrants _ hgrant)
  | membership hmem _ ih => exact .membership (hmemberships _ hmem) ih

/-- Only granted permissions and those of the root are ever passed on. -/
lemma Derives.permission_mem (h : Derives rootUser grants memberships principal permission) :
    permission ∈ grants.map GrantRecordV1.permission ++ AuthoritySet.root.asGrantPermissions := by
  induction h with
  | root hroot => exact List.mem_append_right _ hroot
  | grant hgrant => exact List.mem_append_left _ (List.mem_map_of_mem hgrant)
  | membership _ _ ih => exact ih

/-! ### Grants -/

lemma holdsAt_rootAuthorities : (rootAuthorities rootUser).HoldsAt principal permission ↔
    principal = .user rootUser ∧ AuthoritySet.root.Holds permission := by
  simp only [Authorities.HoldsAt, rootAuthorities, ExtTreeMap.getElem?_insert,
    LawfulEqCmp.compare_eq_iff_eq, ExtTreeMap.getElem?_empty]
  by_cases h : PrincipalRefV1.user rootUser = principal
  · simp [h]
  · simp [h, Ne.symm h]

lemma holdsAt_grantedAuthorities :
    (grantedAuthorities rootUser grants).HoldsAt principal permission ↔
      (principal = .user rootUser ∧ AuthoritySet.root.Holds permission) ∨
        ∃ grant ∈ grants, grant.subjectId = principal ∧ grant.permission = permission := by
  have hfold : ∀ (l : List GrantRecordV1) (entry : Option AuthoritySet),
      ((l.foldl (fun entry grant => some ((entry.getD .empty).addPermission grant.permission))
        entry).getD .empty).Holds permission ↔
        (entry.getD .empty).Holds permission ∨ ∃ grant ∈ l, grant.permission = permission := by
    intro l
    induction l with
    | nil => simp
    | cons grant l ih =>
      intro entry
      simp only [List.foldl_cons, ih, Option.getD_some, AuthoritySet.holds_addPermission,
        List.mem_cons, exists_eq_or_imp]
      rw [or_assoc, eq_comm (a := permission)]
  rw [← holdsAt_rootAuthorities]
  simp only [Authorities.HoldsAt, grantedAuthorities]
  rw [getElem?_groupFold, hfold]
  simp [and_assoc]

/-! ### Memberships -/

/-- One step passes on what the group holds and changes nothing else. -/
lemma holdsAt_propagateMembership (state : Authorities × Bool) (membership : GroupMemberRecordV1) :
    (propagateMembership state membership).1.HoldsAt principal permission ↔
      state.1.HoldsAt principal permission ∨
        (principal = membership.memberId ∧
          state.1.HoldsAt (.group membership.groupId) permission) := by
  unfold propagateMembership
  split
  · next h => simp [Authorities.HoldsAt, h]
  · next groupAuth h =>
    simp only [Authorities.HoldsAt, ExtTreeMap.getElem?_insert, LawfulEqCmp.compare_eq_iff_eq, h,
      Option.getD_some]
    by_cases heq : membership.memberId = principal
    · simp [heq, AuthoritySet.holds_mergeFrom]
    · simp [heq, Ne.symm heq]

/-- The flag of one step says whether the member gained something. -/
lemma propagateMembership_flag (state : Authorities × Bool) (membership : GroupMemberRecordV1) :
    (propagateMembership state membership).2 = true ↔ state.2 = true ∨
      ∃ p, state.1.HoldsAt (.group membership.groupId) p ∧
        ¬ state.1.HoldsAt membership.memberId p := by
  unfold propagateMembership
  split
  · next h => simp [Authorities.HoldsAt, h]
  · next groupAuth h =>
    simp only [Authorities.HoldsAt, h, Option.getD_some, Bool.or_eq_true]
    apply or_congr_right
    rw [← not_iff_not, Bool.not_eq_true, AuthoritySet.mergeFrom_unchanged]
    push Not
    rfl

/-- What a pass over memberships does: nothing is lost, what is gained was passed on, and the
flag tells whether a member gained something. -/
lemma propagateMemberships_spec (members : List GroupMemberRecordV1) (state : Authorities × Bool) :
    let result := members.foldl propagateMembership state
    (∀ q p, state.1.HoldsAt q p → result.1.HoldsAt q p) ∧
      (∀ Q : PrincipalRefV1 → GrantPermissionV1 → Prop, (∀ q p, state.1.HoldsAt q p → Q q p) →
        (∀ m ∈ members, ∀ p, Q (.group m.groupId) p → Q m.memberId p) →
        ∀ q p, result.1.HoldsAt q p → Q q p) ∧
      (result.2 = true → state.2 = true ∨ ∃ m ∈ members, ∃ p, result.1.HoldsAt m.memberId p ∧
        ¬ state.1.HoldsAt m.memberId p) ∧
      (result.2 = false → state.2 = false ∧ ∀ m ∈ members, ∀ p,
        state.1.HoldsAt (.group m.groupId) p → state.1.HoldsAt m.memberId p) := by
  induction members generalizing state with
  | nil => simp
  | cons m members ih =>
    obtain ⟨hmono, hsound, hgain, hstop⟩ := ih (propagateMembership state m)
    have hstep : ∀ q p, state.1.HoldsAt q p → (propagateMembership state m).1.HoldsAt q p :=
      fun q p h => (holdsAt_propagateMembership state m).mpr (Or.inl h)
    simp only [List.foldl_cons]
    refine ⟨fun q p h => hmono q p (hstep q p h), ?_, ?_, ?_⟩
    · intro Q hstate hclosed
      refine hsound Q (fun q p h => ?_) fun m' hm' => hclosed m' (List.mem_cons_of_mem m hm')
      rcases (holdsAt_propagateMembership state m).mp h with h | ⟨rfl, hgroup⟩
      · exact hstate q p h
      · exact hclosed m List.mem_cons_self p (hstate _ p hgroup)
    · intro hflag
      rcases hgain hflag with h | ⟨m', hm', p, hafter, hbefore⟩
      · rcases (propagateMembership_flag state m).mp h with h | ⟨p, hgroup, hnew⟩
        · exact Or.inl h
        · exact Or.inr ⟨m, List.mem_cons_self, p, hmono _ _
            ((holdsAt_propagateMembership state m).mpr (Or.inr ⟨rfl, hgroup⟩)), hnew⟩
      · exact Or.inr ⟨m', List.mem_cons_of_mem m hm', p, hafter, fun h => hbefore (hstep _ _ h)⟩
    · intro hflag
      obtain ⟨hfirst, hrest⟩ := hstop hflag
      -- a first step that changes nothing leaves the same permissions to the others
      have hno := mt (propagateMembership_flag state m).mpr (by simp [hfirst])
      push Not at hno
      refine ⟨by simpa using hno.1, fun m' hm' p hgroup => ?_⟩
      rcases List.mem_cons.mp hm' with rfl | hm'
      · exact hno.2 p hgroup
      · have h := hrest m' hm' p (hstep _ _ hgroup)
        rcases (holdsAt_propagateMembership state m).mp h with h | ⟨heq, h⟩
        · exact h
        · rw [heq]
          exact hno.2 p h

end Propagation

/-! ### The computed authorities -/

section Computed

variable {rootUser : UserId} {memberships : BTreeMap GroupMemberId GroupMemberRecordV1}
variable {grants : BTreeMap GrantId GrantRecordV1}

/-- What every pass maintains: the grants are there, and nothing but what can be derived. -/
def PropagationInv (rootUser : UserId) (grants : List GrantRecordV1)
    (memberships : List GroupMemberRecordV1) (authorities : Authorities) : Prop :=
  (∀ q p, (grantedAuthorities rootUser grants).HoldsAt q p → authorities.HoldsAt q p) ∧
    ∀ q p, authorities.HoldsAt q p → Derives rootUser grants memberships q p

lemma propagationInv_granted (rootUser : UserId) (grants : List GrantRecordV1)
    (memberships : List GroupMemberRecordV1) :
    PropagationInv rootUser grants memberships (grantedAuthorities rootUser grants) := by
  refine ⟨fun _ _ h => h, fun q p h => ?_⟩
  rcases holdsAt_grantedAuthorities.mp h with ⟨rfl, hroot⟩ | ⟨grant, hgrant, rfl, rfl⟩
  · exact .root hroot
  · exact .grant hgrant

lemma propagationInv_pass {grants : List GrantRecordV1} {memberships : List GroupMemberRecordV1}
    {authorities : Authorities} (h : PropagationInv rootUser grants memberships authorities) :
    PropagationInv rootUser grants memberships
      (propagateMemberships memberships authorities).1 := by
  obtain ⟨hmono, hsound, _⟩ := propagateMemberships_spec memberships (authorities, false)
  exact ⟨fun q p hgranted => hmono q p (h.1 q p hgranted),
    hsound _ h.2 fun m hm p => .membership hm⟩

/-- The pairs of a member and a permission that can still be added. -/
def gainable (memberships : List GroupMemberRecordV1) (grants : List GrantRecordV1) :
    List (PrincipalRefV1 × GrantPermissionV1) :=
  memberships.map GroupMemberRecordV1.memberId ×ˢ
    (grants.map GrantRecordV1.permission ++ AuthoritySet.root.asGrantPermissions)

lemma length_gainable (memberships : List GroupMemberRecordV1) (grants : List GrantRecordV1) :
    (gainable memberships grants).length = memberships.length * (grants.length + 4) := by
  have hroot : AuthoritySet.root.asGrantPermissions.length = 4 := rfl
  simp [gainable, List.length_product, hroot]

open scoped Classical in
/-- How many of the pairs have been added. -/
noncomputable def gained (memberships : List GroupMemberRecordV1) (grants : List GrantRecordV1)
    (authorities : Authorities) : ℕ :=
  (gainable memberships grants).countP fun pair => decide (authorities.HoldsAt pair.1 pair.2)

lemma gained_le (memberships : List GroupMemberRecordV1) (grants : List GrantRecordV1)
    (authorities : Authorities) :
    gained memberships grants authorities ≤ memberships.length * (grants.length + 4) := by
  rw [← length_gainable]
  exact List.countP_le_length

/-- A pass that reports a change adds one of the pairs. -/
lemma gained_propagateMemberships {grants : List GrantRecordV1}
    {memberships : List GroupMemberRecordV1} {authorities : Authorities}
    (hinv : PropagationInv rootUser grants memberships authorities)
    (hchanged : (propagateMemberships memberships authorities).2 = true) :
    gained memberships grants authorities <
      gained memberships grants (propagateMemberships memberships authorities).1 := by
  classical
  obtain ⟨hmono, _, hgain, _⟩ := propagateMemberships_spec memberships (authorities, false)
  obtain h | ⟨m, hm, p, hafter, hbefore⟩ := hgain hchanged
  · cases h
  · refine Settle.countP_lt_countP (fun pair _ h => ?_) ⟨(m.memberId, p), ?_, ?_, ?_⟩
    · exact decide_eq_true (hmono _ _ (of_decide_eq_true h))
    · exact List.mem_product.mpr ⟨List.mem_map_of_mem hm,
        ((propagationInv_pass hinv).2 _ _ hafter).permission_mem⟩
    · exact decide_eq_true hafter
    · exact decide_eq_false hbefore

/-- What the computed authorities confer is what can be derived. -/
lemma holdsAt_computeAuthorities {principal : PrincipalRefV1} {permission : GrantPermissionV1} :
    (computeAuthoritiesFromSelected rootUser memberships grants).HoldsAt principal permission ↔
      Derives rootUser (values grants) (values memberships) principal permission := by
  obtain ⟨final, ⟨hgranted, hsound⟩, hdone, heq⟩ := Settle.loopUntil_stops
    (propagateMemberships (values memberships))
    (fun authorities (hinv : PropagationInv rootUser (values grants) (values memberships)
      authorities) => propagationInv_pass hinv) (gained (values memberships) (values grants))
    (fun authorities => gained_propagateMemberships) (fun authorities _ => gained_le _ _ _)
    (propagationInv_granted rootUser (values grants) (values memberships))
    (Nat.lt_add_right _ (Nat.lt_succ_self _))
  rw [computeAuthoritiesFromSelected, heq]
  obtain ⟨hmono, hsound', _, hstop⟩ :=
    propagateMemberships_spec (values memberships) (final, false)
  have hclosed := (hstop hdone).2
  constructor
  · exact hsound' _ hsound (fun m hm p => .membership hm) principal permission
  · intro h
    apply hmono
    induction h with
    | root hroot => exact hgranted _ _ (holdsAt_grantedAuthorities.mpr (Or.inl ⟨rfl, hroot⟩))
    | grant hgrant =>
      exact hgranted _ _ (holdsAt_grantedAuthorities.mpr (Or.inr ⟨_, hgrant, rfl, rfl⟩))
    | membership hmem _ ih => exact hclosed _ hmem _ ih

end Computed

end Thorax
