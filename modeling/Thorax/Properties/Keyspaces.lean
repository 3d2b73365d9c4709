import Mathlib.Data.Finset.Sort
import Mathlib.Logic.Relation
import Mathlib.Data.String.Basic
import Thorax.Authz
import Thorax.Library.Durable
import Thorax.Validate.Structure

/-!
# Keyspaces

A keyspace selector stands for the secrets it matches, and subsumption is decided on the selectors
alone. For the selectors that pass validation it decides inclusion: where it fails there is a secret
that the child matches and the parent does not, with labels in the order the format asks for.
-/

namespace Thorax

/-! ### Validated selectors -/

lemma isSortedUnique_iff_pairwise {α β : Type} [LinearOrder β] (key : α → β) (items : List α) :
    isSortedUnique (fun a b => decide (key a < key b)) items = true ↔
      (items.map key).Pairwise (· < ·) := by
  rw [← List.isChain_iff_pairwise]
  match items with
  | [] => simp [isSortedUnique]
  | [_] => simp [isSortedUnique]
  | a :: b :: rest =>
    have ih := isSortedUnique_iff_pairwise key (b :: rest)
    rw [← List.isChain_iff_pairwise] at ih
    simp only [isSortedUnique, Bool.and_eq_true, decide_eq_true_eq, ih, List.map_cons,
      List.isChain_cons_cons]

lemma validateSecretSelector_iff {secret : SecretSelectorV1} :
    validateSecretSelector secret = .ok () ↔ (secret.labels.map (·.key)).Pairwise (· < ·) := by
  rw [← isSortedUnique_iff_pairwise, validateSecretSelector, validateSortedUniqueSecretLabels,
    check_eq_ok]
  simp

/-- What validation asks of a keyspace selector. -/
lemma validateKeyspaceSelector_eq_ok {selector : KeyspaceSelectorV1}
    (h : validateKeyspaceSelector selector = .ok ()) :
    selector.tuple ≠ .prefixed [] ∧ (selector.labels.map (·.key)).Nodup ∧
      ∀ label ∈ selector.labels, label.matcher ≠ .isIn [] := by
  unfold validateKeyspaceSelector at h
  by_cases htuple : selector.tuple = .prefixed []
  · simp [htuple, invalid, bind, Except.bind] at h
  rw [if_neg htuple] at h
  obtain ⟨_, hlabels, h⟩ := Durable.bind_eq_ok.mp h
  refine ⟨htuple, ?_, fun label hlabel hmatcher => ?_⟩
  · rw [validateSortedUniqueKeyspaceLabels, check_eq_ok, isSortedUnique_iff_pairwise] at hlabels
    exact hlabels.1.imp fun hlt => hlt.ne
  · have hvalues := Durable.forM_eq_ok.mp h label hlabel
    simp [hmatcher, validateSortedUniqueStrings, invalid] at hvalues

/-- Among labels with different keys, a search for the key of one finds it. -/
lemma find?_key_eq_some {labels : List KeyspaceLabelMatcherV1} {label : KeyspaceLabelMatcherV1}
    (hnodup : (labels.map (·.key)).Nodup) (hlabel : label ∈ labels) :
    labels.find? (·.key == label.key) = some label := by
  induction labels with
  | nil => contradiction
  | cons first labels ih =>
    rw [List.map_cons, List.nodup_cons] at hnodup
    rcases List.mem_cons.mp hlabel with rfl | hrest
    · simp
    · have hne : first.key ≠ label.key := by
        intro heq
        exact hnodup.1 (heq ▸ List.mem_map_of_mem hrest)
      rw [List.find?_cons_of_neg (by simpa using hne)]
      exact ih hnodup.2 hrest

/-! ### Secrets that a selector matches -/

/-- The secret with a tuple and with the labels that `value` gives the keys. -/
def secretWith (tuple : List String) (keys : Finset String) (value : String → Option String) :
    SecretSelectorV1 where
  tuple := tuple
  labels := (keys.sort (· ≤ ·)).filterMap fun key => (value key).map (SecretLabelV1.mk key)

variable {tuple : List String} {keys : Finset String} {value : String → Option String}

lemma validateSecretSelector_secretWith :
    validateSecretSelector (secretWith tuple keys value) = .ok () := by
  rw [validateSecretSelector_iff, List.pairwise_map]
  refine (Finset.sortedLT_sort keys).pairwise.filterMap _ ?_
  intro key key' hlt label hlabel label' hlabel'
  obtain ⟨_, -, rfl⟩ := Option.map_eq_some_iff.mp hlabel
  obtain ⟨_, -, rfl⟩ := Option.map_eq_some_iff.mp hlabel'
  exact hlt

/-- Its labels are read back. -/
lemma secretLabelValue_secretWith {key : String} (hkey : key ∈ keys) :
    secretLabelValue (secretWith tuple keys value) key = value key := by
  have hmem : ∀ label ∈ (secretWith tuple keys value).labels, value label.key = some label.value := by
    intro label hlabel
    obtain ⟨found, -, heq⟩ := List.mem_filterMap.mp hlabel
    obtain ⟨_, hvalue, rfl⟩ := Option.map_eq_some_iff.mp heq
    exact hvalue
  unfold secretLabelValue
  cases hfind : (secretWith tuple keys value).labels.find? (·.key == key) with
  | some label =>
    obtain rfl : label.key = key := by simpa using List.find?_some hfind
    exact (hmem label (List.mem_of_find?_eq_some hfind)).symm
  | none =>
    cases hvalue : value key with
    | none => rfl
    | some found =>
      have hlabel : ⟨key, found⟩ ∈ (secretWith tuple keys value).labels :=
        List.mem_filterMap.mpr ⟨key, (Finset.mem_sort _).mpr hkey, by simp [hvalue]⟩
      exact absurd (List.find?_eq_none.mp hfind _ hlabel) (by simp)

/-- Values that the matchers of a selector accept make a secret that it matches. -/
lemma selectorMatches_secretWith {selector : KeyspaceSelectorV1}
    (htuple : tupleMatches selector.tuple tuple = true)
    (hlabels : ∀ label ∈ selector.labels,
      label.key ∈ keys ∧ labelMatches label.matcher (value label.key) = true) :
    selectorMatches selector (secretWith tuple keys value) = true := by
  rw [selectorMatches, Bool.and_eq_true, List.all_eq_true]
  refine ⟨htuple, fun label hlabel => ?_⟩
  rw [secretLabelValue_secretWith (hlabels label hlabel).1]
  exact (hlabels label hlabel).2

/-! ### Values that separate -/

lemma exists_fresh (values : List String) : ∃ value, value ∉ values := by
  obtain ⟨value, hvalue⟩ := Infinite.exists_notMem_finset values.toFinset
  exact ⟨value, by simpa using hvalue⟩

/-- Every matcher but an empty list accepts something. -/
lemma exists_labelMatches {matcher : LabelMatcherV1} (h : matcher ≠ .isIn []) :
    ∃ value, labelMatches matcher value = true := by
  cases matcher with
  | any => exact ⟨some "", rfl⟩
  | equals expected => exact ⟨some expected, by simp [labelMatches]⟩
  | isIn values =>
    cases values with
    | nil => exact absurd rfl h
    | cons first values => exact ⟨some first, by simp [labelMatches]⟩
  | absent => exact ⟨none, rfl⟩

/-- Where a label is not subsumed, some value is accepted by the child only; a child without the
label accepts every value. -/
lemma exists_of_not_labelSubsumes {parent : LabelMatcherV1} {child : Option LabelMatcherV1}
    (hchild : child ≠ some (.isIn [])) (h : labelSubsumes parent child = false) :
    ∃ value, (∀ matcher, child = some matcher → labelMatches matcher value = true) ∧
      labelMatches parent value = false := by
  cases child with
  | none =>
    cases parent with
    | absent => exact ⟨some "", by simp [labelMatches]⟩
    | any | equals _ | isIn _ => exact ⟨none, by simp [labelMatches]⟩
  | some child =>
    simp only [Option.some.injEq, forall_eq']
    cases child with
    | absent =>
      refine ⟨none, rfl, ?_⟩
      cases parent with
      | absent => simp [labelSubsumes] at h
      | any | equals _ | isIn _ => simp [labelMatches]
    | any =>
      cases parent with
      | any => simp [labelSubsumes] at h
      | absent => exact ⟨some "", rfl, rfl⟩
      | equals expected =>
        obtain ⟨value, hvalue⟩ := exists_fresh [expected]
        exact ⟨some value, rfl, by simpa [labelMatches] using hvalue⟩
      | isIn values =>
        obtain ⟨value, hvalue⟩ := exists_fresh values
        exact ⟨some value, rfl, by simpa [labelMatches] using hvalue⟩
    | equals value =>
      refine ⟨some value, by simp [labelMatches], ?_⟩
      cases parent with
      | any => simp [labelSubsumes] at h
      | absent => rfl
      | equals expected =>
        simp only [labelSubsumes, beq_eq_false_iff_ne] at h
        simpa [labelMatches] using Ne.symm h
      | isIn values => simpa [labelMatches, labelSubsumes] using h
    | isIn values =>
      cases parent with
      | any => simp [labelSubsumes] at h
      | absent =>
        obtain ⟨value, hvalue⟩ := List.exists_mem_of_ne_nil values fun hnil => hchild (by rw [hnil])
        exact ⟨some value, by simpa [labelMatches] using hvalue, rfl⟩
      | equals expected =>
        simp only [labelSubsumes, List.all_eq_false] at h
        obtain ⟨value, hvalue, hne⟩ := h
        exact ⟨some value, by simpa [labelMatches] using hvalue, by simpa [labelMatches] using hne⟩
      | isIn expected =>
        simp only [labelSubsumes, List.all_eq_false] at h
        obtain ⟨value, hvalue, hne⟩ := h
        exact ⟨some value, by simpa [labelMatches] using hvalue, by simpa [labelMatches] using hne⟩

/-- Where a tuple is not subsumed, some tuple is matched by the child only. -/
lemma exists_of_not_tupleSubsumes {parent child : TupleMatcherV1} (hparent : parent ≠ .prefixed [])
    (h : tupleSubsumes parent child = false) :
    ∃ tuple, tupleMatches child tuple = true ∧ tupleMatches parent tuple = false := by
  cases parent with
  | any => simp [tupleSubsumes] at h
  | exact parts =>
    cases child with
    | any => exact ⟨parts ++ [""], rfl, by simp [tupleMatches]⟩
    | exact other => exact ⟨other, by simp [tupleMatches], h⟩
    | prefixed other =>
      -- a tuple below the prefix, and a longer one, cannot both be the exact tuple
      by_cases heq : parts = other
      · exact ⟨other ++ [""], by simp [tupleMatches], by simp [tupleMatches, heq]⟩
      · exact ⟨other, by simp [tupleMatches], by simpa [tupleMatches] using heq⟩
  | prefixed parts =>
    cases child with
    | any =>
      refine ⟨[], rfl, ?_⟩
      cases parts with
      | nil => exact absurd rfl hparent
      | cons part parts => rfl
    | exact other => exact ⟨other, by simp [tupleMatches], h⟩
    | prefixed other => exact ⟨other, by simp [tupleMatches], h⟩

/-! ### Subsumption is inclusion -/

/-- Values of single labels, one of them at a key of choice, can be put together in one secret. -/
lemma exists_secret {selector : KeyspaceSelectorV1} {tuple : List String} {key : String}
    {found : Option String} (hselector : validateKeyspaceSelector selector = .ok ())
    (htuple : tupleMatches selector.tuple tuple = true)
    (hfound : ∀ matcher, childLabelMatcher selector key = some matcher →
      labelMatches matcher found = true) :
    ∃ secret, validateSecretSelector secret = .ok () ∧ selectorMatches selector secret = true ∧
      secret.tuple = tuple ∧ secretLabelValue secret key = found := by
  obtain ⟨-, hnodup, hnonempty⟩ := validateKeyspaceSelector_eq_ok hselector
  have hlabel : ∀ label ∈ selector.labels,
      childLabelMatcher selector label.key = some label.matcher := by
    intro label hlabel
    rw [childLabelMatcher, find?_key_eq_some hnodup hlabel, Option.map_some]
  have hvalues : ∀ other, ∃ value, ∀ matcher, childLabelMatcher selector other = some matcher →
      labelMatches matcher value = true := by
    intro other
    cases hmatcher : childLabelMatcher selector other with
    | none => exact ⟨none, by simp⟩
    | some matcher =>
      obtain ⟨label, hfind, rfl⟩ := Option.map_eq_some_iff.mp hmatcher
      obtain ⟨value, hvalue⟩ :=
        exists_labelMatches (hnonempty label (List.mem_of_find?_eq_some hfind))
      exact ⟨value, by simpa using hvalue⟩
  choose value hvalue using hvalues
  let keys : Finset String := insert key (selector.labels.map (·.key)).toFinset
  refine ⟨secretWith tuple keys (Function.update value key found),
    validateSecretSelector_secretWith, ?_, rfl, ?_⟩
  · refine selectorMatches_secretWith htuple fun label hmem => ⟨?_, ?_⟩
    · simp only [keys, Finset.mem_insert, List.mem_toFinset, List.mem_map]
      exact Or.inr ⟨label, hmem, rfl⟩
    · by_cases hkey : label.key = key
      · rw [hkey, Function.update_self]
        exact hfound _ (hkey ▸ hlabel label hmem)
      · rw [Function.update_of_ne hkey]
        exact hvalue _ _ (hlabel label hmem)
  · rw [secretLabelValue_secretWith (Finset.mem_insert_self _ _), Function.update_self]

lemma exists_tupleMatches (matcher : TupleMatcherV1) :
    ∃ tuple, tupleMatches matcher tuple = true := by
  cases matcher with
  | any => exact ⟨[], rfl⟩
  | exact parts => exact ⟨parts, by simp [tupleMatches]⟩
  | prefixed parts => exact ⟨parts, by simp [tupleMatches]⟩

/-- Where a selector is not subsumed, some secret is matched by the child only. -/
lemma exists_of_not_selectorSubsumes {parent child : KeyspaceSelectorV1}
    (hparent : validateKeyspaceSelector parent = .ok ())
    (hchild : validateKeyspaceSelector child = .ok ())
    (h : selectorSubsumes parent child = false) :
    ∃ secret, validateSecretSelector secret = .ok () ∧ selectorMatches child secret = true ∧
      selectorMatches parent secret = false := by
  have hnonempty := (validateKeyspaceSelector_eq_ok hchild).2.2
  have hmatcher : ∀ key, childLabelMatcher child key ≠ some (.isIn []) := by
    intro key heq
    obtain ⟨label, hfind, hlabel⟩ := Option.map_eq_some_iff.mp heq
    exact hnonempty label (List.mem_of_find?_eq_some hfind) hlabel
  rw [selectorSubsumes, Bool.and_eq_false_iff] at h
  rcases h with htuple | hlabels
  · obtain ⟨tuple, hmatched, hunmatched⟩ :=
      exists_of_not_tupleSubsumes (validateKeyspaceSelector_eq_ok hparent).1 htuple
    obtain ⟨found, hfound⟩ : ∃ found, ∀ matcher, childLabelMatcher child "" = some matcher →
        labelMatches matcher found = true := by
      cases hcase : childLabelMatcher child "" with
      | none => exact ⟨none, by simp⟩
      | some matcher =>
        obtain ⟨found, hfound⟩ := exists_labelMatches fun heq => hmatcher "" (heq ▸ hcase)
        exact ⟨found, by simpa using hfound⟩
    obtain ⟨secret, hvalid, hmatches, rfl, -⟩ := exists_secret hchild hmatched hfound
    exact ⟨secret, hvalid, hmatches, by simp [selectorMatches, hunmatched]⟩
  · rw [labelsSubsume, List.all_eq_false] at hlabels
    obtain ⟨label, hlabel, hsubsumes⟩ := hlabels
    obtain ⟨found, hfound, hunmatched⟩ :=
      exists_of_not_labelSubsumes (hmatcher label.key) (by simpa using hsubsumes)
    obtain ⟨tuple, htuple⟩ := exists_tupleMatches child.tuple
    obtain ⟨secret, hvalid, hmatches, -, hvalue⟩ := exists_secret hchild htuple hfound
    refine ⟨secret, hvalid, hmatches, ?_⟩
    rw [selectorMatches, Bool.and_eq_false_iff, List.all_eq_false]
    exact Or.inr ⟨label, hlabel, by simp [hvalue, hunmatched]⟩

/-- Subsumption decides inclusion: on the selectors that pass validation it holds exactly if the
parent matches every secret with sorted and unique labels that the child matches; on all selectors
it is sound for all secrets. -/
theorem selectorSubsumes_exact :
    (∀ parent child : KeyspaceSelectorV1, validateKeyspaceSelector parent = .ok () →
      validateKeyspaceSelector child = .ok () →
      (selectorSubsumes parent child = true ↔ ∀ secret, validateSecretSelector secret = .ok () →
        selectorMatches child secret = true → selectorMatches parent secret = true)) ∧
    ∀ (parent child : KeyspaceSelectorV1) (secret : SecretSelectorV1),
      selectorSubsumes parent child = true → selectorMatches child secret = true →
        selectorMatches parent secret = true := by
  refine ⟨fun parent child hparent hchild => ⟨fun h secret _ => ?_, fun h => ?_⟩,
    fun parent child secret h => selectorMatches_of_subsumes h⟩
  · exact selectorMatches_of_subsumes h
  · by_contra hsubsumes
    rw [Bool.not_eq_true] at hsubsumes
    obtain ⟨secret, hvalid, hmatches, hunmatched⟩ :=
      exists_of_not_selectorSubsumes hparent hchild hsubsumes
    rw [h secret hvalid hmatches] at hunmatched
    contradiction

/-- A prefix includes the longer prefix, for the secrets it matches and as far as validation goes. -/
theorem selectorSubsumes_exact_prefixed :
    (∀ secret, validateSecretSelector secret = .ok () →
      selectorMatches ⟨.prefixed ["app", "db"], []⟩ secret = true →
        selectorMatches ⟨.prefixed ["app"], []⟩ secret = true) ∧
    selectorMatches ⟨.prefixed ["app"], []⟩ ⟨["app", "db", "password"], []⟩ = true :=
  ⟨(selectorSubsumes_exact.1 ⟨.prefixed ["app"], []⟩ ⟨.prefixed ["app", "db"], []⟩ (by decide)
      (by decide)).mp (by decide),
    selectorSubsumes_exact.2 ⟨.prefixed ["app"], []⟩ ⟨.prefixed ["app", "db"], []⟩ _ (by decide)
      (by decide)⟩

/-! ### Delegation does not amplify -/

/-- Whatever the lower set allows, the upper set does. -/
structure AuthoritySet.AtMost (lower upper : AuthoritySet) : Prop where
  read : ∀ secret, lower.canRead secret = true → upper.canRead secret = true
  write : ∀ secret, lower.canWrite secret = true → upper.canWrite secret = true
  manage : ∀ secret, lower.canManage secret = true → upper.canManage secret = true
  create : ∀ permission, lower.canCreatePermission permission = true →
    upper.canCreatePermission permission = true

namespace AuthoritySet

variable {self other bound : AuthoritySet}

lemma AtMost.refl (self : AuthoritySet) : self.AtMost self :=
  ⟨fun _ => id, fun _ => id, fun _ => id, fun _ => id⟩

lemma atMost_empty : AuthoritySet.empty.AtMost bound where
  read _ h := absurd (canRead_iff_confers.mp h) (not_confers_empty _)
  write _ h := absurd (canWrite_iff_confers.mp h) (not_confers_empty _)
  manage _ h := absurd (canManage_iff_confers.mp h) (not_confers_empty _)
  create _ h := absurd (canCreatePermission_iff_confers.mp h) (not_confers_empty _)

/-- One set is at most the other if it is so for every use of a permission that the four questions
ask about. -/
lemma atMost_of_confers (h : ∀ use, GrantPermissionV1.Inherited use →
    (self.Confers use → bound.Confers use) → other.Confers use → bound.Confers use)
    (hself : self.AtMost bound) : other.AtMost bound where
  read secret hread := by
    rw [canRead_iff_confers] at hread ⊢
    refine h _ (GrantPermissionV1.inherited_reads secret) (fun huse => ?_) hread
    exact canRead_iff_confers.mp (hself.read secret (canRead_iff_confers.mpr huse))
  write secret hwrite := by
    rw [canWrite_iff_confers] at hwrite ⊢
    refine h _ (GrantPermissionV1.inherited_writes secret) (fun huse => ?_) hwrite
    exact canWrite_iff_confers.mp (hself.write secret (canWrite_iff_confers.mpr huse))
  manage secret hmanage := by
    rw [canManage_iff_confers] at hmanage ⊢
    refine h _ (GrantPermissionV1.inherited_manages secret) (fun huse => ?_) hmanage
    exact canManage_iff_confers.mp (hself.manage secret (canManage_iff_confers.mpr huse))
  create permission hcreate := by
    rw [canCreatePermission_iff_confers] at hcreate ⊢
    refine h _ (GrantPermissionV1.inherited_creates permission) (fun huse => ?_) hcreate
    exact canCreatePermission_iff_confers.mp
      (hself.create permission (canCreatePermission_iff_confers.mpr huse))

/-- A permission that a set can create adds nothing to what lies below the set. -/
lemma AtMost.addPermission {p : GrantPermissionV1} (h : self.AtMost bound)
    (hp : bound.canCreatePermission p = true) : (self.addPermission p).AtMost bound := by
  refine atMost_of_confers (fun use huse hself hother => ?_) h
  rcases confers_addPermission.mp hother with hconfers | hadded
  · exact hself hconfers
  · exact confers_of_canCreatePermission huse hp hadded

/-- What lies below a set stays there if it is put together. -/
lemma AtMost.mergeFrom (h : self.AtMost bound) (hother : other.AtMost bound) :
    (self.mergeFrom other).1.AtMost bound where
  read secret hread := by
    rw [canRead_iff_confers, confers_mergeFrom, ← canRead_iff_confers, ← canRead_iff_confers] at hread
    exact hread.elim (h.read secret) (hother.read secret)
  write secret hwrite := by
    rw [canWrite_iff_confers, confers_mergeFrom, ← canWrite_iff_confers,
      ← canWrite_iff_confers] at hwrite
    exact hwrite.elim (h.write secret) (hother.write secret)
  manage secret hmanage := by
    rw [canManage_iff_confers, confers_mergeFrom, ← canManage_iff_confers,
      ← canManage_iff_confers] at hmanage
    exact hmanage.elim (h.manage secret) (hother.manage secret)
  create permission hcreate := by
    rw [canCreatePermission_iff_confers, confers_mergeFrom, ← canCreatePermission_iff_confers,
      ← canCreatePermission_iff_confers] at hcreate
    exact hcreate.elim (h.create permission) (hother.create permission)

end AuthoritySet

section Chain

variable {ι : Type} [DecidableEq ι]

/-- A step of a delegation: someone is granted a permission that the granter can create, or a member
of a group obtains what the group has. -/
inductive Delegates (sets : ι → AuthoritySet) : (ι → AuthoritySet) → Prop
  | grant (granter subject : ι) (permission : GrantPermissionV1)
      (h : (sets granter).canCreatePermission permission = true) :
      Delegates sets (Function.update sets subject ((sets subject).addPermission permission))
  | join (member group : ι) :
      Delegates sets (Function.update sets member ((sets member).mergeFrom (sets group)).1)

variable {sets sets' : ι → AuthoritySet} {bound : AuthoritySet}

lemma Delegates.atMost (h : Delegates sets sets') (hsets : ∀ i, (sets i).AtMost bound) (i : ι) :
    (sets' i).AtMost bound := by
  cases h with
  | grant granter subject permission hcreate =>
    by_cases hi : i = subject
    · subst hi
      rw [Function.update_self]
      exact (hsets i).addPermission ((hsets granter).create permission hcreate)
    · rw [Function.update_of_ne hi]
      exact hsets i
  | join member group =>
    by_cases hi : i = member
    · subst hi
      rw [Function.update_self]
      exact (hsets i).mergeFrom (hsets group)
    · rw [Function.update_of_ne hi]
      exact hsets i

end Chain

/-- Delegation never amplifies: a permission that a set can create adds nothing to what the set
allows, and along any chain of delegations from principals that are allowed at most what an
authority allows, nobody obtains more than that. -/
theorem delegation_never_amplifies :
    (∀ (authority : AuthoritySet) (permission : GrantPermissionV1),
      authority.canCreatePermission permission = true →
        (authority.addPermission permission).AtMost authority) ∧
    ∀ (ι : Type) [DecidableEq ι] (authority : AuthoritySet) (start sets : ι → AuthoritySet),
      (∀ i, (start i).AtMost authority) → Relation.ReflTransGen Delegates start sets →
        ∀ i, (sets i).AtMost authority := by
  refine ⟨fun authority permission hp => (AuthoritySet.AtMost.refl authority).addPermission hp, ?_⟩
  intro ι _ authority start sets hstart hrun
  induction hrun with
  | refl => exact hstart
  | tail _ hstep ih => exact hstep.atMost ih

/-- The manager of a prefix. -/
def prefixManager : AuthoritySet := ⟨[], [], [⟨⟨.prefixed ["app"], []⟩, [.read]⟩], false⟩

/-- A manager of a prefix grants someone to read a part of it. -/
theorem delegation_never_amplifies_granted :
    (prefixManager.addPermission (.readKeyspace ⟨.prefixed ["app", "db"], []⟩)).AtMost
      prefixManager ∧
    ∀ i : Bool, (Function.update (fun i => bif i then prefixManager else .empty) false
      (AuthoritySet.empty.addPermission (.readKeyspace ⟨.prefixed ["app", "db"], []⟩)) i).AtMost
        prefixManager := by
  have hcreate : prefixManager.canCreatePermission
      (.readKeyspace ⟨.prefixed ["app", "db"], []⟩) = true := by decide
  refine ⟨delegation_never_amplifies.1 _ _ hcreate, ?_⟩
  apply delegation_never_amplifies.2 Bool prefixManager fun i => bif i then prefixManager else .empty
  · intro i
    cases i with
    | false => exact AuthoritySet.atMost_empty
    | true => exact AuthoritySet.AtMost.refl prefixManager
  · exact .single (.grant true false _ hcreate)

end Thorax
