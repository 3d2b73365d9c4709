import Thorax.Format

/-!
# Authority sets

What a principal may do: the keyspaces it reads, writes and manages, and whether it administers.
An authority set is a record of lists in the program, but every question asked of it depends on
the set of permissions the lists hold and grows with it. The second half of the file states that,
and that the permissions a manage grant can hand out are closed under delegation.
-/

namespace Thorax

/-! ### Matching and subsumption -/

def tupleMatches (matcher : TupleMatcherV1) (tuple : List String) : Bool :=
  match matcher with
  | .any => true
  | .exact parts => parts == tuple
  | .prefixed parts => parts.isPrefixOf tuple

def secretLabelValue (selector : SecretSelectorV1) (key : String) : Option String :=
  (selector.labels.find? (·.key == key)).map (·.value)

def labelMatches (matcher : LabelMatcherV1) (value : Option String) : Bool :=
  match matcher with
  | .any => value.isSome
  | .equals expected => value == some expected
  | .isIn values => value.any (values.contains ·)
  | .absent => value.isNone

def selectorMatches (grant : KeyspaceSelectorV1) (secret : SecretSelectorV1) : Bool :=
  tupleMatches grant.tuple secret.tuple &&
    grant.labels.all fun label => labelMatches label.matcher (secretLabelValue secret label.key)

def tupleSubsumes (parent child : TupleMatcherV1) : Bool :=
  match parent, child with
  | .any, _ => true
  | .prefixed parent, .prefixed child => parent.isPrefixOf child
  | .prefixed parent, .exact child => parent.isPrefixOf child
  | .exact parent, .exact child => parent == child
  | _, _ => false

def childLabelMatcher (selector : KeyspaceSelectorV1) (key : String) : Option LabelMatcherV1 :=
  (selector.labels.find? (·.key == key)).map (·.matcher)

def labelSubsumes (parent : LabelMatcherV1) (child : Option LabelMatcherV1) : Bool :=
  match parent, child with
  | _, none => false
  | .any, some .any => true
  | .any, some (.equals _) => true
  | .any, some (.isIn _) => true
  | .any, some .absent => false
  | .equals parent, some (.equals child) => parent == child
  | .equals parent, some (.isIn child) => child.all (· == parent)
  | .isIn parent, some (.equals child) => parent.contains child
  | .isIn parent, some (.isIn child) => child.all (parent.contains ·)
  | .absent, some .absent => true
  | _, _ => false

def labelsSubsume (parent child : KeyspaceSelectorV1) : Bool :=
  parent.labels.all fun label => labelSubsumes label.matcher (childLabelMatcher child label.key)

def selectorSubsumes (parent child : KeyspaceSelectorV1) : Bool :=
  tupleSubsumes parent.tuple child.tuple && labelsSubsume parent child

def hasGrantable (items : List KeyspaceGrantClassV1) (cls : KeyspaceGrantClassV1) : Bool :=
  items.contains cls

def grantableSubset (child parent : List KeyspaceGrantClassV1) : Bool :=
  child.all (hasGrantable parent ·)

/-! ### Authority sets -/

structure AuthoritySet where
  read : List KeyspaceSelectorV1
  write : List KeyspaceSelectorV1
  manage : List ManageKeyspaceGrantV1
  administer : Bool
  deriving DecidableEq

/-- The default authority: none. -/
def AuthoritySet.empty : AuthoritySet := ⟨[], [], [], false⟩

def AuthoritySet.root : AuthoritySet where
  read := [.all]
  write := [.all]
  manage := [⟨.all, [.read, .write, .manage]⟩]
  administer := true

/-- Append an item that is not yet present; the flag says whether it was appended. -/
def pushUnique {α : Type} [DecidableEq α] (items : List α) (item : α) : List α × Bool :=
  if item ∈ items then (items, false) else (items ++ [item], true)

/-- `pushUnique` for each of `others` in turn. -/
def pushAll {α : Type} [DecidableEq α] (items others : List α) : List α × Bool :=
  others.foldl (fun acc item =>
    ((pushUnique acc.1 item).1, acc.2 || (pushUnique acc.1 item).2)) (items, false)

namespace AuthoritySet

def addPermission (self : AuthoritySet) (permission : GrantPermissionV1) : AuthoritySet :=
  match permission with
  | .readKeyspace selector => { self with read := (pushUnique self.read selector).1 }
  | .writeKeyspace selector => { self with write := (pushUnique self.write selector).1 }
  | .manageKeyspace manage => { self with manage := (pushUnique self.manage manage).1 }
  | .administer => { self with administer := true }

/-- Add everything `other` holds; the flag says whether anything was new. -/
def mergeFrom (self other : AuthoritySet) : AuthoritySet × Bool :=
  ({ read := (pushAll self.read other.read).1
     write := (pushAll self.write other.write).1
     manage := (pushAll self.manage other.manage).1
     administer := self.administer || other.administer },
    (pushAll self.read other.read).2 || (pushAll self.write other.write).2 ||
      (pushAll self.manage other.manage).2 || (other.administer && !self.administer))

def canRead (self : AuthoritySet) (selector : SecretSelectorV1) : Bool :=
  self.administer || self.read.any (selectorMatches · selector) ||
    self.write.any (selectorMatches · selector) ||
    self.manage.any (selectorMatches ·.selector selector)

def canWrite (self : AuthoritySet) (selector : SecretSelectorV1) : Bool :=
  self.administer || self.write.any (selectorMatches · selector) ||
    self.manage.any (selectorMatches ·.selector selector)

def canManage (self : AuthoritySet) (selector : SecretSelectorV1) : Bool :=
  self.administer || self.manage.any (selectorMatches ·.selector selector)

def holdsReadOver (self : AuthoritySet) (selector : KeyspaceSelectorV1) : Bool :=
  self.administer || self.read.any (selectorSubsumes · selector) ||
    self.write.any (selectorSubsumes · selector) ||
    self.manage.any (selectorSubsumes ·.selector selector)

def holdsWriteOver (self : AuthoritySet) (selector : KeyspaceSelectorV1) : Bool :=
  self.administer || self.write.any (selectorSubsumes · selector) ||
    self.manage.any (selectorSubsumes ·.selector selector)

def canCreatePermission (self : AuthoritySet) (permission : GrantPermissionV1) : Bool :=
  if self.administer then true
  else
    match permission with
    | .readKeyspace selector =>
      self.holdsReadOver selector && self.manage.any fun manage =>
        hasGrantable manage.grantable .read && selectorSubsumes manage.selector selector
    | .writeKeyspace selector =>
      self.holdsWriteOver selector && self.manage.any fun manage =>
        hasGrantable manage.grantable .write && selectorSubsumes manage.selector selector
    | .manageKeyspace target => self.manage.any fun manage =>
        hasGrantable manage.grantable .manage &&
          selectorSubsumes manage.selector target.selector &&
          grantableSubset target.grantable manage.grantable
    | .administer => self.administer

/-- The permissions a set confers. -/
def asGrantPermissions (self : AuthoritySet) : List GrantPermissionV1 :=
  self.read.map .readKeyspace ++ self.write.map .writeKeyspace ++
    self.manage.map .manageKeyspace ++ (if self.administer then [.administer] else [])

end AuthoritySet

/-! ### Subsumption is transitive -/

lemma tupleSubsumes_trans {a b c : TupleMatcherV1} (hab : tupleSubsumes a b = true)
    (hbc : tupleSubsumes b c = true) : tupleSubsumes a c = true := by
  cases a <;> cases b <;> cases c <;> simp_all [tupleSubsumes, List.isPrefixOf_iff_prefix]
  all_goals exact hab.trans hbc

lemma labelSubsumes_trans {a b : LabelMatcherV1} {c : Option LabelMatcherV1}
    (hab : labelSubsumes a (some b) = true) (hbc : labelSubsumes b c = true) :
    labelSubsumes a c = true := by
  cases c with
  | none => simp [labelSubsumes] at hbc
  | some c =>
    cases a <;> cases b <;> cases c <;> simp_all [labelSubsumes]
    · exact hbc
    · exact (hab _ hbc).symm
    · intro x hx
      rw [hbc x hx]
      exact hab

lemma labelsSubsume_trans {a b c : KeyspaceSelectorV1} (hab : labelsSubsume a b = true)
    (hbc : labelsSubsume b c = true) : labelsSubsume a c = true := by
  simp only [labelsSubsume, List.all_eq_true] at hab hbc ⊢
  intro label hlabel
  have hb := hab label hlabel
  cases hfind : b.labels.find? (·.key == label.key) with
  | none => simp [childLabelMatcher, hfind, labelSubsumes] at hb
  | some middle =>
    have hkey : middle.key = label.key := by simpa using List.find?_some hfind
    have hc := hbc middle (List.mem_of_find?_eq_some hfind)
    rw [hkey] at hc
    simp only [childLabelMatcher, hfind, Option.map_some] at hb
    exact labelSubsumes_trans hb hc

lemma selectorSubsumes_trans {a b c : KeyspaceSelectorV1} (hab : selectorSubsumes a b = true)
    (hbc : selectorSubsumes b c = true) : selectorSubsumes a c = true := by
  simp only [selectorSubsumes, Bool.and_eq_true] at hab hbc ⊢
  exact ⟨tupleSubsumes_trans hab.1 hbc.1, labelsSubsume_trans hab.2 hbc.2⟩

/-! ### Subsumption is sound -/

lemma tupleMatches_of_subsumes {parent child : TupleMatcherV1} {tuple : List String}
    (h : tupleSubsumes parent child = true) (hchild : tupleMatches child tuple = true) :
    tupleMatches parent tuple = true := by
  cases parent with
  | any => rfl
  | exact parts =>
    cases child with
    | exact other =>
      obtain rfl : parts = other := by simpa [tupleSubsumes] using h
      exact hchild
    | any | prefixed _ => simp [tupleSubsumes] at h
  | prefixed parts =>
    cases child with
    | any => simp [tupleSubsumes] at h
    | exact other =>
      obtain rfl : other = tuple := by simpa [tupleMatches] using hchild
      exact h
    | prefixed other =>
      simp only [tupleSubsumes, tupleMatches, List.isPrefixOf_iff_prefix] at h hchild ⊢
      exact h.trans hchild

lemma labelMatches_of_subsumes {parent child : LabelMatcherV1} {value : Option String}
    (h : labelSubsumes parent (some child) = true) (hchild : labelMatches child value = true) :
    labelMatches parent value = true := by
  cases parent <;> cases child <;> cases value <;> simp_all [labelSubsumes, labelMatches]
  exact h _ hchild

/-- What the child matches, the parent matches. -/
lemma selectorMatches_of_subsumes {parent child : KeyspaceSelectorV1} {secret : SecretSelectorV1}
    (h : selectorSubsumes parent child = true) (hchild : selectorMatches child secret = true) :
    selectorMatches parent secret = true := by
  simp only [selectorSubsumes, selectorMatches, Bool.and_eq_true, labelsSubsume,
    List.all_eq_true] at h hchild ⊢
  refine ⟨tupleMatches_of_subsumes h.1 hchild.1, fun label hlabel => ?_⟩
  have hsubsumes := h.2 label hlabel
  cases hfind : child.labels.find? (·.key == label.key) with
  | none => simp [childLabelMatcher, hfind, labelSubsumes] at hsubsumes
  | some inner =>
    have hkey : inner.key = label.key := by simpa using List.find?_some hfind
    have hinner := hchild.2 inner (List.mem_of_find?_eq_some hfind)
    rw [hkey] at hinner
    rw [childLabelMatcher, hfind, Option.map_some] at hsubsumes
    exact labelMatches_of_subsumes hsubsumes hinner

/-! ### What a manage grant can hand out -/

/-- Whether holding `manage` alone suffices to create `permission`. -/
def ManageKeyspaceGrantV1.covers (manage : ManageKeyspaceGrantV1) :
    GrantPermissionV1 → Bool
  | .readKeyspace selector =>
    hasGrantable manage.grantable .read && selectorSubsumes manage.selector selector
  | .writeKeyspace selector =>
    hasGrantable manage.grantable .write && selectorSubsumes manage.selector selector
  | .manageKeyspace target =>
    hasGrantable manage.grantable .manage && selectorSubsumes manage.selector target.selector &&
      grantableSubset target.grantable manage.grantable
  | .administer => false

lemma hasGrantable_of_subset {child parent : List KeyspaceGrantClassV1} {cls : KeyspaceGrantClassV1}
    (h : grantableSubset child parent = true) (hc : hasGrantable child cls = true) :
    hasGrantable parent cls = true := by
  simp only [grantableSubset, List.all_eq_true] at h
  exact h cls (by simpa [hasGrantable] using hc)

/-- What a delegated manage grant covers was covered before the delegation. -/
lemma ManageKeyspaceGrantV1.covers_trans {a b : ManageKeyspaceGrantV1} {p : GrantPermissionV1}
    (hab : a.covers (.manageKeyspace b) = true) (hbp : b.covers p = true) : a.covers p = true := by
  simp only [covers, Bool.and_eq_true] at hab
  obtain ⟨⟨_, hsel⟩, hsub⟩ := hab
  cases p with
  | readKeyspace s =>
    simp only [covers, Bool.and_eq_true] at hbp ⊢
    exact ⟨hasGrantable_of_subset hsub hbp.1, selectorSubsumes_trans hsel hbp.2⟩
  | writeKeyspace s =>
    simp only [covers, Bool.and_eq_true] at hbp ⊢
    exact ⟨hasGrantable_of_subset hsub hbp.1, selectorSubsumes_trans hsel hbp.2⟩
  | manageKeyspace t =>
    simp only [covers, Bool.and_eq_true] at hbp ⊢
    refine ⟨⟨hasGrantable_of_subset hsub hbp.1.1, selectorSubsumes_trans hsel hbp.1.2⟩, ?_⟩
    simp only [grantableSubset, List.all_eq_true] at hbp ⊢
    exact fun cls hcls => hasGrantable_of_subset hsub (hbp.2 cls hcls)
  | administer => simp [covers] at hbp

/-! ### Authority as a set of permissions -/

section PushUnique

variable {α : Type} [DecidableEq α]

@[simp] lemma mem_pushUnique {items : List α} {item a : α} :
    a ∈ (pushUnique items item).1 ↔ a ∈ items ∨ a = item := by
  unfold pushUnique
  split_ifs with h
  · simp only [iff_self_or]
    rintro rfl
    exact h
  · simp

lemma pushUnique_changed {items : List α} {item : α} :
    (pushUnique items item).2 = true ↔ item ∉ items := by
  unfold pushUnique
  split_ifs with h <;> simp [h]

/-- The running state of `pushAll`. -/
lemma pushAll_cons (items others : List α) (item : α) :
    pushAll items (item :: others) =
      ((pushAll (pushUnique items item).1 others).1,
        (pushUnique items item).2 || (pushAll (pushUnique items item).1 others).2) := by
  have hflag : ∀ (l others : List α) (c : Bool),
      others.foldl (fun acc item =>
        ((pushUnique acc.1 item).1, acc.2 || (pushUnique acc.1 item).2)) (l, c) =
      ((pushAll l others).1, c || (pushAll l others).2) := by
    intro l others
    induction others generalizing l with
    | nil => simp [pushAll]
    | cons a others ih =>
      intro c
      simp only [pushAll, List.foldl_cons, Bool.false_or]
      rw [ih, ih (pushUnique l a).1 (pushUnique l a).2]
      simp [Bool.or_assoc]
  rw [show pushAll items (item :: others) = others.foldl (fun acc item =>
    ((pushUnique acc.1 item).1, acc.2 || (pushUnique acc.1 item).2))
      ((pushUnique items item).1, (pushUnique items item).2) by simp [pushAll], hflag]

@[simp] lemma mem_pushAll {items others : List α} {a : α} :
    a ∈ (pushAll items others).1 ↔ a ∈ items ∨ a ∈ others := by
  induction others generalizing items with
  | nil => simp [pushAll]
  | cons b others ih =>
    rw [pushAll_cons]
    simp only [ih, mem_pushUnique, List.mem_cons]
    tauto

/-- Nothing new was pushed exactly when everything was there. -/
lemma pushAll_unchanged {items others : List α} :
    (pushAll items others).2 = false ↔ ∀ a ∈ others, a ∈ items := by
  induction others generalizing items with
  | nil => simp [pushAll]
  | cons b others ih =>
    rw [pushAll_cons]
    simp only [Bool.or_eq_false_iff, List.mem_cons, forall_eq_or_imp, ih]
    rw [← Bool.not_eq_true, pushUnique_changed, not_not]
    constructor
    · rintro ⟨hb, hall⟩
      refine ⟨hb, fun a ha => ?_⟩
      rcases mem_pushUnique.mp (hall a ha) with h | rfl
      · exact h
      · exact hb
    · rintro ⟨hb, hall⟩
      exact ⟨hb, fun a ha => mem_pushUnique.mpr (Or.inl (hall a ha))⟩

end PushUnique

namespace AuthoritySet

/-- `self` confers `permission`. -/
def Holds (self : AuthoritySet) (permission : GrantPermissionV1) : Prop :=
  permission ∈ self.asGrantPermissions

lemma holds_read {self : AuthoritySet} {s : KeyspaceSelectorV1} :
    self.Holds (.readKeyspace s) ↔ s ∈ self.read := by
  simp only [Holds, asGrantPermissions]
  cases self.administer <;> simp

lemma holds_write {self : AuthoritySet} {s : KeyspaceSelectorV1} :
    self.Holds (.writeKeyspace s) ↔ s ∈ self.write := by
  simp only [Holds, asGrantPermissions]
  cases self.administer <;> simp

lemma holds_manage {self : AuthoritySet} {m : ManageKeyspaceGrantV1} :
    self.Holds (.manageKeyspace m) ↔ m ∈ self.manage := by
  simp only [Holds, asGrantPermissions]
  cases self.administer <;> simp

lemma holds_administer {self : AuthoritySet} :
    self.Holds .administer ↔ self.administer = true := by
  simp only [Holds, asGrantPermissions]
  cases self.administer <;> simp

@[simp] lemma not_holds_empty (p : GrantPermissionV1) : ¬ AuthoritySet.empty.Holds p := by
  simp [Holds, asGrantPermissions, AuthoritySet.empty]

lemma holds_addPermission {self : AuthoritySet} {p q : GrantPermissionV1} :
    (self.addPermission q).Holds p ↔ self.Holds p ∨ p = q := by
  cases p <;> cases q <;>
    simp [addPermission, holds_read, holds_write, holds_manage, holds_administer]

lemma holds_mergeFrom {self other : AuthoritySet} {p : GrantPermissionV1} :
    (self.mergeFrom other).1.Holds p ↔ self.Holds p ∨ other.Holds p := by
  cases p <;> simp [mergeFrom, holds_read, holds_write, holds_manage, holds_administer]

/-- A merge reports no change exactly when there was nothing to add. -/
lemma mergeFrom_unchanged {self other : AuthoritySet} :
    (self.mergeFrom other).2 = false ↔ ∀ p, other.Holds p → self.Holds p := by
  simp only [mergeFrom, Bool.or_eq_false_iff, pushAll_unchanged]
  constructor
  · rintro ⟨⟨⟨hr, hw⟩, hm⟩, ha⟩ p hp
    cases p with
    | readKeyspace s => exact holds_read.mpr (hr s (holds_read.mp hp))
    | writeKeyspace s => exact holds_write.mpr (hw s (holds_write.mp hp))
    | manageKeyspace m => exact holds_manage.mpr (hm m (holds_manage.mp hp))
    | administer =>
      rw [holds_administer] at hp ⊢
      simpa [hp] using ha
  · intro h
    refine ⟨⟨⟨fun s hs => ?_, fun s hs => ?_⟩, fun m hm => ?_⟩, ?_⟩
    · exact holds_read.mp (h _ (holds_read.mpr hs))
    · exact holds_write.mp (h _ (holds_write.mpr hs))
    · exact holds_manage.mp (h _ (holds_manage.mpr hm))
    · cases ho : other.administer with
      | false => rfl
      | true => simp [holds_administer.mp (h _ (holds_administer.mpr ho))]

/-- Creating a permission takes administer, or one manage grant that covers it. -/
lemma canCreatePermission_iff {self : AuthoritySet} {p : GrantPermissionV1} :
    self.canCreatePermission p = true ↔
      self.Holds .administer ∨ ∃ m, self.Holds (.manageKeyspace m) ∧ m.covers p = true := by
  simp only [holds_administer, holds_manage]
  unfold canCreatePermission
  split_ifs with hadm
  · simp [hadm]
  · simp only [hadm, Bool.false_eq_true, false_or]
    cases p with
    | readKeyspace s =>
      simp only [Bool.and_eq_true, List.any_eq_true, ManageKeyspaceGrantV1.covers,
        and_iff_right_iff_imp, forall_exists_index, and_imp]
      intro m hm _ hsel
      simp only [holdsReadOver, Bool.or_eq_true, List.any_eq_true]
      exact Or.inr ⟨m, hm, hsel⟩
    | writeKeyspace s =>
      simp only [Bool.and_eq_true, List.any_eq_true, ManageKeyspaceGrantV1.covers,
        and_iff_right_iff_imp, forall_exists_index, and_imp]
      intro m hm _ hsel
      simp only [holdsWriteOver, Bool.or_eq_true, List.any_eq_true]
      exact Or.inr ⟨m, hm, hsel⟩
    | manageKeyspace t =>
      simp [ManageKeyspaceGrantV1.covers, and_assoc]
    | administer => simp [ManageKeyspaceGrantV1.covers]

lemma canWrite_iff {self : AuthoritySet} {s : SecretSelectorV1} :
    self.canWrite s = true ↔ self.Holds .administer ∨
      (∃ k, self.Holds (.writeKeyspace k) ∧ selectorMatches k s = true) ∨
      ∃ m, self.Holds (.manageKeyspace m) ∧ selectorMatches m.selector s = true := by
  simp [canWrite, holds_administer, holds_write, holds_manage, or_assoc]

lemma canCreatePermission_mono {a b : AuthoritySet} (h : ∀ p, a.Holds p → b.Holds p)
    {p : GrantPermissionV1} (ha : a.canCreatePermission p = true) :
    b.canCreatePermission p = true := by
  rw [canCreatePermission_iff] at ha ⊢
  rcases ha with ha | ⟨m, hm, hcov⟩
  · exact Or.inl (h _ ha)
  · exact Or.inr ⟨m, h _ hm, hcov⟩

lemma canWrite_mono {a b : AuthoritySet} (h : ∀ p, a.Holds p → b.Holds p)
    {s : SecretSelectorV1} (ha : a.canWrite s = true) : b.canWrite s = true := by
  rw [canWrite_iff] at ha ⊢
  rcases ha with ha | ⟨k, hk, hs⟩ | ⟨m, hm, hs⟩
  · exact Or.inl (h _ ha)
  · exact Or.inr (Or.inl ⟨k, h _ hk, hs⟩)
  · exact Or.inr (Or.inr ⟨m, h _ hm, hs⟩)

lemma administer_mono {a b : AuthoritySet} (h : ∀ p, a.Holds p → b.Holds p)
    (ha : a.administer = true) : b.administer = true :=
  holds_administer.mp (h _ (holds_administer.mpr ha))

/-- Whoever can create a manage grant can create everything that grant covers. -/
lemma canCreatePermission_of_covers {a : AuthoritySet} {m : ManageKeyspaceGrantV1}
    {p : GrantPermissionV1} (hm : a.canCreatePermission (.manageKeyspace m) = true)
    (hp : m.covers p = true) : a.canCreatePermission p = true := by
  rw [canCreatePermission_iff] at hm ⊢
  rcases hm with hadm | ⟨n, hn, hcov⟩
  · exact Or.inl hadm
  · exact Or.inr ⟨n, hn, ManageKeyspaceGrantV1.covers_trans hcov hp⟩

end AuthoritySet

/-! ### What a permission is good for -/

namespace GrantPermissionV1

/-- Whether a permission alone suffices to read a secret. -/
def reads (secret : SecretSelectorV1) : GrantPermissionV1 → Bool
  | .readKeyspace selector | .writeKeyspace selector => selectorMatches selector secret
  | .manageKeyspace manage => selectorMatches manage.selector secret
  | .administer => true

def writes (secret : SecretSelectorV1) : GrantPermissionV1 → Bool
  | .readKeyspace _ => false
  | .writeKeyspace selector => selectorMatches selector secret
  | .manageKeyspace manage => selectorMatches manage.selector secret
  | .administer => true

def manages (secret : SecretSelectorV1) : GrantPermissionV1 → Bool
  | .readKeyspace _ | .writeKeyspace _ => false
  | .manageKeyspace manage => selectorMatches manage.selector secret
  | .administer => true

/-- Whether a permission alone suffices to create another. -/
def creates (permission : GrantPermissionV1) : GrantPermissionV1 → Bool
  | .readKeyspace _ | .writeKeyspace _ => false
  | .manageKeyspace manage => manage.covers permission
  | .administer => true

/-- A use that a permission only has where whatever creates the permission has it too. -/
def Inherited (use : GrantPermissionV1 → Bool) : Prop :=
  ∀ {p q : GrantPermissionV1}, p.creates q = true → use p = true → use q = true

/-- What a manage grant covers matches no more secrets than the grant itself. -/
lemma selectorMatches_of_covers {manage : ManageKeyspaceGrantV1} {p : GrantPermissionV1}
    {secret : SecretSelectorV1} (hcovers : manage.covers p = true)
    (hreads : p.reads secret = true) : selectorMatches manage.selector secret = true := by
  cases p with
  | readKeyspace selector | writeKeyspace selector =>
    simp only [ManageKeyspaceGrantV1.covers, Bool.and_eq_true] at hcovers
    exact selectorMatches_of_subsumes hcovers.2 hreads
  | manageKeyspace target =>
    simp only [ManageKeyspaceGrantV1.covers, Bool.and_eq_true] at hcovers
    exact selectorMatches_of_subsumes hcovers.1.2 hreads
  | administer => simp [ManageKeyspaceGrantV1.covers] at hcovers

lemma reads_of_writes {p : GrantPermissionV1} {secret : SecretSelectorV1}
    (h : p.writes secret = true) : p.reads secret = true := by
  cases p with
  | readKeyspace selector => simp [writes] at h
  | writeKeyspace _ | manageKeyspace _ | administer => exact h

lemma writes_of_manages {p : GrantPermissionV1} {secret : SecretSelectorV1}
    (h : p.manages secret = true) : p.writes secret = true := by
  cases p with
  | readKeyspace _ | writeKeyspace _ => simp [manages] at h
  | manageKeyspace _ | administer => exact h

lemma inherited_reads (secret : SecretSelectorV1) : Inherited (reads secret) := by
  intro p q hcreates hp
  cases q with
  | readKeyspace _ | writeKeyspace _ => simp [creates] at hcreates
  | manageKeyspace manage => exact selectorMatches_of_covers hcreates hp
  | administer => rfl

lemma inherited_writes (secret : SecretSelectorV1) : Inherited (writes secret) := by
  intro p q hcreates hp
  cases q with
  | readKeyspace _ | writeKeyspace _ => simp [creates] at hcreates
  | manageKeyspace manage => exact selectorMatches_of_covers hcreates (reads_of_writes hp)
  | administer => rfl

lemma inherited_manages (secret : SecretSelectorV1) : Inherited (manages secret) := by
  intro p q hcreates hp
  cases q with
  | readKeyspace _ | writeKeyspace _ => simp [creates] at hcreates
  | manageKeyspace manage =>
    exact selectorMatches_of_covers hcreates (reads_of_writes (writes_of_manages hp))
  | administer => rfl

lemma inherited_creates (permission : GrantPermissionV1) : Inherited (creates permission) := by
  intro p q hcreates hp
  cases q with
  | readKeyspace _ | writeKeyspace _ => simp [creates] at hcreates
  | manageKeyspace manage =>
    cases p with
    | readKeyspace _ | writeKeyspace _ => simp [creates] at hp
    | manageKeyspace target => exact ManageKeyspaceGrantV1.covers_trans hcreates hp
    | administer => simp [creates, ManageKeyspaceGrantV1.covers] at hcreates
  | administer => rfl

end GrantPermissionV1

namespace AuthoritySet

/-- Some permission of the set is good for the use. -/
def Confers (self : AuthoritySet) (use : GrantPermissionV1 → Bool) : Prop :=
  ∃ p, self.Holds p ∧ use p = true

variable {self : AuthoritySet}

lemma canRead_iff_confers {secret : SecretSelectorV1} :
    self.canRead secret = true ↔ self.Confers (GrantPermissionV1.reads secret) := by
  simp only [canRead, Bool.or_eq_true, List.any_eq_true, Confers]
  constructor
  · rintro (((hadm | ⟨s, hs, hm⟩) | ⟨s, hs, hm⟩) | ⟨m, hmem, hm⟩)
    · exact ⟨.administer, holds_administer.mpr hadm, rfl⟩
    · exact ⟨.readKeyspace s, holds_read.mpr hs, hm⟩
    · exact ⟨.writeKeyspace s, holds_write.mpr hs, hm⟩
    · exact ⟨.manageKeyspace m, holds_manage.mpr hmem, hm⟩
  · rintro ⟨p, hp, huse⟩
    cases p with
    | readKeyspace s => exact Or.inl (Or.inl (Or.inr ⟨s, holds_read.mp hp, huse⟩))
    | writeKeyspace s => exact Or.inl (Or.inr ⟨s, holds_write.mp hp, huse⟩)
    | manageKeyspace m => exact Or.inr ⟨m, holds_manage.mp hp, huse⟩
    | administer => exact Or.inl (Or.inl (Or.inl (holds_administer.mp hp)))

lemma canWrite_iff_confers {secret : SecretSelectorV1} :
    self.canWrite secret = true ↔ self.Confers (GrantPermissionV1.writes secret) := by
  simp only [canWrite, Bool.or_eq_true, List.any_eq_true, Confers]
  constructor
  · rintro ((hadm | ⟨s, hs, hm⟩) | ⟨m, hmem, hm⟩)
    · exact ⟨.administer, holds_administer.mpr hadm, rfl⟩
    · exact ⟨.writeKeyspace s, holds_write.mpr hs, hm⟩
    · exact ⟨.manageKeyspace m, holds_manage.mpr hmem, hm⟩
  · rintro ⟨p, hp, huse⟩
    cases p with
    | readKeyspace s => simp [GrantPermissionV1.writes] at huse
    | writeKeyspace s => exact Or.inl (Or.inr ⟨s, holds_write.mp hp, huse⟩)
    | manageKeyspace m => exact Or.inr ⟨m, holds_manage.mp hp, huse⟩
    | administer => exact Or.inl (Or.inl (holds_administer.mp hp))

lemma canManage_iff_confers {secret : SecretSelectorV1} :
    self.canManage secret = true ↔ self.Confers (GrantPermissionV1.manages secret) := by
  simp only [canManage, Bool.or_eq_true, List.any_eq_true, Confers]
  constructor
  · rintro (hadm | ⟨m, hmem, hm⟩)
    · exact ⟨.administer, holds_administer.mpr hadm, rfl⟩
    · exact ⟨.manageKeyspace m, holds_manage.mpr hmem, hm⟩
  · rintro ⟨p, hp, huse⟩
    cases p with
    | readKeyspace s | writeKeyspace s => simp [GrantPermissionV1.manages] at huse
    | manageKeyspace m => exact Or.inr ⟨m, holds_manage.mp hp, huse⟩
    | administer => exact Or.inl (holds_administer.mp hp)

lemma canCreatePermission_iff_confers {permission : GrantPermissionV1} :
    self.canCreatePermission permission = true ↔
      self.Confers (GrantPermissionV1.creates permission) := by
  rw [canCreatePermission_iff]
  constructor
  · rintro (hadm | ⟨m, hm, hcovers⟩)
    · exact ⟨.administer, hadm, rfl⟩
    · exact ⟨.manageKeyspace m, hm, hcovers⟩
  · rintro ⟨p, hp, huse⟩
    cases p with
    | readKeyspace s | writeKeyspace s => simp [GrantPermissionV1.creates] at huse
    | manageKeyspace m => exact Or.inr ⟨m, hp, huse⟩
    | administer => exact Or.inl hp

@[simp] lemma not_confers_empty (use : GrantPermissionV1 → Bool) :
    ¬ AuthoritySet.empty.Confers use := by
  rintro ⟨p, hp, -⟩
  exact not_holds_empty p hp

lemma confers_mergeFrom {other : AuthoritySet} {use : GrantPermissionV1 → Bool} :
    (self.mergeFrom other).1.Confers use ↔ self.Confers use ∨ other.Confers use := by
  simp only [Confers, holds_mergeFrom]
  constructor
  · rintro ⟨p, hp | hp, huse⟩
    · exact Or.inl ⟨p, hp, huse⟩
    · exact Or.inr ⟨p, hp, huse⟩
  · rintro (⟨p, hp, huse⟩ | ⟨p, hp, huse⟩)
    · exact ⟨p, Or.inl hp, huse⟩
    · exact ⟨p, Or.inr hp, huse⟩

lemma confers_addPermission {p : GrantPermissionV1} {use : GrantPermissionV1 → Bool} :
    (self.addPermission p).Confers use ↔ self.Confers use ∨ use p = true := by
  simp only [Confers, holds_addPermission]
  constructor
  · rintro ⟨q, hq | rfl, huse⟩
    · exact Or.inl ⟨q, hq, huse⟩
    · exact Or.inr huse
  · rintro (⟨q, hq, huse⟩ | huse)
    · exact ⟨q, Or.inl hq, huse⟩
    · exact ⟨p, Or.inr rfl, huse⟩

/-- Whoever can create a permission already has what it is good for. -/
lemma confers_of_canCreatePermission {p : GrantPermissionV1} {use : GrantPermissionV1 → Bool}
    (huse : GrantPermissionV1.Inherited use) (h : self.canCreatePermission p = true)
    (hp : use p = true) : self.Confers use := by
  obtain ⟨q, hq, hcreates⟩ := canCreatePermission_iff_confers.mp h
  exact ⟨q, hq, huse hcreates hp⟩

end AuthoritySet

end Thorax
