import Thorax.Library.Lines
import Thorax.Frontend.GrantArguments
import Thorax.Properties.SelectorQueries
import Thorax.TestSupport

/-!
# What a grant covers

The labels of a keyspace on the command line are read and dropped, the form of the terminal
interface splits a segment at its slashes, and neither the labels nor the kind of the whole vault
are printed. Elsewhere a grant covers what was named.
-/

namespace Thorax

open Collections Quoted Durable

/-! ### The command line -/

section CommandLine

variable {value : String} {exact : Bool} {grant : KeyspaceSelectorV1}

/-- A grant that covers the secrets that a text names, and no others. -/
def CoversNamed (value : String) (exact : Bool) (grant : KeyspaceSelectorV1) : Prop :=
  ∀ secret, validateSecretSelector secret = .ok () →
    (selectorMatches grant secret = true ↔ value ∈ wholeVault ∨
      ∃ named, parseSecretSelector value = .ok named ∧
        (if exact then secret.tuple = named.tuple else named.tuple <+: secret.tuple) ∧
          ∀ label ∈ named.labels, label ∈ secret.labels)

lemma labels_eq_nil_iff {named : SecretSelectorV1} (h : parseSecretSelector value = .ok named) :
    named.labels = [] ↔ labelTerms value = [] := by
  simp only [parseSecretSelector, bind_eq_ok] at h
  obtain ⟨tuple, -, labels, hlabels, h⟩ := h
  split_ifs at h
  cases h
  have hlength : labels.length = (labelTerms value).length := (mapM_eq_ok.mp hlabels).length_eq.symm
  rw [← List.length_eq_zero_iff, (sortBy_perm compareSecretLabels labels).length_eq, hlength,
    List.length_eq_zero_iff]

lemma selectorMatches_all (secret : SecretSelectorV1) : selectorMatches .all secret = true := rfl

/-- A keyspace without labels asks for the tuple only. -/
lemma selectorMatches_tuple {named secret : SecretSelectorV1} (hnamed : named.tuple ≠ []) :
    selectorMatches (if exact then .exact named.tuple else .withPrefix named.tuple) secret = true ↔
      if exact then secret.tuple = named.tuple else named.tuple <+: secret.tuple := by
  cases exact with
  | true =>
    simp only [selectorMatches, KeyspaceSelectorV1.exact, tupleMatches, if_true, List.all_nil,
      Bool.and_true, beq_iff_eq]
    exact eq_comm
  | false =>
    simp [selectorMatches, KeyspaceSelectorV1.withPrefix, hnamed, tupleMatches,
      List.isPrefixOf_iff_prefix]

/-- A keyspace of the command line covers what it names exactly if it names no labels. -/
lemma coversNamed_iff (h : parseKeyspaceSelector value exact = .ok grant) :
    CoversNamed value exact grant ↔ labelTerms value = [] := by
  rw [parseKeyspaceSelector] at h
  by_cases hwhole : value ∈ wholeVault
  · rw [if_pos hwhole] at h
    obtain rfl := Except.ok.inj h
    have hplain : ∀ spelling ∈ wholeVault, labelTerms spelling = [] := by decide
    exact ⟨fun _ => hplain value hwhole, fun _ secret _ =>
      ⟨fun _ => Or.inl hwhole, fun _ => selectorMatches_all secret⟩⟩
  · rw [if_neg hwhole] at h
    obtain ⟨named, hread, heq⟩ := bind_eq_ok.mp h
    have hspellable := spellable_of_parse hread
    have hgrant : grant = if exact then .exact named.tuple else .withPrefix named.tuple := by
      split_ifs at heq ⊢ <;> exact (Except.ok.inj heq).symm
    rw [← labels_eq_nil_iff hread, hgrant]
    simp only [CoversNamed, selectorMatches_tuple hspellable.named, hwhole, false_or, hread,
      Except.ok.injEq, exists_eq_left']
    constructor
    · intro hcovers
      -- the secret of the tuple without labels is covered
      have htuple : if exact then named.tuple = named.tuple else named.tuple <+: named.tuple := by
        split_ifs
        · rfl
        · exact List.prefix_rfl
      obtain ⟨-, hlabels⟩ := (hcovers ⟨named.tuple, []⟩ rfl).mp htuple
      exact List.eq_nil_iff_forall_not_mem.mpr fun label hlabel =>
        List.not_mem_nil (hlabels label hlabel)
    · rintro hnil secret -
      simp [hnil]

end CommandLine

/-! ### The terminal interface -/

section Form

variable {path : List String}

/-- The form reads its first keyspace back exactly if no segment is empty or has a slash in it. -/
lemma tuple_prefill_iff {form : GrantForm} (hform : form.keyspace = GrantForm.prefill path) :
    form.tuple = path ↔ ∀ segment ∈ path, segment ≠ "" ∧ '/' ∉ segment.toList := by
  rw [GrantForm.tuple, hform, GrantForm.prefill, String.toList_ofList]
  constructor
  · intro htuple segment hsegment
    rw [← htuple] at hsegment
    obtain ⟨part, hpart, rfl⟩ := List.mem_map.mp hsegment
    obtain ⟨hsplit, hne⟩ := List.mem_filter.mp hpart
    rw [String.toList_ofList]
    exact ⟨by simpa [String.ofList_eq_empty_iff] using hne, Lines.not_mem_of_mem_splitOn hsplit⟩
  · intro hpath
    cases path with
    | nil => rfl
    | cons segment path =>
      have hsplit : List.splitOn '/' (List.intercalate ['/'] ((segment :: path).map String.toList)) =
          (segment :: path).map String.toList := by
        refine List.splitOn_intercalate '/' ?_ (by simp)
        intro part hpart
        obtain ⟨segment, hsegment, rfl⟩ := List.mem_map.mp hpart
        exact (hpath segment hsegment).2
      have hkept : ((segment :: path).map String.toList).filter (· ≠ []) =
          (segment :: path).map String.toList := by
        rw [List.filter_eq_self]
        intro part hpart
        obtain ⟨segment, hsegment, rfl⟩ := List.mem_map.mp hpart
        simpa [String.toList_eq_nil_iff] using (hpath segment hsegment).1
      rw [hsplit, hkept, List.map_map]
      simp

/-- The keyspace of a permission. -/
def GrantPermissionV1.keyspace : GrantPermissionV1 → Option KeyspaceSelectorV1
  | .readKeyspace selector => some selector
  | .writeKeyspace selector => some selector
  | .manageKeyspace manage => some manage.selector
  | .administer => none

/-- The class of access makes no difference to the keyspace. -/
lemma build_keyspace {form : GrantForm} {selector : KeyspaceSelectorV1}
    (hsubject : form.subjectIdx < form.subjects.length) (hclass : form.classIdx < 3) :
    (∃ built, form.build = .ok built ∧ built.2.keyspace = some selector) ↔
      form.selector = .ok selector := by
  rw [GrantForm.build, List.getElem?_eq_getElem hsubject]
  cases hselector : form.selector with
  | error e =>
    match hidx : form.classIdx with
    | 0 | 1 | 2 => simp [bind, Except.bind]
    | idx + 3 => omega
  | ok found =>
    match hidx : form.classIdx with
    | 0 | 1 | 2 => simp [bind, Except.bind, GrantPermissionV1.keyspace]
    | idx + 3 => omega

lemma selector_eq_ok {form : GrantForm} : (∃ selector, form.selector = .ok selector ∧
    selector.tuple = .prefixed path) ↔ form.tuple = path ∧ path ≠ [] := by
  rw [GrantForm.selector]
  split_ifs with hempty
  · rw [hempty]
    simp only [false_and, exists_false, false_iff]
    rintro ⟨rfl, hne⟩
    exact hne rfl
  · simp only [Except.ok.injEq, exists_eq_left', TupleMatcherV1.prefixed.injEq, iff_self_and]
    rintro rfl
    exact hempty

/-- The first keyspace of the form, unedited, is the prefix of what is selected exactly if that is
not the empty tuple and no segment of it is empty or has a slash in it. -/
lemma prefilled_iff {form : GrantForm} (hsubject : form.subjectIdx < form.subjects.length)
    (hclass : form.classIdx < 3) (hform : form.keyspace = GrantForm.prefill path) :
    (∃ built selector, form.build = .ok built ∧ built.2.keyspace = some selector ∧
      selector.tuple = .prefixed path) ↔
        path ≠ [] ∧ ∀ segment ∈ path, segment ≠ "" ∧ '/' ∉ segment.toList := by
  rw [← tuple_prefill_iff hform, and_comm, ← selector_eq_ok]
  constructor
  · rintro ⟨built, selector, hbuild, hkeyspace, htuple⟩
    exact ⟨selector, (build_keyspace hsubject hclass).mp ⟨built, hbuild, hkeyspace⟩, htuple⟩
  · rintro ⟨selector, hselector, htuple⟩
    obtain ⟨built, hbuild, hkeyspace⟩ := (build_keyspace hsubject hclass).mpr hselector
    exact ⟨built, selector, hbuild, hkeyspace, htuple⟩

end Form

/-! ### Printed keyspaces -/

section Printed

variable {a b : KeyspaceSelectorV1}

/-- Two keyspaces match the same secrets. -/
def SameMatches (a b : KeyspaceSelectorV1) : Prop :=
  ∀ secret, validateSecretSelector secret = .ok () →
    selectorMatches a secret = selectorMatches b secret

/-- Two keyspaces ask for the same tuples. -/
def SameTuples (a b : KeyspaceSelectorV1) : Prop :=
  ∀ tuple, tupleMatches a.tuple tuple = tupleMatches b.tuple tuple

def labelsMatch (grant : KeyspaceSelectorV1) (secret : SecretSelectorV1) : Bool :=
  grant.labels.all fun label => labelMatches label.matcher (secretLabelValue secret label.key)

/-- Two keyspaces ask for the same labels. -/
def SameLabels (a b : KeyspaceSelectorV1) : Prop :=
  ∀ secret, validateSecretSelector secret = .ok () → labelsMatch a secret = labelsMatch b secret

lemma escapeTuple_injective : Function.Injective escapeTuple := by
  have hnil : ∀ {tuple : List String}, escapeTuple tuple = [] → tuple = [] :=
    not_imp_not.mp escapeTuple_ne_nil
  intro tuple other h
  by_cases htuple : tuple = []
  · subst htuple
    exact (hnil h.symm).symm
  · by_cases hother : other = []
    · subst hother
      exact hnil h
    · exact (escapeTuple_inj htuple hother).mp h

/-- The empty prefix is the whole vault. -/
def canonicalTuple : TupleMatcherV1 → TupleMatcherV1
  | .prefixed [] => .any
  | matcher => matcher

lemma keyspaceText_canonical (matcher : TupleMatcherV1) :
    keyspaceText (canonicalTuple matcher) = keyspaceText matcher := by
  rw [canonicalTuple.eq_def]
  split <;> rfl

lemma tupleMatches_canonical (matcher : TupleMatcherV1) (tuple : List String) :
    tupleMatches (canonicalTuple matcher) tuple = tupleMatches matcher tuple := by
  rw [canonicalTuple.eq_def]
  split <;> rfl

lemma canonicalTuple_ne (matcher : TupleMatcherV1) : canonicalTuple matcher ≠ .prefixed [] := by
  rw [canonicalTuple.eq_def]
  split
  · exact TupleMatcherV1.noConfusion
  next h => exact h

lemma keyspaceText_prefixed {parts : List String} (h : parts ≠ []) :
    keyspaceText (.prefixed parts) = escapeTuple parts ++ ['/', '*'] := by
  obtain ⟨segment, rest, rfl⟩ := List.exists_cons_of_ne_nil h
  rfl

lemma escapeTuple_append_ne {parts : List String} {text rest : List Char} {c : Char}
    (h : parts ≠ []) (hc : c ∈ structuralChars) (hquote : c ≠ '"') :
    escapeTuple parts ++ text ≠ c :: rest := by
  obtain ⟨segment, others, rfl⟩ := List.exists_cons_of_ne_nil h
  cases others with
  | nil =>
    rw [escapeTuple, List.map_singleton, List.intercalate_singleton]
    exact escapeSegment_append_ne hc hquote
  | cons other others =>
    rw [escapeTuple, List.map_cons, List.map_cons, List.intercalate_cons_cons, List.append_assoc,
      List.append_assoc]
    exact escapeSegment_append_ne hc hquote

/-- Apart from the empty prefix, different tuple matchers are printed differently. -/
lemma keyspaceText_inj {m n : TupleMatcherV1} (hm : m ≠ .prefixed []) (hn : n ≠ .prefixed []) :
    keyspaceText m = keyspaceText n ↔ m = n := by
  have hlength : ∀ {parts : List String}, parts ≠ [] →
      keyspaceText (.prefixed parts) ≠ keyspaceText .any := by
    intro parts hparts heq
    rw [keyspaceText_prefixed hparts] at heq
    have hlength := congrArg List.length heq
    simp [keyspaceText] at hlength
  have hexact : ∀ {parts others : List String}, parts ≠ [] →
      keyspaceText (.prefixed parts) ≠ keyspaceText (.exact others) := by
    intro parts others hparts
    rw [keyspaceText_prefixed hparts]
    exact escapeTuple_append_ne hparts (by decide) (by decide)
  refine ⟨fun heq => ?_, fun heq => by rw [heq]⟩
  cases m with
  | any =>
    cases n with
    | any => rfl
    | exact others => simp [keyspaceText] at heq
    | prefixed others => exact absurd heq.symm (hlength (by simpa using hn))
  | exact parts =>
    cases n with
    | any => simp [keyspaceText] at heq
    | exact others => exact congrArg _ (escapeTuple_injective (List.cons.inj heq).2)
    | prefixed others => exact absurd heq.symm (hexact (by simpa using hn))
  | prefixed parts =>
    have hparts : parts ≠ [] := by simpa using hm
    cases n with
    | any => exact absurd heq (hlength hparts)
    | exact others => exact absurd heq (hexact hparts)
    | prefixed others =>
      have hothers : others ≠ [] := by simpa using hn
      rw [keyspaceText_prefixed hparts, keyspaceText_prefixed hothers] at heq
      exact congrArg _ (escapeTuple_injective (List.append_cancel_right heq))

/-- Subsumption either way is equality. -/
lemma eq_of_tupleSubsumes {m n : TupleMatcherV1} (h : tupleSubsumes m n = true)
    (h' : tupleSubsumes n m = true) : m = n := by
  cases m with
  | any => cases n <;> simp_all [tupleSubsumes]
  | exact parts => cases n <;> simp_all [tupleSubsumes]
  | prefixed parts =>
    cases n with
    | any => simp [tupleSubsumes] at h
    | exact others => simp [tupleSubsumes] at h'
    | prefixed others =>
      simp only [tupleSubsumes, List.isPrefixOf_iff_prefix] at h h'
      rw [h.eq_of_length_le h'.length_le]

/-- Apart from the empty prefix, different tuple matchers match different tuples. -/
lemma tupleMatches_inj {m n : TupleMatcherV1} (hm : m ≠ .prefixed []) (hn : n ≠ .prefixed [])
    (h : ∀ tuple, tupleMatches m tuple = tupleMatches n tuple) : m = n := by
  have hsubsumes : ∀ {m n : TupleMatcherV1}, m ≠ .prefixed [] →
      (∀ tuple, tupleMatches m tuple = tupleMatches n tuple) → tupleSubsumes m n = true := by
    intro m n hm hsame
    by_contra hnot
    obtain ⟨tuple, hchild, hparent⟩ :=
      exists_of_not_tupleSubsumes hm (Bool.eq_false_iff.mpr hnot)
    rw [← hsame, hparent] at hchild
    exact Bool.noConfusion hchild
  exact eq_of_tupleSubsumes (hsubsumes hm h) (hsubsumes hn fun tuple => (h tuple).symm)

/-- What is printed for a keyspace tells its tuples, and only these. -/
lemma keyspaceSelectorString_eq_iff :
    keyspaceSelectorString a = keyspaceSelectorString b ↔ SameTuples a b := by
  have hne := canonicalTuple_ne
  rw [keyspaceSelectorString, keyspaceSelectorString, String.ofList_inj,
    ← keyspaceText_canonical a.tuple, ← keyspaceText_canonical b.tuple,
    keyspaceText_inj (hne _) (hne _)]
  constructor
  · intro heq tuple
    rw [← tupleMatches_canonical a.tuple, heq, tupleMatches_canonical]
  · intro hsame
    refine tupleMatches_inj (hne _) (hne _) fun tuple => ?_
    rw [tupleMatches_canonical, tupleMatches_canonical]
    exact hsame tuple

lemma selectorMatches_eq (grant : KeyspaceSelectorV1) (secret : SecretSelectorV1) :
    selectorMatches grant secret = (tupleMatches grant.tuple secret.tuple && labelsMatch grant secret) :=
  rfl

/-- Keyspaces that ask for the same tuples match the same secrets exactly if they ask for the same
labels. -/
lemma sameMatches_iff (h : SameTuples a b) : SameMatches a b ↔ SameLabels a b := by
  constructor
  · intro hmatches secret hvalid
    obtain ⟨tuple, htuple⟩ := exists_tupleMatches a.tuple
    have hsecret := hmatches ⟨tuple, secret.labels⟩ hvalid
    rw [selectorMatches_eq, selectorMatches_eq, ← h tuple, htuple, Bool.true_and,
      Bool.true_and] at hsecret
    exact hsecret
  · intro hlabels secret hvalid
    rw [selectorMatches_eq, selectorMatches_eq, h secret.tuple, hlabels secret hvalid]

/-- Two keyspaces that match different secrets are told apart in print exactly if they ask for
different tuples, or do not differ in their labels. -/
lemma toldApart_iff : (keyspaceSelectorString a = keyspaceSelectorString b → SameMatches a b) ↔
    (SameTuples a b → SameLabels a b) := by
  rw [keyspaceSelectorString_eq_iff]
  exact forall_congr' fun h => sameMatches_iff h

end Printed

/-- A keyspace of the command line covers what it names if and only if it names no labels; the form
is right about what is selected if and only if that has no empty tuple, no empty segment and no
segment with a slash; and two keyspaces are told apart in print unless they differ in labels only. -/
theorem grants_cover_iff (value : String) (exact : Bool) (form : GrantForm) (path : List String)
    (a b : KeyspaceSelectorV1) :
    (∀ grant, parseKeyspaceSelector value exact = .ok grant →
      (CoversNamed value exact grant ↔ labelTerms value = [])) ∧
    (form.subjectIdx < form.subjects.length → form.classIdx < 3 →
      form.keyspace = GrantForm.prefill path →
        ((∃ built selector, form.build = .ok built ∧ built.2.keyspace = some selector ∧
          selector.tuple = .prefixed path) ↔
            path ≠ [] ∧ ∀ segment ∈ path, segment ≠ "" ∧ '/' ∉ segment.toList)) ∧
    ((keyspaceSelectorString a = keyspaceSelectorString b → SameMatches a b) ↔
      (SameTuples a b → SameLabels a b)) :=
  ⟨fun _ h => coversNamed_iff h, prefilled_iff, toldApart_iff⟩

theorem grants_cover_iff_app : CoversNamed "app/db" true (.exact ["app", "db"]) :=
  ((grants_cover_iff "app/db" true ⟨[], 0, 0, ""⟩ [] ⟨.any, []⟩ ⟨.any, []⟩).1 _ (by decide)).mpr
    (by decide)

/-- The labels of a keyspace are dropped, a slash in a segment is split at, and labels are not
printed. -/
theorem not_grants_cover :
    (¬ ∀ value exact grant, parseKeyspaceSelector value exact = .ok grant →
      CoversNamed value exact grant) ∧
    (¬ ∀ (form : GrantForm) path, form.subjectIdx < form.subjects.length → form.classIdx < 3 →
      form.keyspace = GrantForm.prefill path →
        ∃ built selector, form.build = .ok built ∧ built.2.keyspace = some selector ∧
          selector.tuple = .prefixed path) ∧
    ¬ ∀ a b, keyspaceSelectorString a = keyspaceSelectorString b → SameMatches a b := by
  refine ⟨fun h => ?_, fun h => ?_, fun h => ?_⟩
  · have hcovers := h "app@env=prod" false ⟨.prefixed ["app"], []⟩ (by decide) ⟨["app"], []⟩ rfl
    rcases hcovers.mp (by decide) with hwhole | ⟨named, hread, -, hlabels⟩
    · exact absurd hwhole (by decide)
    · rw [show parseSecretSelector "app@env=prod" = .ok ⟨["app"], [⟨"env", "prod"⟩]⟩ by decide]
        at hread
      obtain rfl := Except.ok.inj hread
      exact absurd (hlabels ⟨"env", "prod"⟩ (by decide)) (by decide)
  · obtain ⟨built, selector, hbuild, hkeyspace, htuple⟩ :=
      h ⟨[.user TestSupport.rootUser.id], 0, 0, "a/b"⟩ ["a/b"] (by decide) (by decide) (by decide)
    have hread : (⟨[.user TestSupport.rootUser.id], 0, 0, "a/b"⟩ : GrantForm).build =
        .ok (.user TestSupport.rootUser.id, .readKeyspace ⟨.prefixed ["a", "b"], []⟩) := by
      decide +kernel
    rw [hread] at hbuild
    obtain rfl := Except.ok.inj hbuild
    obtain rfl := Option.some.inj hkeyspace
    exact absurd htuple (by decide)
  · have hsame := h ⟨.any, []⟩ ⟨.any, [⟨"env", .any⟩]⟩ (by decide) ⟨[], []⟩ rfl
    exact absurd hsame (by decide)

end Thorax
