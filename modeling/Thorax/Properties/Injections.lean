import Thorax.Properties.SelectorQueries
import Thorax.Run.Injections

/-!
# Planning is exact, assembling is not

A plan has a variable for each secret that some argument selects, and none besides. In the
environment two fields of one secret can come to the same variable, and then only the first of them
is there.
-/

open Std (TransCmp TransOrd LawfulEqCmp LawfulEqOrd)

namespace Thorax

open Collections Durable Registries

/-! ### Variable names -/

section Names

variable {selector : SecretSelectorV1}

def isEnvChar (c : Char) : Bool := c.isAlphanum || c = '_'

lemma validateEnvName_ofList {text : List Char} (h : ∀ c ∈ text, isEnvChar c = true) :
    validateEnvName (String.ofList text) = .ok () ↔
      text ≠ [] ∧ text.head?.any Char.isDigit = false := by
  have hall : (text.all fun character => character.isAlphanum || character = '_') = true :=
    List.all_eq_true.mpr h
  rw [validateEnvName, String.toList_ofList]
  cases text with
  | nil => simp
  | cons first rest =>
    simp only [List.head?_cons, Option.any_some, hall, if_true]
    cases first.isDigit <;> simp

lemma isAlphanum_toUpper {c : Char} (h : c.isAlphanum = true) : c.toUpper.isAlphanum = true := by
  rw [Char.isAlphanum, Bool.or_eq_true] at h ⊢
  rcases h with h | h
  · left
    rwa [Char.isAlpha_toUpper_eq_isAlpha]
  · right
    have hlower : ¬ c.isLower = true := by
      simp only [Char.isDigit, Char.isLower, Bool.and_eq_true, decide_eq_true_eq] at h ⊢
      rintro ⟨hle, -⟩
      exact absurd (UInt32.le_trans hle h.2) (by decide)
    rwa [Char.toUpper_eq_of_not_isLower hlower]

lemma isEnvChar_sanitized {segment : String} {c : Char}
    (h : c ∈ (sanitizeEnvSegment segment).toList) : isEnvChar c = true := by
  rw [sanitizeEnvSegment, String.toList_ofList] at h
  obtain ⟨character, -, rfl⟩ := List.mem_map.mp h
  split_ifs with halphanum
  · simp [isEnvChar, isAlphanum_toUpper halphanum]
  · rfl

lemma mem_of_mem_intercalate {α : Type} {separator : List α} {parts : List (List α)} {a : α}
    (h : a ∈ List.intercalate separator parts) : a ∈ separator ∨ ∃ part ∈ parts, a ∈ part := by
  induction parts with
  | nil => simp [List.intercalate] at h
  | cons part parts ih =>
    cases parts with
    | nil =>
      rw [List.intercalate_singleton] at h
      exact Or.inr ⟨part, List.mem_singleton_self _, h⟩
    | cons other parts =>
      rw [List.intercalate_cons_cons, List.mem_append, List.mem_append] at h
      rcases h with (h | h) | h
      · exact Or.inr ⟨part, List.mem_cons_self, h⟩
      · exact Or.inl h
      · exact (ih h).imp id fun ⟨found, hfound, ha⟩ => ⟨found, List.mem_cons_of_mem _ hfound, ha⟩

/-- The name of a secret is valid unless its tuple is empty, or one empty segment. -/
lemma validateEnvName_deriveEnvName :
    validateEnvName (deriveEnvName selector) = .ok () ↔
      selector.tuple ≠ [] ∧ selector.tuple ≠ [""] := by
  obtain ⟨tuple, labels⟩ := selector
  have hchars : ∀ c ∈ List.intercalate ['_', '_']
      (tuple.map fun segment => (sanitizeEnvSegment segment).toList), isEnvChar c = true := by
    intro c hc
    rcases mem_of_mem_intercalate hc with hc | ⟨part, hpart, hc⟩
    · obtain rfl : c = '_' := by simpa using hc
      rfl
    · obtain ⟨segment, -, rfl⟩ := List.mem_map.mp hpart
      exact isEnvChar_sanitized hc
  have hnil : List.intercalate ['_', '_']
      (tuple.map fun segment => (sanitizeEnvSegment segment).toList) = [] ↔
        tuple = [] ∨ tuple = [""] := by
    match tuple with
    | [] => simp [List.intercalate]
    | [segment] => simp [sanitizeEnvSegment, String.toList_eq_nil_iff]
    | _ :: _ :: _ => simp [List.intercalate_cons_cons]
  rw [← not_or, ← hnil]
  simp only [deriveEnvName]
  split_ifs with hdigit
  · rw [validateEnvName_ofList (List.forall_mem_cons.mpr ⟨rfl, hchars⟩)]
    constructor
    · rintro - hempty
      simp [hempty] at hdigit
    · intro _
      exact ⟨List.cons_ne_nil _ _, rfl⟩
  · rw [validateEnvName_ofList hchars]
    simp [hdigit]

end Names

/-! ### Planning -/

section Planning

variable {specs : List String} {available available' : List SecretSelectorV1}
variable {conflicted : List ConflictedSecret} {spec : String} {query : KeyspaceSelectorV1}
variable {plan plan' : InjectionPlan} {selector : SecretSelectorV1}

lemma mem_matchedSelectors : selector ∈ matchedSelectors available query ↔
    selector ∈ available ∧ selectorMatches query selector = true := by
  rw [matchedSelectors, mem_destutter_ne, mem_sortBy, List.mem_filter]

instance : TransOrd SecretLabelV1 := inferInstanceAs (TransCmp compareSecretLabels)

instance : LawfulEqOrd SecretLabelV1 where
  compare_self := Std.ReflCmp.compare_self
  eq_of_compare := by
    rintro ⟨key, value⟩ ⟨key', value'⟩ h
    rw [show compare (⟨key, value⟩ : SecretLabelV1) ⟨key', value'⟩ =
      compareLex (compareOn SecretLabelV1.key) (compareOn SecretLabelV1.value) _ _ from rfl,
      compareLex, Ordering.then_eq_eq] at h
    obtain ⟨hkey, hvalue⟩ := h
    obtain rfl : key = key' := LawfulEqCmp.eq_of_compare hkey
    obtain rfl : value = value' := LawfulEqCmp.eq_of_compare hvalue
    rfl

instance : TransCmp compareSecretSelectors :=
  inferInstanceAs (TransCmp (compareLex (compareOn SecretSelectorV1.tuple)
    (compareOn SecretSelectorV1.labels)))

lemma eq_of_compareSecretSelectors {a b : SecretSelectorV1}
    (h : compareSecretSelectors a b = .eq) : a = b := by
  obtain ⟨tuple, labels⟩ := a
  obtain ⟨tuple', labels'⟩ := b
  rw [compareSecretSelectors, compareLex, Ordering.then_eq_eq] at h
  obtain ⟨htuple, hlabels⟩ := h
  obtain rfl : tuple = tuple' := LawfulEqCmp.eq_of_compare htuple
  obtain rfl : labels = labels' := LawfulEqCmp.eq_of_compare hlabels
  rfl

/-- What is matched does not depend on the order of what is available. -/
lemma matchedSelectors_perm (h : available.Perm available') :
    matchedSelectors available query = matchedSelectors available' query := by
  rw [matchedSelectors, matchedSelectors, sortBy_eq_of_perm _ (h.filter _)]
  exact fun a _ b _ => eq_of_compareSecretSelectors

/-- What an argument claims. -/
def specClaims (available : List SecretSelectorV1) (spec : String) :
    List (Claim String SecretSelectorV1 Injection) :=
  match parseSecretQuery (splitName spec).2 with
  | .ok query => (matchedSelectors available query).map (injectionClaim (splitName spec).1)
  | .error _ => []

/-- An argument that a plan can take. -/
structure Takes (available : List SecretSelectorV1) (conflicted : List ConflictedSecret)
    (spec : String) (query : KeyspaceSelectorV1) : Prop where
  read : parseSecretQuery (splitName spec).2 = .ok query
  named : checkExplicitName (splitName spec).1 = .ok ()
  unconflicted : conflicted.find? (·.isMatched query) = none
  matched : matchedSelectors available query ≠ []
  unambiguous : checkUnambiguous spec (matchedSelectors available query).length
    (splitName spec).1 = .ok ()

lemma planSpec_eq_ok : planSpec available conflicted plan spec = .ok plan' ↔
    (∃ query, Takes available conflicted spec query) ∧
      (specClaims available spec).foldlM Registry.record plan = .ok plan' := by
  simp only [planSpec, bind_eq_ok]
  constructor
  · rintro ⟨_, hnamed, query, hread, h⟩
    cases hfind : conflicted.find? (·.isMatched query) with
    | some conflict => simp [hfind] at h
    | none =>
      simp only [hfind] at h
      split_ifs at h with hempty
      obtain ⟨_, hunambiguous, hrecord⟩ := bind_eq_ok.mp h
      refine ⟨⟨query, hread, hnamed, hfind, hempty, hunambiguous⟩, ?_⟩
      rw [specClaims, hread]
      exact mapError_eq_ok.mp hrecord
  · rintro ⟨⟨query, htakes⟩, hrecord⟩
    rw [specClaims, htakes.read] at hrecord
    refine ⟨(), htakes.named, query, htakes.read, ?_⟩
    simp only [htakes.unconflicted, htakes.matched, if_false]
    exact bind_eq_ok.mpr ⟨(), htakes.unambiguous, mapError_eq_ok.mpr hrecord⟩

lemma planSpecs_eq_ok : specs.foldlM (planSpec available conflicted) plan = .ok plan' ↔
    (∀ spec ∈ specs, ∃ query, Takes available conflicted spec query) ∧
      (specs.flatMap (specClaims available)).foldlM Registry.record plan = .ok plan' := by
  induction specs generalizing plan with
  | nil => simp [pure, Except.pure]
  | cons spec specs ih =>
    simp only [List.foldlM_cons, bind_eq_ok, planSpec_eq_ok, ih, List.forall_mem_cons,
      List.flatMap_cons, List.foldlM_append]
    constructor
    · rintro ⟨middle, ⟨htakes, hfirst⟩, hrest, hafter⟩
      exact ⟨⟨htakes, hrest⟩, middle, hfirst, hafter⟩
    · rintro ⟨⟨htakes, hrest⟩, middle, hfirst, hafter⟩
      exact ⟨middle, ⟨htakes, hfirst⟩, hrest, hafter⟩

/-- Another order of what is available makes no difference to a plan. -/
lemma planInjections_perm (h : available.Perm available') :
    planInjections specs available conflicted = planInjections specs available' conflicted := by
  have hspec : planSpec available conflicted = planSpec available' conflicted := by
    funext plan spec
    simp only [planSpec, matchedSelectors_perm h]
  rw [planInjections, planInjections, hspec]

lemma mem_specClaims {claim : Claim String SecretSelectorV1 Injection} :
    claim ∈ specClaims available spec ↔ ∃ query selector,
      parseSecretQuery (splitName spec).2 = .ok query ∧ selector ∈ available ∧
        selectorMatches query selector = true ∧ injectionClaim (splitName spec).1 selector = claim := by
  rw [specClaims]
  cases parseSecretQuery (splitName spec).2 with
  | error e => simp
  | ok query =>
    simp only [List.mem_map, mem_matchedSelectors, Except.ok.injEq, exists_and_left,
      exists_eq_left', and_assoc]

lemma entry_of_mem_specClaims {claim : Claim String SecretSelectorV1 Injection}
    (h : claim ∈ specClaims available spec) :
    claim.entry = ⟨claim.key, selectorString claim.owner, claim.owner⟩ := by
  obtain ⟨_, _, -, -, -, rfl⟩ := mem_specClaims.mp h
  rfl

lemma planInjections_eq_ok {entries : List Injection} :
    planInjections specs available conflicted = .ok entries ↔
      (∀ spec ∈ specs, ∃ query, Takes available conflicted spec query) ∧
        ∃ plan : InjectionPlan, (specs.flatMap (specClaims available)).foldlM Registry.record
          Registry.empty = .ok plan ∧ plan.entries = entries := by
  simp only [planInjections, bind_eq_ok, planSpecs_eq_ok]
  constructor
  · rintro ⟨plan, ⟨htakes, hrecord⟩, heq⟩
    exact ⟨htakes, plan, hrecord, Except.ok.inj heq⟩
  · rintro ⟨htakes, plan, hrecord, rfl⟩
    exact ⟨plan, ⟨htakes, hrecord⟩, rfl⟩

lemma holds_plan (h : (specs.flatMap (specClaims available)).foldlM Registry.record
    Registry.empty = .ok plan) : plan.Holds (·.name) (specs.flatMap (specClaims available)) := by
  have hempty : (Registry.empty : InjectionPlan).Holds (·.name) [] := Registry.holds_empty
  refine hempty.growAll (fun claim hclaim => ?_) h
  obtain ⟨spec, -, hmem⟩ := List.mem_flatMap.mp hclaim
  rw [entry_of_mem_specClaims hmem]

/-- What is in a plan is what the arguments select. -/
lemma mem_plan_iff (h : (specs.flatMap (specClaims available)).foldlM Registry.record
    Registry.empty = .ok plan) {injection : Injection} :
    injection ∈ plan.entries ↔ ∃ spec ∈ specs, ∃ query selector,
      parseSecretQuery (splitName spec).2 = .ok query ∧ selector ∈ available ∧
        selectorMatches query selector = true ∧
          injection = ⟨(splitName spec).1.getD (deriveEnvName selector), selectorString selector,
            selector⟩ := by
  have hholds := holds_plan h
  have hentry : ∀ claim ∈ specs.flatMap (specClaims available),
      claim.entry = ⟨claim.key, selectorString claim.owner, claim.owner⟩ := by
    intro claim hclaim
    obtain ⟨spec, -, hmem⟩ := List.mem_flatMap.mp hclaim
    exact entry_of_mem_specClaims hmem
  constructor
  · intro hinjection
    obtain ⟨claim, hclaim, rfl⟩ := hholds.claimed injection hinjection
    obtain ⟨spec, hspec, hmem⟩ := List.mem_flatMap.mp hclaim
    obtain ⟨query, selector, hread, havailable, hmatches, rfl⟩ := mem_specClaims.mp hmem
    exact ⟨spec, hspec, query, selector, hread, havailable, hmatches, rfl⟩
  · rintro ⟨spec, hspec, query, selector, hread, havailable, hmatches, rfl⟩
    have hclaim : injectionClaim (splitName spec).1 selector ∈
        specs.flatMap (specClaims available) := List.mem_flatMap.mpr
      ⟨spec, hspec, mem_specClaims.mpr ⟨query, selector, hread, havailable, hmatches, rfl⟩⟩
    -- the first claim of the name is for the same secret, and has the same entry
    obtain ⟨first, hfirst, hkey, hin⟩ := hholds.entered _ hclaim
    have howner := hholds.owner_eq hfirst hclaim hkey
    rwa [hentry first hfirst, hkey, howner] at hin

lemma Takes.unmatched (h : Takes available conflicted spec query) :
    ∀ conflict ∈ conflicted, ∀ selector ∈ conflict.claimed,
      selectorMatches query selector = false := by
  intro conflict hconflict claimed hclaimed
  have hnot := List.find?_eq_none.mp h.unconflicted conflict hconflict
  rw [ConflictedSecret.isMatched, List.any_eq_true] at hnot
  exact Bool.eq_false_iff.mpr fun hmatches => hnot ⟨claimed, hclaimed, hmatches⟩

/-- An explicit name is for one secret. -/
lemma Takes.existsUnique (h : Takes available conflicted spec query) {name : String}
    (hname : (splitName spec).1 = some name) :
    ∃! selector, selector ∈ available ∧ selectorMatches query selector = true := by
  have hcount := h.unambiguous
  rw [hname, checkUnambiguous] at hcount
  split_ifs at hcount with hmany
  obtain ⟨selector, hsingle⟩ := List.length_eq_one_iff.mp (le_antisymm (not_lt.mp hmany)
    (List.length_pos_iff.mpr h.matched))
  refine ⟨selector, mem_matchedSelectors.mp (by simp [hsingle]), fun other hother => ?_⟩
  have hmem := mem_matchedSelectors.mpr hother
  rwa [hsingle, List.mem_singleton] at hmem

lemma Takes.validateEnvName (h : Takes available conflicted spec query)
    (hnamed : selector.tuple ≠ []) (hsegments : ∀ segment ∈ selector.tuple, segment ≠ "") :
    validateEnvName ((splitName spec).1.getD (deriveEnvName selector)) = .ok () := by
  have hchecked := h.named
  cases hname : (splitName spec).1 with
  | some name =>
    rw [hname, checkExplicitName, mapError_eq_ok] at hchecked
    exact hchecked
  | none =>
    refine validateEnvName_deriveEnvName.mpr ⟨hnamed, fun htuple => ?_⟩
    exact hsegments "" (by simp [htuple]) rfl

end Planning

/-- A plan that has what the arguments select, and nothing else, under valid and different names. -/
structure ExactPlan (specs : List String) (available : List SecretSelectorV1)
    (conflicted : List ConflictedSecret) (plan : List Injection) : Prop where
  selected : ∀ spec ∈ specs, ∃ query, parseSecretQuery (splitName spec).2 = .ok query ∧
    (∃ selector ∈ available, selectorMatches query selector = true) ∧
    ∀ conflict ∈ conflicted, ∀ selector ∈ conflict.claimed,
      selectorMatches query selector = false
  injected : ∀ injection, injection ∈ plan ↔ ∃ spec ∈ specs, ∃ query selector,
    parseSecretQuery (splitName spec).2 = .ok query ∧ selector ∈ available ∧
      selectorMatches query selector = true ∧
        injection = ⟨(splitName spec).1.getD (deriveEnvName selector), selectorString selector,
          selector⟩
  named : ∀ spec ∈ specs, ∀ name query, (splitName spec).1 = some name →
    parseSecretQuery (splitName spec).2 = .ok query →
      ∃! selector, selector ∈ available ∧ selectorMatches query selector = true
  distinct : (plan.map (·.name)).Nodup
  valid : ∀ injection ∈ plan, validateEnvName injection.name = .ok ()
  once : (plan.map fun injection => (injection.name, injection.selector)).Nodup

/-- A planned run is exact, whatever the order of the available secrets. -/
theorem planInjections_exact {specs : List String} {available : List SecretSelectorV1}
    {conflicted : List ConflictedSecret} {plan : List Injection}
    (hnamed : ∀ selector ∈ available, selector.tuple ≠ [])
    (hsegments : ∀ selector ∈ available, ∀ segment ∈ selector.tuple, segment ≠ "")
    (h : planInjections specs available conflicted = .ok plan) :
    ExactPlan specs available conflicted plan ∧ ∀ available', available.Perm available' →
      planInjections specs available' conflicted = .ok plan := by
  refine ⟨?_, fun available' hperm => planInjections_perm hperm ▸ h⟩
  obtain ⟨htakes, plan, hrecord, rfl⟩ := planInjections_eq_ok.mp h
  have hdistinct := (holds_plan hrecord).once
  constructor
  · intro spec hspec
    obtain ⟨query, htake⟩ := htakes spec hspec
    obtain ⟨selector, hselector⟩ := List.exists_mem_of_ne_nil _ htake.matched
    exact ⟨query, htake.read, ⟨selector, mem_matchedSelectors.mp hselector⟩,
      htake.unmatched⟩
  · exact fun injection => mem_plan_iff hrecord
  · intro spec hspec name query hname hread
    obtain ⟨query', htake⟩ := htakes spec hspec
    obtain rfl : query' = query := Except.ok.inj (htake.read.symm.trans hread)
    exact htake.existsUnique hname
  · exact hdistinct
  · intro injection hinjection
    obtain ⟨spec, hspec, _, selector, -, havailable, -, rfl⟩ := (mem_plan_iff hrecord).mp hinjection
    obtain ⟨_, htake⟩ := htakes spec hspec
    exact htake.validateEnvName (hnamed selector havailable) (hsegments selector havailable)
  · refine List.Nodup.of_map Prod.fst ?_
    simpa [Function.comp_def] using hdistinct

/-- Two arguments that overlap, and one that renames what they select. -/
theorem planInjections_exact_app :
    ExactPlan ["app@env=prod", "app/db", "DB=app/db"]
      [⟨["app", "db"], [⟨"env", "prod"⟩]⟩, ⟨["app", "key"], []⟩] []
      [⟨"APP__DB", "app/db@env=prod", ⟨["app", "db"], [⟨"env", "prod"⟩]⟩⟩,
        ⟨"DB", "app/db@env=prod", ⟨["app", "db"], [⟨"env", "prod"⟩]⟩⟩] :=
  (planInjections_exact (by decide) (by decide) rfl).1

/-! ### Assembling -/

/-- The variables of a secret, and the bytes each is to hold. -/
def assignments (secret : Injection × SecretPlaintext) : List (String × Bytes) :=
  (secret.1.name, secret.2.plaintext) ::
    secret.2.fields.map fun field => (fieldName secret.1 field.key, field.value)

section Assembling

variable {bytes : Bytes} {display value : String} {env env' : Environment}
variable {secret : Injection × SecretPlaintext} {secrets : List (Injection × SecretPlaintext)}

lemma envValue_eq_ok (h : envValue bytes display = .ok value) :
    String.fromUTF8? ⟨bytes.toArray⟩ = some value := by
  rw [envValue] at h
  cases hread : String.fromUTF8? ⟨bytes.toArray⟩ with
  | none => simp [hread] at h
  | some text =>
    simp only [hread] at h
    split_ifs at h
    exact congrArg some (Except.ok.inj h)

/-- Different bytes are different texts. -/
lemma bytes_of_fromUTF8 {bytes' : Bytes} (h : String.fromUTF8? ⟨bytes.toArray⟩ = some value)
    (h' : String.fromUTF8? ⟨bytes'.toArray⟩ = some value) : bytes = bytes' := by
  have hread : ∀ {array : ByteArray}, String.fromUTF8? array = some value →
      value.toByteArray = array := by
    intro array hsome
    unfold String.fromUTF8? at hsome
    split_ifs at hsome with hvalid
    cases hsome
    rfl
  have heq := (hread h).symm.trans (hread h')
  have hlist := congrArg (fun array : ByteArray => array.data.toList) heq
  simpa using hlist

/-- The text of a value. -/
def valueText (bytes : Bytes) : String := (String.fromUTF8? ⟨bytes.toArray⟩).getD ""

/-- What a secret claims. -/
def secretClaims (secret : Injection × SecretPlaintext) :
    List (Claim String SecretSelectorV1 (String × String)) :=
  (assignments secret).map fun assignment =>
    ⟨assignment.1, secret.1.selector, assignment.1, valueText assignment.2⟩

lemma valueText_of_envValue (h : envValue bytes display = .ok value) : valueText bytes = value := by
  rw [valueText, envValue_eq_ok h, Option.getD_some]

lemma pushInjection_eq_ok {name : String} {selector : SecretSelectorV1} :
    pushInjection env name selector value = .ok env' ↔
      env.record ⟨name, selector, name, value⟩ = .ok env' :=
  mapError_eq_ok

/-- The fields of a secret are read and claimed one by one. -/
lemma pushFields_eq_ok {fields : List SecretFieldEntryV1}
    (h : fields.foldlM (pushField secret.1) env = .ok env') :
    (∀ field ∈ fields, (String.fromUTF8? ⟨field.value.toArray⟩).isSome) ∧
      (fields.map fun field => (⟨fieldName secret.1 field.key, secret.1.selector,
        fieldName secret.1 field.key, valueText field.value⟩ :
          Claim String SecretSelectorV1 (String × String))).foldlM Registry.record env =
            .ok env' := by
  induction fields generalizing env with
  | nil => exact ⟨by simp, congrArg Except.ok (Except.ok.inj h)⟩
  | cons field fields ih =>
    obtain ⟨middle, hfield, hfields⟩ := bind_eq_ok.mp h
    simp only [pushField, bind_eq_ok, pushInjection_eq_ok] at hfield
    obtain ⟨_, -, value, hvalue, hrecord⟩ := hfield
    obtain ⟨hread, hclaims⟩ := ih hfields
    refine ⟨List.forall_mem_cons.mpr ⟨Option.isSome_of_eq_some (envValue_eq_ok hvalue), hread⟩, ?_⟩
    rw [← valueText_of_envValue hvalue] at hrecord
    exact bind_eq_ok.mpr ⟨middle, hrecord, hclaims⟩

lemma pushSecret_eq_ok (h : pushSecret env secret = .ok env') :
    (∀ assignment ∈ assignments secret, (String.fromUTF8? ⟨assignment.2.toArray⟩).isSome) ∧
      (secretClaims secret).foldlM Registry.record env = .ok env' := by
  simp only [pushSecret, bind_eq_ok, pushInjection_eq_ok] at h
  obtain ⟨value, hvalue, middle, hprimary, hfields⟩ := h
  obtain ⟨hread, hclaims⟩ := pushFields_eq_ok hfields
  rw [← valueText_of_envValue hvalue] at hprimary
  refine ⟨List.forall_mem_cons.mpr ⟨Option.isSome_of_eq_some (envValue_eq_ok hvalue), ?_⟩, ?_⟩
  · rintro assignment hassignment
    obtain ⟨field, hfield, rfl⟩ := List.mem_map.mp hassignment
    exact hread field hfield
  · rw [secretClaims, assignments, List.map_cons, List.map_map]
    exact bind_eq_ok.mpr ⟨middle, hprimary, hclaims⟩

lemma pushSecrets_eq_ok (h : secrets.foldlM pushSecret env = .ok env') :
    (∀ secret ∈ secrets, ∀ assignment ∈ assignments secret,
      (String.fromUTF8? ⟨assignment.2.toArray⟩).isSome) ∧
        (secrets.flatMap secretClaims).foldlM Registry.record env = .ok env' := by
  induction secrets generalizing env with
  | nil => exact ⟨by simp, congrArg Except.ok (Except.ok.inj h)⟩
  | cons secret secrets ih =>
    obtain ⟨middle, hsecret, hsecrets⟩ := bind_eq_ok.mp h
    obtain ⟨hread, hrecord⟩ := pushSecret_eq_ok hsecret
    obtain ⟨hreads, hclaims⟩ := ih hsecrets
    refine ⟨List.forall_mem_cons.mpr ⟨hread, hreads⟩, ?_⟩
    rw [List.flatMap_cons, List.foldlM_append]
    exact bind_eq_ok.mpr ⟨middle, hrecord, hclaims⟩

/-- In what is assembled a variable has the value that was entered for it. -/
lemma getElem?_childEnv {entries : List (String × String)} (hnodup : (entries.map Prod.fst).Nodup)
    {name : String} : (childEnv entries)[name]? = some value ↔ (name, value) ∈ entries := by
  have hdistinct : entries.Pairwise fun a b => ¬ compare a.1 b.1 = .eq := by
    refine (List.pairwise_map.mp hnodup).imp fun hne heq => ?_
    exact hne (LawfulEqCmp.eq_of_compare heq)
  constructor
  · intro hvalue
    have hmem : name ∈ childEnv entries := by
      rw [Std.ExtTreeMap.mem_iff_isSome_getElem?, hvalue]
      rfl
    rw [childEnv, Std.ExtTreeMap.mem_ofList, List.contains_iff_mem, List.mem_map] at hmem
    obtain ⟨⟨_, other⟩, hother, rfl⟩ := hmem
    have hfound := Std.ExtTreeMap.getElem?_ofList_of_mem Std.ReflCmp.compare_self hdistinct hother
    rw [← childEnv, hvalue] at hfound
    rwa [Option.some.inj hfound]
  · exact Std.ExtTreeMap.getElem?_ofList_of_mem Std.ReflCmp.compare_self hdistinct

end Assembling

/-- Nothing is left out of the environment: each variable that a secret asks for holds what it is
asked to hold, and no variable is asked to hold two different values. -/
structure Delivers (plan : List Injection) (opened : List SecretPlaintext)
    (env : List (String × String)) : Prop where
  bound : ∀ secret ∈ plan.zip opened, ∀ assignment ∈ assignments secret, ∃ value,
    String.fromUTF8? ⟨assignment.2.toArray⟩ = some value ∧
      (childEnv env)[assignment.1]? = some value
  unambiguous : ∀ secret ∈ plan.zip opened, ∀ secret' ∈ plan.zip opened,
    ∀ assignment ∈ assignments secret, ∀ assignment' ∈ assignments secret',
      assignment.1 = assignment'.1 → assignment.2 = assignment'.2

/-- The parts of one secret that come to one variable are equal. -/
def PartsApart (plan : List Injection) (opened : List SecretPlaintext) : Prop :=
  ∀ secret ∈ plan.zip opened, ∀ secret' ∈ plan.zip opened,
    secret.1.selector = secret'.1.selector →
      ∀ assignment ∈ assignments secret, ∀ assignment' ∈ assignments secret',
        assignment.1 = assignment'.1 → assignment.2 = assignment'.2

instance (plan : List Injection) (opened : List SecretPlaintext) :
    Decidable (PartsApart plan opened) :=
  inferInstanceAs (Decidable (∀ secret ∈ plan.zip opened, ∀ secret' ∈ plan.zip opened,
    secret.1.selector = secret'.1.selector →
      ∀ assignment ∈ assignments secret, ∀ assignment' ∈ assignments secret',
        assignment.1 = assignment'.1 → assignment.2 = assignment'.2))

section Assembled

variable {plan : List Injection} {opened : List SecretPlaintext} {registry : Environment}

lemma mem_secretClaims {secret : Injection × SecretPlaintext} {assignment : String × Bytes}
    (hsecret : secret ∈ plan.zip opened) (hassignment : assignment ∈ assignments secret) :
    ⟨assignment.1, secret.1.selector, assignment.1, valueText assignment.2⟩ ∈
      (plan.zip opened).flatMap secretClaims :=
  List.mem_flatMap.mpr ⟨secret, hsecret, List.mem_map.mpr ⟨assignment, hassignment, rfl⟩⟩

lemma holds_environment (h : ((plan.zip opened).flatMap secretClaims).foldlM Registry.record
    Registry.empty = .ok registry) :
    registry.Holds Prod.fst ((plan.zip opened).flatMap secretClaims) := by
  have hempty : (Registry.empty : Environment).Holds Prod.fst [] := Registry.holds_empty
  refine hempty.growAll (fun claim hclaim => ?_) h
  obtain ⟨secret, -, hmem⟩ := List.mem_flatMap.mp hclaim
  obtain ⟨assignment, -, rfl⟩ := List.mem_map.mp hmem
  rfl

/-- If nothing in a secret is ambiguous, nothing in the environment is. -/
lemma unambiguous_of_partsApart
    (hholds : registry.Holds Prod.fst ((plan.zip opened).flatMap secretClaims))
    (hparts : PartsApart plan opened) :
    ∀ secret ∈ plan.zip opened, ∀ secret' ∈ plan.zip opened,
      ∀ assignment ∈ assignments secret, ∀ assignment' ∈ assignments secret',
        assignment.1 = assignment'.1 → assignment.2 = assignment'.2 := by
  intro secret hsecret secret' hsecret' assignment hassignment assignment' hassignment' hname
  have howner := hholds.owner_eq (mem_secretClaims hsecret hassignment)
    (mem_secretClaims hsecret' hassignment') hname
  exact hparts secret hsecret secret' hsecret' howner assignment hassignment assignment'
    hassignment' hname

end Assembled

/-- Two secrets never share a variable in what is assembled, but the parts of one secret do: nothing
is left out exactly if those that come to one variable are equal. -/
theorem assembleEnv_delivers_iff {plan : List Injection} {opened : List SecretPlaintext}
    {env : List (String × String)} (h : assembleEnv plan opened = .ok env) :
    Delivers plan opened env ↔ PartsApart plan opened := by
  obtain ⟨registry, hregistry, heq⟩ := bind_eq_ok.mp h
  obtain rfl := Except.ok.inj heq
  obtain ⟨hread, hrecord⟩ := pushSecrets_eq_ok hregistry
  have hholds := holds_environment hrecord
  constructor
  · intro hdelivers secret hsecret secret' hsecret' _ assignment hassignment assignment'
      hassignment' hname
    obtain ⟨value, hvalue, hbound⟩ := hdelivers.bound secret hsecret assignment hassignment
    obtain ⟨value', hvalue', hbound'⟩ := hdelivers.bound secret' hsecret' assignment' hassignment'
    rw [hname, hbound'] at hbound
    obtain rfl := Option.some.inj hbound
    exact bytes_of_fromUTF8 hvalue hvalue'
  · intro hparts
    have hsame := unambiguous_of_partsApart hholds hparts
    refine ⟨fun secret hsecret assignment hassignment => ?_, hsame⟩
    obtain ⟨value, hvalue⟩ :=
      Option.isSome_iff_exists.mp (hread secret hsecret assignment hassignment)
    refine ⟨value, hvalue, (getElem?_childEnv hholds.once).mpr ?_⟩
    -- the first claim of the variable was entered, and its value is the same
    obtain ⟨first, hfirst, hname, hentered⟩ :=
      hholds.entered _ (mem_secretClaims hsecret hassignment)
    obtain ⟨secret', hsecret', hmem⟩ := List.mem_flatMap.mp hfirst
    obtain ⟨assignment', hassignment', rfl⟩ := List.mem_map.mp hmem
    have hname : assignment'.1 = assignment.1 := hname
    have hentered : (assignment'.1, valueText assignment'.2) ∈ registry.entries := hentered
    have hbytes := hsame secret hsecret secret' hsecret' assignment hassignment assignment'
      hassignment' hname.symm
    rwa [← hbytes, hname, valueText, hvalue] at hentered

/-- A secret with a value and a field. -/
theorem assembleEnv_delivers_iff_db :
    Delivers [⟨"DB", "db", ⟨["db"], []⟩⟩] [⟨⟨["db"], []⟩, [104], [⟨"user", [105]⟩]⟩]
      [("DB", "h"), ("DB__USER", "i")] :=
  (assembleEnv_delivers_iff rfl).mpr (by decide)

/-- Of the fields `a-b` and `a_b` of a secret only one is in the environment. -/
theorem not_assembleEnv_delivers : ¬ ∀ plan opened env,
    assembleEnv plan opened = .ok env → Delivers plan opened env := by
  intro h
  have hdelivers := h [⟨"DB", "db", ⟨["db"], []⟩⟩]
    [⟨⟨["db"], []⟩, [104], [⟨"a-b", [105]⟩, ⟨"a_b", [106]⟩]⟩] [("DB", "h"), ("DB__A_B", "i")]
    rfl
  obtain ⟨value, hvalue, hbound⟩ := hdelivers.bound _ (List.mem_singleton_self _)
    ("DB__A_B", [106]) (by decide)
  rw [show (childEnv [("DB", "h"), ("DB__A_B", "i")])["DB__A_B"]? = some "i" from rfl]
    at hbound
  obtain rfl := Option.some.inj hbound
  exact absurd hvalue (by decide)

end Thorax
