import Thorax.Properties.SelectorGrammar

/-!
# Selectors as queries

A query reads the spelling of a selector as a matcher. Two of the bare spellings of the whole vault
are also what is printed for a tuple of one segment, and the terms of a query keep the order they
are written in.
-/

namespace Thorax

open Collections Quoted Durable

/-! ### What a query accepts -/

section Accepting

variable {whole other : String} {raw path : List Char}

lemma decodeField_other {value : String} (h : decodeField raw whole = .ok value) :
    decodeField raw other = .ok value :=
  decodeField_eq_ok.mpr (decodeField_eq_ok.mp h)

lemma closed_of_decodeField {value : String} (h : decodeField raw whole = .ok value) :
    run selectorMarks start raw = start := by
  have hdecode := decodeField_eq_ok.mp h
  rw [decode] at hdecode
  split_ifs at hdecode with hclosed
  exact hclosed

/-- The whole text is used for errors only. -/
lemma parseTuplePath_other {tuple : List String} (h : parseTuplePath whole path = .ok tuple) :
    parseTuplePath other path = .ok tuple := by
  rw [parseTuplePath] at h ⊢
  split_ifs at h ⊢
  rw [mapM_eq_ok] at h ⊢
  refine h.imp fun raw segment hsegment => ?_
  obtain ⟨hdecode, hne⟩ := parseSegment_eq_ok.mp hsegment
  exact parseSegment_eq_ok.mpr ⟨decodeField_other hdecode, hne⟩

lemma parseQueryTuple_other {labelled : Bool} {tuple : TupleMatcherV1}
    (h : parseQueryTuple whole path labelled = .ok tuple) :
    parseQueryTuple other path labelled = .ok tuple := by
  rw [parseQueryTuple] at h ⊢
  split_ifs at h ⊢
  · exact h
  · exact h
  · obtain ⟨parts, hparts, heq⟩ := bind_eq_ok.mp h
    exact bind_eq_ok.mpr ⟨parts, parseTuplePath_other hparts, heq⟩

/-- A query never has the empty tuple as a prefix. -/
lemma parseQueryTuple_ne {labelled : Bool} {tuple : TupleMatcherV1}
    (h : parseQueryTuple whole path labelled = .ok tuple) : tuple ≠ .prefixed [] := by
  rw [parseQueryTuple] at h
  split_ifs at h
  · cases h
    exact TupleMatcherV1.noConfusion
  · cases h
    exact TupleMatcherV1.noConfusion
  · obtain ⟨parts, hparts, heq⟩ := bind_eq_ok.mp h
    cases heq
    intro hnil
    exact (parseTuplePath_eq_ok hparts).1 (TupleMatcherV1.prefixed.inj hnil)

/-- The ways to write a term. -/
lemma parseQueryTerm_eq_ok {label : KeyspaceLabelMatcherV1} :
    parseQueryTerm whole raw = .ok label ↔
      (∃ rest, raw = '!' :: rest ∧ decodeField rest whole = .ok label.key ∧
        label.matcher = .absent) ∨
      ((∀ rest, raw ≠ '!' :: rest) ∧
        ((∃ key text value, splitOnceUnquoted raw '=' = some (key, text) ∧
          decodeField key whole = .ok label.key ∧ decodeField text whole = .ok value ∧
            value ≠ "" ∧ label.matcher = .equals value) ∨
        (splitOnceUnquoted raw '=' = none ∧ decodeField raw whole = .ok label.key ∧
          label.matcher = .any))) := by
  obtain ⟨key, matcher⟩ := label
  unfold parseQueryTerm
  split
  next rest =>
    rw [bind_eq_ok]
    constructor
    · rintro ⟨_, hkey, heq⟩
      cases heq
      exact Or.inl ⟨rest, rfl, hkey, rfl⟩
    · rintro (⟨_, heq, hkey, hmatcher⟩ | ⟨hbare, -⟩)
      · cases heq
        exact ⟨key, hkey, by rw [← hmatcher]⟩
      · exact absurd rfl (hbare rest)
  next hbare =>
    constructor
    · intro h
      refine Or.inr ⟨fun rest heq => hbare rest heq, ?_⟩
      cases hsplit : splitOnceUnquoted raw '=' with
      | none =>
        simp only [hsplit, bind_eq_ok] at h
        obtain ⟨_, hkey, heq⟩ := h
        cases heq
        exact Or.inr ⟨rfl, hkey, rfl⟩
      | some halves =>
        simp only [hsplit, bind_eq_ok] at h
        obtain ⟨value, hvalue, h⟩ := h
        split_ifs at h with hempty
        obtain ⟨_, hkey, heq⟩ := bind_eq_ok.mp h
        cases heq
        exact Or.inl ⟨_, _, value, rfl, hkey, hvalue, hempty, rfl⟩
    · rintro (⟨rest, heq, -⟩ | ⟨-, ⟨_, _, value, hsplit, hkey, hvalue, hne, hmatcher⟩ | h⟩)
      · exact (hbare rest heq).elim
      · simp only [hsplit, bind_eq_ok]
        refine ⟨value, hvalue, ?_⟩
        rw [if_neg hne]
        exact bind_eq_ok.mpr ⟨key, hkey, by rw [← hmatcher]⟩
      · obtain ⟨hsplit, hkey, hmatcher⟩ := h
        simp only [hsplit, bind_eq_ok]
        exact ⟨key, hkey, by rw [← hmatcher]⟩

lemma parseQueryTerm_other {label : KeyspaceLabelMatcherV1}
    (h : parseQueryTerm whole raw = .ok label) : parseQueryTerm other raw = .ok label := by
  rw [parseQueryTerm_eq_ok] at h ⊢
  rcases h with ⟨rest, hraw, hkey, hmatcher⟩ | ⟨hbare, h⟩
  · exact Or.inl ⟨rest, hraw, decodeField_other hkey, hmatcher⟩
  · refine Or.inr ⟨hbare, h.imp ?_ ?_⟩
    · rintro ⟨key, text, value, hsplit, hkey, hvalue, h⟩
      exact ⟨key, text, value, hsplit, decodeField_other hkey, decodeField_other hvalue, h⟩
    · rintro ⟨hsplit, hkey, hmatcher⟩
      exact ⟨hsplit, decodeField_other hkey, hmatcher⟩

/-- A term leaves no quoting open. -/
lemma closed_of_parseQueryTerm {label : KeyspaceLabelMatcherV1}
    (h : parseQueryTerm whole raw = .ok label) : run selectorMarks start raw = start := by
  have hmark : step selectorMarks start '!' = start := by decide
  have hequals : step selectorMarks start '=' = start := by decide
  rw [parseQueryTerm_eq_ok] at h
  rcases h with ⟨rest, rfl, hkey, -⟩ | ⟨-, ⟨key, text, value, hsplit, hkey, hvalue, -⟩ | ⟨-, hkey, -⟩⟩
  · rw [run_cons, hmark, closed_of_decodeField hkey]
  · obtain ⟨rfl, -⟩ := splitOnce_eq_some.mp hsplit
    rw [run_append, closed_of_decodeField hkey, run_cons, hequals,
      closed_of_decodeField hvalue]
  · exact closed_of_decodeField hkey

lemma pushQueryTerm_eq_ok {labels result : List KeyspaceLabelMatcherV1} :
    pushQueryTerm whole labels raw = .ok result ↔ ∃ label, parseQueryTerm whole raw = .ok label ∧
      label.key ≠ "" ∧ label.key ∉ labels.map (·.key) ∧ result = labels ++ [label] := by
  rw [pushQueryTerm, bind_eq_ok]
  refine exists_congr fun label => and_congr_right fun _ => ?_
  split_ifs with hempty hexisting
  · simp [hempty]
  · obtain ⟨existing, hexists, heq⟩ := List.any_eq_true.mp hexisting
    have hmem : label.key ∈ labels.map (·.key) :=
      List.mem_map.mpr ⟨existing, hexists, of_decide_eq_true heq⟩
    exact ⟨fun h => h.elim, fun h => absurd hmem h.2.1⟩
  · have hmem : label.key ∉ labels.map (·.key) := by
      rintro hmem
      obtain ⟨existing, hexists, heq⟩ := List.mem_map.mp hmem
      exact hexisting (List.any_eq_true.mpr ⟨existing, hexists, decide_eq_true heq⟩)
    constructor
    · intro heq
      exact ⟨hempty, hmem, (Except.ok.inj heq).symm⟩
    · rintro ⟨-, -, rfl⟩
      rfl

/-- The terms are read one by one, and no key is empty or comes twice. -/
lemma pushQueryTerms_eq_ok {terms : List (List Char)} {labels result : List KeyspaceLabelMatcherV1}
    (hnodup : (labels.map (·.key)).Nodup) :
    terms.foldlM (pushQueryTerm whole) labels = .ok result ↔
      ∃ added, List.Forall₂ (fun raw label => parseQueryTerm whole raw = .ok label) terms added ∧
        (∀ label ∈ added, label.key ≠ "") ∧ ((labels ++ added).map (·.key)).Nodup ∧
          result = labels ++ added := by
  induction terms generalizing labels with
  | nil =>
    simp only [List.foldlM_nil, List.forall₂_nil_left_iff, exists_eq_left, List.append_nil,
      List.not_mem_nil, false_imp_iff, implies_true, true_and, hnodup]
    exact ⟨fun h => (Except.ok.inj h).symm, fun h => by rw [h]; rfl⟩
  | cons raw terms ih =>
    rw [List.foldlM_cons, bind_eq_ok]
    simp only [pushQueryTerm_eq_ok, List.forall₂_cons_left_iff]
    constructor
    · rintro ⟨_, ⟨label, hlabel, hne, hnew, rfl⟩, h⟩
      have hnodup' : ((labels ++ [label]).map (·.key)).Nodup := by
        rw [List.map_append, List.map_singleton, ← List.concat_eq_append]
        exact hnodup.concat hnew
      obtain ⟨added, hadded, hkeys, hdistinct, rfl⟩ := (ih hnodup').mp h
      exact ⟨label :: added, ⟨label, added, hlabel, hadded, rfl⟩,
        List.forall_mem_cons.mpr ⟨hne, hkeys⟩, by simpa using hdistinct, by simp⟩
    · rintro ⟨_, ⟨label, added, hlabel, hadded, rfl⟩, hkeys, hdistinct, rfl⟩
      obtain ⟨hne, hkeys⟩ := List.forall_mem_cons.mp hkeys
      have hsplit : labels ++ label :: added = (labels ++ [label]) ++ added := by simp
      rw [hsplit] at hdistinct
      have hnodup' : ((labels ++ [label]).map (·.key)).Nodup := by
        rw [List.map_append] at hdistinct
        exact hdistinct.of_append_left
      have hnew : label.key ∉ labels.map (·.key) := by
        rw [List.map_append, List.map_singleton, List.nodup_append] at hnodup'
        exact fun hmem => hnodup'.2.2 _ hmem _ (by simp) rfl
      exact ⟨_, ⟨label, hlabel, hne, hnew, rfl⟩,
        (ih hnodup').mpr ⟨added, hadded, hkeys, hdistinct, hsplit⟩⟩

end Accepting

/-- The terms of the label section of a text. -/
def labelTerms (value : String) : List (List Char) :=
  (splitLabelSection value.toList).2.getD []

/-- What a query accepts, and what it makes of it. -/
lemma parseSecretQuery_eq_ok {value : String} {selector : KeyspaceSelectorV1} :
    parseSecretQuery value = .ok selector ↔
      parseQueryTuple value (splitLabelSection value.toList).1
        (splitLabelSection value.toList).2.isSome = .ok selector.tuple ∧
      List.Forall₂ (fun raw label => parseQueryTerm value raw = .ok label) (labelTerms value)
        selector.labels ∧
      (∀ label ∈ selector.labels, label.key ≠ "") ∧ (selector.labels.map (·.key)).Nodup := by
  obtain ⟨tuple, labels⟩ := selector
  have hnil : (([] : List KeyspaceLabelMatcherV1).map (·.key)).Nodup := List.nodup_nil
  simp only [parseSecretQuery, bind_eq_ok, pushQueryTerms_eq_ok hnil, labelTerms, List.nil_append]
  constructor
  · rintro ⟨_, htuple, _, ⟨_, hterms, hkeys, hnodup, rfl⟩, h⟩
    cases h
    exact ⟨htuple, hterms, hkeys, hnodup⟩
  · rintro ⟨htuple, hterms, hkeys, hnodup⟩
    exact ⟨tuple, htuple, labels, ⟨labels, hterms, hkeys, hnodup, rfl⟩, rfl⟩

/-! ### A printed selector as a query -/

section Printed

variable {selector : SecretSelectorV1} {tuple other : List String}

lemma escapeSegment_injective : Function.Injective escapeSegment := by
  intro value value' h
  have hdecode := decode_escapeSegment value
  rw [h, decode_escapeSegment] at hdecode
  exact (String.toList_inj.mp (Option.some.inj hdecode)).symm

lemma escapeTuple_inj (h : tuple ≠ []) (h' : other ≠ []) :
    escapeTuple tuple = escapeTuple other ↔ tuple = other := by
  constructor
  · intro heq
    have hsplit := splitUnquoted_escapeTuple h
    rw [heq, splitUnquoted_escapeTuple h'] at hsplit
    exact (List.map_injective_iff.mpr escapeSegment_injective hsplit).symm
  · rintro rfl
    rfl

/-- No tuple is printed as a bare `/`. -/
lemma escapeTuple_ne_slash (h : tuple ≠ []) : escapeTuple tuple ≠ ['/'] := by
  intro heq
  have hsplit := splitUnquoted_escapeTuple h
  have hslash : splitUnquoted ['/'] '/' = [[], []] := by decide
  rw [heq, hslash] at hsplit
  obtain ⟨segment, -, hnil⟩ := List.mem_map.mp (hsplit ▸ List.mem_cons_self)
  exact escapeSegment_ne_nil segment hnil

/-- The path of a printed selector is a prefix, unless it is spelled like the whole vault. -/
lemma parseQueryTuple_escapeTuple {whole : String} {labelled : Bool} (hnamed : tuple ≠ [])
    (hsegments : ∀ segment ∈ tuple, segment ≠ "") :
    parseQueryTuple whole (escapeTuple tuple) labelled =
      .ok (if tuple = ["*"] ∨ tuple = ["."] then .any else .prefixed tuple) := by
  have hstar : escapeTuple tuple = ['*'] ↔ tuple = ["*"] :=
    escapeTuple_inj hnamed (List.cons_ne_nil "*" [])
  have hdot : escapeTuple tuple = ['.'] ↔ tuple = ["."] :=
    escapeTuple_inj hnamed (List.cons_ne_nil "." [])
  simp only [parseQueryTuple, hstar, hdot, escapeTuple_ne_slash hnamed, escapeTuple_ne_nil hnamed,
    or_false, false_and, if_false, parseTuplePath_escapeTuple hnamed hsegments]
  split_ifs <;> rfl

/-- A field does not begin with a bare mark. -/
lemma escapeSegment_append_ne {value : String} {text rest : List Char} {c : Char}
    (hc : c ∈ structuralChars) (hquote : c ≠ '"') : escapeSegment value ++ text ≠ c :: rest := by
  intro heq
  obtain ⟨first, field, hfield⟩ := List.exists_cons_of_ne_nil (escapeSegment_ne_nil value)
  rw [hfield, List.cons_append] at heq
  obtain ⟨rfl, -⟩ := List.cons.inj heq
  obtain ⟨hbare, -, hplain⟩ | hquoted := escapeSegment_cases value
  · have hmem : first ∈ value.toList := by
      rw [← hbare, hfield]
      exact List.mem_cons_self
    exact not_structural hplain hmem hc
  · rw [hquoted] at hfield
    obtain ⟨hmark, -⟩ := List.cons.inj hfield
    exact hquote hmark.symm

/-- A printed label asks for its value. -/
lemma parseQueryTerm_labelText {whole : String} {label : SecretLabelV1} (h : label.value ≠ "") :
    parseQueryTerm whole (labelText label) = .ok ⟨label.key, .equals label.value⟩ := by
  rw [parseQueryTerm_eq_ok]
  exact Or.inr ⟨fun _ => escapeSegment_append_ne (by decide) (by decide), Or.inl ⟨_, _, label.value,
    splitOnceUnquoted_labelText label, decodeField_escapeSegment _ _, decodeField_escapeSegment _ _,
      h, rfl⟩⟩

/-- The query that a printed selector is. -/
def printedQuery (selector : SecretSelectorV1) : KeyspaceSelectorV1 where
  tuple := if selector.tuple = ["*"] ∨ selector.tuple = ["."] then .any
    else .prefixed selector.tuple
  labels := selector.labels.map fun label => ⟨label.key, .equals label.value⟩

lemma parseSecretQuery_selectorString (h : Spellable selector) :
    parseSecretQuery (selectorString selector) = .ok (printedQuery selector) := by
  have hterms : labelTerms (selectorString selector) = selector.labels.map labelText := by
    rw [labelTerms, selectorString, String.toList_ofList, splitLabelSection_selectorText]
    split_ifs with hnil
    · rw [hnil]
      rfl
    · rfl
  rw [parseSecretQuery_eq_ok, hterms]
  refine ⟨?_, ?_, ?_, ?_⟩
  · rw [selectorString, String.toList_ofList, splitLabelSection_selectorText]
    exact parseQueryTuple_escapeTuple h.named h.segments
  · rw [printedQuery, List.forall₂_map_left_iff, List.forall₂_map_right_iff, List.forall₂_same]
    exact fun label hlabel => parseQueryTerm_labelText (h.labels label hlabel).2
  · intro label hlabel
    obtain ⟨written, hwritten, rfl⟩ := List.mem_map.mp hlabel
    exact (h.labels written hwritten).1
  · have hkeys : ((printedQuery selector).labels.map (·.key)) = selector.labels.map (·.key) := by
      simp [printedQuery]
    rw [hkeys]
    exact h.sorted.imp fun hlt => hlt.ne

/-- In a secret whose keys differ, a label is read back exactly if it is there. -/
lemma secretLabelValue_eq_some {secret : SecretSelectorV1} {key value : String}
    (h : (secret.labels.map (·.key)).Nodup) :
    secretLabelValue secret key = some value ↔ ⟨key, value⟩ ∈ secret.labels := by
  obtain ⟨tuple, labels⟩ := secret
  unfold secretLabelValue
  constructor
  · intro hfind
    obtain ⟨⟨_, _⟩, hlabel, rfl⟩ := Option.map_eq_some_iff.mp hfind
    obtain rfl : _ = key := by simpa using List.find?_some hlabel
    exact List.mem_of_find?_eq_some hlabel
  · intro hmem
    cases hfind : labels.find? (·.key == key) with
    | none => exact absurd (List.find?_eq_none.mp hfind _ hmem) (by simp)
    | some label =>
      have hkey : label.key = key := by simpa using List.find?_some hfind
      have heq := List.inj_on_of_nodup_map h (List.mem_of_find?_eq_some hfind) hmem hkey
      rw [heq]
      rfl

/-- A matcher selects what lies under a selector: the secrets with its tuple as a prefix, and with
its labels. -/
def SelectsSubtree (grant : KeyspaceSelectorV1) (selector : SecretSelectorV1) : Prop :=
  ∀ secret, validateSecretSelector secret = .ok () →
    (selectorMatches grant secret = true ↔
      selector.tuple <+: secret.tuple ∧ ∀ label ∈ selector.labels, label ∈ secret.labels)

lemma nodup_of_validateSecretSelector {secret : SecretSelectorV1}
    (h : validateSecretSelector secret = .ok ()) : (secret.labels.map (·.key)).Nodup :=
  (validateSecretSelector_iff.mp h).imp fun hlt => hlt.ne

/-- Labels that are asked for by value match exactly where they are. -/
lemma all_labelMatches_equals {labels : List SecretLabelV1} {secret : SecretSelectorV1}
    (h : validateSecretSelector secret = .ok ()) :
    ((labels.map fun label => (⟨label.key, .equals label.value⟩ : KeyspaceLabelMatcherV1)).all
      fun label => labelMatches label.matcher (secretLabelValue secret label.key)) = true ↔
        ∀ label ∈ labels, label ∈ secret.labels := by
  rw [List.all_map, List.all_eq_true]
  refine forall₂_congr fun label _ => ?_
  rw [← secretLabelValue_eq_some (nodup_of_validateSecretSelector h)]
  simp [labelMatches]

lemma selectsSubtree_printedQuery (h : Spellable selector) :
    SelectsSubtree (printedQuery selector) selector ↔
      selector.tuple ≠ ["*"] ∧ selector.tuple ≠ ["."] := by
  rw [← not_or]
  constructor
  · intro hselects hspelling
    have hvalid : validateSecretSelector ⟨["", ""], selector.labels⟩ = .ok () :=
      validateSecretSelector_iff.mpr h.sorted
    have hmatches : selectorMatches (printedQuery selector) ⟨["", ""], selector.labels⟩ = true := by
      rw [selectorMatches, Bool.and_eq_true, printedQuery, if_pos hspelling]
      exact ⟨rfl, (all_labelMatches_equals hvalid).mpr fun _ => id⟩
    obtain ⟨hbegins, -⟩ := (hselects _ hvalid).mp hmatches
    rcases hspelling with heq | heq
    · rw [heq] at hbegins
      exact absurd hbegins (by decide : ¬ ["*"] <+: ["", ""])
    · rw [heq] at hbegins
      exact absurd hbegins (by decide : ¬ ["."] <+: ["", ""])
  · intro hspelling secret hvalid
    rw [selectorMatches, Bool.and_eq_true, printedQuery, if_neg hspelling,
      all_labelMatches_equals hvalid, tupleMatches, List.isPrefixOf_iff_prefix]

end Printed

/-- A printed selector always reads as a query, and the query selects what lies under the selector
exactly if its tuple is not the one segment `*` or the one segment `.`, which are printed bare. -/
theorem printed_selectsSubtree_iff {value : String} {selector : SecretSelectorV1}
    (h : parseSecretSelector value = .ok selector) :
    (∃ grant, parseSecretQuery (selectorString selector) = .ok grant ∧
      SelectsSubtree grant selector) ↔ selector.tuple ≠ ["*"] ∧ selector.tuple ≠ ["."] := by
  have hspellable := spellable_of_parse h
  rw [← selectsSubtree_printedQuery hspellable, parseSecretQuery_selectorString hspellable]
  exact ⟨fun ⟨_, heq, hselects⟩ => Except.ok.inj heq ▸ hselects, fun hselects => ⟨_, rfl, hselects⟩⟩

theorem printed_selectsSubtree_iff_app :
    (∃ grant, parseSecretQuery (selectorString ⟨["app"], [⟨"env", "prod"⟩]⟩) = .ok grant ∧
      SelectsSubtree grant ⟨["app"], [⟨"env", "prod"⟩]⟩) :=
  (printed_selectsSubtree_iff
    (by decide : parseSecretSelector "app@env=prod" = .ok ⟨["app"], [⟨"env", "prod"⟩]⟩)).mpr
      (by decide)

/-- The segment `*` is printed as the whole vault. -/
theorem not_printed_selectsSubtree : ¬ ∀ value selector,
    parseSecretSelector value = .ok selector → ∃ grant,
      parseSecretQuery (selectorString selector) = .ok grant ∧ SelectsSubtree grant selector := by
  intro h
  obtain ⟨grant, hgrant, hselects⟩ := h "*" ⟨["*"], []⟩ (by decide)
  have hall : parseSecretQuery (selectorString ⟨["*"], []⟩) = .ok .all := by decide
  rw [hall] at hgrant
  obtain rfl := Except.ok.inj hgrant
  have hbegins := ((hselects ⟨["app"], []⟩ (by decide)).mp (by decide)).1
  exact absurd hbegins (by decide)

/-! ### The order of the terms -/

/-- Two texts with one path, and with the same terms in some order. -/
def Reordered (value other : String) : Prop :=
  (splitLabelSection value.toList).1 = (splitLabelSection other.toList).1 ∧
    (labelTerms value).Perm (labelTerms other)

section Orders

variable {value other : String} {grant grant' : KeyspaceSelectorV1}

/-- A query passes validation exactly if the keys of its terms ascend as they are written. -/
lemma validate_query_iff (h : parseSecretQuery value = .ok grant) :
    validateKeyspaceSelector grant = .ok () ↔ (grant.labels.map (·.key)).Pairwise (· < ·) := by
  obtain ⟨htuple, hterms, -, -⟩ := parseSecretQuery_eq_ok.mp h
  have hmatchers : ∀ label ∈ grant.labels, ∀ values, label.matcher ≠ .isIn values := by
    intro label hlabel values hmatcher
    obtain ⟨raw, -, hraw⟩ := (mem_of_mapM (mapM_eq_ok.mpr hterms)).2 label hlabel
    rcases parseQueryTerm_eq_ok.mp hraw with ⟨_, -, -, heq⟩ | ⟨-, ⟨_, _, _, -, -, -, -, heq⟩ | ⟨-, -, heq⟩⟩
    all_goals rw [heq] at hmatcher; exact LabelMatcherV1.noConfusion hmatcher
  rw [validateKeyspaceSelector, if_neg (parseQueryTuple_ne htuple), ← isSortedUnique_iff_pairwise]
  constructor
  · intro hvalid
    obtain ⟨_, hlabels, -⟩ := bind_eq_ok.mp hvalid
    exact (check_eq_ok.mp hlabels).1
  · intro hsorted
    refine bind_eq_ok.mpr ⟨(), if_pos hsorted, forM_eq_ok.mpr fun label hlabel => ?_⟩
    split
    next values heq => exact absurd heq (hmatchers label hlabel values)
    next => rfl

lemma length_labels (h : parseSecretQuery value = .ok grant) :
    grant.labels.length = (labelTerms value).length :=
  (parseSecretQuery_eq_ok.mp h).2.1.length_eq.symm

/-- A label section has terms. -/
lemma isSome_labelSection (value : String) :
    (splitLabelSection value.toList).2.isSome = true ↔ labelTerms value ≠ [] := by
  rw [labelTerms, splitLabelSection]
  cases splitOnceUnquoted value.toList '@' with
  | none => simp
  | some halves => simp [splitUnquoted, split_ne_nil]

/-- Texts with one path and the same terms in one order are one query. -/
lemma parseSecretQuery_of_terms (h : parseSecretQuery value = .ok grant)
    (hpath : (splitLabelSection value.toList).1 = (splitLabelSection other.toList).1)
    (hterms : labelTerms value = labelTerms other) : parseSecretQuery other = .ok grant := by
  have hsome : (splitLabelSection value.toList).2.isSome =
      (splitLabelSection other.toList).2.isSome := by
    rw [Bool.eq_iff_iff, isSome_labelSection, isSome_labelSection, hterms]
  rw [parseSecretQuery_eq_ok, hpath, hsome, hterms] at h
  rw [parseSecretQuery_eq_ok]
  exact ⟨parseQueryTuple_other h.1, h.2.1.imp fun _ _ => parseQueryTerm_other, h.2.2⟩

/-- The text with the terms of another in reverse. -/
def reversed (value : String) : String :=
  String.ofList ((splitLabelSection value.toList).1 ++
    '@' :: List.intercalate ['&'] (labelTerms value).reverse)

/-- What a query accepts is split from its terms in reverse as well. -/
lemma splitLabelSection_reversed (h : parseSecretQuery value = .ok grant)
    (hterms : labelTerms value ≠ []) : splitLabelSection (reversed value).toList =
      ((splitLabelSection value.toList).1, some (labelTerms value).reverse) := by
  obtain ⟨-, hread, -, -⟩ := parseSecretQuery_eq_ok.mp h
  have hclosed : ∀ raw ∈ labelTerms value, run selectorMarks start raw = start := by
    intro raw hraw
    obtain ⟨label, -, hlabel⟩ := (mem_of_mapM (mapM_eq_ok.mpr hread)).1 raw hraw
    exact closed_of_parseQueryTerm hlabel
  rw [reversed, String.toList_ofList]
  cases hsplit : splitOnceUnquoted value.toList '@' with
  | none => simp [labelTerms, splitLabelSection, hsplit] at hterms
  | some halves =>
    obtain ⟨path, labels⟩ := halves
    obtain ⟨-, hpath, -⟩ := splitOnce_eq_some.mp hsplit
    have hlabels : labelTerms value = splitUnquoted labels '&' := by
      simp [labelTerms, splitLabelSection, hsplit]
    have hwhole : ∀ raw ∈ (labelTerms value).reverse, Whole selectorMarks '&' raw := by
      intro raw hraw
      rw [List.mem_reverse] at hraw
      exact ⟨hclosed raw hraw, unsplit_of_mem_split (hlabels ▸ hraw)⟩
    have hagain : splitOnce selectorMarks '@' (path ++
        '@' :: List.intercalate ['&'] (labelTerms value).reverse) =
          some (path, List.intercalate ['&'] (labelTerms value).reverse) :=
      splitOnce_eq_some.mpr ⟨rfl, hpath, by decide, by decide⟩
    have hparts : splitUnquoted (List.intercalate ['&'] (labelTerms value).reverse) '&' =
        (labelTerms value).reverse :=
      split_intercalate (by decide) (by decide) (by simpa using hterms) hwhole
    have hfirst : (splitLabelSection value.toList).1 = path := by
      simp [splitLabelSection, hsplit]
    rw [hfirst, splitLabelSection, splitOnceUnquoted, hagain]
    simp only [hparts]

lemma parseSecretQuery_reversed (h : parseSecretQuery value = .ok grant)
    (hterms : labelTerms value ≠ []) : Reordered value (reversed value) ∧
      parseSecretQuery (reversed value) = .ok { grant with labels := grant.labels.reverse } := by
  have hsplit := splitLabelSection_reversed h hterms
  have hreversed : labelTerms (reversed value) = (labelTerms value).reverse := by
    rw [labelTerms, hsplit]
    rfl
  have hsome := (isSome_labelSection value).mpr hterms
  rw [parseSecretQuery_eq_ok, hsome] at h
  obtain ⟨htuple, hread, hkeys, hnodup⟩ := h
  refine ⟨⟨by rw [hsplit], by rw [hreversed]; exact (List.reverse_perm _).symm⟩, ?_⟩
  rw [parseSecretQuery_eq_ok, hreversed, hsplit]
  refine ⟨parseQueryTuple_other htuple, ?_, ?_, ?_⟩
  · exact List.forall₂_reverse_iff.mpr (hread.imp fun _ _ => parseQueryTerm_other)
  · simpa using hkeys
  · rw [List.map_reverse]
    exact List.nodup_reverse.mpr hnodup

/-- A list without duplicates that is its own reverse has at most one element. -/
lemma length_le_one_of_reverse {α : Type} {items : List α} (hnodup : items.Nodup)
    (h : items.reverse = items) : items.length ≤ 1 := by
  by_contra hlength
  have hends := List.getElem_reverse (l := items) (i := 0) (by simp; omega)
  simp only [h] at hends
  have hindex := (hnodup.getElem_inj_iff).mp hends
  omega

end Orders

/-- A query that stands for a grant: it passes validation, and no order of its terms stands for
another. -/
def CanonicalQuery (value : String) (grant : KeyspaceSelectorV1) : Prop :=
  validateKeyspaceSelector grant = .ok () ∧
    ∀ other grant', Reordered value other → parseSecretQuery other = .ok grant' → grant' = grant

/-- A query is canonical exactly if it has at most one label term: the terms stay in the order they
are written in. -/
theorem canonicalQuery_iff {value : String} {grant : KeyspaceSelectorV1}
    (h : parseSecretQuery value = .ok grant) :
    CanonicalQuery value grant ↔ (labelTerms value).length ≤ 1 := by
  rw [← length_labels h]
  have hnodup := (parseSecretQuery_eq_ok.mp h).2.2.2
  constructor
  · rintro ⟨-, horder⟩
    by_cases hterms : labelTerms value = []
    · rw [length_labels h, hterms]
      exact Nat.zero_le 1
    · obtain ⟨hreordered, hreversed⟩ := parseSecretQuery_reversed h hterms
      have heq := congrArg KeyspaceSelectorV1.labels (horder _ _ hreordered hreversed)
      exact length_le_one_of_reverse hnodup.of_map heq
  · intro hlength
    constructor
    · rw [validate_query_iff h]
      match hlabels : grant.labels with
      | [] => simp
      | [_] => simp
      | _ :: _ :: _ => simp [hlabels] at hlength
    · rintro other grant' ⟨hpath, hperm⟩ hother
      rw [length_labels h] at hlength
      have hterms : labelTerms value = labelTerms other := by
        match hvalue : labelTerms value with
        | [] => exact (List.nil_perm.mp (hvalue ▸ hperm)).symm
        | [_] => exact List.singleton_perm.mp (hvalue ▸ hperm)
        | _ :: _ :: _ => simp [hvalue] at hlength
      have hsame := parseSecretQuery_of_terms h hpath hterms
      rw [hother] at hsame
      exact Except.ok.inj hsame

theorem canonicalQuery_iff_app :
    CanonicalQuery "app@env=prod" ⟨.prefixed ["app"], [⟨"env", .equals "prod"⟩]⟩ :=
  (canonicalQuery_iff (by decide : parseSecretQuery "app@env=prod" =
    .ok ⟨.prefixed ["app"], [⟨"env", .equals "prod"⟩]⟩)).mpr (by decide)

/-- Two orders of two terms are two grants, and one of them does not pass validation. -/
theorem not_canonicalQuery :
    (¬ ∀ value grant, parseSecretQuery value = .ok grant →
      validateKeyspaceSelector grant = .ok ()) ∧
    ¬ ∀ value other grant grant', parseSecretQuery value = .ok grant →
      parseSecretQuery other = .ok grant' → Reordered value other → grant = grant' := by
  have hread : parseSecretQuery "app@b=1&a=2" =
      .ok ⟨.prefixed ["app"], [⟨"b", .equals "1"⟩, ⟨"a", .equals "2"⟩]⟩ := by decide
  have hother : parseSecretQuery "app@a=2&b=1" =
      .ok ⟨.prefixed ["app"], [⟨"a", .equals "2"⟩, ⟨"b", .equals "1"⟩]⟩ := by decide
  constructor
  · intro h
    exact absurd (h _ _ hread) (by decide)
  · intro h
    exact absurd (h _ _ _ _ hread hother ⟨by decide, by decide⟩) (by decide)

end Thorax
