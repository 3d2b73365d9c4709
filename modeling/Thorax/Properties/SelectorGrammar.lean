import Thorax.Frontend.Selector
import Thorax.Properties.Keyspaces

/-!
# Reading what was written

The grammar and the renderer agree on the selectors that the grammar can spell: those with a
nonempty tuple of nonempty segments, and nonempty labels in the order of their keys. Each of them is
read back from what is printed for it, and nothing else is ever read.
-/

open Std (TransCmp TransOrd LawfulEqOrd OrientedCmp)

namespace Thorax

open Collections Quoted Durable

/-- A selector that the grammar has a spelling for. -/
structure Spellable (selector : SecretSelectorV1) : Prop where
  named : selector.tuple ≠ []
  segments : ∀ segment ∈ selector.tuple, segment ≠ ""
  labels : ∀ label ∈ selector.labels, label.key ≠ "" ∧ label.value ≠ ""
  sorted : (selector.labels.map (·.key)).Pairwise (· < ·)

/-! ### Fields -/

section Fields

variable {delim : Char} {value whole : String} {raw : List Char}

lemma not_structural (h : value.toList.any structuralChars.contains = false) {c : Char}
    (hc : c ∈ value.toList) : c ∉ structuralChars := by
  rw [List.any_eq_false] at h
  have := h c hc
  rwa [List.contains_iff_mem] at this

lemma plain_of_not_structural (h : value.toList.any structuralChars.contains = false) :
    ∀ c ∈ value.toList, c ≠ selectorMarks.escape ∧ c ≠ selectorMarks.quote := by
  intro c hc
  have hnot := not_structural h hc
  constructor
  · rintro rfl
    exact hnot (by decide)
  · rintro rfl
    exact hnot (by decide)

/-- A field is bare or one quoted run. -/
lemma escapeSegment_cases (value : String) :
    (escapeSegment value = value.toList ∧ value ≠ "" ∧
      value.toList.any structuralChars.contains = false) ∨
      escapeSegment value = quoted selectorMarks value.toList := by
  rw [escapeSegment]
  split_ifs with h
  · exact Or.inl ⟨rfl, h.1, by simpa using h.2⟩
  · exact Or.inr rfl

lemma whole_escapeSegment (hdelim : delim ∈ structuralChars) (value : String) :
    Whole selectorMarks delim (escapeSegment value) := by
  obtain ⟨heq, -, hplain⟩ | heq := escapeSegment_cases value
  · rw [heq]
    exact whole_of_plain (plain_of_not_structural hplain)
      fun hmem => not_structural hplain hmem hdelim
  · rw [heq]
    exact whole_quoted _

lemma decode_escapeSegment (value : String) :
    decode selectorMarks (escapeSegment value) = some value.toList := by
  obtain ⟨heq, -, hplain⟩ | heq := escapeSegment_cases value
  · rw [heq]
    exact decode_of_plain (plain_of_not_structural hplain)
  · rw [heq]
    exact decode_quoted _

lemma escapeSegment_ne_nil (value : String) : escapeSegment value ≠ [] := by
  obtain ⟨heq, hne, -⟩ | heq := escapeSegment_cases value
  · rw [heq]
    exact mt String.toList_eq_nil_iff.mp hne
  · rw [heq]
    exact List.cons_ne_nil _ _

/-- A field decodes exactly if its quoting is closed. -/
lemma decodeField_eq_ok : decodeField raw whole = .ok value ↔
    decode selectorMarks raw = some value.toList := by
  have hstart : ∀ state : State, state = start ↔ state.escaped = false ∧ state.inQuote = false := by
    rintro ⟨inQuote, escaped⟩
    simp [start, and_comm]
  simp only [decodeField, decode, hstart]
  cases (run selectorMarks start raw).escaped
  · cases (run selectorMarks start raw).inQuote
    · simp [← String.toList_inj]
    · simp
  · simp

@[simp] lemma decodeField_escapeSegment (value whole : String) :
    decodeField (escapeSegment value) whole = .ok value :=
  decodeField_eq_ok.mpr (decode_escapeSegment value)

end Fields

/-! ### Tuples -/

section Tuples

variable {whole : String} {path : List Char} {tuple : List String}

lemma escapeTuple_ne_nil (h : tuple ≠ []) : escapeTuple tuple ≠ [] := by
  obtain ⟨segment, rest, rfl⟩ := List.exists_cons_of_ne_nil h
  have hsegment := escapeSegment_ne_nil segment
  cases rest with
  | nil => simpa [escapeTuple] using hsegment
  | cons other rest => simp [escapeTuple, List.intercalate_cons_cons, hsegment]

lemma splitUnquoted_escapeTuple (h : tuple ≠ []) :
    splitUnquoted (escapeTuple tuple) '/' = tuple.map escapeSegment := by
  apply split_intercalate (by decide) (by decide) (by simpa using h)
  intro part hpart
  obtain ⟨segment, -, rfl⟩ := List.mem_map.mp hpart
  exact whole_escapeSegment (by decide) segment

lemma parseSegment_eq_ok {raw : List Char} {segment : String} :
    parseSegment whole raw = .ok segment ↔
      decodeField raw whole = .ok segment ∧ segment ≠ "" := by
  rw [parseSegment, bind_eq_ok]
  constructor
  · rintro ⟨value, hdecode, h⟩
    split_ifs at h with hempty
    cases h
    exact ⟨hdecode, hempty⟩
  · rintro ⟨hdecode, hne⟩
    exact ⟨segment, hdecode, by rw [if_neg hne]⟩

/-- A path is read as a nonempty tuple of nonempty segments. -/
lemma parseTuplePath_eq_ok (h : parseTuplePath whole path = .ok tuple) :
    tuple ≠ [] ∧ ∀ segment ∈ tuple, segment ≠ "" := by
  rw [parseTuplePath] at h
  split_ifs at h with hempty
  constructor
  · rintro rfl
    have hlength := (mapM_eq_ok.mp h).length_eq
    exact split_ne_nil selectorMarks '/' path (List.eq_nil_of_length_eq_zero hlength)
  · intro segment hsegment
    obtain ⟨raw, -, hraw⟩ := (mem_of_mapM h).2 segment hsegment
    exact (parseSegment_eq_ok.mp hraw).2

lemma parseTuplePath_escapeTuple (hnamed : tuple ≠ [])
    (hsegments : ∀ segment ∈ tuple, segment ≠ "") :
    parseTuplePath whole (escapeTuple tuple) = .ok tuple := by
  rw [parseTuplePath, if_neg (escapeTuple_ne_nil hnamed), splitUnquoted_escapeTuple hnamed,
    mapM_eq_ok, List.forall₂_map_left_iff, List.forall₂_same]
  intro segment hsegment
  exact parseSegment_eq_ok.mpr ⟨decodeField_escapeSegment _ _, hsegments segment hsegment⟩

end Tuples

/-! ### Labels -/

section Labels

variable {whole : String}

/-- What separates fields is whole at any other delimiter. -/
lemma whole_separator {separator delim : Char} (hmarks : separator ≠ '\\' ∧ separator ≠ '"')
    (hne : separator ≠ delim) : Whole selectorMarks delim [separator] := by
  apply whole_of_plain
  · intro c hc
    rwa [List.mem_singleton.mp hc]
  · simpa using hne.symm

lemma whole_escapeTuple (tuple : List String) :
    Whole selectorMarks '@' (escapeTuple tuple) := by
  apply Whole.intercalate (whole_separator (by decide) (by decide))
  intro part hpart
  obtain ⟨segment, -, rfl⟩ := List.mem_map.mp hpart
  exact whole_escapeSegment (by decide) segment

lemma whole_labelText (label : SecretLabelV1) : Whole selectorMarks '&' (labelText label) := by
  have hequals : Whole selectorMarks '&' ['='] := whole_separator (by decide) (by decide)
  exact (whole_escapeSegment (by decide) label.key).append
    (hequals.append (whole_escapeSegment (by decide) label.value))

lemma splitOnceUnquoted_labelText (label : SecretLabelV1) :
    splitOnceUnquoted (labelText label) '=' =
      some (escapeSegment label.key, escapeSegment label.value) :=
  splitOnce_eq_some.mpr
    ⟨rfl, whole_escapeSegment (by decide) label.key, by decide, by decide⟩

/-- The labels, with `&` between them. -/
lemma selectorText_eq (selector : SecretSelectorV1) : selectorText selector =
    match selector.labels with
    | [] => escapeTuple selector.tuple
    | labels => escapeTuple selector.tuple ++
        '@' :: List.intercalate ['&'] (labels.map labelText) := by
  obtain ⟨tuple, labels⟩ := selector
  cases labels with
  | nil => simp [selectorText]
  | cons label labels =>
    have hlater : ∀ (labels : List SecretLabelV1) (label : SecretLabelV1),
        labelText label ++ (labels.map fun label => '&' :: labelText label).flatten =
          List.intercalate ['&'] ((label :: labels).map labelText) := by
      intro labels
      induction labels with
      | nil => simp
      | cons other labels ih =>
        intro label
        rw [List.map_cons, List.map_cons, List.map_cons, List.intercalate_cons_cons,
          ← List.map_cons, ← ih other]
        simp
    have hindex : (labels.mapIdx fun index label =>
        (if index + 1 = 0 then '@' else '&') :: labelText label) =
          labels.map fun label => '&' :: labelText label :=
      List.ext_getElem (by simp) (by simp)
    simp only [selectorText, List.mapIdx_cons, hindex, List.flatten_cons, if_true,
      List.cons_append, hlater]

/-- What is printed splits into what was printed of the tuple and of each label. -/
lemma splitLabelSection_selectorText (selector : SecretSelectorV1) :
    splitLabelSection (selectorText selector) = (escapeTuple selector.tuple,
      if selector.labels = [] then none else some (selector.labels.map labelText)) := by
  obtain ⟨tuple, labels⟩ := selector
  rw [selectorText_eq, splitLabelSection, splitOnceUnquoted]
  cases labels with
  | nil =>
    rw [(whole_escapeTuple tuple).unsplit]
    rfl
  | cons label labels =>
    have hsplit : splitOnce selectorMarks '@' (escapeTuple tuple ++
        '@' :: List.intercalate ['&'] ((label :: labels).map labelText)) =
          some (escapeTuple tuple, List.intercalate ['&'] ((label :: labels).map labelText)) :=
      splitOnce_eq_some.mpr ⟨rfl, whole_escapeTuple tuple, by decide, by decide⟩
    have hlabels : splitUnquoted (List.intercalate ['&'] ((label :: labels).map labelText)) '&' =
        (label :: labels).map labelText := by
      apply split_intercalate (by decide) (by decide) (by simp)
      intro part hpart
      obtain ⟨label, -, rfl⟩ := List.mem_map.mp hpart
      exact whole_labelText label
    simp only [hsplit, hlabels, List.cons_ne_nil, if_false]

lemma parseSecretLabel_labelText {label : SecretLabelV1}
    (h : label.key ≠ "" ∧ label.value ≠ "") :
    parseSecretLabel whole (labelText label) = .ok label := by
  rw [parseSecretLabel, splitOnceUnquoted_labelText]
  simp [h, bind, Except.bind]

lemma parseSecretLabel_eq_ok {raw : List Char} {label : SecretLabelV1}
    (h : parseSecretLabel whole raw = .ok label) : label.key ≠ "" ∧ label.value ≠ "" := by
  rw [parseSecretLabel] at h
  cases hsplit : splitOnceUnquoted raw '=' with
  | none => simp [hsplit] at h
  | some halves =>
    simp only [hsplit, bind_eq_ok] at h
    obtain ⟨key, -, value, -, h⟩ := h
    split_ifs at h with hempty
    cases h
    exact not_or.mp hempty

lemma compareSecretLabels_isLE {a b : SecretLabelV1}
    (h : (compareSecretLabels a b).isLE = true) : a.key ≤ b.key := by
  rw [compareSecretLabels, compareLex, Ordering.isLE_then_iff_and] at h
  exact compare_le_iff_le.mp (Ordering.isLE_iff_ne_gt.mp h.1)

lemma compareSecretLabels_of_lt {a b : SecretLabelV1} (h : a.key < b.key) :
    (compareSecretLabels a b).isLE = true := by
  rw [compareSecretLabels, compareLex, compareOn, compareOn, compare_lt_iff_lt.mpr h]
  rfl

instance : TransCmp compareSecretLabels :=
  inferInstanceAs (TransCmp (compareLex (compareOn SecretLabelV1.key)
    (compareOn SecretLabelV1.value)))

/-- Among sorted labels, no two neighbours share a key exactly if the keys ascend. -/
lemma distinct_iff_pairwise {labels : List SecretLabelV1}
    (h : labels.Pairwise fun a b => (compareSecretLabels a b).isLE = true) :
    (labels.zip labels.tail).any (fun pair => pair.1.key = pair.2.key) = false ↔
      (labels.map (·.key)).Pairwise (· < ·) := by
  rw [← List.isChain_iff_pairwise, List.isChain_map]
  induction labels with
  | nil => simp
  | cons a labels ih =>
    cases labels with
    | nil => simp
    | cons b labels =>
      obtain ⟨ha, hlabels⟩ := List.pairwise_cons.mp h
      have hle := compareSecretLabels_isLE (ha b List.mem_cons_self)
      rw [List.isChain_cons_cons, ← ih hlabels, hle.lt_iff_ne]
      simp

lemma sortBy_of_pairwise {labels : List SecretLabelV1}
    (h : (labels.map (·.key)).Pairwise (· < ·)) :
    sortBy compareSecretLabels labels = labels := by
  apply List.Pairwise.insertionSort_eq
  exact (List.pairwise_map.mp h).imp compareSecretLabels_of_lt

end Labels

/-! ### Round trips -/

section RoundTrips

variable {selector other : SecretSelectorV1} {value : String}

/-- What is printed for a spellable selector is read as that selector. -/
lemma parse_selectorString (h : Spellable selector) :
    parseSecretSelector (selectorString selector) = .ok selector := by
  obtain ⟨tuple, labels⟩ := selector
  obtain ⟨hnamed, hsegments, hlabels, hsorted⟩ := h
  have hsection : (if labels = [] then none else some (labels.map labelText)).getD [] =
      labels.map labelText := by
    split_ifs with hnil
    · rw [hnil]
      rfl
    · rfl
  have hdistinct := (distinct_iff_pairwise
    ((List.pairwise_map.mp hsorted).imp compareSecretLabels_of_lt)).mpr hsorted
  have hread : (labels.map labelText).mapM
      (parseSecretLabel (selectorString ⟨tuple, labels⟩)) = .ok labels := by
    rw [mapM_eq_ok, List.forall₂_map_left_iff, List.forall₂_same]
    exact fun label hlabel => parseSecretLabel_labelText (hlabels label hlabel)
  rw [parseSecretSelector, selectorString, String.toList_ofList, splitLabelSection_selectorText]
  simp only [parseTuplePath_escapeTuple hnamed hsegments, hsection]
  simp only [selectorString] at hread
  simp only [hread, bind, Except.bind, sortBy_of_pairwise hsorted, hdistinct,
    Bool.false_eq_true, if_false]

/-- Whatever is read has a spelling. -/
lemma spellable_of_parse (h : parseSecretSelector value = .ok selector) : Spellable selector := by
  simp only [parseSecretSelector, bind_eq_ok] at h
  obtain ⟨tuple, htuple, labels, hlabels, h⟩ := h
  split_ifs at h with hkeys
  cases h
  obtain ⟨hnamed, hsegments⟩ := parseTuplePath_eq_ok htuple
  refine ⟨hnamed, hsegments, ?_,
    (distinct_iff_pairwise (pairwise_sortBy _ _)).mp (Bool.eq_false_iff.mpr hkeys)⟩
  intro label hlabel
  obtain ⟨raw, -, hraw⟩ := (mem_of_mapM hlabels).2 label ((mem_sortBy _).mp hlabel)
  exact parseSecretLabel_eq_ok hraw

/-- The selectors that are read back from what is printed for them. -/
lemma parse_selectorString_iff :
    parseSecretSelector (selectorString selector) = .ok selector ↔ Spellable selector :=
  ⟨spellable_of_parse, parse_selectorString⟩

lemma selectorString_inj (h : Spellable selector) (h' : Spellable other)
    (heq : selectorString selector = selectorString other) : selector = other := by
  have hread := parse_selectorString h
  rw [heq, parse_selectorString h'] at hread
  exact (Except.ok.inj hread).symm

end RoundTrips

/-- Printing and reading selectors are inverse on the spellable ones, different ones are printed
differently, and whatever is read is spellable, so that printing and reading it changes nothing. -/
theorem selectors_roundTrip :
    (∀ selector, Spellable selector →
      parseSecretSelector (selectorString selector) = .ok selector) ∧
    (∀ selector other, Spellable selector → Spellable other →
      selectorString selector = selectorString other → selector = other) ∧
    (∀ value selector, parseSecretSelector value = .ok selector → Spellable selector) ∧
    ∀ value selector, parseSecretSelector value = .ok selector →
      parseSecretSelector (selectorString selector) = .ok selector := by
  refine ⟨fun _ h => parse_selectorString h, fun _ _ h h' heq => selectorString_inj h h' heq,
    fun _ _ h => spellable_of_parse h, fun value selector h => ?_⟩
  exact parse_selectorString (spellable_of_parse h)

theorem selectors_roundTrip_quoted :
    parseSecretSelector (selectorString ⟨["a/b", "\"c\""], [⟨"k=", "\\&"⟩, ⟨"t", "w"⟩]⟩) =
      .ok ⟨["a/b", "\"c\""], [⟨"k=", "\\&"⟩, ⟨"t", "w"⟩]⟩ :=
  selectors_roundTrip.1 _ ⟨by decide, by decide, by decide, by decide⟩

end Thorax
