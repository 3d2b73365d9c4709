import Thorax.Properties.SelectorGrammar
import Thorax.TestTui

/-!
# Selectors in forms

A form shows a selector as a path and as labels, trims both when it is submitted, and reads them
together. The selector comes back exactly if neither text has white space at an end, that is, if no
part at an end of them has white space there and is written bare. Trimming takes white space away,
and what is read has no more of it than its text.
-/

namespace Thorax.Tui

open Collections Durable Quoted

/-- A part of a selector that is written as it is. -/
def Bare (value : String) : Prop :=
  value ≠ "" ∧ value.toList.any structuralChars.contains = false

instance (value : String) : Decidable (Bare value) := inferInstanceAs (Decidable (_ ∧ _))

/-- No bare part has white space at an end of the path or of the labels. -/
structure NoOuterSpace (selector : SecretSelectorV1) : Prop where
  pathStart : ∀ segment ∈ selector.tuple.head?, Bare segment →
    ∀ c ∈ segment.toList.head?, isWhiteSpace c = false
  pathEnd : ∀ segment ∈ selector.tuple.getLast?, Bare segment →
    ∀ c ∈ segment.toList.getLast?, isWhiteSpace c = false
  labelStart : ∀ label ∈ selector.labels.head?, Bare label.key →
    ∀ c ∈ label.key.toList.head?, isWhiteSpace c = false
  labelEnd : ∀ label ∈ selector.labels.getLast?, Bare label.value →
    ∀ c ∈ label.value.toList.getLast?, isWhiteSpace c = false

/-- A form that is submitted as it was opened stands for the selector it was opened on. -/
structure FormsFaithful (env : Env) (selector : SecretSelectorV1) : Prop where
  parsed : parseSelector env (combineSelectorSpec (trim (selectorPath selector))
    (trim (selectorLabelPairs selector))) = .ok selector
  move : ∀ (model : Model env) leaf key, model.selectedLeaf = some leaf →
    leaf.selector = selector → key.code = .enter →
      model.startRelabel.formKey key =
        ({ model with modal := none, status := .info "selector unchanged" }, [])
  fresh : ∀ (model : Model env) report answer secret key,
    env.navigation.mergeSelection model.nav = some (.conflict report) →
      report.kind = .rollback answer → report.key = .secret secret →
        rollbackSetSelector report = some selector → key.code = .enter →
          model.startSetFresh.formKey key = (model.openEditor selector [""], [])

/-! ### White space -/

section Spaces

variable {chars : List Char} {parts : List (List Char)} {separator : Char}

/-- How much white space there is. -/
def spaces (chars : List Char) : ℕ := chars.countP isWhiteSpace

@[simp] lemma spaces_append {rest : List Char} : spaces (chars ++ rest) = spaces chars + spaces rest :=
  List.countP_append

lemma spaces_cons_of_not {c : Char} (h : isWhiteSpace c = false) :
    spaces (c :: chars) = spaces chars := by
  rw [spaces, List.countP_cons_of_neg (by simp [h]), spaces]

lemma spaces_intercalate (h : isWhiteSpace separator = false) :
    spaces ([separator].intercalate parts) = (parts.map spaces).sum := by
  induction parts with
  | nil => rfl
  | cons part parts ih =>
    cases parts with
    | nil => simp
    | cons next parts =>
      rw [List.intercalate_cons_cons, spaces_append, spaces_append, ih, List.map_cons,
        List.sum_cons, spaces_cons_of_not h]
      simp [spaces]

lemma spaces_dropWhile (chars : List Char) : chars.dropWhile isWhiteSpace = chars ∨
    spaces (chars.dropWhile isWhiteSpace) < spaces chars := by
  cases chars with
  | nil => exact Or.inl rfl
  | cons c chars =>
    by_cases hc : isWhiteSpace c = true
    · refine Or.inr ?_
      have hle : spaces (chars.dropWhile isWhiteSpace) ≤ spaces chars :=
        (List.dropWhile_sublist _).countP_le
      rw [List.dropWhile_cons_of_pos hc, spaces, spaces, List.countP_cons_of_pos hc]
      exact Nat.lt_succ_of_le hle
    · exact Or.inl (List.dropWhile_cons_of_neg hc)

/-- Trimming changes nothing or takes white space away. -/
lemma spaces_trimChars (chars : List Char) : trimChars chars = chars ∨ spaces (trimChars chars) < spaces chars := by
  have hreverse : ∀ chars : List Char, spaces chars.reverse = spaces chars := fun chars =>
    (List.reverse_perm chars).countP_eq _
  rcases spaces_dropWhile chars with hfront | hfront
  · rcases spaces_dropWhile chars.reverse with hback | hback
    · exact Or.inl (by rw [trimChars, hfront, hback, List.reverse_reverse])
    · refine Or.inr ?_
      rw [trimChars, hfront, hreverse, ← hreverse chars]
      exact hback
  · refine Or.inr ?_
    rw [trimChars, hreverse]
    have hback : spaces ((chars.dropWhile isWhiteSpace).reverse.dropWhile isWhiteSpace) ≤
        spaces (chars.dropWhile isWhiteSpace).reverse := (List.dropWhile_sublist _).countP_le
    exact lt_of_le_of_lt (hback.trans (hreverse _).le) hfront

lemma spaces_trimChars_le (chars : List Char) : spaces (trimChars chars) ≤ spaces chars := by
  rcases spaces_trimChars chars with h | h
  · exact le_of_eq (congrArg spaces h)
  · exact h.le

/-- Only what begins or ends with white space is changed. -/
lemma trimChars_eq_self_iff : trimChars chars = chars ↔
    (∀ c ∈ chars.head?, isWhiteSpace c = false) ∧ ∀ c ∈ chars.getLast?, isWhiteSpace c = false := by
  have hdrop : ∀ chars : List Char, chars.dropWhile isWhiteSpace = chars ↔
      ∀ c ∈ chars.head?, isWhiteSpace c = false := by
    intro chars
    rw [List.dropWhile_eq_self_iff]
    cases chars <;> simp
  constructor
  · intro h
    have hfront : chars.dropWhile isWhiteSpace = chars := by
      refine (List.dropWhile_sublist _).eq_of_length_le ?_
      calc chars.length = (trimChars chars).length := by rw [h]
        _ ≤ (chars.dropWhile isWhiteSpace).reverse.length := by
            rw [trimChars, List.length_reverse]
            exact (List.dropWhile_sublist _).length_le
        _ = (chars.dropWhile isWhiteSpace).length := List.length_reverse
    rw [trimChars, hfront, List.reverse_eq_iff] at h
    exact ⟨(hdrop chars).mp hfront, by simpa using (hdrop chars.reverse).mp h⟩
  · rintro ⟨hhead, hlast⟩
    rw [trimChars, (hdrop chars).mpr hhead, (hdrop chars.reverse).mpr (by simpa using hlast),
      List.reverse_reverse]

end Spaces

/-! ### Reading -/

section Reading

variable {selector : SecretSelectorV1} {value whole : String} {raw : List Char}

/-- How much white space the parts of a selector have. -/
def selectorSpaces (selector : SecretSelectorV1) : ℕ :=
  (selector.tuple.map fun segment => spaces segment.toList).sum +
    (selector.labels.map fun label =>
      spaces label.key.toList + spaces label.value.toList).sum

lemma spaces_of_decodeField (h : decodeField raw whole = .ok value) :
    spaces value.toList ≤ spaces raw := by
  have hdecode := decodeField_eq_ok.mp h
  rw [decode] at hdecode
  split_ifs at hdecode
  rw [← Option.some.inj hdecode]
  exact decodeFrom_sublist.countP_le

lemma spaces_splitUnquoted (raw : List Char) {delim : Char} (h : isWhiteSpace delim = false) :
    ((splitUnquoted raw delim).map spaces).sum = spaces raw := by
  rw [← spaces_intercalate h, splitUnquoted, intercalate_split]

lemma sum_le_of_forall₂ {α β : Type} {R : α → β → Prop} {l : List α} {l' : List β} {f : α → ℕ}
    {g : β → ℕ} (h : List.Forall₂ R l l') (hle : ∀ a b, R a b → g b ≤ f a) :
    (l'.map g).sum ≤ (l.map f).sum := by
  induction h with
  | nil => exact le_rfl
  | cons hhead _ ih =>
    rw [List.map_cons, List.map_cons, List.sum_cons, List.sum_cons]
    exact Nat.add_le_add (hle _ _ hhead) ih

lemma spaces_of_parseTuplePath {tuple : List String} (h : parseTuplePath whole raw = .ok tuple) :
    (tuple.map fun segment => spaces segment.toList).sum ≤ spaces raw := by
  rw [parseTuplePath] at h
  split_ifs at h
  have hslash : isWhiteSpace '/' = false := by decide
  rw [← spaces_splitUnquoted raw hslash]
  exact sum_le_of_forall₂ (mapM_eq_ok.mp h) fun _ _ hsegment =>
    spaces_of_decodeField (parseSegment_eq_ok.mp hsegment).1

lemma spaces_of_parseSecretLabel {label : SecretLabelV1}
    (h : parseSecretLabel whole raw = .ok label) :
    spaces label.key.toList + spaces label.value.toList ≤ spaces raw := by
  rw [parseSecretLabel] at h
  split at h
  · cases h
  · next key labelValue hsplit =>
    obtain ⟨key', hkey, value', hvalue, h⟩ := by simpa only [bind_eq_ok] using h
    split_ifs at h
    obtain rfl := Except.ok.inj h
    obtain ⟨rfl, -⟩ := splitOnce_eq_some.mp hsplit
    rw [spaces_append, spaces_cons_of_not (by decide)]
    exact Nat.add_le_add (spaces_of_decodeField hkey) (spaces_of_decodeField hvalue)

/-- A selector has no more white space than the text it is read from. -/
lemma spaces_of_parse (h : parseSecretSelector value = .ok selector) :
    selectorSpaces selector ≤ spaces value.toList := by
  simp only [parseSecretSelector, bind_eq_ok] at h
  obtain ⟨tuple, htuple, labels, hlabels, h⟩ := h
  split_ifs at h
  obtain rfl := Except.ok.inj h
  have hperm : ((sortBy compareSecretLabels labels).map fun label =>
      spaces label.key.toList + spaces label.value.toList).sum =
        (labels.map fun label => spaces label.key.toList + spaces label.value.toList).sum :=
    ((sortBy_perm _ labels).map _).sum_eq
  have hle := sum_le_of_forall₂ (f := spaces) (mapM_eq_ok.mp hlabels) fun _ _ =>
    spaces_of_parseSecretLabel
  have hpath := spaces_of_parseTuplePath htuple
  rw [selectorSpaces, hperm]
  rw [splitLabelSection] at hle hpath
  split at hle
  · next path labelSection hsplit =>
    rw [hsplit] at hpath
    obtain ⟨hvalue, -⟩ := splitOnce_eq_some.mp hsplit
    rw [hvalue, spaces_append, spaces_cons_of_not (by decide)]
    rw [Option.getD_some, spaces_splitUnquoted _ (by decide)] at hle
    exact Nat.add_le_add hpath hle
  · next hsplit =>
    rw [hsplit] at hpath
    exact Nat.add_le_add hpath hle

end Reading

/-! ### Writing -/

section Writing

variable {env : Env} {selector : SecretSelectorV1} {value : String}

lemma spaces_protect (text : List Char) : spaces (protect selectorMarks text) = spaces text := by
  induction text with
  | nil => rfl
  | cons c text ih =>
    have hcons : protect selectorMarks (c :: text) =
        (if c = '"' ∨ c = '\\' then ['\\', c] else [c]) ++ protect selectorMarks text := rfl
    have hescape : isWhiteSpace '\\' = false := by decide
    rw [hcons, spaces_append, ih]
    split_ifs
    · rw [spaces_cons_of_not hescape, ← spaces_append]
      rfl
    · rw [← spaces_append]
      rfl

/-- Quoting adds no white space. -/
lemma spaces_escapeSegment (value : String) : spaces (escapeSegment value) = spaces value.toList := by
  obtain ⟨heq, -, -⟩ | heq := escapeSegment_cases value
  · rw [heq]
  · have hquote : isWhiteSpace '"' = false := by decide
    rw [heq]
    show spaces ('"' :: (protect selectorMarks value.toList ++ ['"'])) = _
    rw [spaces_cons_of_not hquote, spaces_append, spaces_protect, spaces_cons_of_not hquote]
    rfl

lemma spaces_labelText (label : SecretLabelV1) :
    spaces (labelText label) = spaces label.key.toList + spaces label.value.toList := by
  rw [labelText, spaces_append, spaces_cons_of_not (by decide), spaces_escapeSegment,
    spaces_escapeSegment]

/-- A selector has as much white space as its two texts. -/
lemma selectorSpaces_eq : selectorSpaces selector =
    spaces (selectorPath selector).toList + spaces (selectorLabelPairs selector).toList := by
  rw [selectorPath, selectorLabelPairs, String.toList_ofList, String.toList_ofList, escapeTuple,
    spaces_intercalate (by decide), spaces_intercalate (by decide), List.map_map, List.map_map,
    selectorSpaces]
  simp only [Function.comp_def, spaces_escapeSegment, spaces_labelText]

lemma spaces_combineSelectorSpec (path labels : String) :
    spaces (combineSelectorSpec path labels).toList = spaces path.toList + spaces labels.toList := by
  rw [combineSelectorSpec]
  split_ifs with hlabels
  · simp [hlabels, spaces]
  · have hmark : "@".toList = ['@'] := rfl
    rw [String.toList_append, String.toList_append, spaces_append, spaces_append, hmark,
      spaces_cons_of_not (by decide)]
    simp [spaces]

lemma parseSelector_eq_ok {input : String} : parseSelector env input = .ok selector ↔
    parseSecretSelector (trim input) = .ok selector := by
  rw [parseSelector, mapError_eq_ok]

lemma trim_eq_self_iff {text : String} : trim text = text ↔
    trimChars text.toList = text.toList := by
  rw [trim, ← String.toList_inj, String.toList_ofList]

/-- White space that a form trims is missing from what it reads. -/
lemma trimmed_of_parse (h : parseSelector env (combineSelectorSpec (trim (selectorPath selector))
    (trim (selectorLabelPairs selector))) = .ok selector) :
    trim (selectorPath selector) = selectorPath selector ∧
      trim (selectorLabelPairs selector) = selectorLabelPairs selector := by
  have hle := spaces_of_parse (parseSelector_eq_ok.mp h)
  have hcombined : spaces (trim (combineSelectorSpec (trim (selectorPath selector))
      (trim (selectorLabelPairs selector)))).toList ≤
        spaces (trim (selectorPath selector)).toList +
          spaces (trim (selectorLabelPairs selector)).toList := by
    rw [← spaces_combineSelectorSpec, trim, String.toList_ofList]
    exact spaces_trimChars_le _
  have hpath := spaces_trimChars_le (selectorPath selector).toList
  have hlabels := spaces_trimChars_le (selectorLabelPairs selector).toList
  rw [selectorSpaces_eq] at hle
  simp only [trim, String.toList_ofList] at hle hcombined
  rw [trim_eq_self_iff, trim_eq_self_iff]
  constructor
  · rcases spaces_trimChars (selectorPath selector).toList with hsame | hless
    · exact hsame
    · omega
  · rcases spaces_trimChars (selectorLabelPairs selector).toList with hsame | hless
    · exact hsame
    · omega

lemma labelText_ne_nil (label : SecretLabelV1) : labelText label ≠ [] := by
  rw [labelText]
  exact List.append_ne_nil_of_right_ne_nil _ (List.cons_ne_nil _ _)

/-- The two texts together are the spelling of the selector. -/
lemma combineSelectorSpec_eq (selector : SecretSelectorV1) :
    combineSelectorSpec (selectorPath selector) (selectorLabelPairs selector) =
      selectorString selector := by
  rw [← String.toList_inj, selectorString, String.toList_ofList, selectorText_eq,
    combineSelectorSpec]
  cases hlabels : selector.labels with
  | nil => simp [selectorLabelPairs, selectorPath, hlabels]
  | cons label labels =>
    have hne : selectorLabelPairs selector ≠ "" := by
      rw [selectorLabelPairs, hlabels, ne_eq, String.ofList_eq_empty_iff, List.map_cons]
      cases labels with
      | nil => simpa using labelText_ne_nil label
      | cons other labels => simp [List.intercalate_cons_cons]
    rw [if_neg hne]
    simp [selectorPath, selectorLabelPairs, hlabels]

/-! ### Ends -/

lemma head?_append_of_ne_nil {front back : List Char} (h : front ≠ []) :
    (front ++ back).head? = front.head? := by
  obtain ⟨c, front, rfl⟩ := List.exists_cons_of_ne_nil h
  rfl

lemma getLast?_append_of_ne_nil {front back : List Char} (h : back ≠ []) :
    (front ++ back).getLast? = back.getLast? := by
  obtain ⟨c, hlast⟩ := Option.ne_none_iff_exists'.mp (mt List.getLast?_eq_none_iff.mp h)
  rw [List.getLast?_append, hlast, Option.some_or]

/-- The first part begins what is joined. -/
lemma head?_intercalate {part : List Char} {parts : List (List Char)} {separator : Char}
    (h : part ≠ []) : ([separator].intercalate (part :: parts)).head? = part.head? := by
  cases parts with
  | nil => rw [List.intercalate_singleton]
  | cons next parts => rw [List.intercalate_cons_cons, List.append_assoc, head?_append_of_ne_nil h]

/-- The last part ends it. -/
lemma getLast?_intercalate {part : List Char} {parts : List (List Char)} {separator : Char}
    (h : part ≠ []) : ([separator].intercalate (parts ++ [part])).getLast? = part.getLast? := by
  induction parts with
  | nil => rw [List.nil_append, List.intercalate_singleton]
  | cons first parts ih =>
    obtain ⟨c, hlast⟩ := Option.ne_none_iff_exists'.mp (mt List.getLast?_eq_none_iff.mp h)
    rw [List.cons_append, List.intercalate_cons_of_ne_nil (by simp), List.getLast?_append, ih,
      hlast, Option.some_or]

lemma head?_escapeSegment (value : String) :
    (∀ c ∈ (escapeSegment value).head?, isWhiteSpace c = false) ↔
      (Bare value → ∀ c ∈ value.toList.head?, isWhiteSpace c = false) := by
  by_cases hbare : Bare value
  · have heq : escapeSegment value = value.toList := by
      rw [escapeSegment, if_pos ⟨hbare.1, by simp [hbare.2]⟩]
    simp [heq, hbare]
  · obtain ⟨-, hplain⟩ | heq := escapeSegment_cases value
    · exact absurd hplain hbare
    · have hquote : isWhiteSpace '"' = false := by decide
      rw [heq]
      refine iff_of_true ?_ fun h => absurd h hbare
      rintro c hc
      obtain rfl : '"' = c := Option.some.inj hc
      exact hquote

lemma getLast?_escapeSegment (value : String) :
    (∀ c ∈ (escapeSegment value).getLast?, isWhiteSpace c = false) ↔
      (Bare value → ∀ c ∈ value.toList.getLast?, isWhiteSpace c = false) := by
  by_cases hbare : Bare value
  · have heq : escapeSegment value = value.toList := by
      rw [escapeSegment, if_pos ⟨hbare.1, by simp [hbare.2]⟩]
    simp [heq, hbare]
  · obtain ⟨-, hplain⟩ | heq := escapeSegment_cases value
    · exact absurd hplain hbare
    · have hquote : isWhiteSpace '"' = false := by decide
      have hlast : (escapeSegment value).getLast? = some '"' := by
        rw [heq, quoted, ← List.cons_append, List.getLast?_concat]
        rfl
      rw [hlast]
      refine iff_of_true ?_ fun h => absurd h hbare
      rintro c hc
      obtain rfl : '"' = c := Option.some.inj hc
      exact hquote

lemma head?_labelText (label : SecretLabelV1) :
    (labelText label).head? = (escapeSegment label.key).head? :=
  head?_append_of_ne_nil (escapeSegment_ne_nil _)

lemma getLast?_labelText (label : SecretLabelV1) :
    (labelText label).getLast? = (escapeSegment label.value).getLast? := by
  rw [labelText, List.append_cons, getLast?_append_of_ne_nil (escapeSegment_ne_nil _)]

/-- The path has no white space at its ends. -/
lemma trim_selectorPath_iff (h : selector.tuple ≠ []) :
    trim (selectorPath selector) = selectorPath selector ↔
      (∀ segment ∈ selector.tuple.head?, Bare segment →
        ∀ c ∈ segment.toList.head?, isWhiteSpace c = false) ∧
      ∀ segment ∈ selector.tuple.getLast?, Bare segment →
        ∀ c ∈ segment.toList.getLast?, isWhiteSpace c = false := by
  rw [trim_eq_self_iff, trimChars_eq_self_iff, selectorPath, String.toList_ofList, escapeTuple]
  refine and_congr ?_ ?_
  · obtain ⟨segment, tuple, htuple⟩ := List.exists_cons_of_ne_nil h
    rw [htuple, List.map_cons, head?_intercalate (escapeSegment_ne_nil _), head?_escapeSegment,
      List.head?_cons]
    simp
  · obtain ⟨tuple, segment, htuple⟩ : ∃ tuple segment, selector.tuple = tuple ++ [segment] :=
      ⟨_, _, (List.dropLast_concat_getLast h).symm⟩
    rw [htuple, List.map_append, List.map_singleton, getLast?_intercalate (escapeSegment_ne_nil _),
      getLast?_escapeSegment, List.getLast?_concat]
    simp

lemma trim_selectorLabelPairs_iff :
    trim (selectorLabelPairs selector) = selectorLabelPairs selector ↔
      (∀ label ∈ selector.labels.head?, Bare label.key →
        ∀ c ∈ label.key.toList.head?, isWhiteSpace c = false) ∧
      ∀ label ∈ selector.labels.getLast?, Bare label.value →
        ∀ c ∈ label.value.toList.getLast?, isWhiteSpace c = false := by
  rw [trim_eq_self_iff, trimChars_eq_self_iff, selectorLabelPairs, String.toList_ofList]
  by_cases h : selector.labels = []
  · simp [h]
  refine and_congr ?_ ?_
  · obtain ⟨label, labels, hlabels⟩ := List.exists_cons_of_ne_nil h
    rw [hlabels, List.map_cons, head?_intercalate (labelText_ne_nil _), head?_labelText,
      head?_escapeSegment, List.head?_cons]
    simp
  · obtain ⟨labels, label, hlabels⟩ : ∃ labels label, selector.labels = labels ++ [label] :=
      ⟨_, _, (List.dropLast_concat_getLast h).symm⟩
    rw [hlabels, List.map_append, List.map_singleton, getLast?_intercalate (labelText_ne_nil _),
      getLast?_labelText, getLast?_escapeSegment, List.getLast?_concat]
    simp

lemma noOuterSpace_iff (h : selector.tuple ≠ []) : NoOuterSpace selector ↔
    trim (selectorPath selector) = selectorPath selector ∧
      trim (selectorLabelPairs selector) = selectorLabelPairs selector := by
  rw [trim_selectorPath_iff h, trim_selectorLabelPairs_iff]
  constructor
  · rintro ⟨hpathStart, hpathEnd, hlabelStart, hlabelEnd⟩
    exact ⟨⟨hpathStart, hpathEnd⟩, hlabelStart, hlabelEnd⟩
  · rintro ⟨⟨hpathStart, hpathEnd⟩, hlabelStart, hlabelEnd⟩
    exact ⟨hpathStart, hpathEnd, hlabelStart, hlabelEnd⟩

/-- The spelling has no white space at its ends where the texts have none. -/
lemma trim_selectorString (h : selector.tuple ≠ [])
    (hpath : trim (selectorPath selector) = selectorPath selector)
    (hlabels : trim (selectorLabelPairs selector) = selectorLabelPairs selector) :
    trim (selectorString selector) = selectorString selector := by
  rw [trim_eq_self_iff, trimChars_eq_self_iff] at *
  rw [← combineSelectorSpec_eq, combineSelectorSpec]
  split_ifs with hnone
  · exact hpath
  · have hne : (selectorPath selector).toList ≠ [] := by
      rw [selectorPath, String.toList_ofList]
      exact escapeTuple_ne_nil h
    rw [String.toList_append, String.toList_append, List.append_assoc, head?_append_of_ne_nil hne,
      ← List.append_assoc, getLast?_append_of_ne_nil (by simpa using hnone)]
    exact ⟨hpath.1, hlabels.2⟩

/-! ### Submissions -/

/-- What a form that was opened on a selector reads when it is submitted. -/
lemma FormsFaithful.of_parsed (hparsed : parseSelector env (combineSelectorSpec
    (trim (selectorPath selector)) (trim (selectorLabelPairs selector))) = .ok selector) :
    FormsFaithful env selector := by
  have hread : ∀ title note submitVerb andThen, parseSelector env (combineSelectorSpec
      (Form.value ⟨title, [.prefilled "Path" (selectorPath selector),
        .prefilled "Labels" (selectorLabelPairs selector)], 0, none, note, submitVerb, andThen⟩ 0)
      (Form.value ⟨title, [.prefilled "Path" (selectorPath selector),
        .prefilled "Labels" (selectorLabelPairs selector)], 0, none, note, submitVerb, andThen⟩ 1)) =
          .ok selector := fun _ _ _ _ => hparsed
  refine ⟨hparsed, ?_, ?_⟩
  · rintro model leaf key hleaf rfl hkey
    simp only [Model.startRelabel, hleaf, Model.openSelectorForm, Model.openForm, Model.formKey,
      if_pos hkey, Model.submitForm, Model.submitRelabel, hread, if_true]
  · intro model report answer secret key hselection hkind hreport hselector hkey
    simp only [Model.startSetFresh, hselection, hkind, hreport, hselector, Model.openSelectorForm,
      Model.openForm, Model.formKey, if_pos hkey, Model.submitForm, Model.submitNewSecret, hread,
      Model.openEditor]

variable (env)

/-- The forms of a selector are faithful exactly if it has no bare white space at the ends. -/
theorem formsFaithful_iff (h : parseSecretSelector value = .ok selector) :
    FormsFaithful env selector ↔ NoOuterSpace selector := by
  have hspellable := spellable_of_parse h
  rw [noOuterSpace_iff hspellable.named]
  constructor
  · exact fun hforms => trimmed_of_parse hforms.parsed
  · rintro ⟨hpath, hlabels⟩
    refine .of_parsed (parseSelector_eq_ok.mpr ?_)
    rw [hpath, hlabels, combineSelectorSpec_eq, trim_selectorString hspellable.named hpath hlabels]
    exact parse_selectorString hspellable

end Writing

open TestSupport

/-- Blanks within a segment, or within quotes. -/
theorem formsFaithful_quoted :
    FormsFaithful testEnv ⟨["a b", " /"], [⟨"env", "prod"⟩]⟩ := by
  have hparse : parseSecretSelector "a b/\" /\"@env=prod" =
      .ok ⟨["a b", " /"], [⟨"env", "prod"⟩]⟩ := rfl
  refine (formsFaithful_iff testEnv hparse).mpr ?_
  refine ⟨?_, ?_, ?_, ?_⟩
  · rintro _ ⟨⟩ - _ ⟨⟩
    decide
  · rintro _ ⟨⟩ hbare
    exact absurd hbare (by decide)
  · rintro _ ⟨⟩ - _ ⟨⟩
    decide
  · rintro _ ⟨⟩ - _ ⟨⟩
    decide

/-- A segment that begins with a blank is moved to the one without. -/
theorem not_formsFaithful_blank : parseSecretSelector " a" = .ok ⟨[" a"], []⟩ ∧
    ¬ FormsFaithful testEnv ⟨[" a"], []⟩ := by
  refine ⟨rfl, fun h => ?_⟩
  have hread : parseSelector testEnv (combineSelectorSpec (trim (selectorPath ⟨[" a"], []⟩))
      (trim (selectorLabelPairs ⟨[" a"], []⟩))) = .ok ⟨["a"], []⟩ := rfl
  rw [h.parsed] at hread
  exact absurd hread (by decide)

end Thorax.Tui
