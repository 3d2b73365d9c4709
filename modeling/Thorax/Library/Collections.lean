import Mathlib

/-!
# Ordered collections

Ordered maps and sets with extensional equality, the stable sort by a comparator, and the two
selections made from an ordered list: the least element, and the least element that satisfies
a predicate. Iteration is in key order, so a fold over a map depends on its contents only.
-/

open Std (ExtTreeMap ExtTreeSet TransCmp TransOrd OrientedCmp LawfulEqCmp LawfulEqOrd ReflCmp)

/-- An ordered map; two maps are equal when they agree at every key. -/
abbrev BTreeMap (K V : Type) [Ord K] := ExtTreeMap K V compare

/-- An ordered set. -/
abbrev BTreeSet (K : Type) [Ord K] := ExtTreeSet K compare

namespace Collections

/-! ### Comparators pulled back along a function -/

section CompareOn

variable {α β : Type} [Ord β]

lemma lawfulEqCmp_compareOn [LawfulEqOrd β] {f : α → β} (hf : Function.Injective f) :
    LawfulEqCmp (compareOn f : α → α → Ordering) where
  compare_self := by intro a; exact ReflCmp.compare_self
  eq_of_compare := by
    intro a b h
    exact hf (LawfulEqCmp.eq_of_compare h)

end CompareOn

/-! ### Sets built from lists -/

section Sets

variable {K : Type} [Ord K] [TransOrd K] [LawfulEqOrd K]

/-- Sets are equal when they have the same members. -/
lemma set_ext {s t : BTreeSet K} (h : ∀ k, k ∈ s ↔ k ∈ t) : s = t :=
  ExtTreeSet.ext_mem (fun {k} => h k)

/-- Insert what `f` yields for the elements of a list, one by one. -/
def collectSet {α : Type} (f : α → Option K) (l : List α) (s : BTreeSet K) : BTreeSet K :=
  l.foldl (fun s a => match f a with | some k => s.insert k | none => s) s

lemma mem_collectSet {α : Type} {f : α → Option K} {l : List α} {s : BTreeSet K} {k : K} :
    k ∈ collectSet f l s ↔ k ∈ s ∨ ∃ a ∈ l, f a = some k := by
  induction l generalizing s with
  | nil => simp [collectSet]
  | cons a l ih =>
    rw [show collectSet f (a :: l) s = collectSet f l
      (match f a with | some k => s.insert k | none => s) from rfl, ih]
    cases hfa : f a with
    | none => simp [hfa]
    | some j =>
      simp only [ExtTreeSet.mem_insert, LawfulEqCmp.compare_eq_iff_eq, List.mem_cons,
        exists_eq_or_imp, hfa, Option.some.injEq]
      tauto

lemma collectSet_perm {α : Type} {f : α → Option K} {l l' : List α} (h : l.Perm l')
    (s : BTreeSet K) : collectSet f l s = collectSet f l' s := by
  apply set_ext
  intro k
  simp only [mem_collectSet, h.mem_iff]

end Sets

/-! ### Maps built from lists -/

section Maps

variable {K V : Type} [Ord K] [TransOrd K]

/-- The values of a map, in key order. -/
def values (m : BTreeMap K V) : List V := m.toList.map Prod.snd

/-- The keys of a map whose value satisfies `p`. -/
def keysWhere (p : V → Bool) (m : BTreeMap K V) : BTreeSet K :=
  m.foldl (fun keys k v => if p v then keys.insert k else keys) ∅

/-- Fold the elements of a list into a map, each at the entry that its key names. -/
def groupFold {α : Type} (key : α → Option K) (add : Option V → α → V) (l : List α)
    (m : BTreeMap K V) : BTreeMap K V :=
  l.foldl (fun m a =>
    match key a with
    | some k => m.alter k fun entry => some (add entry a)
    | none => m) m

/-- Elements that name no key can be left out of the fold. -/
lemma groupFold_filter {α : Type} {key key' : α → Option K} {add : Option V → α → V} {l : List α}
    {p : α → Bool} (hin : ∀ a ∈ l, p a = true → key' a = key a)
    (hout : ∀ a ∈ l, p a = false → key a = none) (m : BTreeMap K V) :
    groupFold key' add (l.filter p) m = groupFold key add l m := by
  rw [groupFold, groupFold, List.foldl_filter]
  apply List.foldl_ext
  intro m a ha
  split_ifs with hpa
  · rw [hin a ha hpa]
  · rw [hout a ha (Bool.eq_false_iff.mpr hpa)]

variable [LawfulEqOrd K]

omit [LawfulEqOrd K] in
/-- An entry of a union is an entry of one of the maps. -/
lemma getElem?_union_cases {m m' : BTreeMap K V} {k : K} {v : V} (h : (m ∪ m')[k]? = some v) :
    m'[k]? = some v ∨ m[k]? = some v := by
  rw [ExtTreeMap.getElem?_union] at h
  exact (Option.or_eq_some_iff.mp h).imp id And.right

lemma mem_values {m : BTreeMap K V} {v : V} : v ∈ values m ↔ ∃ k : K, m[k]? = some v := by
  simp only [values, List.mem_map, Prod.exists, exists_eq_right]
  exact exists_congr fun k => ExtTreeMap.mem_toList_iff_getElem?_eq_some

/-- A map has every key once. -/
lemma nodup_keys_toList (m : BTreeMap K V) : (m.toList.map Prod.fst).Nodup := by
  refine List.pairwise_map.mpr (m.distinct_keys_toList.imp ?_)
  intro a b hne heq
  exact hne (heq ▸ Std.ReflCmp.compare_self)

/-- A map made of entries with different keys holds these and no others. -/
lemma getElem?_insertMany_eq_some [DecidableEq K] {l : List (K × V)} (h : (l.map Prod.fst).Nodup)
    {k : K} {v : V} : ((∅ : BTreeMap K V).insertMany l)[k]? = some v ↔ (k, v) ∈ l := by
  have hdistinct : l.Pairwise fun a b => ¬ compare a.1 b.1 = .eq :=
    (List.pairwise_map.mp h).imp fun hne heq => hne (Std.LawfulEqCmp.eq_of_compare heq)
  constructor
  · intro hget
    have hmem : k ∈ l.map Prod.fst := by
      by_contra hmem
      rw [ExtTreeMap.getElem?_insertMany_list_of_contains_eq_false
        (by simpa using hmem)] at hget
      simp at hget
    obtain ⟨⟨_, w⟩, hentry, rfl⟩ := List.mem_map.mp hmem
    rw [ExtTreeMap.getElem?_insertMany_list_of_mem Std.ReflCmp.compare_self hdistinct hentry] at hget
    exact Option.some.inj hget ▸ hentry
  · exact fun hentry =>
      ExtTreeMap.getElem?_insertMany_list_of_mem Std.ReflCmp.compare_self hdistinct hentry

/-- Entries that are put into a map hide what it had under their keys. -/
lemma getElem?_insertMany_congr [DecidableEq K] {l : List (K × V)} {k : K}
    (h : k ∈ l.map Prod.fst) (m m' : BTreeMap K V) :
    (m.insertMany l)[k]? = (m'.insertMany l)[k]? := by
  induction l generalizing m m' with
  | nil => simp at h
  | cons entry l ih =>
    rw [ExtTreeMap.insertMany_cons, ExtTreeMap.insertMany_cons]
    by_cases hl : k ∈ l.map Prod.fst
    · exact ih hl _ _
    · obtain rfl : k = entry.1 := by simpa [hl] using h
      have hcontains : (l.map Prod.fst).contains entry.1 = false := by simpa using hl
      rw [ExtTreeMap.getElem?_insertMany_list_of_contains_eq_false hcontains,
        ExtTreeMap.getElem?_insertMany_list_of_contains_eq_false hcontains]
      simp

/-- It lists them, in some order. -/
lemma toList_insertMany_perm [DecidableEq K] {l : List (K × V)} (h : (l.map Prod.fst).Nodup) :
    ((∅ : BTreeMap K V).insertMany l).toList.Perm l := by
  refine (List.perm_ext_iff_of_nodup (nodup_keys_toList _).of_map h.of_map).mpr fun entry => ?_
  rw [ExtTreeMap.mem_toList_iff_getElem?_eq_some, getElem?_insertMany_eq_some h]

/-- A map lists each of its keys once. -/
lemma filter_toList [DecidableEq K] (m : BTreeMap K V) (k : K) :
    m.toList.filter (fun entry => entry.1 = k) = (m[k]?.map fun v => (k, v)).toList := by
  have hmem : ∀ e, e ∈ m.toList.filter (fun entry => entry.1 = k) ↔ e.1 = k ∧ m[k]? = some e.2 := by
    rintro ⟨j, v⟩
    simp only [List.mem_filter, decide_eq_true_eq, ExtTreeMap.mem_toList_iff_getElem?_eq_some]
    constructor
    · rintro ⟨h, rfl⟩
      exact ⟨rfl, h⟩
    · rintro ⟨rfl, h⟩
      exact ⟨h, rfl⟩
  have hdistinct : (m.toList.filter (fun entry => entry.1 = k)).Pairwise
      (fun a b => ¬ compare a.1 b.1 = .eq) := ExtTreeMap.distinct_keys_toList.filter _
  cases hl : m.toList.filter (fun entry => entry.1 = k) with
  | nil =>
    cases hk : m[k]? with
    | none => rfl
    | some v =>
      have := (hmem (k, v)).mpr ⟨rfl, hk⟩
      simp [hl] at this
  | cons e rest =>
    have he := (hmem e).mp (by rw [hl]; exact List.mem_cons_self)
    have hrest : rest = [] := by
      cases rest with
      | nil => rfl
      | cons e' rest =>
        have he' := (hmem e').mp (by rw [hl]; simp)
        rw [hl, List.pairwise_cons] at hdistinct
        exact absurd (by rw [he.1, he'.1]; exact ReflCmp.compare_self)
          (hdistinct.1 e' List.mem_cons_self)
    rw [he.2, hrest]
    obtain ⟨j, v⟩ := e
    obtain rfl : j = k := he.1
    rfl

/-- The entry at a key is the fold of the elements with that key. -/
lemma getElem?_groupFold [DecidableEq K] {α : Type} (key : α → Option K) (add : Option V → α → V)
    (l : List α) (m : BTreeMap K V) (k : K) :
    (groupFold key add l m)[k]? =
      (l.filter (key · = some k)).foldl (fun entry a => some (add entry a)) m[k]? := by
  induction l generalizing m with
  | nil => rfl
  | cons a l ih =>
    rw [show groupFold key add (a :: l) m = groupFold key add l
      (match key a with
        | some j => m.alter j fun entry => some (add entry a)
        | none => m) from rfl, ih]
    cases hkey : key a with
    | none => simp [hkey]
    | some j =>
      by_cases hjk : j = k
      · subst hjk
        simp [hkey]
      · have hcmp : compare j k ≠ .eq := fun h => hjk (LawfulEqCmp.eq_of_compare h)
        simp [hkey, hjk, ExtTreeMap.getElem?_alter, hcmp]

omit [LawfulEqOrd K] in
/-- Elements without a key leave the groups as they are. -/
lemma groupFold_append {α : Type} {key : α → Option K} {add : Option V → α → V} {l l' : List α}
    {m : BTreeMap K V} (h : ∀ a ∈ l', key a = none) :
    groupFold key add (l ++ l') m = groupFold key add l m := by
  rw [groupFold, List.foldl_append]
  have hsame : ∀ (l' : List α) (m : BTreeMap K V), (∀ a ∈ l', key a = none) →
      groupFold key add l' m = m := by
    intro l'
    induction l' with
    | nil => exact fun _ _ => rfl
    | cons a l' ih =>
      intro m h
      rw [groupFold, List.foldl_cons, h a List.mem_cons_self]
      exact ih m fun b hb => h b (List.mem_cons_of_mem a hb)
  exact hsame l' _ h

/-- A key without elements has no entry. -/
lemma groupFold_eq_none [DecidableEq K] {α : Type} {key : α → Option K} {add : Option V → α → V}
    {l : List α} {k : K} :
    (groupFold key add l ∅)[k]? = none ↔ ∀ a ∈ l, key a ≠ some k := by
  rw [getElem?_groupFold]
  have hfold : ∀ (l : List α) (v : V),
      l.foldl (fun entry a => some (add entry a)) (some v) ≠ none := by
    intro l
    induction l with
    | nil => simp
    | cons a l ih =>
      intro v
      exact ih _
  rw [← List.filter_eq_nil_iff (p := fun a => decide (key a = some k)) |>.trans
    (by simp : (∀ a ∈ l, ¬ decide (key a = some k) = true) ↔ ∀ a ∈ l, key a ≠ some k)]
  cases hl : l.filter (fun a => decide (key a = some k)) with
  | nil => simp
  | cons a l' =>
    simp only [List.foldl_cons, reduceCtorEq, iff_false]
    exact hfold l' _

/-- Grouping with `max` leaves the largest value at each key. -/
lemma groupFold_max_eq_some [DecidableEq K] {α : Type} {key : α → Option K} {f : α → ℕ}
    {l : List α} {k : K} {c : ℕ} :
    (groupFold key (fun entry a => max (entry.getD 0) (f a)) l ∅)[k]? = some c ↔
      (∃ a ∈ l, key a = some k ∧ f a = c) ∧ ∀ a ∈ l, key a = some k → f a ≤ c := by
  rw [getElem?_groupFold]
  have hfold : ∀ (l : List α) (v : ℕ),
      l.foldl (fun entry a => some (max (entry.getD 0) (f a))) (some v) =
        some (l.foldl (fun c a => max c (f a)) v) := by
    intro l
    induction l with
    | nil => simp
    | cons a l ih =>
      intro v
      simp only [List.foldl_cons, Option.getD_some]
      exact ih _
  have hmax : ∀ (l : List α) (v c : ℕ), l.foldl (fun c a => max c (f a)) v = c ↔
      (v = c ∨ ∃ a ∈ l, f a = c) ∧ v ≤ c ∧ ∀ a ∈ l, f a ≤ c := by
    intro l
    induction l with
    | nil =>
      intro v c
      simp only [List.foldl_nil, List.not_mem_nil, false_and, exists_false, or_false, false_imp_iff,
        implies_true, and_true]
      constructor
      · rintro rfl
        simp
      · exact fun h => h.1
    | cons a l ih =>
      intro v c
      rw [List.foldl_cons, ih]
      simp only [List.mem_cons, exists_eq_or_imp, forall_eq_or_imp]
      constructor
      · rintro ⟨h | h, hle, hall⟩
        · refine ⟨?_, by omega, by omega, hall⟩
          rcases max_choice v (f a) with hm | hm
          · left; omega
          · right; left; omega
        · exact ⟨Or.inr (Or.inr h), by omega, by omega, hall⟩
      · rintro ⟨h | h | h, hv, ha, hall⟩
        · exact ⟨Or.inl (by omega), by omega, hall⟩
        · exact ⟨Or.inl (by omega), by omega, hall⟩
        · exact ⟨Or.inr h, by omega, hall⟩
  have hmem : ∀ a, a ∈ l.filter (fun a => decide (key a = some k)) ↔ a ∈ l ∧ key a = some k := by
    simp
  have hgoal : (∃ a ∈ l, key a = some k ∧ f a = c) ∧ (∀ a ∈ l, key a = some k → f a ≤ c) ↔
      (∃ a ∈ l.filter (fun a => decide (key a = some k)), f a = c) ∧
        ∀ a ∈ l.filter (fun a => decide (key a = some k)), f a ≤ c := by
    simp only [hmem, and_assoc, and_imp]
  rw [hgoal]
  cases hl : l.filter (fun a => decide (key a = some k)) with
  | nil => simp
  | cons a l' =>
    simp only [List.foldl_cons, ExtTreeMap.getElem?_empty, Option.getD_none, Nat.zero_max, hfold,
      Option.some.injEq, hmax, List.mem_cons, exists_eq_or_imp, forall_eq_or_imp]

/-- Insert the entries that `f` yields for the elements of a list, one by one. -/
def collectMap {α : Type} (f : α → Option (K × V)) (l : List α) (m : BTreeMap K V) :
    BTreeMap K V :=
  l.foldl (fun m a => match f a with | some (k, v) => m.insert k v | none => m) m

omit [LawfulEqOrd K] in
lemma collectMap_cons {α : Type} (f : α → Option (K × V)) (a : α) (l : List α)
    (m : BTreeMap K V) :
    collectMap f (a :: l) m =
      collectMap f l (match f a with | some (k, v) => m.insert k v | none => m) := rfl

/-- Keys that no element names keep their entry. -/
lemma getElem?_collectMap_of_not_mem {α : Type} {f : α → Option (K × V)} {l : List α}
    {m : BTreeMap K V} {k : K} (h : ∀ a ∈ l, ∀ v, f a ≠ some (k, v)) :
    (collectMap f l m)[k]? = m[k]? := by
  induction l generalizing m with
  | nil => rfl
  | cons a l ih =>
    rw [collectMap_cons, ih fun b hb => h b (List.mem_cons_of_mem _ hb)]
    cases hfa : f a with
    | none => rfl
    | some kv =>
      obtain ⟨j, v⟩ := kv
      have hne : j ≠ k := by
        rintro rfl
        exact h a List.mem_cons_self v hfa
      have hcmp : compare j k ≠ .eq := fun heq => hne (LawfulEqCmp.eq_of_compare heq)
      simp [ExtTreeMap.getElem?_insert, hcmp]

/-- The entry at a key that is named with one value only. -/
lemma getElem?_collectMap_of_mem {α : Type} {f : α → Option (K × V)} {l : List α}
    {m : BTreeMap K V} {k : K} {v : V} {a : α} (ha : a ∈ l) (hfa : f a = some (k, v))
    (huniq : ∀ b ∈ l, ∀ w, f b = some (k, w) → w = v) : (collectMap f l m)[k]? = some v := by
  induction l generalizing m a with
  | nil => simp at ha
  | cons b l ih =>
    rw [collectMap_cons]
    by_cases hlater : ∃ c ∈ l, ∃ w, f c = some (k, w)
    · obtain ⟨c, hc, w, hfc⟩ := hlater
      obtain rfl := huniq c (List.mem_cons_of_mem _ hc) w hfc
      exact ih hc hfc fun d hd => huniq d (List.mem_cons_of_mem _ hd)
    · push Not at hlater
      rw [getElem?_collectMap_of_not_mem hlater]
      obtain rfl : a = b := by
        rcases List.mem_cons.mp ha with rfl | ha
        · rfl
        · exact absurd hfa (hlater a ha v)
      simp [hfa]

/-- An entry was there before or is named by an element. -/
lemma mem_of_getElem?_collectMap {α : Type} {f : α → Option (K × V)} {l : List α}
    {m : BTreeMap K V} {k : K} {v : V} (h : (collectMap f l m)[k]? = some v) :
    m[k]? = some v ∨ ∃ a ∈ l, f a = some (k, v) := by
  induction l generalizing m with
  | nil => exact Or.inl h
  | cons a l ih =>
    rw [collectMap_cons] at h
    rcases ih h with hm | ⟨b, hb, hfb⟩
    · cases hfa : f a with
      | none =>
        rw [hfa] at hm
        exact Or.inl hm
      | some kv =>
        obtain ⟨j, w⟩ := kv
        simp only [hfa, ExtTreeMap.getElem?_insert, LawfulEqCmp.compare_eq_iff_eq] at hm
        split_ifs at hm with hjk
        · obtain rfl := LawfulEqCmp.eq_of_compare hjk
          obtain rfl := Option.some.inj hm
          exact Or.inr ⟨a, List.mem_cons_self, hfa⟩
        · exact Or.inl hm
    · exact Or.inr ⟨b, List.mem_cons_of_mem _ hb, hfb⟩

/-- Insert the entries that `f` yields for the elements of a list; an entry stays as it is
first inserted. -/
def collectNew {α : Type} (f : α → Option (K × V)) (l : List α) (m : BTreeMap K V) :
    BTreeMap K V :=
  l.foldl (fun m a => match f a with | some (k, v) => m.insertIfNew k v | none => m) m

lemma getElem?_collectNew [DecidableEq K] {α : Type} (f : α → Option (K × V)) (l : List α)
    (m : BTreeMap K V) (k : K) :
    (collectNew f l m)[k]? = m[k]?.or (((l.filterMap f).find? (·.1 = k)).map Prod.snd) := by
  induction l generalizing m with
  | nil => simp [collectNew]
  | cons a l ih =>
    rw [show collectNew f (a :: l) m = collectNew f l
      (match f a with | some (k, v) => m.insertIfNew k v | none => m) from rfl, ih]
    cases hfa : f a with
    | none => simp [hfa]
    | some kv =>
      obtain ⟨j, v⟩ := kv
      by_cases hjk : j = k
      · subst hjk
        simp only [ExtTreeMap.getElem?_insertIfNew, hfa, List.filterMap_cons, decide_true,
          List.find?_cons_of_pos, LawfulEqCmp.compare_eq_iff_eq, true_and, Option.map_some]
        by_cases hmem : j ∈ m <;> simp [hmem]
      · have hcmp : compare j k ≠ .eq := fun heq => hjk (LawfulEqCmp.eq_of_compare heq)
        simp [ExtTreeMap.getElem?_insertIfNew, hfa, hjk]

/-- Further elements that do not name a key leave it alone. -/
lemma getElem?_collectNew_append [DecidableEq K] {α : Type} {f : α → Option (K × V)} {l l' : List α}
    {k : K} (h : ∀ a ∈ l', ∀ v, f a ≠ some (k, v)) (m : BTreeMap K V) :
    (collectNew f (l ++ l') m)[k]? = (collectNew f l m)[k]? := by
  have hnone : (l'.filterMap f).find? (·.1 = k) = none := by
    rw [List.find?_eq_none]
    rintro ⟨j, v⟩ hmem hkey
    obtain ⟨a, ha, hfa⟩ := List.mem_filterMap.mp hmem
    obtain rfl : j = k := by simpa using hkey
    exact h a ha v hfa
  rw [getElem?_collectNew, getElem?_collectNew, List.filterMap_append, List.find?_append, hnone,
    Option.or_none]

/-- When no key is named with two values, the order of the elements does not matter. -/
lemma collectNew_perm [DecidableEq K] {α : Type} {f : α → Option (K × V)} {l l' : List α}
    (h : l.Perm l') (hagree : ∀ a ∈ l, ∀ b ∈ l, ∀ k v w, f a = some (k, v) → f b = some (k, w) →
      v = w) (m : BTreeMap K V) : collectNew f l m = collectNew f l' m := by
  apply ExtTreeMap.ext_getElem?
  intro k
  have hfind : ((l.filterMap f).find? (·.1 = k)).map Prod.snd =
      ((l'.filterMap f).find? (·.1 = k)).map Prod.snd := by
    have hperm := h.filterMap f
    cases hx : (l.filterMap f).find? (·.1 = k) with
    | none =>
      have hnone : (l'.filterMap f).find? (·.1 = k) = none := by
        rw [List.find?_eq_none] at hx ⊢
        exact fun e he => hx e (hperm.mem_iff.mpr he)
      rw [hnone]
    | some e =>
      cases hy : (l'.filterMap f).find? (·.1 = k) with
      | none =>
        rw [List.find?_eq_none] at hy
        have hmem := hperm.mem_iff.mp (List.mem_of_find?_eq_some hx)
        exact absurd (List.find?_some hx) (hy e hmem)
      | some e' =>
        obtain ⟨a, ha, hfa⟩ := List.mem_filterMap.mp (List.mem_of_find?_eq_some hx)
        obtain ⟨b, hb, hfb⟩ := List.mem_filterMap.mp
          (hperm.mem_iff.mpr (List.mem_of_find?_eq_some hy))
        have hk : e.1 = k := by simpa using List.find?_some hx
        have hk' : e'.1 = k := by simpa using List.find?_some hy
        obtain ⟨j, v⟩ := e
        obtain ⟨j', w⟩ := e'
        subst hk
        obtain rfl : j' = j := hk'
        simp [hagree a ha b hb _ v w hfa hfb]
  rw [getElem?_collectNew, getElem?_collectNew, hfind]

end Maps

/-! ### Joins -/

section Joins

variable {σ α L : Type} [SemilatticeSup L]

/-- A fold of joins lies below what its start and all its elements lie below. -/
lemma foldl_sup_le_iff (weight : α → L) (l : List α) (a b : L) :
    l.foldl (fun m e => m ⊔ weight e) a ≤ b ↔ a ≤ b ∧ ∀ e ∈ l, weight e ≤ b := by
  induction l generalizing a with
  | nil => simp
  | cons e l ih => simp [ih, and_assoc]

/-- When every step joins the weight of its element, the fold depends on the elements only as a
set: their order and repetition do not matter. The steps may rely on a condition that they keep. -/
lemma foldl_join_congr (memory : σ → L) (weight : α → L) {step : σ → α → σ} {P : σ → Prop}
    (hP : ∀ s e, P s → P (step s e))
    (hstep : ∀ s e, P s → memory (step s e) = memory s ⊔ weight e) {l l' : List α}
    (h : ∀ e, e ∈ l ↔ e ∈ l') {s : σ} (hs : P s) :
    memory (l.foldl step s) = memory (l'.foldl step s) := by
  have hfold : ∀ (l : List α) (s : σ), P s →
      memory (l.foldl step s) = l.foldl (fun m e => m ⊔ weight e) (memory s) := by
    intro l
    induction l with
    | nil => exact fun _ _ => rfl
    | cons e l ih =>
      intro s hs
      rw [List.foldl_cons, ih _ (hP s e hs), hstep s e hs, List.foldl_cons]
  apply eq_of_forall_ge_iff
  intro b
  rw [hfold l s hs, hfold l' s hs, foldl_sup_le_iff, foldl_sup_le_iff]
  simp only [h]

end Joins

/-! ### Stable sort by a comparator -/

section StableSort

variable {α : Type} (cmp : α → α → Ordering)

/-- Stable sort: equal elements keep their order. -/
def sortBy (l : List α) : List α := l.insertionSort (fun a b => (cmp a b).isLE = true)

/-- The first element, in sorted order, that satisfies `p`. -/
def firstBy (p : α → Bool) (l : List α) : Option α := (sortBy cmp l).find? p

@[simp] lemma mem_sortBy {l : List α} {a : α} : a ∈ sortBy cmp l ↔ a ∈ l :=
  List.mem_insertionSort _

lemma sortBy_perm (l : List α) : (sortBy cmp l).Perm l := List.perm_insertionSort _ l

lemma firstBy_eq_none {p : α → Bool} {l : List α} :
    firstBy cmp p l = none ↔ ∀ a ∈ l, p a = false := by
  simp [firstBy]

section Trans

variable [TransCmp cmp]

lemma isLE_total (a b : α) : (cmp a b).isLE ∨ (cmp b a).isLE := by
  rw [show cmp b a = (cmp a b).swap from OrientedCmp.eq_swap]
  cases cmp a b <;> simp [Ordering.swap]

lemma pairwise_sortBy (l : List α) : (sortBy cmp l).Pairwise (fun a b => (cmp a b).isLE) := by
  have : Std.Total (fun a b : α => (cmp a b).isLE = true) := ⟨isLE_total cmp⟩
  have : IsTrans α (fun a b : α => (cmp a b).isLE = true) := ⟨fun _ _ _ => TransCmp.isLE_trans⟩
  exact List.pairwise_insertionSort _ l

/-- Two arrangements of the same elements sort to the same list when the comparator separates
the elements. -/
lemma sortBy_eq_of_perm {l l' : List α} (h : l.Perm l')
    (hinj : ∀ a ∈ l, ∀ b ∈ l, cmp a b = .eq → a = b) : sortBy cmp l = sortBy cmp l' := by
  apply List.Perm.eq_of_pairwise _ (pairwise_sortBy cmp l) (pairwise_sortBy cmp l')
    (((sortBy_perm cmp l).trans h).trans (sortBy_perm cmp l').symm)
  intro a b ha hb hab hba
  have ha' : a ∈ l := (mem_sortBy cmp).mp ha
  have hb' : b ∈ l := h.mem_iff.mpr ((mem_sortBy cmp).mp hb)
  exact hinj a ha' b hb' (OrientedCmp.isLE_antisymm hab hba)

/-- What `firstBy` selects satisfies the predicate and precedes everything that does. -/
lemma firstBy_eq_some {p : α → Bool} {l : List α} {a : α} (h : firstBy cmp p l = some a) :
    a ∈ l ∧ p a = true ∧ ∀ b ∈ l, p b = true → (cmp a b).isLE := by
  obtain ⟨hpa, pre, post, hl, hpre⟩ := List.find?_eq_some_iff_append.mp h
  have hsorted := pairwise_sortBy cmp l
  rw [hl, List.pairwise_append, List.pairwise_cons] at hsorted
  refine ⟨(mem_sortBy cmp).mp (by rw [hl]; simp), hpa, fun b hb hpb => ?_⟩
  have hb' : b ∈ pre ++ a :: post := hl ▸ (mem_sortBy cmp).mpr hb
  rcases List.mem_append.mp hb' with hmem | hmem
  · -- everything before `a` fails the predicate
    have := hpre b hmem
    simp [hpb] at this
  · rcases List.mem_cons.mp hmem with rfl | hmem
    · exact (Ordering.isLE_of_eq_eq ReflCmp.compare_self)
    · exact hsorted.2.1.1 b hmem

/-- An element that satisfies the predicate and precedes everything else that does is selected. -/
lemma firstBy_eq_of_least {p : α → Bool} {l : List α} {a : α} (ha : a ∈ l) (hpa : p a = true)
    (hle : ∀ b ∈ l, p b = true → (cmp a b).isLE)
    (hinj : ∀ b ∈ l, cmp a b = .eq → a = b) : firstBy cmp p l = some a := by
  cases h : firstBy cmp p l with
  | none =>
    have := (firstBy_eq_none cmp).mp h a ha
    simp [hpa] at this
  | some b =>
    obtain ⟨hb, hpb, hleast⟩ := firstBy_eq_some cmp h
    rw [hinj b hb (OrientedCmp.isLE_antisymm (hle b hb hpb) (hleast a ha hpa))]

end Trans

end StableSort

/-! ### Lists without repetitions in a row -/

lemma mem_destutter_ne {α : Type} [DecidableEq α] {l : List α} {a : α} :
    a ∈ l.destutter (· ≠ ·) ↔ a ∈ l := by
  have hcons : ∀ (l : List α) (b : α), a ∈ l.destutter' (· ≠ ·) b ↔ a = b ∨ a ∈ l := by
    intro l
    induction l with
    | nil => simp
    | cons c l ih =>
      intro b
      by_cases hbc : b ≠ c
      · rw [List.destutter'_cons_pos _ hbc, List.mem_cons, ih, List.mem_cons]
      · rw [List.destutter'_cons_neg _ hbc, ih, List.mem_cons, ← not_not.mp hbc]
        tauto
  cases l with
  | nil => simp
  | cons b l => rw [List.destutter_cons', hcons, List.mem_cons]

/-! ### Least element -/

section MinBy

variable {α β : Type} [Ord β] (f : α → β)

/-- The first element whose image is least. -/
def minBy : List α → Option α
  | [] => none
  | a :: l =>
    match minBy l with
    | none => some a
    | some b => if (compare (f a) (f b)).isLE then some a else some b

lemma minBy_eq_none {l : List α} : minBy f l = none ↔ l = [] := by
  cases l with
  | nil => simp [minBy]
  | cons a l =>
    cases hl : minBy f l with
    | none => simp [minBy, hl]
    | some b => simp only [minBy, hl]; split <;> simp

lemma minBy_mem {l : List α} {a : α} (h : minBy f l = some a) : a ∈ l := by
  induction l generalizing a with
  | nil => simp [minBy] at h
  | cons b l ih =>
    simp only [minBy] at h
    cases hl : minBy f l with
    | none =>
      simp only [hl, Option.some.injEq] at h
      simp [h]
    | some c =>
      simp only [hl] at h
      split at h
      · simp_all
      · exact List.mem_cons_of_mem _ (ih (by rw [hl]; exact h))

variable [TransOrd β]

lemma minBy_le {l : List α} {a : α} (h : minBy f l = some a) :
    ∀ b ∈ l, (compare (f a) (f b)).isLE := by
  induction l generalizing a with
  | nil => simp
  | cons c l ih =>
    simp only [minBy] at h
    cases hl : minBy f l with
    | none =>
      have hnil : l = [] := (minBy_eq_none f).mp hl
      simp only [hl, Option.some.injEq] at h
      subst h hnil
      simp [ReflCmp.compare_self]
    | some d =>
      simp only [hl] at h
      intro b hb
      split at h
      · next hle =>
        obtain rfl : c = a := by simpa using h
        rcases List.mem_cons.mp hb with rfl | hb
        · simp [ReflCmp.compare_self]
        · exact TransCmp.isLE_trans hle (ih hl b hb)
      · next hle =>
        obtain rfl : d = a := by simpa using h
        rcases List.mem_cons.mp hb with rfl | hb
        · exact (isLE_total compare (f b) (f d)).resolve_left hle
        · exact ih hl b hb

/-- The least element does not depend on the arrangement when images separate the elements. -/
lemma minBy_eq_of_perm [LawfulEqOrd β] {l l' : List α} (h : l.Perm l')
    (hinj : ∀ a ∈ l, ∀ b ∈ l, f a = f b → a = b) : minBy f l = minBy f l' := by
  cases ha : minBy f l with
  | none =>
    have hnil : l = [] := (minBy_eq_none f).mp ha
    subst hnil
    rw [List.nil_perm.mp h]
    rfl
  | some a =>
    cases hb : minBy f l' with
    | none =>
      have hnil : l' = [] := (minBy_eq_none f).mp hb
      subst hnil
      simp [List.perm_nil.mp h, minBy] at ha
    | some b =>
      have hal := minBy_mem f ha
      have hbl : b ∈ l := h.mem_iff.mpr (minBy_mem f hb)
      have hab := minBy_le f ha b hbl
      have hba := minBy_le f hb a (h.mem_iff.mp hal)
      have heq : f a = f b := LawfulEqCmp.eq_of_compare (OrientedCmp.isLE_antisymm hab hba)
      rw [hinj a hal b hbl heq]

end MinBy

end Collections
