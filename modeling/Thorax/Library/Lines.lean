import Mathlib.Data.List.Infix
import Mathlib.Tactic.Common

/-!
# Lines of a text

A text is cut at its line feeds. A carriage return before a line feed belongs to the line end, and
nothing follows the last line end. Joining the lines again loses both: it is the identity exactly on
the texts without a carriage return before a line feed and without a line feed at the end.
-/

namespace Lines

variable {α : Type*} {lf cr : α} {part rest text : List α} {parts : List (List α)}

/-! ### Joining -/

def join (lf : α) (lines : List (List α)) : List α := [lf].intercalate lines

@[simp] lemma join_singleton : join lf [part] = part := List.intercalate_singleton

lemma join_cons (h : parts ≠ []) : join lf (part :: parts) = part ++ lf :: join lf parts := by
  rw [join, List.intercalate_cons_of_ne_nil h, List.append_assoc, List.singleton_append, join]

lemma join_eq_nil_iff (h : parts ≠ []) : join lf parts = [] ↔ parts = [[]] := by
  obtain ⟨part, rest, rfl⟩ := List.exists_cons_of_ne_nil h
  by_cases hrest : rest = []
  · subst hrest
    simp
  · rw [join_cons hrest]
    simp [hrest]

/-! ### Line ends -/

/-- A line end within a text that begins with a part up to a line feed. -/
lemma lineEnd_infix_append_iff (hne : cr ≠ lf) (hpart : lf ∉ part) :
    [cr, lf] <:+: part ++ lf :: rest ↔ part.getLast? = some cr ∨ [cr, lf] <:+: rest := by
  induction part with
  | nil => simp [List.infix_cons_iff, List.cons_prefix_cons, hne]
  | cons c part ih =>
    rw [List.mem_cons, not_or] at hpart
    rw [List.cons_append, List.infix_cons_iff, ih hpart.2]
    cases part with
    | nil =>
      simp [List.cons_prefix_cons, eq_comm]
    | cons next part =>
      have hnext : lf ≠ next := fun heq => hpart.2 (heq ▸ List.mem_cons_self)
      simp [List.cons_prefix_cons, hnext]

lemma not_mem_lineEnds (hpart : lf ∉ part) : ¬ [cr, lf] <:+: part :=
  fun h => hpart (h.subset (by simp))

lemma getLast?_append_cons : (part ++ lf :: rest).getLast? ≠ some lf ↔
    rest ≠ [] ∧ rest.getLast? ≠ some lf := by
  cases rest with
  | nil => simp
  | cons c rest => simp [List.getLast?_cons]

/-! ### Cutting -/

variable [DecidableEq α]

/-- No part of a split contains what it was split at. -/
lemma not_mem_of_mem_splitOn (h : part ∈ text.splitOn lf) : lf ∉ part := by
  induction text generalizing part with
  | nil =>
    rw [List.splitOn_nil, List.mem_singleton] at h
    simp [h]
  | cons c text ih =>
    rw [List.splitOn_cons_eq_if_modifyHead] at h
    obtain ⟨first, rest, hsplit⟩ := List.exists_cons_of_ne_nil (List.splitOn_ne_nil lf text)
    rw [hsplit] at h ih
    split_ifs at h with hc
    · rcases List.mem_cons.mp h with rfl | h
      · exact List.not_mem_nil
      · exact ih h
    · rcases List.mem_cons.mp h with rfl | h
      · have hne : lf ≠ c := fun heq => hc (by simp [heq])
        exact List.not_mem_cons_of_ne_of_not_mem hne (ih List.mem_cons_self)
      · exact ih (List.mem_cons_of_mem _ h)

lemma splitOn_of_not_mem (h : lf ∉ text) : text.splitOn lf = [text] := by
  induction text with
  | nil => simp
  | cons c text ih =>
    rw [List.mem_cons, not_or] at h
    rw [List.splitOn_cons_eq_if_modifyHead, ih h.2]
    simp [Ne.symm h.1]

/-- A line feed ends a part. -/
lemma splitOn_append_cons :
    (text ++ lf :: rest).splitOn lf = text.splitOn lf ++ rest.splitOn lf := by
  induction text with
  | nil => simp [List.splitOn_cons_eq_if_modifyHead]
  | cons c text ih =>
    rw [List.cons_append, List.splitOn_cons_eq_if_modifyHead, List.splitOn_cons_eq_if_modifyHead,
      ih]
    obtain ⟨first, others, hsplit⟩ := List.exists_cons_of_ne_nil (List.splitOn_ne_nil lf text)
    split_ifs <;> simp [hsplit]

/-- The parts of a text that line feeds end, and what follows the last one. -/
def cut (lf : α) (text : List α) : List (List α) :=
  let parts := text.splitOn lf
  if parts.getLast? = some [] then parts.dropLast else parts

lemma cut_append_cons : cut lf (text ++ lf :: rest) = text.splitOn lf ++ cut lf rest := by
  obtain ⟨others, last, hsplit⟩ : ∃ others last, rest.splitOn lf = others ++ [last] :=
    ⟨_, _, (List.dropLast_concat_getLast (List.splitOn_ne_nil lf rest)).symm⟩
  simp only [cut, splitOn_append_cons, hsplit, ← List.append_assoc, List.getLast?_concat,
    List.dropLast_concat]
  split_ifs
  · rfl
  · exact List.append_assoc _ _ _

lemma cut_prefix : cut lf text <+: text.splitOn lf := by
  rw [cut]
  split_ifs
  · exact List.dropLast_prefix _
  · exact List.prefix_rfl

/-- Nothing that is cut changes when a text continues behind a line feed. -/
lemma cut_prefix_append_cons : cut lf text <+: cut lf (text ++ lf :: rest) := by
  rw [cut_append_cons]
  exact cut_prefix.trans (List.prefix_append _ _)

lemma cut_prefix_append (htext : text = [] ∨ text.getLast? = some lf) :
    cut lf text <+: cut lf (text ++ rest) := by
  rcases htext with rfl | htext
  · simp [cut]
  · obtain ⟨front, rfl⟩ := List.getLast?_eq_some_iff.mp htext
    rw [List.append_assoc, List.singleton_append, cut_append_cons, cut_append_cons]
    simp [cut]

/-- The carriage return of a line end. -/
def stripped (cr : α) (part : List α) : List α :=
  if part.getLast? = some cr then part.dropLast else part

/-- The lines behind the parts of a text between its line feeds. -/
def ofParts (cr : α) : List (List α) → List (List α)
  | [] => []
  | [last] => if last = [] then [] else [last]
  | part :: rest => stripped cr part :: ofParts cr rest

def lines (lf cr : α) (text : List α) : List (List α) := ofParts cr (text.splitOn lf)

lemma ofParts_cons (h : parts ≠ []) :
    ofParts cr (part :: parts) = stripped cr part :: ofParts cr parts := by
  obtain ⟨next, rest, rfl⟩ := List.exists_cons_of_ne_nil h
  rfl

lemma ofParts_append (h : parts ≠ []) (others : List (List α)) :
    ofParts cr (others ++ parts) = others.map (stripped cr) ++ ofParts cr parts := by
  induction others with
  | nil => rfl
  | cons other others ih =>
    rw [List.cons_append, ofParts_cons (by simp [h]), ih, List.map_cons, List.cons_append]

lemma lines_append_cons : lines lf cr (text ++ lf :: rest) =
    (text.splitOn lf).map (stripped cr) ++ lines lf cr rest := by
  rw [lines, splitOn_append_cons, ofParts_append (List.splitOn_ne_nil lf rest), lines]

/-- What line feeds enclose is a line of a text, up to a carriage return at its end. -/
lemma mem_lines (cr : α) (rest : List α) (hpart : lf ∉ part) (htext : text = [] ∨ text.getLast? = some lf) :
    stripped cr part ∈ lines lf cr (text ++ part ++ lf :: rest) := by
  have hlines : stripped cr part ∈ lines lf cr (part ++ lf :: rest) := by
    rw [lines_append_cons, splitOn_of_not_mem hpart]
    exact List.mem_append_left _ List.mem_cons_self
  rcases htext with rfl | htext
  · exact hlines
  · obtain ⟨front, rfl⟩ := List.getLast?_eq_some_iff.mp htext
    rw [List.append_assoc, List.append_assoc, List.singleton_append, lines_append_cons]
    exact List.mem_append_right _ hlines

lemma stripped_sublist (cr : α) (part : List α) : (stripped cr part).Sublist part := by
  rw [stripped]
  split_ifs
  · exact List.dropLast_sublist part
  · exact List.Sublist.refl part

lemma stripped_eq_self_iff : stripped cr part = part ↔ part.getLast? ≠ some cr := by
  rw [stripped]
  split_ifs with hlast
  · refine iff_of_false (fun heq => ?_) (not_not_intro hlast)
    have hlength := congrArg List.length heq
    cases part with
    | nil => simp at hlast
    | cons c part => simp at hlength
  · exact iff_of_true rfl hlast

/-- Nothing is added. -/
lemma join_ofParts_sublist (lf cr : α) (parts : List (List α)) :
    (join lf (ofParts cr parts)).Sublist (join lf parts) := by
  induction parts with
  | nil => exact List.Sublist.refl _
  | cons part parts ih =>
    by_cases hparts : parts = []
    · subst hparts
      rw [ofParts]
      split_ifs with hnil
      · exact List.nil_sublist _
      · exact List.Sublist.refl _
    · rw [ofParts_cons hparts, join_cons hparts]
      by_cases hlines : ofParts cr parts = []
      · rw [hlines, join_singleton]
        exact (stripped_sublist cr _).trans (List.sublist_append_left _ _)
      · rw [join_cons hlines]
        exact (stripped_sublist cr _).append (ih.cons_cons lf)

/-- The lines of two parts or more join to the text only if no line end has a carriage return, and
the text after the first line feed has lines that join to it. -/
lemma join_ofParts_cons_iff (h : parts ≠ []) :
    join lf (ofParts cr (part :: parts)) = join lf (part :: parts) ↔
      part.getLast? ≠ some cr ∧ parts ≠ [[]] ∧ join lf (ofParts cr parts) = join lf parts := by
  rw [ofParts_cons h, join_cons h]
  by_cases hlines : ofParts cr parts = []
  · obtain rfl : parts = [[]] := by
      obtain ⟨last, rest, rfl⟩ := List.exists_cons_of_ne_nil h
      cases rest with
      | nil => simpa [ofParts] using hlines
      | cons next rest => simp [ofParts] at hlines
    rw [hlines, join_singleton]
    refine iff_of_false (fun heq => ?_) (by simp)
    have hlength := congrArg List.length heq
    have hle := (stripped_sublist cr part).length_le
    simp at hlength
    omega
  · have hparts : parts ≠ [[]] := fun heq => hlines (by rw [heq]; rfl)
    rw [join_cons hlines, ← stripped_eq_self_iff]
    constructor
    · intro heq
      have hlength := congrArg List.length heq
      rw [List.length_append, List.length_append, List.length_cons, List.length_cons] at hlength
      have hpart := (stripped_sublist cr part).length_le
      have hjoin := (join_ofParts_sublist lf cr parts).length_le
      exact ⟨(stripped_sublist cr part).eq_of_length (by omega), hparts,
        (join_ofParts_sublist lf cr parts).eq_of_length (by omega)⟩
    · rintro ⟨hstripped, -, hjoin⟩
      rw [hstripped, hjoin]

lemma join_ofParts_iff (hne : cr ≠ lf) (h : parts ≠ []) (hparts : ∀ part ∈ parts, lf ∉ part) :
    join lf (ofParts cr parts) = join lf parts ↔
      ¬ [cr, lf] <:+: join lf parts ∧ (join lf parts).getLast? ≠ some lf := by
  induction parts with
  | nil => exact absurd rfl h
  | cons part parts ih =>
    have hpart := hparts part List.mem_cons_self
    by_cases hrest : parts = []
    · subst hrest
      rw [join_singleton]
      refine iff_of_true ?_ ⟨not_mem_lineEnds hpart, fun hlast => ?_⟩
      · rw [ofParts]
        split_ifs with hnil
        · exact hnil.symm
        · exact join_singleton
      · exact hpart (List.mem_of_getLast? hlast)
    · rw [join_ofParts_cons_iff hrest,
        ih hrest fun other hother => hparts other (List.mem_cons_of_mem _ hother), join_cons hrest,
        lineEnd_infix_append_iff hne hpart, getLast?_append_cons, ne_eq, ne_eq, ne_eq, ne_eq,
        join_eq_nil_iff hrest]
      tauto

/-- A text is its joined lines exactly if no line feed follows a carriage return or ends it. -/
theorem join_lines_iff (hne : cr ≠ lf) : join lf (lines lf cr text) = text ↔
    ¬ [cr, lf] <:+: text ∧ text.getLast? ≠ some lf := by
  have htext : join lf (text.splitOn lf) = text := List.intercalate_splitOn lf
  have hiff := join_ofParts_iff hne (List.splitOn_ne_nil lf text) fun _ => not_mem_of_mem_splitOn
  rwa [htext] at hiff

/-- The last line end is gone. -/
example : join 0 (lines 0 9 [1, 0, 2, 0]) = [1, 0, 2] := by decide

end Lines
