import Mathlib

/-!
# Edits of one part

A store of independent parts, and edits that replace one of them. An edit that is made on a copy
of the store has the effect it has on the store itself exactly when the copy is up to date off the
edited part; then a sequence of edits loses none of them.
-/

namespace Edits

variable {Part Value : Type}

/-- A new value for one part. -/
structure Edit (Part Value : Type) where
  part : Part
  value : Value
  deriving DecidableEq

/-- Two stores agree except at one part. -/
def AgreeOff (part : Part) (a b : Part → Value) : Prop := ∀ other ≠ part, a other = b other

/-- Nothing among later edits replaces a part. -/
def Untouched (part : Part) (edits : List (Edit Part Value)) : Prop :=
  ∀ edit ∈ edits, edit.part ≠ part

variable [DecidableEq Part]

def Edit.apply (edit : Edit Part Value) (store : Part → Value) : Part → Value :=
  Function.update store edit.part edit.value

/-- The store after a sequence of edits. -/
def run (edits : List (Edit Part Value)) (store : Part → Value) : Part → Value :=
  edits.foldl (fun store edit => edit.apply store) store

section Lemmas

variable {edit : Edit Part Value} {edits before after : List (Edit Part Value)}
variable {store copy : Part → Value} {part : Part}

@[simp] lemma apply_part : edit.apply store edit.part = edit.value := by
  rw [Edit.apply, Function.update_self]

lemma apply_of_ne (h : part ≠ edit.part) : edit.apply store part = store part := by
  rw [Edit.apply, Function.update_of_ne h]

/-- An edit of a copy is an edit of the store exactly when the copy is up to date off the part. -/
lemma apply_eq_apply_iff : edit.apply copy = edit.apply store ↔ AgreeOff edit.part copy store := by
  constructor
  · intro h other hother
    have hcopy : edit.apply copy other = copy other := apply_of_ne hother
    rw [← hcopy, h, apply_of_ne hother]
  · intro h
    funext other
    by_cases hother : other = edit.part
    · rw [hother, apply_part, apply_part]
    · rw [apply_of_ne hother, apply_of_ne hother, h other hother]

@[simp] lemma run_nil : run [] store = store := rfl

@[simp] lemma run_cons : run (edit :: edits) store = run edits (edit.apply store) := rfl

@[simp] lemma run_append : run (before ++ after) store = run after (run before store) :=
  List.foldl_append

lemma run_of_untouched (h : Untouched part edits) : run edits store part = store part := by
  induction edits generalizing store with
  | nil => rfl
  | cons edit edits ih =>
    obtain ⟨hedit, hrest⟩ := List.forall_mem_cons.mp h
    rw [run_cons, ih hrest, apply_of_ne hedit.symm]

/-- An edit lasts until its part is edited again. -/
lemma run_of_last (h : Untouched edit.part after) :
    run (before ++ edit :: after) store edit.part = edit.value := by
  rw [run_append, run_cons, run_of_untouched h, apply_part]

end Lemmas

end Edits
