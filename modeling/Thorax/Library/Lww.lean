import Thorax.Library.Collections

/-!
# Last-writer-wins candidates

The records competing for one key are scanned in file order; a slot keeps those that share the
highest counter seen so far. When the scan ends the slot either agrees on one body, and its
least hash represents it, or it is contested. None of this depends on the order of the scan.
-/

namespace Lww

open Collections
open Std (TransOrd LawfulEqOrd)

section Leaders

variable {R : Type} (counter : R → ℕ)

/-- Offer one more record to a slot. -/
def push (slot : List R) (r : R) : List R :=
  match slot with
  | [] => [r]
  | leader :: rest =>
    if counter leader < counter r then [r]
    else if counter r = counter leader then leader :: rest ++ [r]
    else leader :: rest

/-- The slot left by scanning a list of competing records. -/
def leaders (l : List R) : List R := l.foldl (push counter) []

/-- A record leads a list when no member of the list has a higher counter. -/
def Leads (l : List R) (r : R) : Prop := ∀ s ∈ l, counter s ≤ counter r

instance (l : List R) (r : R) : Decidable (Leads counter l r) :=
  inferInstanceAs (Decidable (∀ s ∈ l, counter s ≤ counter r))

lemma exists_leads {l : List R} (h : l ≠ []) : ∃ r ∈ l, Leads counter l r := by
  induction l with
  | nil => exact absurd rfl h
  | cons a l ih =>
    by_cases hl : l = []
    · subst hl
      exact ⟨a, by simp, by simp [Leads]⟩
    · obtain ⟨r, hr, hlead⟩ := ih hl
      by_cases hle : counter a ≤ counter r
      · refine ⟨r, List.mem_cons_of_mem _ hr, fun s hs => ?_⟩
        rcases List.mem_cons.mp hs with rfl | hs
        · exact hle
        · exact hlead s hs
      · refine ⟨a, List.mem_cons_self, fun s hs => ?_⟩
        rcases List.mem_cons.mp hs with rfl | hs
        · exact le_rfl
        · have := hlead s hs
          omega

/-- One scan step keeps exactly the records that lead the extended list. -/
lemma push_filter_leads (l : List R) (r : R) :
    push counter (l.filter (Leads counter l ·)) r =
      (l ++ [r]).filter (Leads counter (l ++ [r]) ·) := by
  rw [List.filter_append]
  by_cases hl : l = []
  · subst hl
    simp [push, Leads]
  · obtain ⟨m, hm, hlead⟩ := exists_leads counter hl
    have hmem : m ∈ l.filter (Leads counter l ·) := by simp [hm, hlead]
    obtain ⟨leader, rest, hslot⟩ : ∃ leader rest,
        l.filter (Leads counter l ·) = leader :: rest :=
      List.exists_cons_of_ne_nil (List.ne_nil_of_mem hmem)
    have hleader : leader ∈ l.filter (Leads counter l ·) := by simp [hslot]
    have htop : Leads counter l leader := by simpa using (List.mem_filter.mp hleader).2
    have hleaderl : leader ∈ l := (List.mem_filter.mp hleader).1
    -- a member of `l` leads the extension when it leads `l` and `r` does not exceed it
    have hsplit : ∀ a, Leads counter (l ++ [r]) a ↔ Leads counter l a ∧ counter r ≤ counter a := by
      intro a
      simp [Leads, or_imp, forall_and]
    rw [hslot]
    simp only [push]
    split_ifs with hlt heq
    · have hnone : l.filter (Leads counter (l ++ [r]) ·) = [] := by
        apply List.filter_eq_nil_iff.mpr
        intro a ha
        have := htop a ha
        simp only [decide_eq_true_eq, hsplit, not_and]
        intro _
        omega
      have hr : Leads counter (l ++ [r]) r := (hsplit r).mpr
        ⟨fun s hs => le_of_lt (lt_of_le_of_lt (htop s hs) hlt), le_rfl⟩
      simp [hnone, hr]
    · have hsame : l.filter (Leads counter (l ++ [r]) ·) = l.filter (Leads counter l ·) := by
        apply List.filter_congr
        intro a ha
        simp only [decide_eq_decide, hsplit, and_iff_left_iff_imp]
        intro hal
        exact heq ▸ hal leader hleaderl
      have hr : Leads counter (l ++ [r]) r := (hsplit r).mpr ⟨fun s hs => heq ▸ htop s hs, le_rfl⟩
      simp [hsame, hslot, hr]
    · have hsame : l.filter (Leads counter (l ++ [r]) ·) = l.filter (Leads counter l ·) := by
        apply List.filter_congr
        intro a ha
        simp only [decide_eq_decide, hsplit, and_iff_left_iff_imp]
        intro hal
        have := hal leader hleaderl
        omega
      have hr : ¬ Leads counter (l ++ [r]) r := by
        intro hr
        have := ((hsplit r).mp hr).1 leader hleaderl
        omega
      simp [hsame, hslot, hr]

/-- The slot is the list of records with the highest counter, in scan order. -/
lemma leaders_eq_filter (l : List R) : leaders counter l = l.filter (Leads counter l ·) := by
  induction l using List.reverseRecOn with
  | nil => rfl
  | append_singleton l r ih =>
    rw [← push_filter_leads, ← ih]
    simp [leaders]

lemma mem_leaders {l : List R} {r : R} :
    r ∈ leaders counter l ↔ r ∈ l ∧ Leads counter l r := by
  simp [leaders_eq_filter]

@[simp] lemma leaders_nil : leaders counter ([] : List R) = [] := rfl

lemma leaders_eq_nil {l : List R} : leaders counter l = [] ↔ l = [] := by
  constructor
  · intro h
    by_contra hl
    obtain ⟨r, hr, hlead⟩ := exists_leads counter hl
    have : r ∈ leaders counter l := (mem_leaders counter).mpr ⟨hr, hlead⟩
    simp [h] at this
  · rintro rfl
    rfl

/-- All leaders share one counter. -/
lemma counter_eq_of_mem_leaders {l : List R} {r s : R} (hr : r ∈ leaders counter l)
    (hs : s ∈ leaders counter l) : counter r = counter s := by
  rw [mem_leaders] at hr hs
  exact le_antisymm (hs.2 r hr.1) (hr.2 s hs.1)

lemma leaders_perm {l l' : List R} (h : l.Perm l') :
    (leaders counter l).Perm (leaders counter l') := by
  have hcongr : l.filter (Leads counter l' ·) = l.filter (Leads counter l ·) := by
    apply List.filter_congr
    intro a _
    rw [decide_eq_decide]
    simp only [Leads, h.mem_iff]
  rw [leaders_eq_filter, leaders_eq_filter, ← hcongr]
  exact h.filter _

end Leaders

section Outcome

variable {R B H : Type} [DecidableEq B] [Ord H] (counter : R → ℕ) (body : R → B) (hash : R → H)

/-- Whether a slot holds two different bodies. -/
def diverging (slot : List R) : Bool :=
  match slot with
  | [] => false
  | leader :: rest => (leader :: rest).any (fun r => body r ≠ body leader)

/-- The record that represents a slot of one body. -/
def winner (slot : List R) : Option R := if diverging body slot then none else minBy hash slot

lemma diverging_eq_false {slot : List R} :
    diverging body slot = false ↔ ∀ r ∈ slot, ∀ s ∈ slot, body r = body s := by
  cases slot with
  | nil => simp [diverging]
  | cons leader rest =>
    simp only [diverging, List.any_eq_false, ne_eq, decide_not, Bool.not_eq_true',
      decide_eq_false_iff_not, not_not]
    constructor
    · intro h r hr s hs
      rw [h r hr, h s hs]
    · intro h r hr
      exact h r hr leader List.mem_cons_self

lemma diverging_perm {slot slot' : List R} (h : slot.Perm slot') :
    diverging body slot = diverging body slot' := by
  rw [Bool.eq_iff_iff, ← not_iff_not, Bool.not_eq_true, Bool.not_eq_true, diverging_eq_false,
    diverging_eq_false]
  simp only [h.mem_iff]

lemma winner_eq_some [TransOrd H] {slot : List R} {w : R} (h : winner body hash slot = some w) :
    w ∈ slot ∧ ∀ r ∈ slot, body r = body w := by
  unfold winner at h
  split at h
  · cases h
  · next hdiv =>
    have hw := minBy_mem hash h
    exact ⟨hw, fun r hr => (diverging_eq_false body).mp (by simpa using hdiv) r hr w hw⟩

/-- A slot without a winner is empty or contested. -/
lemma winner_eq_none {slot : List R} :
    winner body hash slot = none ↔ slot = [] ∨ diverging body slot = true := by
  unfold winner
  split
  · simp_all
  · next hdiv => simp [minBy_eq_none, hdiv]

lemma winner_perm [TransOrd H] [LawfulEqOrd H] {slot slot' : List R} (h : slot.Perm slot')
    (hinj : ∀ a ∈ slot, ∀ b ∈ slot, hash a = hash b → a = b) :
    winner body hash slot = winner body hash slot' := by
  unfold winner
  rw [diverging_perm body h, minBy_eq_of_perm hash h hinj]

end Outcome

end Lww
