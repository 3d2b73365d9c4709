import Thorax.Library.Settle

/-!
# Loops without a bound

A loop as a program writes it, which ends when a round finds nothing to do and not before. A measure
that every productive round raises and that has a bound shows that it ends, after how many rounds,
and that the loop with a bound on its rounds ends in the same state.
-/

namespace Settle

section Rounds

variable {σ : Type} (pass : σ → σ × Bool)

/-- A pass is repeated while it reports a change, and it is so after some rounds. -/
inductive Rounds : ℕ → σ → σ → Prop
  | last {s : σ} : (pass s).2 = false → Rounds 1 s (pass s).1
  | again {n : ℕ} {s t : σ} : (pass s).2 = true → Rounds n (pass s).1 t → Rounds (n + 1) s t

variable {pass}

/-- A loop ends in one state only, after one number of rounds. -/
lemma Rounds.unique {n m : ℕ} {s t t' : σ} (h : Rounds pass n s t) (h' : Rounds pass m s t') :
    n = m ∧ t = t' := by
  induction h generalizing m t' with
  | last hdone =>
    cases h' with
    | last => exact ⟨rfl, rfl⟩
    | again hmore => exact absurd hmore (Bool.eq_false_iff.mp hdone)
  | again hmore _ ih =>
    cases h' with
    | last hdone => exact absurd hmore (Bool.eq_false_iff.mp hdone)
    | again _ hrest =>
      obtain ⟨rfl, rfl⟩ := ih hrest
      exact ⟨rfl, rfl⟩

/-- When every changing pass raises a measure bounded by `B`, the loop ends after at most one round
more than the measure leaves, where the bounded loop ends. -/
lemma rounds_loopUntil {Inv : σ → Prop} (hpass : ∀ s, Inv s → Inv (pass s).1) (μ : σ → ℕ) {B : ℕ}
    (hlt : ∀ s, Inv s → (pass s).2 = true → μ s < μ (pass s).1) (hB : ∀ s, Inv s → μ s ≤ B)
    {n : ℕ} {s : σ} (hs : Inv s) (hn : B < n + μ s) :
    ∃ k, k + μ s ≤ B + 1 ∧ Rounds pass k s (loopUntil pass n s) := by
  induction n generalizing s with
  | zero =>
    have := hB s hs
    omega
  | succ n ih =>
    rw [loopUntil]
    split_ifs with h
    · have hless := hlt s hs h
      obtain ⟨k, hk, hrun⟩ := ih (hpass s hs) (by omega)
      exact ⟨k + 1, by omega, .again h hrun⟩
    · have := hB s hs
      exact ⟨1, by omega, .last (Bool.eq_false_iff.mpr h)⟩

end Rounds

section Growth

variable {σ : Type} (next : σ → Option σ)

/-- A state is replaced by the next one until there is none. -/
inductive Growth : ℕ → σ → σ → Prop
  | stop {s : σ} : next s = none → Growth 0 s s
  | step {n : ℕ} {s s' t : σ} : next s = some s' → Growth n s' t → Growth (n + 1) s t

variable {next}

/-- A growth that stops is one without a bound. -/
lemma growth_grow {n : ℕ} {s : σ} (h : next (grow next n s) = none) :
    ∃ k ≤ n, Growth next k s (grow next n s) := by
  induction n generalizing s with
  | zero => exact ⟨0, le_rfl, .stop h⟩
  | succ n ih =>
    rw [grow] at h ⊢
    cases hnext : next s with
    | none => exact ⟨0, Nat.zero_le _, .stop hnext⟩
    | some t =>
      rw [hnext] at h
      obtain ⟨k, hk, hrun⟩ := ih h
      exact ⟨k + 1, Nat.succ_le_succ hk, .step hnext hrun⟩

end Growth

end Settle
