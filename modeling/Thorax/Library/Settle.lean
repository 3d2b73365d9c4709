import Thorax.Library.Collections

/-!
# Bounded iteration

Three loop shapes: a step repeated a fixed number of times and left early once it changes
nothing (`settle`), a pass repeated while it reports a change (`loopUntil`), and a state that
grows while a next state is offered (`grow`). The first is compared with plain iteration, so
that facts about a run reduce to facts about one step; for the other two a bounded measure that
every productive round raises shows that the loop ends because it is done and not because its
bound is spent.
-/

namespace Settle

section Settle

variable {σ : Type} [DecidableEq σ] (step : σ → σ)

/-- Repeat `step` at most `n` times, stopping as soon as it changes nothing; the flag records
whether that point was reached. -/
def settle : ℕ → σ → σ × Bool
  | 0, s => (s, false)
  | n + 1, s => if step s = s then (s, true) else settle n (step s)

omit [DecidableEq σ] in
/-- Once a step changes nothing, no later one does. -/
lemma iterate_of_fixed {s : σ} {i j : ℕ} (h : step^[i + 1] s = step^[i] s) (hij : i ≤ j) :
    step^[j] s = step^[i] s := by
  induction j, hij using Nat.le_induction with
  | base => rfl
  | succ j _ ih => rw [Function.iterate_succ_apply', ih, ← Function.iterate_succ_apply' step, h]

/-- Leaving early does not change the state that is reached. -/
lemma settle_fst (n : ℕ) (s : σ) : (settle step n s).1 = step^[n] s := by
  induction n generalizing s with
  | zero => rfl
  | succ n ih =>
    simp only [settle]
    split_ifs with h
    · exact (iterate_of_fixed step (i := 0) h (Nat.zero_le _)).symm
    · rw [ih, Function.iterate_succ_apply]

/-- The flag is raised exactly when one of the allowed rounds changed nothing. -/
lemma settle_snd (n : ℕ) (s : σ) :
    (settle step n s).2 = true ↔ ∃ i < n, step^[i + 1] s = step^[i] s := by
  induction n generalizing s with
  | zero => simp [settle]
  | succ n ih =>
    simp only [settle]
    split_ifs with h
    · simp only [true_iff]
      exact ⟨0, Nat.succ_pos n, h⟩
    · rw [ih]
      constructor
      · rintro ⟨i, hi, heq⟩
        exact ⟨i + 1, Nat.succ_lt_succ hi, heq⟩
      · rintro ⟨i, hi, heq⟩
        cases i with
        | zero => exact absurd heq h
        | succ i => exact ⟨i, Nat.lt_of_succ_lt_succ hi, heq⟩

end Settle

section LoopUntil

variable {σ : Type} (pass : σ → σ × Bool)

/-- Repeat a pass while it reports a change, at most `n` times. -/
def loopUntil : ℕ → σ → σ
  | 0, s => s
  | n + 1, s => if (pass s).2 then loopUntil n (pass s).1 else (pass s).1

/-- When every changing pass raises a measure bounded by `B`, a loop allowed more than `B`
passes ends with one that changed nothing. -/
lemma loopUntil_stops {Inv : σ → Prop} (hpass : ∀ s, Inv s → Inv (pass s).1) (μ : σ → ℕ) {B : ℕ}
    (hlt : ∀ s, Inv s → (pass s).2 = true → μ s < μ (pass s).1) (hB : ∀ s, Inv s → μ s ≤ B)
    {n : ℕ} {s : σ} (hs : Inv s) (hn : B < n + μ s) :
    ∃ t, Inv t ∧ (pass t).2 = false ∧ loopUntil pass n s = (pass t).1 := by
  induction n generalizing s with
  | zero =>
    have := hB s hs
    omega
  | succ n ih =>
    simp only [loopUntil]
    split_ifs with h
    · have := hlt s hs h
      exact ih (hpass s hs) (by omega)
    · exact ⟨s, hs, by simpa using h, rfl⟩

/-- More passes than the measure calls for change nothing. -/
lemma loopUntil_eq_of_le {Inv : σ → Prop} (hpass : ∀ s, Inv s → Inv (pass s).1) (μ : σ → ℕ) {B : ℕ}
    (hlt : ∀ s, Inv s → (pass s).2 = true → μ s < μ (pass s).1) (hB : ∀ s, Inv s → μ s ≤ B)
    {n m : ℕ} {s : σ} (hs : Inv s) (hn : B < n + μ s) (hnm : n ≤ m) :
    loopUntil pass m s = loopUntil pass n s := by
  induction n generalizing m s with
  | zero =>
    have := hB s hs
    omega
  | succ n ih =>
    obtain ⟨k, rfl⟩ := Nat.exists_eq_add_of_le hnm
    rw [Nat.add_right_comm n 1 k]
    simp only [loopUntil]
    split_ifs with h
    · have := hlt s hs h
      exact ih (hpass s hs) (by omega) (Nat.le_add_right n k)
    · rfl

end LoopUntil

section Grow

variable {σ : Type} (next : σ → Option σ)

/-- Replace the state by the next one while there is one, at most `n` times. -/
def grow : ℕ → σ → σ
  | 0, s => s
  | n + 1, s =>
    match next s with
    | some t => grow n t
    | none => s

lemma grow_inv {Inv : σ → Prop} (hnext : ∀ s t, Inv s → next s = some t → Inv t) (n : ℕ) {s : σ}
    (hs : Inv s) : Inv (grow next n s) := by
  induction n generalizing s with
  | zero => exact hs
  | succ n ih =>
    simp only [grow]
    split
    · next t ht => exact ih (hnext s t hs ht)
    · exact hs

/-- When every next state raises a measure bounded by `B`, a growth allowed `B` steps ends
where there is no next state. -/
lemma grow_stops {Inv : σ → Prop} (hnext : ∀ s t, Inv s → next s = some t → Inv t) (μ : σ → ℕ)
    {B : ℕ} (hlt : ∀ s t, Inv s → next s = some t → μ s < μ t) (hB : ∀ s, Inv s → μ s ≤ B)
    {n : ℕ} {s : σ} (hs : Inv s) (hn : B ≤ n + μ s) : next (grow next n s) = none := by
  induction n generalizing s with
  | zero =>
    cases h : next s with
    | none => simpa [grow] using h
    | some t =>
      have h1 := hlt s t hs h
      have h2 := hB t (hnext s t hs h)
      omega
  | succ n ih =>
    simp only [grow]
    split
    · next t ht =>
      have := hlt s t hs ht
      exact ih (hnext s t hs ht) (by omega)
    · next h => exact h

/-- A state with no next state is where the growth stays. -/
lemma grow_of_none {s : σ} (h : next s = none) (n : ℕ) : grow next n s = s := by
  cases n with
  | zero => rfl
  | succ n => simp [grow, h]

lemma grow_add (n k : ℕ) (s : σ) : grow next (n + k) s = grow next k (grow next n s) := by
  induction n generalizing s with
  | zero => rw [Nat.zero_add, grow]
  | succ n ih =>
    rw [Nat.succ_add, grow, grow]
    cases h : next s with
    | none => exact (grow_of_none next h k).symm
    | some t => exact ih t

/-- A growth that has stopped is not changed by more steps. -/
lemma grow_eq_of_stopped {n m : ℕ} {s : σ} (h : next (grow next n s) = none) (hnm : n ≤ m) :
    grow next m s = grow next n s := by
  obtain ⟨k, rfl⟩ := Nat.exists_eq_add_of_le hnm
  rw [grow_add, grow_of_none next h]

/-- A growth whose steps are also steps of another one is a beginning of the other. -/
lemma grow_follows {next' : σ → Option σ} {Inv : σ → Prop}
    (hnext : ∀ s t, Inv s → next s = some t → Inv t ∧ next' s = some t) (n : ℕ) {s : σ}
    (hs : Inv s) : ∃ k ≤ n, grow next n s = grow next' k s := by
  induction n generalizing s with
  | zero => exact ⟨0, le_rfl, rfl⟩
  | succ n ih =>
    cases h : next s with
    | none => exact ⟨0, Nat.zero_le _, by rw [grow_of_none next h, grow]⟩
    | some t =>
      obtain ⟨ht, hnext'⟩ := hnext s t hs h
      obtain ⟨k, hk, heq⟩ := ih ht
      refine ⟨k + 1, Nat.succ_le_succ hk, ?_⟩
      rw [grow, grow, h, hnext']
      exact heq

end Grow

/-- Counting is a measure for loops that extend a set: it grows with the predicate. -/
lemma countP_lt_countP {α : Type} {p q : α → Bool} {l : List α}
    (hsub : ∀ a ∈ l, p a = true → q a = true) (hnew : ∃ a ∈ l, q a = true ∧ p a = false) :
    l.countP p < l.countP q := by
  induction l with
  | nil => simp at hnew
  | cons a l ih =>
    have hsub' := fun b hb => hsub b (List.mem_cons_of_mem a hb)
    have hle : l.countP p ≤ l.countP q := List.countP_mono_left hsub'
    obtain ⟨b, hb, hqb, hpb⟩ := hnew
    rcases List.mem_cons.mp hb with rfl | hb
    · simp only [List.countP_cons, hqb, hpb, if_true, Bool.false_eq_true, if_false]
      omega
    · have hlt := ih hsub' ⟨b, hb, hqb, hpb⟩
      have hhead := hsub a List.mem_cons_self
      simp only [List.countP_cons]
      by_cases hpa : p a = true
      · simp [hpa, hhead hpa, hlt]
      · simp only [hpa, Bool.false_eq_true, if_false]
        omega

end Settle
