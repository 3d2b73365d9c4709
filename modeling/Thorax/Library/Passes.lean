import Thorax.Library.Durable

/-!
# Passes and repeated runs

A program that can be cut off is trusted with what it must not lose by two conditions: where it may
be cut off or fail, and what it has reached when it succeeds. A pass runs a program for each element
of a list: what a run reaches for its element has to survive the runs after it. A program that was
cut off is run again, so what one run keeps has to be kept by any number of them.
-/

namespace Durable

namespace Program

variable {σ ε α β : Type}

/-! ### Reaching a goal -/

/-- Cut off or failed, the program is within `P`; where it succeeds it has reached its goal. -/
def Achieves (p : Program σ ε α) (P : σ → Prop) (s : σ) (goal : α → σ → Prop) : Prop :=
  p.Meets s P fun r t =>
    match r with
    | .error _ => P t
    | .ok a => goal a t

section Achieving

variable {p : Program σ ε α} {P : σ → Prop} {s t : σ} {goal : α → σ → Prop}

lemma Achieves.mono {P' : σ → Prop} {goal' : α → σ → Prop} (h : p.Achieves P s goal)
    (hP : ∀ t, P t → P' t) (hgoal : ∀ a t, goal a t → goal' a t) : p.Achieves P' s goal' := by
  refine Meets.mono h hP fun r t ht => ?_
  cases r with
  | error e => exact hP t ht
  | ok a => exact hgoal a t ht

lemma Achieves.ends {a : α} (h : p.Achieves P s goal) (hends : p.Ends s a t) : goal a t :=
  Meets.ends h hends

/-- A run that succeeds leaves its goal behind, or a state in which it could be cut off. -/
lemma Achieves.leaves (h : p.Achieves P s goal) (ht : p.Leaves s t) : P t ∨ ∃ a, goal a t := by
  rcases ht with ht | rfl
  · exact Or.inl (h.1 t ht)
  · have hlast := h.2
    revert hlast
    cases (p s).result with
    | error e => exact Or.inl
    | ok a => exact fun hlast => Or.inr ⟨a, hlast⟩

lemma achieves_pure {a : α} (h : goal a s) : Achieves (pure a : Program σ ε α) P s goal :=
  meets_pure.mpr h

lemma achieves_ensure {holds : Bool} {e : ε} {goal : Unit → σ → Prop} (hs : P s)
    (h : holds = true → goal () s) : (ensure holds e).Achieves P s goal := by
  rw [Achieves, meets_ensure]
  cases holds with
  | false => exact hs
  | true => exact h rfl

lemma achieves_write {f : σ → σ} {goal : Unit → σ → Prop} (hs : P s) (h : goal () (f s)) :
    (write f : Program σ ε Unit).Achieves P s goal :=
  meets_write.mpr ⟨hs, h⟩

lemma achieves_bind {mid : α → σ → Prop} {next : α → Program σ ε β} {goal : β → σ → Prop}
    (hp : p.Achieves P s mid) (hnext : ∀ a t, mid a t → (next a).Achieves P t goal) :
    (p >>= next).Achieves P s goal := by
  rw [Achieves, meets_bind]
  refine Meets.mono hp (fun _ ht => ht) fun r t ht => ?_
  cases r with
  | error e => exact ht
  | ok a => exact hnext a t ht

lemma achieves_read_bind {f : σ → Except ε α} {next : α → Program σ ε β} {goal : β → σ → Prop}
    (hs : P s) (hnext : ∀ a, f s = .ok a → (next a).Achieves P s goal) :
    (read f >>= next).Achieves P s goal := by
  rw [Achieves, meets_bind, meets_read]
  cases hf : f s with
  | error e => exact hs
  | ok a => exact hnext a hf

lemma achieves_ensure_bind {holds : Bool} {e : ε} {next : Unit → Program σ ε β}
    {goal : β → σ → Prop} (hs : P s) (hnext : holds = true → (next ()).Achieves P s goal) :
    (ensure holds e >>= next).Achieves P s goal := by
  rw [Achieves, meets_bind, meets_ensure]
  cases holds with
  | false => exact hs
  | true => exact hnext rfl

end Achieving

/-! ### Advancing -/

section Advancing

variable {R : σ → σ → Prop} [IsPreorder σ R] {s t : σ}

/-- Wherever the program is cut off or ends, the state has advanced; where it succeeds, its goal
is reached as well. -/
def Advances (R : σ → σ → Prop) (p : Program σ ε α) (s : σ) (goal : α → σ → Prop) : Prop :=
  p.Achieves (R s) s fun a t => R s t ∧ goal a t

/-- What advances from where an advance has led to is still on from the start. -/
lemma Advances.after {p : Program σ ε α} {goal : α → σ → Prop} (h : Advances R p t goal)
    (hst : R s t) : p.Achieves (R s) t fun a u => R t u ∧ goal a u :=
  Achieves.mono h (fun _ htu => trans_of R hst htu) fun _ _ hu => hu

lemma advances_bind {p : Program σ ε α} {mid : α → σ → Prop} {next : α → Program σ ε β}
    {goal : β → σ → Prop} (hp : Advances R p s mid)
    (hnext : ∀ a t, mid a t → Advances R (next a) t goal) : Advances R (p >>= next) s goal :=
  achieves_bind hp fun a t ht => Achieves.mono ((hnext a t ht.2).after ht.1) (fun _ h => h)
    fun _ _ hu => ⟨trans_of R ht.1 hu.1, hu.2⟩

lemma advances_pure {a : α} {goal : α → σ → Prop} (h : goal a s) :
    Advances R (pure a : Program σ ε α) s goal :=
  achieves_pure ⟨refl_of R s, h⟩

lemma advances_fail {e : ε} {goal : α → σ → Prop} :
    Advances R (fail e : Program σ ε α) s goal := by
  rw [Advances, Achieves, meets_fail]
  exact refl_of R s

lemma advances_read {f : σ → Except ε α} {goal : α → σ → Prop} (h : ∀ a, f s = .ok a → goal a s) :
    Advances R (read f) s goal := by
  rw [Advances, Achieves, meets_read]
  cases hf : f s with
  | error e => exact refl_of R s
  | ok a => exact ⟨refl_of R s, h a hf⟩

lemma advances_skipWhen {done : Bool} {p : Program σ ε Unit} {goal : Unit → σ → Prop}
    (hdone : done = true → goal () s) (hp : Advances R p s goal) :
    Advances R (skipWhen done p) s goal := by
  cases done with
  | false => exact hp
  | true => exact advances_pure (hdone rfl)

omit [IsPreorder σ R] in
/-- What every state that a run leaves has advanced to. -/
lemma advances_of_leaves {p : Program σ ε α} (h : ∀ t, p.Leaves s t → R s t) :
    Advances R p s fun _ _ => True := by
  refine ⟨fun t ht => h t (Or.inl ht), ?_⟩
  have hlast := h _ (Or.inr rfl)
  cases (p s).result with
  | error e => exact hlast
  | ok a => exact ⟨hlast, trivial⟩

omit [IsPreorder σ R] in
lemma Advances.leaves {p : Program σ ε α} {goal : α → σ → Prop} (h : Advances R p s goal)
    (ht : p.Leaves s t) : R s t := by
  rcases Achieves.leaves h ht with hst | ⟨_, hst, -⟩
  · exact hst
  · exact hst

lemma advances_read_bind {f : σ → Except ε α} {next : α → Program σ ε β} {goal : β → σ → Prop}
    (hnext : ∀ a, f s = .ok a → Advances R (next a) s goal) : Advances R (read f >>= next) s goal :=
  achieves_read_bind (refl_of R s) hnext

lemma advances_ensure {holds : Bool} {e : ε} {goal : Unit → σ → Prop}
    (h : holds = true → goal () s) : Advances R (ensure holds e) s goal :=
  achieves_ensure (refl_of R s) fun hholds => ⟨refl_of R s, h hholds⟩

lemma advances_ensure_bind {holds : Bool} {e : ε} {next : Unit → Program σ ε β}
    {goal : β → σ → Prop} (hnext : holds = true → Advances R (next ()) s goal) :
    Advances R (ensure holds e >>= next) s goal :=
  achieves_ensure_bind (refl_of R s) hnext

lemma advances_write {f : σ → σ} {goal : Unit → σ → Prop} (hf : R s (f s)) (h : goal () (f s)) :
    Advances R (write f : Program σ ε Unit) s goal :=
  achieves_write (refl_of R s) ⟨hf, h⟩

/-- A pass over a list reaches for every element what it reaches for each, if advancing keeps it. -/
lemma advances_forM (done : α → σ → Prop) {f : α → Program σ ε PUnit} {l : List α}
    (hkept : ∀ a s t, R s t → done a s → done a t)
    (hf : ∀ a ∈ l, ∀ s, Advances R (f a) s fun _ t => done a t) :
    Advances R (l.forM f) s fun _ t => ∀ a ∈ l, done a t := by
  induction l generalizing s with
  | nil => exact achieves_pure ⟨refl_of R s, by simp⟩
  | cons a l ih =>
    rw [List.forM_eq_forM, List.forM_cons]
    refine achieves_bind (hf a List.mem_cons_self s) fun _ t ht => ?_
    have hrest := @ih t fun b hb => hf b (List.mem_cons_of_mem a hb)
    refine Achieves.mono hrest (fun _ htu => trans_of R ht.1 htu) fun _ u hu => ?_
    exact ⟨trans_of R ht.1 hu.1, List.forall_mem_cons.mpr ⟨hkept a t u hu.1 ht.2, hu.2⟩⟩

end Advancing

/-! ### Resting -/

/-- The program has nothing left to do: it succeeds without a durable step. -/
def Rests (p : Program σ ε Unit) (s : σ) : Prop :=
  p.Meets s (fun _ => False) fun r t => r = .ok () ∧ t = s

lemma Rests.result {p : Program σ ε Unit} {s : σ} (h : p.Rests s) : (p s).result = .ok () := h.2.1

/-- Cut off or not, a program that rests leaves the state as it is. -/
lemma Rests.leaves {p : Program σ ε Unit} {s t : σ} (h : p.Rests s) (ht : p.Leaves s t) :
    t = s := by
  rcases ht with ht | rfl
  · exact (h.1 t ht).elim
  · exact h.2.2

/-! ### Failing -/

section Failing

variable {p : Program σ ε α} {s : σ} {e : ε}

/-- A program fails where it fails itself, or what follows it does. -/
lemma result_bind_eq_error {next : α → Program σ ε β} :
    ((p >>= next) s).result = .error e ↔ (p s).result = .error e ∨
      ∃ a t, p.Ends s a t ∧ (next a t).result = .error e := by
  simp only [bind, Ends]
  cases (p s).result with
  | error e' => simp
  | ok a => simp

@[simp] lemma result_read {f : σ → Except ε α} : (read f s).result = f s := rfl

end Failing

/-! ### Falling back -/

/-- Where a program fails, another one goes on from the state it has left. -/
def orElse (p : Program σ ε α) (handler : ε → Program σ ε α) : Program σ ε α := fun s =>
  match (p s).result with
  | .ok a => ⟨(p s).passed, (p s).last, .ok a⟩
  | .error e =>
    let next := handler e (p s).last
    ⟨(p s).passed ++ next.passed, next.last, next.result⟩

section FallingBack

variable {p : Program σ ε α} {handler : ε → Program σ ε α} {s t : σ}

@[simp] lemma meets_orElse {crash : σ → Prop} {post : Except ε α → σ → Prop} :
    (p.orElse handler).Meets s crash post ↔
      p.Meets s crash fun r t =>
        match r with
        | .ok a => post (.ok a) t
        | .error e => (handler e).Meets t crash post := by
  simp only [Meets, orElse]
  cases hr : (p s).result with
  | ok a => simp
  | error e =>
    simp only [List.mem_append]
    constructor
    · rintro ⟨hpassed, hpost⟩
      exact ⟨fun t ht => hpassed t (Or.inl ht), fun t ht => hpassed t (Or.inr ht), hpost⟩
    · rintro ⟨hp, hhandler, hpost⟩
      exact ⟨fun t ht => ht.elim (hp t) (hhandler t), hpost⟩

/-- What succeeds is the program, or what it has fallen back on. -/
lemma ends_orElse {a : α} : (p.orElse handler).Ends s a t ↔
    p.Ends s a t ∨ ∃ e, (p s).result = .error e ∧ (handler e).Ends (p s).last a t := by
  simp only [Ends, orElse]
  cases hr : (p s).result with
  | ok b => simp
  | error e => simp

lemma advances_orElse {R : σ → σ → Prop} [IsPreorder σ R] {goal : α → σ → Prop}
    (hp : Advances R p s goal) (hhandler : ∀ e t, Advances R (handler e) t goal) :
    Advances R (p.orElse handler) s goal := by
  rw [Advances, Achieves, meets_orElse]
  rw [Advances, Achieves] at hp
  refine hp.mono (fun _ h => h) fun r t ht => ?_
  cases r with
  | ok a => exact ht
  | error e =>
    exact Achieves.mono ((hhandler e t).after ht) (fun _ h => h) fun _ _ hu =>
      ⟨trans_of R ht hu.1, hu.2⟩

end FallingBack

/-! ### Any number of runs -/

/-- One run after another of some programs, each of them finished or cut off. -/
def Runs (programs : Set (Program σ ε α)) : σ → σ → Prop :=
  Relation.ReflTransGen fun s t => ∃ p ∈ programs, p.Leaves s t

/-- What every single run keeps, any number of runs keep. -/
lemma Runs.keeps {programs : Set (Program σ ε α)} {R : σ → σ → Prop} [IsPreorder σ R] {s t : σ}
    (h : Runs programs s t) (hrun : ∀ p ∈ programs, ∀ s t, p.Leaves s t → R s t) : R s t := by
  induction h with
  | refl => exact refl_of R s
  | tail _ hlast ih =>
    obtain ⟨p, hp, hleaves⟩ := hlast
    exact trans_of R ih (hrun p hp _ _ hleaves)

end Program

end Durable
