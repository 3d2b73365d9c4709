import Mathlib

/-!
# Programs that can be cut off

A program runs on a state, part of which survives a crash. It ends with a result or an error,
and every durable step is a point at which it can be cut off: an outcome lists the states the
program has left behind at those points. `Meets` is the weakest precondition of a program for a
condition on the states a crash can leave and a condition on the end; its rules follow the
construction of programs, so that a proof walks through a program step by step.
-/

namespace Durable

variable {σ τ ε ε' α β : Type}

/-- A chain of fallible steps succeeds when each of them does. -/
lemma bind_eq_ok {x : Except ε α} {f : α → Except ε β} {b : β} :
    (x >>= f) = .ok b ↔ ∃ a, x = .ok a ∧ f a = .ok b := by
  cases x with
  | error e => simp [bind, Except.bind]
  | ok a => simp [bind, Except.bind]

/-- Fallible steps over a list succeed when each of them does. -/
lemma mapM_eq_ok {f : α → Except ε β} {l : List α} {l' : List β} :
    l.mapM f = .ok l' ↔ List.Forall₂ (fun a b => f a = .ok b) l l' := by
  induction l generalizing l' with
  | nil => simp [pure, Except.pure, eq_comm]
  | cons a l ih =>
    simp only [List.mapM_cons, bind_eq_ok, List.forall₂_cons_left_iff, ih]
    constructor
    · rintro ⟨b, hb, rest, hrest, heq⟩
      exact ⟨b, rest, hb, hrest, (Except.ok.inj heq).symm⟩
    · rintro ⟨b, rest, hb, hrest, rfl⟩
      exact ⟨b, hb, rest, hrest, rfl⟩

/-- Lists related element by element: each element of the one has its partner in the other. -/
lemma mem_of_forall₂ {R : α → β → Prop} {l : List α} {l' : List β}
    (h : List.Forall₂ R l l') : (∀ a ∈ l, ∃ b ∈ l', R a b) ∧ ∀ b ∈ l', ∃ a ∈ l, R a b := by
  induction h with
  | nil => simp
  | cons hhead _ ih =>
    simp only [List.mem_cons, forall_eq_or_imp, exists_eq_or_imp]
    exact ⟨⟨Or.inl hhead, fun a ha => Or.inr (ih.1 a ha)⟩,
      ⟨Or.inl hhead, fun b hb => Or.inr (ih.2 b hb)⟩⟩

lemma forall₂_imp_mem {R S : α → β → Prop} {l : List α} {l' : List β}
    (h : List.Forall₂ R l l') (hRS : ∀ a ∈ l, ∀ b, R a b → S a b) : List.Forall₂ S l l' := by
  induction h with
  | nil => exact .nil
  | cons hhead _ ih =>
    rw [List.forall_mem_cons] at hRS
    exact .cons (hRS.1 _ hhead) (ih hRS.2)

/-- What is equivalent for related elements holds of all of the one list if of all of the other. -/
lemma forall_mem_iff_of_forall₂ {R : α → β → Prop} {l : List α} {l' : List β}
    {P : β → Prop} {Q : α → Prop} (h : List.Forall₂ R l l')
    (hPQ : ∀ a b, a ∈ l → R a b → (P b ↔ Q a)) : (∀ b ∈ l', P b) ↔ ∀ a ∈ l, Q a := by
  induction h with
  | nil => simp
  | cons hhead _ ih =>
    rw [List.forall_mem_cons, List.forall_mem_cons, hPQ _ _ List.mem_cons_self hhead,
      ih fun a b ha => hPQ a b (List.mem_cons_of_mem _ ha)]

lemma exists_forall₂ {R : α → β → Prop} {l : List α} (h : ∀ a ∈ l, ∃ b, R a b) :
    ∃ l', List.Forall₂ R l l' := by
  induction l with
  | nil => exact ⟨[], .nil⟩
  | cons a l ih =>
    obtain ⟨b, hb⟩ := h a List.mem_cons_self
    obtain ⟨l', hl'⟩ := ih fun c hc => h c (List.mem_cons_of_mem a hc)
    exact ⟨b :: l', .cons hb hl'⟩

/-- Each value is that of an element, and each element has its value. -/
lemma mem_of_mapM {f : α → Except ε β} {l : List α} {l' : List β} (h : l.mapM f = .ok l') :
    (∀ a ∈ l, ∃ b ∈ l', f a = .ok b) ∧ ∀ b ∈ l', ∃ a ∈ l, f a = .ok b :=
  mem_of_forall₂ (mapM_eq_ok.mp h)

/-- Checks over a list pass when each of them does. -/
lemma forM_eq_ok {check : α → Except ε Unit} {items : List α} :
    items.forM check = .ok () ↔ ∀ item ∈ items, check item = .ok () := by
  induction items with
  | nil => simp [pure, Except.pure]
  | cons item items ih =>
    show (check item >>= fun _ => items.forM check) = .ok () ↔ _
    rw [bind_eq_ok, List.forall_mem_cons, ← ih]
    exact ⟨fun ⟨_, hitem, hitems⟩ => ⟨hitem, hitems⟩, fun ⟨hitem, hitems⟩ => ⟨(), hitem, hitems⟩⟩

@[simp] lemma mapError_eq_ok {x : Except ε α} {f : ε → ε'} {a : α} :
    x.mapError f = .ok a ↔ x = .ok a := by
  cases x <;> simp [Except.mapError]

@[simp] lemma mapError_ok {f : ε → ε'} {a : α} :
    (Except.ok a : Except ε α).mapError f = .ok a := rfl

@[simp] lemma mapError_error {f : ε → ε'} {e : ε} :
    (Except.error e : Except ε α).mapError f = .error (f e) := rfl

lemma bind_eq_error {x : Except ε α} {f : α → Except ε β} {e : ε} :
    (x >>= f) = .error e ↔ x = .error e ∨ ∃ a, x = .ok a ∧ f a = .error e := by
  cases x with
  | error e' => simp [bind, Except.bind]
  | ok a => simp [bind, Except.bind]

lemma mapError_eq_error {x : Except ε α} {f : ε → ε'} {e : ε'} :
    x.mapError f = .error e ↔ ∃ e', x = .error e' ∧ f e' = e := by
  cases x <;> simp [Except.mapError]

lemma exists_of_forM_eq_error {f : α → Except ε Unit} {l : List α} {e : ε}
    (h : l.forM f = .error e) : ∃ a ∈ l, f a = .error e := by
  induction l with
  | nil => cases h
  | cons a l ih =>
    rcases bind_eq_error.mp h with hhead | ⟨_, -, htail⟩
    · exact ⟨a, List.mem_cons_self, hhead⟩
    · obtain ⟨b, hb, hf⟩ := ih htail
      exact ⟨b, List.mem_cons_of_mem a hb, hf⟩

lemma exists_of_foldlM_eq_error {f : β → α → Except ε β} {l : List α} {b : β} {e : ε}
    (h : l.foldlM f b = .error e) : ∃ c, ∃ a ∈ l, f c a = .error e := by
  induction l generalizing b with
  | nil => cases h
  | cons a l ih =>
    rcases bind_eq_error.mp h with hhead | ⟨next, -, htail⟩
    · exact ⟨b, a, List.mem_cons_self, hhead⟩
    · obtain ⟨c, a', ha', hf⟩ := ih htail
      exact ⟨c, a', List.mem_cons_of_mem a ha', hf⟩

/-- One run: the states at which it could have been cut off, where it ended, and how. -/
structure Outcome (σ ε α : Type) where
  passed : List σ
  last : σ
  result : Except ε α

def Program (σ ε α : Type) : Type := σ → Outcome σ ε α

namespace Program

instance : Monad (Program σ ε) where
  pure a := fun s => ⟨[], s, .ok a⟩
  bind p f := fun s =>
    match (p s).result with
    | .error e => ⟨(p s).passed, (p s).last, .error e⟩
    | .ok a =>
      let next := f a (p s).last
      ⟨(p s).passed ++ next.passed, next.last, next.result⟩

/-- End with an error. -/
def fail (e : ε) : Program σ ε α := fun s => ⟨[], s, .error e⟩

/-- Look at the state. -/
def read (f : σ → Except ε α) : Program σ ε α := fun s => ⟨[], s, f s⟩

/-- Change what a crash forgets. -/
def modify (f : σ → σ) : Program σ ε Unit := fun s => ⟨[], f s, .ok ()⟩

/-- One durable step: a crash leaves the state before it or the state after it. -/
def write (f : σ → σ) : Program σ ε Unit := fun s => ⟨[s], f s, .ok ()⟩

/-- Continue only under a condition. -/
def ensure (holds : Bool) (e : ε) : Program σ ε Unit := if holds then pure () else fail e

/-- Run a program unless its work is done. -/
def skipWhen (done : Bool) (p : Program σ ε Unit) : Program σ ε Unit := if done then pure () else p

/-- Run a program on one part of a larger state, with its errors among those of the caller. -/
def zoom (get : τ → σ) (put : σ → τ → τ) (lift : ε → ε') (p : Program σ ε α) : Program τ ε' α :=
  fun t =>
    let outcome := p (get t)
    ⟨outcome.passed.map fun s => put s t, put outcome.last t, outcome.result.mapError lift⟩

/-- Run a program that carries a volatile value along with the durable state. -/
def carry (start : τ) (p : Program (σ × τ) ε α) : Program σ ε (α × τ) := fun s =>
  let outcome := p (s, start)
  ⟨outcome.passed.map Prod.fst, outcome.last.1, outcome.result.map fun a => (a, outcome.last.2)⟩

/-- The states a run can leave: those at which it can be cut off, and the one it ends in. -/
def Leaves (p : Program σ ε α) (s t : σ) : Prop := t ∈ (p s).passed ∨ t = (p s).last

/-- From `s`, every state a crash can leave satisfies `crash`, and the end satisfies `post`. -/
def Meets (p : Program σ ε α) (s : σ) (crash : σ → Prop) (post : Except ε α → σ → Prop) : Prop :=
  (∀ t ∈ (p s).passed, crash t) ∧ post (p s).result (p s).last

/-! ### Rules -/

section Rules

variable {p : Program σ ε α} {s t : σ} {crash crash' : σ → Prop}
  {post post' : Except ε α → σ → Prop}

lemma Meets.result (h : p.Meets s crash post) : post (p s).result (p s).last := h.2

lemma Meets.passed (h : p.Meets s crash post) (ht : t ∈ (p s).passed) : crash t := h.1 t ht

lemma Meets.mono (h : p.Meets s crash post) (hcrash : ∀ t, crash t → crash' t)
    (hpost : ∀ r t, post r t → post' r t) : p.Meets s crash' post' :=
  ⟨fun t ht => hcrash t (h.1 t ht), hpost _ _ h.2⟩

lemma Meets.and (h : p.Meets s crash post) (h' : p.Meets s crash' post') :
    p.Meets s (fun t => crash t ∧ crash' t) (fun r t => post r t ∧ post' r t) :=
  ⟨fun t ht => ⟨h.1 t ht, h'.1 t ht⟩, h.2, h'.2⟩

/-- What holds at every crash and at every end holds of everything a run leaves. -/
lemma Meets.leaves (h : p.Meets s crash fun _ t => crash t) (ht : p.Leaves s t) : crash t := by
  rcases ht with ht | rfl
  · exact h.1 t ht
  · exact h.2

lemma meets_leaves (p : Program σ ε α) (s : σ) :
    p.Meets s (p.Leaves s) fun r t => r = (p s).result ∧ t = (p s).last :=
  ⟨fun _ => Or.inl, rfl, rfl⟩

@[simp] lemma meets_pure {a : α} : Meets (pure a) s crash post ↔ post (.ok a) s := by
  simp [Meets, pure]

@[simp] lemma meets_fail {e : ε} : Meets (fail e) s crash post ↔ post (.error e) s := by
  simp [Meets, fail]

@[simp] lemma meets_read {f : σ → Except ε α} :
    (read f).Meets s crash post ↔ post (f s) s := by
  simp [Meets, read]

@[simp] lemma meets_modify {f : σ → σ} {post : Except ε Unit → σ → Prop} :
    (modify f).Meets s crash post ↔ post (.ok ()) (f s) := by
  simp [Meets, modify]

@[simp] lemma meets_write {f : σ → σ} {post : Except ε Unit → σ → Prop} :
    (write f).Meets s crash post ↔ crash s ∧ post (.ok ()) (f s) := by
  simp [Meets, write]

@[simp] lemma meets_ensure {holds : Bool} {e : ε} {post : Except ε Unit → σ → Prop} :
    (ensure holds e).Meets s crash post ↔
      if holds then post (.ok ()) s else post (.error e) s := by
  cases holds <;> simp [ensure]

@[simp] lemma meets_skipWhen {done : Bool} {p : Program σ ε Unit}
    {post : Except ε Unit → σ → Prop} :
    (skipWhen done p).Meets s crash post ↔
      if done then post (.ok ()) s else p.Meets s crash post := by
  cases done <;> simp [skipWhen]

@[simp] lemma meets_bind {f : α → Program σ ε β} {post : Except ε β → σ → Prop} :
    Meets (p >>= f) s crash post ↔
      p.Meets s crash fun r t =>
        match r with
        | .ok a => (f a).Meets t crash post
        | .error e => post (.error e) t := by
  simp only [Meets, bind]
  cases hr : (p s).result with
  | error e => simp
  | ok a =>
    simp only [List.mem_append]
    constructor
    · rintro ⟨hpassed, hpost⟩
      exact ⟨fun t ht => hpassed t (Or.inl ht), fun t ht => hpassed t (Or.inr ht), hpost⟩
    · rintro ⟨hp, hf, hpost⟩
      exact ⟨fun t ht => ht.elim (hp t) (hf t), hpost⟩

@[simp] lemma meets_zoom {get : τ → σ} {put : σ → τ → τ} {lift : ε → ε'} {u : τ}
    {crash : τ → Prop} {post : Except ε' α → τ → Prop} :
    (p.zoom get put lift).Meets u crash post ↔
      p.Meets (get u) (fun s => crash (put s u)) fun r s => post (r.mapError lift) (put s u) := by
  simp [Meets, zoom]

@[simp] lemma meets_carry {p : Program (σ × τ) ε α} {start : τ}
    {post : Except ε (α × τ) → σ → Prop} :
    (p.carry start).Meets s crash post ↔
      p.Meets (s, start) (fun st => crash st.1) fun r st => post (r.map fun a => (a, st.2)) st.1 := by
  simp [Meets, carry]

end Rules

/-! ### Staying within a condition -/

/-- Whatever the program leaves from `s`, cut off or not, satisfies `P`. -/
def Stays (p : Program σ ε α) (P : σ → Prop) (s : σ) : Prop := p.Meets s P fun _ t => P t

section Staying

variable {p : Program σ ε α} {P : σ → Prop} {s t : σ} {next : α → Program σ ε β}

lemma Stays.leaves (h : p.Stays P s) (ht : p.Leaves s t) : P t := Meets.leaves h ht

lemma stays_pure {a : α} (hs : P s) : Stays (pure a : Program σ ε α) P s := meets_pure.mpr hs

lemma stays_fail {e : ε} (hs : P s) : Stays (fail e : Program σ ε α) P s := meets_fail.mpr hs

lemma stays_read {f : σ → Except ε α} (hs : P s) : (read f).Stays P s := meets_read.mpr hs

lemma stays_write {f : σ → σ} (hs : P s) (hf : P (f s)) :
    (write f : Program σ ε Unit).Stays P s := meets_write.mpr ⟨hs, hf⟩

/-- What follows a program starts where the program may end. -/
lemma stays_bind_of (post : Except ε α → σ → Prop) (hp : p.Meets s P post)
    (herror : ∀ e t, post (.error e) t → P t)
    (hok : ∀ a t, post (.ok a) t → (next a).Stays P t) : Stays (p >>= next) P s := by
  rw [Stays, meets_bind]
  refine hp.mono (fun _ ht => ht) fun r t ht => ?_
  cases r with
  | error e => exact herror e t ht
  | ok a => exact hok a t ht

lemma stays_bind (hp : p.Stays P s) (hnext : ∀ a t, P t → (next a).Stays P t) :
    Stays (p >>= next) P s :=
  stays_bind_of _ hp (fun _ _ ht => ht) hnext

/-- A program that stays within a stronger condition hands it on. -/
lemma stays_bind_within {Q : σ → Prop} (hp : p.Stays Q s) (hQ : ∀ t, Q t → P t)
    (hnext : ∀ a t, Q t → (next a).Stays P t) : Stays (p >>= next) P s :=
  stays_bind_of (fun _ => Q) (hp.mono hQ fun _ _ ht => ht) (fun _ t ht => hQ t ht) hnext

lemma stays_skipWhen {done : Bool} {p : Program σ ε Unit} (hs : P s) (hp : p.Stays P s) :
    (skipWhen done p).Stays P s := by
  cases done
  · exact hp
  · exact stays_pure hs

/-- A value that is read is handed on. -/
lemma stays_read_bind {f : σ → Except ε α} (hs : P s)
    (hnext : ∀ a, f s = .ok a → (next a).Stays P s) : Stays (read f >>= next) P s := by
  rw [Stays, meets_bind, meets_read]
  cases hf : f s with
  | error e => exact hs
  | ok a => exact hnext a hf

lemma stays_ensure_bind {holds : Bool} {e : ε} {next : Unit → Program σ ε β} (hs : P s)
    (hnext : holds = true → (next ()).Stays P s) : Stays (ensure holds e >>= next) P s := by
  cases holds with
  | false => simpa [Stays, ensure] using hs
  | true => simpa [Stays, ensure] using hnext rfl

lemma stays_zoom {get : τ → σ} {put : σ → τ → τ} {lift : ε → ε'} {u : τ} {Q : τ → Prop}
    (h : p.Stays (fun s => Q (put s u)) (get u)) : (p.zoom get put lift).Stays Q u :=
  meets_zoom.mpr h

lemma stays_carry {p : Program (σ × τ) ε α} {start : τ}
    (h : p.Stays (fun st => P st.1) (s, start)) : (p.carry start).Stays P s :=
  meets_carry.mpr h

end Staying

/-! ### Ends -/

/-- A run that succeeds: the value it returns and the state it leaves. -/
def Ends (p : Program σ ε α) (s : σ) (a : α) (t : σ) : Prop :=
  (p s).result = .ok a ∧ (p s).last = t

section Ends

variable {p : Program σ ε α} {s t : σ} {a : α}

/-- What a program meets, it meets where it succeeds. -/
lemma Meets.ends {crash : σ → Prop} {post : Except ε α → σ → Prop} (h : p.Meets s crash post)
    (hends : p.Ends s a t) : post (.ok a) t := by
  obtain ⟨hresult, rfl⟩ := hends
  exact hresult ▸ h.result

lemma Stays.ends {P : σ → Prop} (h : p.Stays P s) (hends : p.Ends s a t) : P t :=
  Meets.ends h hends

@[simp] lemma ends_pure {b : α} : Ends (pure b : Program σ ε α) s a t ↔ b = a ∧ s = t := by
  simp [Ends, pure]

@[simp] lemma not_ends_fail {e : ε} : ¬ (fail e : Program σ ε α).Ends s a t := by
  simp [Ends, fail]

@[simp] lemma ends_read {f : σ → Except ε α} : (read f).Ends s a t ↔ f s = .ok a ∧ s = t := by
  simp [Ends, read]

@[simp] lemma ends_modify {f : σ → σ} {u : Unit} :
    (modify f : Program σ ε Unit).Ends s u t ↔ f s = t := by
  simp [Ends, modify]

@[simp] lemma ends_write {f : σ → σ} {u : Unit} :
    (write f : Program σ ε Unit).Ends s u t ↔ f s = t := by
  simp [Ends, write]

@[simp] lemma ends_ensure {holds : Bool} {e : ε} {u : Unit} :
    (ensure holds e : Program σ ε Unit).Ends s u t ↔ holds = true ∧ s = t := by
  cases holds <;> simp [ensure]

@[simp] lemma ends_skipWhen {done : Bool} {p : Program σ ε Unit} {u : Unit} :
    (skipWhen done p).Ends s u t ↔ if done then s = t else p.Ends s u t := by
  cases done <;> simp [skipWhen]

/-- A sequence succeeds when both parts do, one after the other. -/
@[simp] lemma ends_bind {f : α → Program σ ε β} {b : β} :
    (p >>= f).Ends s b t ↔ ∃ a u, p.Ends s a u ∧ (f a).Ends u b t := by
  simp only [Ends, bind]
  cases hresult : (p s).result with
  | error e => simp
  | ok a => simp

@[simp] lemma ends_zoom {get : τ → σ} {put : σ → τ → τ} {lift : ε → ε'} {u v : τ} :
    (p.zoom get put lift).Ends u a v ↔ ∃ t, p.Ends (get u) a t ∧ put t u = v := by
  simp [Ends, zoom]

@[simp] lemma ends_carry {p : Program (σ × τ) ε α} {start last : τ} :
    (p.carry start).Ends s (a, last) t ↔ p.Ends (s, start) a (t, last) := by
  simp only [Ends, carry]
  cases hresult : (p (s, start)).result with
  | error e => simp [Except.map]
  | ok b => simp [Except.map, Prod.ext_iff, and_assoc, and_comm (a := _ = last)]

end Ends

end Program

end Durable
