import Mathlib.Logic.Function.Basic
import Mathlib.Tactic.Common

/-!
# Programs that call a shared service

A program is a tree: it has ended, or it waits for the reply to one call. Several programs share
the service they call, so between two calls of one of them anything the others may do can have
happened. `Upholds` follows a program through that interference: it counts on what the others
leave of the state (`rely`), it may only ask for what is `allowed`, and it goes on after every
reply that the service can give. The rules follow the construction of programs.
-/

namespace Remote

/-- A program that calls operations and ends with a result or an error. -/
inductive Program (Op : Type) (Reply : Op → Type) (ε α : Type) where
  | done (result : Except ε α)
  | call (op : Op) (next : Reply op → Program Op Reply ε α)

variable {Op : Type} {Reply : Op → Type} {σ ε ε' α β : Type}

namespace Program

def bind : Program Op Reply ε α → (α → Program Op Reply ε β) → Program Op Reply ε β
  | .done (.ok a), f => f a
  | .done (.error e), _ => .done (.error e)
  | .call op next, f => .call op fun reply => (next reply).bind f

instance : Monad (Program Op Reply ε) where
  pure a := .done (.ok a)
  bind := bind

/-- End with an error. -/
def fail (e : ε) : Program Op Reply ε α := .done (.error e)

/-- Go on with the value of a computation, or end with its error. -/
def lift (result : Except ε α) : Program Op Reply ε α := .done result

/-- Wait for a reply. -/
def ask (op : Op) : Program Op Reply ε (Reply op) := .call op fun reply => .done (.ok reply)

/-- Run a program and go on with its result, whether it is a value or an error. -/
def attempt : Program Op Reply ε α → Program Op Reply ε' (Except ε α)
  | .done result => .done (.ok result)
  | .call op next => .call op fun reply => (next reply).attempt

end Program

/-- What one program among others goes by: what the service may answer it and leave, what the
others leave of the state, and what the program may ask for. -/
structure Discipline (σ Op : Type) (Reply : Op → Type) where
  serves : σ → (op : Op) → Reply op → σ → Prop
  rely : σ → σ → Prop
  allowed : σ → Op → Prop

namespace Program

/-- From `s`, whatever happens between its calls, the program asks only for what is allowed and
ends in `post`. -/
def Upholds (rules : Discipline σ Op Reply) :
    Program Op Reply ε α → σ → (Except ε α → σ → Prop) → Prop
  | .done result, s, post => post result s
  | .call op next, s, post => ∀ t, rules.rely s t →
      rules.allowed t op ∧
        ∀ reply u, rules.serves t op reply u → (next reply).Upholds rules u post

variable {rules : Discipline σ Op Reply} {p : Program Op Reply ε α} {s t : σ}
  {post post' : Except ε α → σ → Prop}

@[simp] lemma upholds_done {result : Except ε α} :
    (done result : Program Op Reply ε α).Upholds rules s post ↔ post result s := Iff.rfl

@[simp] lemma upholds_pure {a : α} :
    (pure a : Program Op Reply ε α).Upholds rules s post ↔ post (.ok a) s := Iff.rfl

@[simp] lemma upholds_fail {e : ε} :
    (fail e : Program Op Reply ε α).Upholds rules s post ↔ post (.error e) s := Iff.rfl

@[simp] lemma upholds_lift {result : Except ε α} :
    (lift result : Program Op Reply ε α).Upholds rules s post ↔ post result s := Iff.rfl

@[simp] lemma upholds_ask {op : Op} {post : Except ε (Reply op) → σ → Prop} :
    (ask op : Program Op Reply ε (Reply op)).Upholds rules s post ↔
      ∀ t, rules.rely s t → rules.allowed t op ∧
        ∀ reply u, rules.serves t op reply u → post (.ok reply) u := Iff.rfl

lemma Upholds.mono (h : p.Upholds rules s post) (hpost : ∀ r t, post r t → post' r t) :
    p.Upholds rules s post' := by
  induction p generalizing s with
  | done result => exact hpost result s h
  | call op next ih =>
    intro t ht
    obtain ⟨hallowed, hnext⟩ := h t ht
    exact ⟨hallowed, fun reply u hserves => ih reply (hnext reply u hserves)⟩

@[simp] lemma upholds_bind {f : α → Program Op Reply ε β} {post : Except ε β → σ → Prop} :
    (p >>= f).Upholds rules s post ↔ p.Upholds rules s fun r t =>
      match r with
      | .ok a => (f a).Upholds rules t post
      | .error e => post (.error e) t := by
  induction p generalizing s with
  | done result =>
    cases result with
    | ok a => exact Iff.rfl
    | error e => exact Iff.rfl
  | call op next ih =>
    exact forall₂_congr fun t _ => and_congr Iff.rfl
      (forall₃_congr fun reply u _ => ih reply)

@[simp] lemma upholds_attempt {post : Except ε' (Except ε α) → σ → Prop} :
    (p.attempt : Program Op Reply ε' (Except ε α)).Upholds rules s post ↔
      p.Upholds rules s fun r t => post (.ok r) t := by
  induction p generalizing s with
  | done result => exact Iff.rfl
  | call op next ih =>
    exact forall₂_congr fun t _ => and_congr Iff.rfl
      (forall₃_congr fun reply u _ => ih reply)

/-- The condition of a program survives the steps of the others. -/
lemma Upholds.rely (h : p.Upholds rules s post)
    (htrans : ∀ {a b c}, rules.rely a b → rules.rely b c → rules.rely a c)
    (hpost : ∀ r a b, rules.rely a b → post r a → post r b) (ht : rules.rely s t) :
    p.Upholds rules t post := by
  cases p with
  | done result => exact hpost result s t ht h
  | call op next => exact fun u hu => h u (htrans ht hu)

/-! ### Programs that ask only for some operations -/

/-- Every call of the program, after whatever replies, satisfies `P`. -/
def Asks (P : Op → Prop) : Program Op Reply ε α → Prop
  | .done _ => True
  | .call op next => P op ∧ ∀ reply, (next reply).Asks P

variable {P : Op → Prop}

@[simp] lemma asks_done {result : Except ε α} :
    (done result : Program Op Reply ε α).Asks P := trivial

@[simp] lemma asks_pure {a : α} : (pure a : Program Op Reply ε α).Asks P := trivial

@[simp] lemma asks_fail {e : ε} : (fail e : Program Op Reply ε α).Asks P := trivial

@[simp] lemma asks_lift {result : Except ε α} :
    (lift result : Program Op Reply ε α).Asks P := trivial

@[simp] lemma asks_ask {op : Op} : (ask op : Program Op Reply ε (Reply op)).Asks P ↔ P op := by
  simp [ask, Asks]

lemma asks_bind {f : α → Program Op Reply ε β} (hp : p.Asks P) (hf : ∀ a, (f a).Asks P) :
    (p >>= f).Asks P := by
  induction p with
  | done result =>
    cases result with
    | ok a => exact hf a
    | error e => trivial
  | call op next ih => exact ⟨hp.1, fun reply => ih reply (hp.2 reply)⟩

lemma asks_attempt (hp : p.Asks P) : (p.attempt : Program Op Reply ε' (Except ε α)).Asks P := by
  induction p with
  | done result => trivial
  | call op next ih => exact ⟨hp.1, fun reply => ih reply (hp.2 reply)⟩

lemma Asks.mono {Q : Op → Prop} (hp : p.Asks P) (hPQ : ∀ op, P op → Q op) : p.Asks Q := by
  induction p with
  | done result => trivial
  | call op next ih => exact ⟨hPQ op hp.1, fun reply => ih reply (hp.2 reply)⟩

/-- A program whose calls are allowed can be followed as if it did nothing but what its calls may
leave, between what the others may leave. -/
lemma upholds_of_asks {leaves : σ → σ → Prop} (hp : p.Asks P) (hrefl : ∀ s, leaves s s)
    (htrans : ∀ {a b c}, leaves a b → leaves b c → leaves a c)
    (hrely : ∀ {a b}, rules.rely a b → leaves a b)
    (hallowed : ∀ t op, leaves s t → P op → rules.allowed t op)
    (hserves : ∀ t op reply u, P op → rules.serves t op reply u → leaves t u) :
    p.Upholds rules s fun _ t => leaves s t := by
  induction p generalizing s with
  | done result => exact hrefl s
  | call op next ih =>
    intro t ht
    refine ⟨hallowed t op (hrely ht) hp.1, fun reply u hu => ?_⟩
    have hreach : leaves s u := htrans (hrely ht) (hserves t op reply u hp.1 hu)
    have hnext := ih reply (hp.2 reply) fun t op ht hop => hallowed t op (htrans hreach ht) hop
    exact hnext.mono fun _ v hv => htrans hreach hv

end Program

/-! ### Programs side by side -/

/-- What a program that keeps to its discipline does to the service, the others rely on. A
discipline can depend on what its program was started for. -/
structure Compatible {ι κ : Type} (rules : ι → κ → Discipline σ Op Reply) (inv : σ → Prop) :
    Prop where
  refl : ∀ i k s, (rules i k).rely s s
  trans : ∀ i k {a b c}, (rules i k).rely a b → (rules i k).rely b c → (rules i k).rely a c
  own : ∀ {i k s op reply t}, inv s → (rules i k).allowed s op → (rules i k).serves s op reply t →
    inv t ∧ ∀ j l, j ≠ i → (rules j l).rely s t

/-- The invariant holds, and every program keeps to its discipline from here on. -/
def Guarded {ι κ : Type} (rules : ι → κ → Discipline σ Op Reply) (inv : σ → Prop)
    (post : ι → κ → Except ε α → σ → Prop) (programs : ι → Option (κ × Program Op Reply ε α))
    (s : σ) : Prop :=
  inv s ∧ ∀ i k p, programs i = some (k, p) → p.Upholds (rules i k) s (post i k)

namespace Guarded

variable {ι κ : Type} {rules : ι → κ → Discipline σ Op Reply} {inv : σ → Prop}
  {post : ι → κ → Except ε α → σ → Prop} {programs : ι → Option (κ × Program Op Reply ε α)}
  {s t : σ}

/-- Nothing changes but what everyone relies on. -/
lemma others (h : Guarded rules inv post programs s) (hcompatible : Compatible rules inv)
    (hpost : ∀ i k r a b, (rules i k).rely a b → post i k r a → post i k r b) (hinv : inv t)
    (hrely : ∀ i k, (rules i k).rely s t) : Guarded rules inv post programs t :=
  ⟨hinv, fun i k p hp =>
    (h.2 i k p hp).rely (hcompatible.trans i k) (hpost i k) (hrely i k)⟩

/-- What the next call of a program may leave. -/
lemma next (h : Guarded rules inv post programs s) (hcompatible : Compatible rules inv) {i : ι}
    {k : κ} {op : Op} {next : Reply op → Program Op Reply ε α}
    (hi : programs i = some (k, .call op next)) :
    (rules i k).allowed s op ∧ ∀ reply u, (rules i k).serves s op reply u →
      inv u ∧ (∀ j l, j ≠ i → (rules j l).rely s u) ∧
        (next reply).Upholds (rules i k) u (post i k) := by
  obtain ⟨hallowed, hnext⟩ := h.2 i k _ hi s (hcompatible.refl i k s)
  refine ⟨hallowed, fun reply u hserves => ?_⟩
  obtain ⟨hinv, hrely⟩ := hcompatible.own h.1 hallowed hserves
  exact ⟨hinv, hrely, hnext reply u hserves⟩

variable [DecidableEq ι]

/-- Something else is left of one program, while the others find what they rely on. -/
lemma update (h : Guarded rules inv post programs s) (hcompatible : Compatible rules inv)
    (hpost : ∀ i k r a b, (rules i k).rely a b → post i k r a → post i k r b) {i : ι}
    {left : Option (κ × Program Op Reply ε α)} (hinv : inv t)
    (hrely : ∀ j l, j ≠ i → (rules j l).rely s t)
    (hleft : ∀ k p, left = some (k, p) → p.Upholds (rules i k) t (post i k)) :
    Guarded rules inv post (Function.update programs i left) t := by
  refine ⟨hinv, fun j k p hp => ?_⟩
  by_cases hji : j = i
  · subst hji
    rw [Function.update_self] at hp
    exact hleft k p hp
  · rw [Function.update_of_ne hji] at hp
    exact (h.2 j k p hp).rely (hcompatible.trans j k) (hpost j k) (hrely j k hji)

end Guarded

end Remote
