import Mathlib

/-!
# Message loops

A loop hands one input at a time to `update` and then works off the effects that come of it, the last
one first. An effect may end in a message, which goes through `update` as well. When no effect is left
the loop may ask for one more, and the next input is read once it does not. What the outside answers
comes with every step.
-/

namespace MessageLoop

variable {S I M E A : Type}

/-- The functions of a loop over a state, its inputs, messages and effects, and the answers of the
outside. -/
structure Loop (S I M E A : Type) where
  message : I → S → Option M
  update : A → M → S → S × List E
  run : A → E → S → S × Option M
  settle : S → Option E

inductive Origin where
  | input
  | followUp
  deriving DecidableEq

/-- A message that went through `update`, with its answers. -/
structure Entry (M A : Type) where
  origin : Origin
  answers : A
  message : M

/-- What is asked of the steps of a run, given the state before them. -/
structure Guard (S M E A : Type) where
  update : Entry M A → S → Prop
  run : A → E → S → Prop

/-- A state between two steps: the effects form a stack. -/
structure State (S E : Type) where
  model : S
  pending : List E

/-- The runs of a loop, with the messages they process. -/
inductive Runs (loop : Loop S I M E A) (guard : Guard S M E A) (start : State S E) :
    List (Entry M A) → State S E → Prop
  | start : Runs loop guard start [] start
  | input {log : List (Entry M A)} {s : S} {i : I} {m : M} {a : A}
      (before : Runs loop guard start log ⟨s, []⟩) (settled : loop.settle s = none)
      (hmessage : loop.message i s = some m) (hguard : guard.update ⟨.input, a, m⟩ s) :
      Runs loop guard start (log ++ [⟨.input, a, m⟩])
        ⟨(loop.update a m s).1, (loop.update a m s).2.reverse⟩
  | effect {log : List (Entry M A)} {s : S} {e : E} {rest : List E} {a : A}
      (before : Runs loop guard start log ⟨s, e :: rest⟩) (hguard : guard.run a e s)
      (hmessage : (loop.run a e s).2 = none) :
      Runs loop guard start log ⟨(loop.run a e s).1, rest⟩
  | followUp {log : List (Entry M A)} {s : S} {e : E} {rest : List E} {a b : A} {m : M}
      (before : Runs loop guard start log ⟨s, e :: rest⟩) (hguard : guard.run a e s)
      (hmessage : (loop.run a e s).2 = some m)
      (hfollow : guard.update ⟨.followUp, b, m⟩ (loop.run a e s).1) :
      Runs loop guard start (log ++ [⟨.followUp, b, m⟩])
        ⟨(loop.update b m (loop.run a e s).1).1,
          (loop.update b m (loop.run a e s).1).2.reverse ++ rest⟩
  | settle {log : List (Entry M A)} {s : S} {e : E}
      (before : Runs loop guard start log ⟨s, []⟩) (hsettle : loop.settle s = some e) :
      Runs loop guard start log ⟨s, [e]⟩

/-- The loop is about to read its next input. -/
def State.Drained (loop : Loop S I M E A) (state : State S E) : Prop :=
  state.pending = [] ∧ loop.settle state.model = none

section Rules

variable {loop : Loop S I M E A} {guard guard' : Guard S M E A} {start state : State S E}
variable {log : List (Entry M A)}

/-- What holds at the start and is kept by inputs, by effects, and by the messages that effects end
in, holds along a run. -/
theorem Runs.invariant_outcomes {P : S → Prop} (h : Runs loop guard start log state)
    (hstart : P start.model)
    (hinput : ∀ i m a s, loop.message i s = some m → guard.update ⟨.input, a, m⟩ s → P s →
      P (loop.update a m s).1)
    (hrun : ∀ a e s, guard.run a e s → P s → P (loop.run a e s).1)
    (hfollow : ∀ a b e m s, (loop.run a e s).2 = some m → guard.run a e s →
      guard.update ⟨.followUp, b, m⟩ (loop.run a e s).1 → P s → P (loop.run a e s).1 →
      P (loop.update b m (loop.run a e s).1).1) : P state.model := by
  induction h with
  | start => exact hstart
  | input before settled hmessage hguard ih => exact hinput _ _ _ _ hmessage hguard ih
  | effect before hguard hmessage ih => exact hrun _ _ _ hguard ih
  | followUp before hguard hmessage hupdate ih =>
    exact hfollow _ _ _ _ _ hmessage hguard hupdate ih (hrun _ _ _ hguard ih)
  | settle before hsettle ih => exact ih

/-- The same where messages keep it whatever they come from. -/
theorem Runs.invariant {P : S → Prop} (h : Runs loop guard start log state) (hstart : P start.model)
    (hupdate : ∀ entry s, guard.update entry s → P s → P (loop.update entry.answers entry.message s).1)
    (hrun : ∀ a e s, guard.run a e s → P s → P (loop.run a e s).1) : P state.model :=
  h.invariant_outcomes hstart (fun _ _ _ _ _ hguard hs => hupdate _ _ hguard hs) hrun
    fun _ _ _ _ _ _ _ hguard _ hs => hupdate _ _ hguard hs

/-- A run under a guard is one under every weaker guard. -/
theorem Runs.mono (h : Runs loop guard start log state)
    (hupdate : ∀ entry s, guard.update entry s → guard'.update entry s)
    (hrun : ∀ a e s, guard.run a e s → guard'.run a e s) : Runs loop guard' start log state := by
  induction h with
  | start => exact .start
  | input before settled hmessage hguard ih => exact .input ih settled hmessage (hupdate _ _ hguard)
  | effect before hguard hmessage ih => exact .effect ih (hrun _ _ _ hguard) hmessage
  | followUp before hguard hmessage hfollow ih =>
    exact .followUp ih (hrun _ _ _ hguard) hmessage (hupdate _ _ hfollow)
  | settle before hsettle ih => exact .settle ih hsettle

end Rules

/-! ### Scripts -/

/-- One step of a run, with the answers it is given. An effect that ends in a message uses the second
answers for it. -/
inductive Move (I A : Type) where
  | input (i : I) (a : A)
  | effect (a b : A)
  | settle

section Scripts

variable (loop : Loop S I M E A) (guard : Guard S M E A)
variable [∀ entry s, Decidable (guard.update entry s)] [∀ a e s, Decidable (guard.run a e s)]

/-- Where one step leads, and the messages it processes. -/
def next : Move I A → State S E → Option (List (Entry M A) × State S E)
  | .input i a, ⟨s, []⟩ =>
    match loop.settle s, loop.message i s with
    | none, some m =>
      if guard.update ⟨.input, a, m⟩ s then
        some ([⟨.input, a, m⟩], ⟨(loop.update a m s).1, (loop.update a m s).2.reverse⟩)
      else none
    | _, _ => none
  | .effect a b, ⟨s, e :: rest⟩ =>
    if guard.run a e s then
      match (loop.run a e s).2 with
      | none => some ([], ⟨(loop.run a e s).1, rest⟩)
      | some m =>
        if guard.update ⟨.followUp, b, m⟩ (loop.run a e s).1 then
          some ([⟨.followUp, b, m⟩], ⟨(loop.update b m (loop.run a e s).1).1,
            (loop.update b m (loop.run a e s).1).2.reverse ++ rest⟩)
        else none
    else none
  | .settle, ⟨s, []⟩ => (loop.settle s).map fun e => ([], ⟨s, [e]⟩)
  | _, _ => none

/-- Where a script leads. -/
def play : List (Move I A) → State S E → Option (List (Entry M A) × State S E)
  | [], state => some ([], state)
  | move :: moves, state => do
    let (entries, middle) ← next loop guard move state
    let (rest, last) ← play moves middle
    pure (entries ++ rest, last)

variable {loop guard} {start middle last : State S E} {log entries : List (Entry M A)}

lemma Runs.next {move : Move I A} (h : Runs loop guard start log middle)
    (hnext : MessageLoop.next loop guard move middle = some (entries, last)) :
    Runs loop guard start (log ++ entries) last := by
  obtain ⟨s, pending⟩ := middle
  cases move with
  | input i a =>
    cases pending with
    | cons e rest => simp [MessageLoop.next] at hnext
    | nil =>
      simp only [MessageLoop.next] at hnext
      split at hnext
      next m hsettle hmessage =>
        split_ifs at hnext with hguard
        simp only [Option.some.injEq, Prod.mk.injEq] at hnext
        obtain ⟨rfl, rfl⟩ := hnext
        exact h.input hsettle hmessage hguard
      next => simp at hnext
  | effect a b =>
    cases pending with
    | nil => simp [MessageLoop.next] at hnext
    | cons e rest =>
      simp only [MessageLoop.next] at hnext
      split_ifs at hnext with hguard
      split at hnext
      next hmessage =>
        simp only [Option.some.injEq, Prod.mk.injEq] at hnext
        obtain ⟨rfl, rfl⟩ := hnext
        rw [List.append_nil]
        exact h.effect hguard hmessage
      next m hmessage =>
        split_ifs at hnext with hfollow
        simp only [Option.some.injEq, Prod.mk.injEq] at hnext
        obtain ⟨rfl, rfl⟩ := hnext
        exact h.followUp hguard hmessage hfollow
  | settle =>
    cases pending with
    | cons e rest => simp [MessageLoop.next] at hnext
    | nil =>
      simp only [MessageLoop.next, Option.map_eq_some_iff, Prod.mk.injEq] at hnext
      obtain ⟨e, hsettle, rfl, rfl⟩ := hnext
      rw [List.append_nil]
      exact h.settle hsettle

/-- What a script plays is a run. -/
theorem runs_of_play {moves : List (Move I A)} (h : Runs loop guard start log middle)
    (hplay : play loop guard moves middle = some (entries, last)) :
    Runs loop guard start (log ++ entries) last := by
  induction moves generalizing log middle entries with
  | nil =>
    simp only [play, Option.some.injEq, Prod.mk.injEq] at hplay
    obtain ⟨rfl, rfl⟩ := hplay
    rw [List.append_nil]
    exact h
  | cons move moves ih =>
    simp only [play, Option.bind_eq_bind, Option.bind_eq_some_iff, Option.pure_def,
      Option.some.injEq, Prod.mk.injEq, Prod.exists] at hplay
    obtain ⟨first, state, hnext, rest, _, hrest, rfl, rfl⟩ := hplay
    rw [← List.append_assoc]
    exact ih (h.next hnext) hrest

/-- A script that ends where something holds is a run that does. -/
theorem exists_run_of_play {moves : List (Move I A)} {P : List (Entry M A) → State S E → Prop}
    [∀ log state, Decidable (P log state)]
    (h : (play loop guard moves start).any (fun played => P played.1 played.2) = true) :
    ∃ log state, Runs loop guard start log state ∧ P log state := by
  obtain ⟨⟨log, state⟩, hplay, hstate⟩ := (Option.any_eq_true _ _).mp h
  exact ⟨log, state, by simpa using runs_of_play .start hplay, of_decide_eq_true hstate⟩

end Scripts

end MessageLoop
