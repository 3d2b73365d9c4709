import Thorax.TestTui
import Thorax.Tui.Outcomes

/-!
# The idle relock

A tick locks the cached identity when the last activity is long enough ago. Activity is every message
but a tick, also one that an effect has ended in. So the relock depends on inputs alone only as long as
no effect ends in a message.
-/

namespace Thorax.Tui

open MessageLoop

variable {env : Env} {model : Model env} {answers : Answers}

/-! ### What effects leave alone -/

/-- Effects that may cache an identity. -/
def Effect.caches : Effect → Bool
  | .join _ _ | .init _ => true
  | _ => false

/-- The time and the last activity. -/
def Model.times (model : Model env) : Instant × Instant := (model.now, model.lastActive)

lemma times_of_held {after : Model env} (hnow : after.held.now = model.held.now)
    (hactive : after.held.lastActive = model.held.lastActive) : after.times = model.times :=
  Prod.ext hnow hactive

lemma times_refreshFromSession : (model.refreshFromSession answers).times = model.times := by
  have hheld := model.held_refreshFromSession_eq answers
  exact times_of_held (by rw [hheld]) (by rw [hheld])

lemma times_reload : (model.reload answers).times = model.times := by
  have hheld := model.held_reload answers
  exact times_of_held (by rw [hheld]) (by rw [hheld])

lemma times_withCached (identity : Option MemberIdentity) :
    (model.withCached identity).times = model.times := by
  cases identity <;> rfl

/-- Effects have no time of their own. -/
theorem times_runEffect (model : Model env) (answers : Answers) (effect : Effect) :
    (runEffect answers effect model).1.times = model.times := by
  cases effect with
  | reload => exact times_reload
  | getSecret selector purpose =>
    rw [runEffect, Model.getSecret]
    repeat' split
    all_goals rfl
  | operate operation =>
    rw [runEffect, Model.operate]
    split
    · split
      · exact times_refreshFromSession
      · rfl
    · rfl
  | join bundle passphrase =>
    rw [runEffect, Model.join]
    split
    · rfl
    · exact times_reload.trans (times_withCached _)
  | init passphrase =>
    rw [runEffect, Model.init]
    split
    · rfl
    · split
      · rfl
      · exact (times_withCached _).trans times_refreshFromSession
  | acceptRollback key =>
    rw [runEffect, Model.acceptRollback]
    split
    · rfl
    · split
      · exact times_refreshFromSession
      · rfl
    · split
      · exact times_refreshFromSession
      · rfl
  | revealConflictCandidates picks =>
    rw [runEffect, Model.revealConflictCandidates]
    repeat' split
    all_goals rfl
  | copyToClipboard | quit => rfl

/-- Only joining and initializing cache an identity. -/
theorem locked_runEffect {effect : Effect} (hcaches : effect.caches = false)
    (hlocked : model.unlockSession = none) :
    (runEffect answers effect model).1.unlockSession = none := by
  cases effect with
  | reload => exact Model.unlockSession_reload model answers hlocked
  | getSecret selector purpose =>
    rw [runEffect, Model.getSecret]
    repeat' split
    all_goals first | exact hlocked | rfl
  | operate operation =>
    rw [runEffect, Model.operate]
    split
    · split
      · rw [Model.unlockSession_refreshFromSession]
        exact hlocked
      · exact hlocked
    · exact hlocked
  | join | init => simp [Effect.caches] at hcaches
  | acceptRollback key =>
    rw [runEffect, Model.acceptRollback]
    split
    · exact hlocked
    · split
      · rw [Model.unlockSession_refreshFromSession]
        exact hlocked
      · exact hlocked
    · split
      · rw [Model.unlockSession_refreshFromSession]
        exact hlocked
      · exact hlocked
  | revealConflictCandidates picks =>
    rw [runEffect, Model.revealConflictCandidates]
    repeat' split
    all_goals first | exact hlocked | rfl
  | copyToClipboard | quit => exact hlocked

/-! ### What messages ask for -/

lemma caches_outcome {message : Message} (h : message.isOutcome = true) :
    ∀ effect ∈ (update answers message model).2, effect.caches = false := by
  cases message with
  | secretRevealed selector plaintext isUtf8 copy =>
    intro effect heffect
    cases copy with
    | false => simp [update, Model.resolve, Model.handle, Model.secretRevealed] at heffect
    | true =>
      simp only [update, Model.resolve, Model.handle, Model.secretRevealed, if_true,
        List.mem_singleton] at heffect
      rw [heffect]
      rfl
  | secretForEdit | secretFieldsLoaded | conflictCandidatesRevealed | opFailed | opOk | showBundle =>
    simp [update, Model.resolve, Model.handle]
  | _ => simp [Message.isOutcome] at h

lemma caches_tick : ∀ effect ∈ (model.tick answers).2, effect.caches = false := by
  intro effect heffect
  rw [Model.tick] at heffect
  obtain hclear | hprobe := List.mem_append.mp heffect
  · rw [Model.clearClipboard] at hclear
    split at hclear
    · simp at hclear
    · split_ifs at hclear
      · obtain rfl := List.mem_singleton.mp hclear
        rfl
      · simp at hclear
  · rw [Model.probeFreshness] at hprobe
    split_ifs at hprobe with hprobes hsame
    · simp at hprobe
    · obtain rfl := List.mem_singleton.mp hprobe
      rfl
    · simp at hprobe

lemma caches_fieldsSyncEffect {effect : Effect} (h : model.fieldsSyncEffect = some effect) :
    effect.caches = false := by
  rw [Model.fieldsSyncEffect] at h
  split at h
  · split_ifs at h with hactive
    obtain rfl := Option.some.inj h
    rfl
  · simp at h

/-! ### Activity -/

lemma times_promote : (model.promoteSessionIfUnlocked answers).times = model.times := by
  have hheld := model.held_promote answers
  exact times_of_held (by rw [hheld]) (by rw [hheld])

lemma times_unlockSubmit : (model.unlockSubmit answers).times = model.times := by
  rw [Model.unlockSubmit]
  split
  · rfl
  · rfl
  · split
    · rfl
    · dsimp only
      split
      · exact times_promote
      · exact times_refreshFromSession.trans times_promote

lemma times_tick : (model.tick answers).1.times = model.times := by
  by_cases hidle : model.Idle
  · have hheld := model.held_tick_of_idle answers hidle
    exact times_of_held (by rw [hheld]; rfl) (by rw [hheld]; rfl)
  · have hheld := model.held_tick_of_not_idle answers hidle
    exact times_of_held (by rw [hheld]; rfl) (by rw [hheld]; rfl)

/-- A message sets the time, and counts as activity if it is no tick. -/
theorem times_update (model : Model env) (answers : Answers) (message : Message) : (update answers message model).1.times =
    (answers.now, if message = .tick then model.lastActive else answers.now) := by
  have htouch : (model.touch answers message).times =
      (answers.now, if message = .tick then model.lastActive else answers.now) := rfl
  rw [← htouch]
  cases hlocks : message.locks with
  | false =>
    have hunseen := unseen_update model answers hlocks
    have hnow : (update answers message model).1.now = (model.touch answers message).now :=
      congrArg Held.now hunseen
    have hactive : (update answers message model).1.lastActive =
        (model.touch answers message).lastActive := congrArg Held.lastActive hunseen
    exact times_of_held hnow hactive
  | true =>
    cases message with
    | lockNow => rfl
    | tick => exact times_tick
    | unlockSubmit => exact times_unlockSubmit
    | _ => simp [Message.locks] at hlocks

/-- What a run knows about its last activity. Where there was none, no identity is cached. -/
structure Tracks (log : List (Entry Message Answers)) (state : State (Model env) Effect) : Prop where
  outcomes : ∀ entry ∈ log, entry.origin = .followUp → entry.message ≠ .tick
  active : ∀ entry ∈ log, entry.message ≠ .tick → entry.answers.now ≤ state.model.lastActive
  last : (∃ entry ∈ log, entry.message ≠ .tick ∧ entry.answers.now = state.model.lastActive) ∨
    state.model.unlockSession = none ∧ ∀ effect ∈ state.pending, effect.caches = false
  clock : state.model.lastActive ≤ state.model.now

section Steps

variable {log : List (Entry Message Answers)} {pending : List Effect}

lemma tracks_load : Tracks [] ⟨Model.load env answers, []⟩ := by
  have htimes : (Model.load env answers).times = (answers.now, answers.now) := times_reload
  have hlocked : (Model.load env answers).unlockSession = none :=
    Model.unlockSession_reload _ answers rfl
  refine ⟨by simp, by simp, .inr ⟨hlocked, by simp⟩, ?_⟩
  exact (congrArg Prod.snd htimes).le.trans (congrArg Prod.fst htimes).ge

/-- A tick finds no identity to lock where none is cached. -/
lemma locked_update_tick (h : model.unlockSession = none) :
    (update answers .tick model).1.unlockSession = none := by
  have hidle : ¬ (model.touch answers .tick).Idle := by
    intro hidle
    have hlocked : (model.touch answers .tick).isLocked = true := by
      rw [Model.isLocked]
      exact Option.isNone_iff_eq_none.mpr h
    exact absurd hidle.1 (by simp [hlocked])
  exact (congrArg Held.unlockSession (Model.held_tick_of_not_idle _ answers hidle)).trans h

lemma Tracks.update {entry : Entry Message Answers} (h : Tracks log ⟨model, pending⟩)
    (hclock : model.now ≤ entry.answers.now)
    (horigin : entry.origin = .followUp → entry.message.isOutcome = true) :
    Tracks (log ++ [entry]) ⟨(Tui.update entry.answers entry.message model).1,
      (Tui.update entry.answers entry.message model).2.reverse ++ pending⟩ := by
  have htimes := times_update model entry.answers entry.message
  have hnow : (Tui.update entry.answers entry.message model).1.now = entry.answers.now :=
    congrArg Prod.fst htimes
  have hactive : (Tui.update entry.answers entry.message model).1.lastActive =
      if entry.message = .tick then model.lastActive else entry.answers.now :=
    congrArg Prod.snd htimes
  have houtcomes : ∀ other ∈ log ++ [entry], other.origin = .followUp → other.message ≠ .tick := by
    intro other hmem hfollow
    obtain hmem | hmem := List.mem_append.mp hmem
    · exact h.outcomes other hmem hfollow
    · obtain rfl := List.mem_singleton.mp hmem
      exact ne_tick_of_isOutcome (horigin hfollow)
  by_cases htick : entry.message = .tick
  · rw [if_pos htick] at hactive
    refine ⟨houtcomes, fun other hmem hother => ?_, ?_, ?_⟩
    · rw [hactive]
      obtain hmem | hmem := List.mem_append.mp hmem
      · exact h.active other hmem hother
      · obtain rfl := List.mem_singleton.mp hmem
        exact absurd htick hother
    · obtain ⟨other, hmem, hother, hlast⟩ | ⟨hlocked, hpending⟩ := h.last
      · exact .inl ⟨other, List.mem_append_left _ hmem, hother, hlast.trans hactive.symm⟩
      · refine .inr ⟨?_, fun effect heffect => ?_⟩
        · rw [htick]
          exact locked_update_tick hlocked
        · obtain heffect | heffect := List.mem_append.mp heffect
          · rw [List.mem_reverse, htick] at heffect
            exact caches_tick effect heffect
          · exact hpending effect heffect
    · rw [hnow, hactive]
      exact h.clock.trans hclock
  · rw [if_neg htick] at hactive
    refine ⟨houtcomes, fun other hmem hother => ?_, ?_, ?_⟩
    · rw [hactive]
      obtain hmem | hmem := List.mem_append.mp hmem
      · exact ((h.active other hmem hother).trans h.clock).trans hclock
      · obtain rfl := List.mem_singleton.mp hmem
        exact le_rfl
    · exact .inl ⟨entry, List.mem_append_right _ (List.mem_singleton_self _), htick, hactive.symm⟩
    · rw [hnow, hactive]

lemma Tracks.run {effect : Effect} (h : Tracks log ⟨model, effect :: pending⟩) :
    Tracks log ⟨(runEffect answers effect model).1, pending⟩ := by
  have htimes := times_runEffect model answers effect
  have hnow : (runEffect answers effect model).1.now = model.now := congrArg Prod.fst htimes
  have hactive : (runEffect answers effect model).1.lastActive = model.lastActive :=
    congrArg Prod.snd htimes
  refine ⟨h.outcomes, fun entry hmem hentry => ?_, ?_, ?_⟩
  · rw [hactive]
    exact h.active entry hmem hentry
  · obtain ⟨entry, hmem, hentry, hlast⟩ | ⟨hlocked, hpending⟩ := h.last
    · exact .inl ⟨entry, hmem, hentry, hlast.trans hactive.symm⟩
    · exact .inr ⟨locked_runEffect (hpending effect List.mem_cons_self) hlocked,
        fun other hother => hpending other (List.mem_cons_of_mem _ hother)⟩
  · rw [hnow, hactive]
    exact h.clock

end Steps

/-- Every run tracks its last activity. -/
theorem tracks_of_runs {started : Answers} {log : List (Entry Message Answers)}
    {state : State (Model env) Effect}
    (h : Runs (eventLoop env) (steady env) ⟨Model.load env started, []⟩ log state) :
    Tracks log state := by
  induction h with
  | start => exact tracks_load
  | input before settled hmessage hguard ih =>
    have htracks := ih.update hguard (by simp)
    rwa [List.append_nil] at htracks
  | effect before hguard hmessage ih => exact ih.run
  | followUp before hguard hmessage hfollow ih =>
    exact ih.run.update hfollow fun _ => isOutcome_runEffect hmessage
  | settle before hsettle ih =>
    refine ⟨ih.outcomes, ih.active, ih.last.imp_right fun hlast => ⟨hlast.1, ?_⟩, ih.clock⟩
    intro effect heffect
    obtain rfl := List.mem_singleton.mp heffect
    exact caches_fieldsSyncEffect hsettle

/-! ### The relock -/

/-- No key or click in the time before. -/
def InputsIdle (log : List (Entry Message Answers)) (time : Instant) : Prop :=
  ∀ entry ∈ log, entry.origin = .input → entry.message ≠ .tick →
    entry.answers.now + idleTimeout ≤ time

/-- No effect has ended in a message in the time before. -/
def OutcomesIdle (log : List (Entry Message Answers)) (time : Instant) : Prop :=
  ∀ entry ∈ log, entry.origin = .followUp → entry.answers.now + idleTimeout ≤ time

/-- A tick locks what is cached when no message came in the time before. -/
lemma Tracks.locked_update_tick_iff {log : List (Entry Message Answers)}
    {state : State (Model env) Effect} (h : Tracks log state)
    (hclock : state.model.now ≤ answers.now) :
    (Tui.update answers .tick state.model).1.unlockSession = none ↔
      state.model.unlockSession = none ∨ InputsIdle log answers.now ∧ OutcomesIdle log answers.now := by
  by_cases hlocked : state.model.unlockSession = none
  · exact iff_of_true (locked_update_tick hlocked) (.inl hlocked)
  have hlast := h.last.resolve_right fun hlast => hlocked hlast.1
  obtain ⟨last, hmem, hactive, hlast⟩ := hlast
  have hall : (InputsIdle log answers.now ∧ OutcomesIdle log answers.now) ↔
      state.model.lastActive + idleTimeout ≤ answers.now := by
    constructor
    · rintro ⟨hinputs, houtcomes⟩
      rw [← hlast]
      cases horigin : last.origin with
      | input => exact hinputs last hmem horigin hactive
      | followUp => exact houtcomes last hmem horigin
    · intro hidle
      have hbefore : ∀ entry ∈ log, entry.message ≠ .tick →
          entry.answers.now + idleTimeout ≤ answers.now := fun entry hentry hmessage =>
        (Nat.add_le_add_right (h.active entry hentry hmessage) _).trans hidle
      exact ⟨fun entry hentry _ => hbefore entry hentry,
        fun entry hentry horigin => hbefore entry hentry (h.outcomes entry hentry horigin)⟩
  have hunlocked : (state.model.touch answers .tick).isLocked = false := by
    rw [Model.isLocked, Option.isNone_eq_false_iff, Option.isSome_iff_ne_none]
    exact hlocked
  have hidle : (state.model.touch answers .tick).Idle ↔
      state.model.lastActive + idleTimeout ≤ answers.now := by
    have hactive := h.clock.trans hclock
    rw [Model.Idle, hunlocked, ← Nat.le_sub_iff_add_le' hactive]
    simp [Model.touch]
  rw [hall, ← hidle]
  constructor
  · intro hnone
    refine .inr (by_contra fun hnot => hlocked ?_)
    exact (congrArg Held.unlockSession
      (Model.held_tick_of_not_idle _ answers hnot)).symm.trans hnone
  · rintro (hnone | hidle)
    · exact absurd hnone hlocked
    · exact congrArg Held.unlockSession (Model.held_tick_of_idle _ answers hidle)

/-- Nothing is cached while the effects of one input are worked off, unless they cache it. -/
lemma locked_processing {log : List (Entry Message Answers)} {start state : State (Model env) Effect}
    (h : Runs (eventLoop env) (steady env) start log state)
    (hlocked : start.model.unlockSession = none)
    (hpending : ∀ effect ∈ start.pending, effect.caches = false)
    (hfollow : ∀ entry ∈ log, entry.origin = .followUp) :
    state.model.unlockSession = none ∧ ∀ effect ∈ state.pending, effect.caches = false := by
  induction h with
  | start => exact ⟨hlocked, hpending⟩
  | input before settled hmessage hguard ih =>
    exact absurd (hfollow _ (List.mem_append_right _ (List.mem_singleton_self _))) (by simp)
  | effect before hguard hmessage ih =>
    obtain ⟨hmodel, heffects⟩ := ih hfollow
    exact ⟨locked_runEffect (heffects _ List.mem_cons_self) hmodel,
      fun effect heffect => heffects effect (List.mem_cons_of_mem _ heffect)⟩
  | followUp before hguard hmessage hupdate ih =>
    obtain ⟨hmodel, heffects⟩ := ih fun entry hentry => hfollow entry (List.mem_append_left _ hentry)
    have houtcome := isOutcome_runEffect hmessage
    refine ⟨?_, fun effect heffect => ?_⟩
    · exact (session_update _ _ (locks_of_isOutcome houtcome)).2.trans
        (locked_runEffect (heffects _ List.mem_cons_self) hmodel)
    · obtain heffect | heffect := List.mem_append.mp heffect
      · exact caches_outcome houtcome effect (List.mem_reverse.mp heffect)
      · exact heffects effect (List.mem_cons_of_mem _ heffect)
  | settle before hsettle ih =>
    refine ⟨(ih hfollow).1, fun effect heffect => ?_⟩
    obtain rfl := List.mem_singleton.mp heffect
    exact caches_fieldsSyncEffect hsettle

/-- A tick after half an hour without input locks the identity exactly if no effect has ended in a
message in that time either, and then it stays locked until the next input. -/
theorem idleRelocks {env : Env} {started answers : Answers} {log : List (Entry Message Answers)}
    {state : State (Model env) Effect}
    (h : Runs (eventLoop env) (steady env) ⟨Model.load env started, []⟩ log state)
    (hclock : state.model.now ≤ answers.now) :
    ((InputsIdle log answers.now → (update answers .tick state.model).1.unlockSession = none) ↔
      (InputsIdle log answers.now →
        state.model.unlockSession = none ∨ OutcomesIdle log answers.now)) ∧
    (InputsIdle log answers.now → state.model.unlockSession = none ∨ OutcomesIdle log answers.now →
      ∀ processed later, Runs (eventLoop env) (steady env)
          ⟨(update answers .tick state.model).1, (update answers .tick state.model).2.reverse⟩
          processed later →
        (∀ entry ∈ processed, entry.origin = .followUp) → later.model.unlockSession = none) := by
  have hiff := (tracks_of_runs h).locked_update_tick_iff hclock
  refine ⟨forall_congr' fun hinputs => hiff.trans (or_congr_right (and_iff_right hinputs)), ?_⟩
  intro hinputs hcondition processed later hruns hfollow
  have hlocked := hiff.mpr (hcondition.imp_right fun houtcomes => ⟨hinputs, houtcomes⟩)
  refine (locked_processing hruns hlocked (fun effect heffect => ?_) hfollow).1
  exact caches_tick effect (List.mem_reverse.mp heffect)

/-! ### A relock that is put off -/

section Examples

open TestSupport

/-- The vault is unlocked and its secret selected, whose fields are loaded. -/
def selectedMoves : List (Move Input Answers) :=
  [.input (press (.char 'p')) (answersOf firstSession 0 1),
    .input (press .enter) (answersOf firstSession 0 2),
    .input (press .down) (answersOf firstSession 0 3),
    .settle, .effect (answersOf firstSession 0 3) (answersOf firstSession 0 3)]

/-- After twenty minutes the vault file changes, and the fields are loaded again. -/
def changedMoves : List (Move Input Answers) :=
  let changed := answersOf secondSession 5 (fromSecs 1200)
  selectedMoves ++ [.input .tick changed, .effect changed changed, .settle, .effect changed changed]

theorem idleRelocks_selected : ∃ log state,
    Runs (eventLoop testEnv) (steady testEnv) (startOf firstSession) log state ∧
      InputsIdle log (fromSecs 1801) ∧
      (update (answersOf firstSession 0 (fromSecs 1801)) .tick state.model).1.unlockSession = none := by
  obtain ⟨log, state, hruns, hclock, hinputs, houtcomes⟩ :=
    exists_run_of_play (P := fun log state => state.model.now ≤ fromSecs 1801 ∧
      (∀ entry ∈ log, entry.origin = .input → entry.message ≠ .tick →
        entry.answers.now + idleTimeout ≤ fromSecs 1801) ∧
      ∀ entry ∈ log, entry.origin = .followUp → entry.answers.now + idleTimeout ≤ fromSecs 1801)
      (show (play (eventLoop testEnv) (steady testEnv) selectedMoves (startOf firstSession)).any _ =
        true by decide +kernel)
  have hnow : state.model.now ≤ (answersOf firstSession 0 (fromSecs 1801)).now := hclock
  exact ⟨log, state, hruns, hinputs,
    (idleRelocks hruns hnow).1.mpr (fun _ => .inr houtcomes) hinputs⟩

/-- Half an hour after the last key a tick comes, ten minutes after a change of the vault file. The
identity stays unlocked. -/
theorem changedVault_postpones : ∃ log state answers,
    Runs (eventLoop testEnv) (steady testEnv) (startOf firstSession) log state ∧
      state.Drained (eventLoop testEnv) ∧
      (eventLoop testEnv).message .tick state.model = some .tick ∧
      state.model.now ≤ answers.now ∧ InputsIdle log answers.now ∧
      (update answers .tick state.model).1.unlockSession.isSome = true := by
  let later := answersOf secondSession 5 (fromSecs 1801)
  obtain ⟨log, state, hruns, hdrained, hmessage, hclock, hinputs, hunlocked⟩ :=
    exists_run_of_play (P := fun log state =>
      (state.pending = [] ∧ state.model.fieldsSyncEffect = none) ∧
      Input.tick.message state.model = some .tick ∧ state.model.now ≤ later.now ∧
      (∀ entry ∈ log, entry.origin = .input → entry.message ≠ .tick →
        entry.answers.now + idleTimeout ≤ later.now) ∧
      (update later .tick state.model).1.unlockSession.isSome = true)
      (show (play (eventLoop testEnv) (steady testEnv) changedMoves (startOf firstSession)).any _ =
        true by decide +kernel)
  exact ⟨log, state, later, hruns, hdrained, hmessage, hclock, hinputs, hunlocked⟩

end Examples

end Thorax.Tui
