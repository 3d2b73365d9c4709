import Thorax.TestTui
import Thorax.Tui.Frames

/-!
# A loaded workspace is kept

The session is moved out of the model and put back in several places. Every place puts one back as
long as the vault can be loaded, except the one that locks: it puts back what was unlocked, and drops
a session that was locked already.
-/

namespace Thorax.Tui

open MessageLoop

variable {env : Env}

/-! ### Loads -/

/-- The load after a failed promotion succeeds, if it comes to one. -/
def Model.PromotionLoads (model : Model env) (answers : Answers) : Prop :=
  ∀ session identity error, model.Promotes session identity → answers.attested = .error error →
    ∃ reloaded, answers.reloaded = .ok reloaded

lemma Model.PromotionLoads.of_eq {model after : Model env} {answers : Answers}
    (h : model.PromotionLoads answers) (hsession : after.session = model.session)
    (hcached : after.unlockSession = model.unlockSession) : after.PromotionLoads answers :=
  fun session identity error hpromotes => h session identity error
    ⟨hsession ▸ hpromotes.locked, hcached ▸ hpromotes.cached, hpromotes.clean⟩

/-- The loads of a reload succeed. -/
structure Model.ReloadLoads (model : Model env) (answers : Answers) : Prop where
  load : ∃ session, answers.load = .ok session
  promotion : ∀ session, answers.load = .ok session →
    { model with session := .locked session }.PromotionLoads answers

/-- Every load that is performed succeeds. -/
def loadsSucceed (env : Env) : Guard (Model env) Message Effect Answers where
  update entry model := model.now ≤ entry.answers.now ∧ (entry.message = .unlockSubmit →
    ∀ identity, entry.answers.unlocked = .ok identity →
      { model with unlockSession := some identity }.PromotionLoads entry.answers)
  run answers effect model :=
    match effect with
    | .reload => model.ReloadLoads answers
    | .join _ _ => ∀ joined, answers.joined = .ok joined →
      (model.withCached joined.2).ReloadLoads answers
    | _ => True

/-! ### Locking -/

/-- A message that locks, on a session that is locked. -/
def Model.Drops (model : Model env) (entry : Entry Message Answers) : Prop :=
  (∃ session, model.session = .locked session) ∧
    (entry.message = .lockNow ∨ entry.message = .tick ∧ (model.touch entry.answers .tick).Idle)

lemma SessionState.existsSession_relock (state : SessionState) :
    state.relock.existsSession = state.isUnlocked := by
  cases state <;> rfl

lemma SessionState.isUnlocked_eq_false_iff {state : SessionState} (h : state.existsSession = true) :
    state.isUnlocked = false ↔ ∃ session, state = .locked session := by
  cases state with
  | none => simp [existsSession] at h
  | locked session => simp [isUnlocked]
  | unlocked session => simp [isUnlocked]

/-! ### One step -/

variable {model : Model env} {answers : Answers}

lemma existsSession_promote (hexists : model.session.existsSession = true)
    (hloads : model.PromotionLoads answers) :
    (model.promoteSessionIfUnlocked answers).session.existsSession = true := by
  obtain ⟨-, h⟩ | ⟨_, _, _, -, -, h⟩ | ⟨session, identity, error, hpromotes, hattested, h⟩ :=
    model.promote_cases answers
  · rw [h]
    exact hexists
  · rw [h]
    rfl
  · obtain ⟨reloaded, hreloaded⟩ := hloads session identity error hpromotes hattested
    have hsession : (model.promoteSessionIfUnlocked answers).session = .locked reloaded := by
      refine (congrArg Held.session h).trans ?_
      rw [Model.reloadedSession, hreloaded]
    rw [hsession]
    rfl

lemma existsSession_reload (hloads : model.ReloadLoads answers) :
    (model.reload answers).session.existsSession = true := by
  obtain ⟨session, hload⟩ := hloads.load
  rw [model.reload_of_ok answers hload, Model.session_refreshFromSession]
  exact existsSession_promote rfl (hloads.promotion session hload)

lemma existsSession_unlockSubmit (hexists : model.session.existsSession = true)
    (hloads : ∀ identity, answers.unlocked = .ok identity →
      { model with unlockSession := some identity }.PromotionLoads answers) :
    (model.unlockSubmit answers).session.existsSession = true := by
  rw [Model.unlockSubmit]
  split
  · exact hexists
  · exact hexists
  · split
    next => exact hexists
    next identity hunlocked =>
      let cached : Model env := { model with unlockInput := "", unlockSession := some identity }
      have hcached : cached.session.existsSession = true := hexists
      have hpromotion : cached.PromotionLoads answers := (hloads identity hunlocked).of_eq rfl rfl
      have hpromoted := existsSession_promote hcached hpromotion
      dsimp only
      split
      · exact hpromoted
      · rw [Model.session_refreshFromSession]
        exact hpromoted

/-- A message keeps the session exactly if it does not lock a locked one. -/
theorem existsSession_update (hexists : model.session.existsSession = true)
    {entry : Entry Message Answers} (hloads : (loadsSucceed env).update entry model) :
    (update entry.answers entry.message model).1.session.existsSession = true ↔
      ¬ model.Drops entry := by
  obtain ⟨origin, answers, message⟩ := entry
  cases hlocks : message.locks with
  | false =>
    rw [(session_update model answers hlocks).1]
    refine iff_of_true hexists fun hdrops => ?_
    obtain rfl | ⟨rfl, -⟩ := hdrops.2
    · simp [Message.locks] at hlocks
    · simp [Message.locks] at hlocks
  | true =>
    have hunlocked := SessionState.isUnlocked_eq_false_iff hexists
    cases message with
    | lockNow =>
      have hsession : (update answers .lockNow model).1.session = model.session.relock := rfl
      rw [hsession, SessionState.existsSession_relock, Model.Drops, ← hunlocked]
      simp
    | tick =>
      have htick : (update answers .tick model).1 = ((model.touch answers .tick).tick answers).1 := rfl
      rw [htick]
      by_cases hidle : (model.touch answers .tick).Idle
      · have hsession : ((model.touch answers .tick).tick answers).1.session = model.session.relock :=
          congrArg Held.session (Model.held_tick_of_idle _ answers hidle)
        rw [hsession, SessionState.existsSession_relock, Model.Drops, ← hunlocked]
        simp [Model.touch] at hidle ⊢
        simp [hidle]
      · have hsession := congrArg Held.session (Model.held_tick_of_not_idle _ answers hidle)
        rw [Model.held_session] at hsession
        rw [hsession]
        refine iff_of_true hexists fun hdrops => ?_
        obtain h | ⟨-, h⟩ := hdrops.2
        · simp at h
        · exact hidle h
    | unlockSubmit =>
      refine iff_of_true ?_ fun hdrops => ?_
      · have htouched : (model.touch answers .unlockSubmit).session.existsSession = true := hexists
        exact existsSession_unlockSubmit htouched fun identity hidentity =>
          (hloads.2 rfl identity hidentity).of_eq rfl rfl
      · obtain h | ⟨h, -⟩ := hdrops.2
        · simp at h
        · simp at h
    | _ => simp [Message.locks] at hlocks

/-- An effect keeps the session. -/
theorem existsSession_runEffect (hexists : model.session.existsSession = true) {effect : Effect}
    (hloads : (loadsSucceed env).run answers effect model) :
    (runEffect answers effect model).1.session.existsSession = true := by
  have hrelock : ∀ unlocked, model.session = .unlocked unlocked →
      model.relock.session.existsSession = true := by
    intro unlocked hunlocked
    have hsession : model.relock.session = model.session.relock := rfl
    rw [hsession, hunlocked]
    rfl
  cases effect with
  | reload => exact existsSession_reload hloads
  | getSecret selector purpose =>
    rw [runEffect, Model.getSecret]
    split
    next unlocked hunlocked =>
      split
      · exact hexists
      · split
        · exact hexists
        · exact hrelock unlocked hunlocked
    · exact hexists
  | operate operation =>
    rw [runEffect, Model.operate]
    split
    · split
      · rw [Model.session_refreshFromSession]
        rfl
      · rfl
    · exact hexists
  | join bundle passphrase =>
    rw [runEffect, Model.join]
    split
    · exact hexists
    next rollbackProtected identity hjoined =>
      exact existsSession_reload (hloads (rollbackProtected, identity) hjoined)
  | init passphrase =>
    rw [runEffect, Model.init]
    split
    · exact hexists
    · split
      · exact hexists
      next unlocked _ =>
        have hsession := Model.session_refreshFromSession
          { model with session := .unlocked unlocked } answers
        dsimp only [Model.withCached]
        rw [hsession]
        rfl
  | acceptRollback key =>
    rw [runEffect, Model.acceptRollback]
    split
    · exact hexists
    · split
      · rw [Model.session_refreshFromSession]
        rfl
      · rfl
    · split
      · rw [Model.session_refreshFromSession]
        rfl
      · rfl
  | revealConflictCandidates picks =>
    rw [runEffect, Model.revealConflictCandidates]
    split
    next unlocked hunlocked =>
      split
      · exact hexists
      · exact hrelock unlocked hunlocked
    · exact hexists
  | copyToClipboard | quit => exact hexists

/-! ### Runs -/

/-- Loads succeed, and nothing locks a locked session. -/
def keeping (env : Env) : Guard (Model env) Message Effect Answers where
  update entry model := (loadsSucceed env).update entry model ∧ ¬ model.Drops entry
  run := (loadsSucceed env).run

/-- A workspace stays loaded until a message locks a session that is locked already, and is dropped
then. Locking without a workspace does not make up one. -/
theorem keepsWorkspace {env : Env} {state : State (Model env) Effect}
    (hexists : state.model.session.existsSession = true) :
    (∀ entry, (loadsSucceed env).update entry state.model →
      ((update entry.answers entry.message state.model).1.session.existsSession = true ↔
        ¬ state.model.Drops entry)) ∧
    (∀ answers effect, (loadsSucceed env).run answers effect state.model →
      (runEffect answers effect state.model).1.session.existsSession = true) ∧
    (∀ log later, Runs (eventLoop env) (keeping env) state log later →
      later.model.session.existsSession = true) ∧
    (∀ unlocked, state.model.session = .unlocked unlocked →
      state.model.relock.session = .locked unlocked.session) ∧
    (state.model.relock.session.existsSession = true ↔
      ∀ session, state.model.session ≠ .locked session) ∧
    ∀ model : Model env, model.session = .none → model.relock.session = .none := by
  refine ⟨fun entry => existsSession_update hexists,
    fun answers effect => existsSession_runEffect hexists, fun log later hruns => ?_,
    fun unlocked hunlocked => ?_, ?_, fun model hnone => ?_⟩
  · refine hruns.invariant (P := fun model => model.session.existsSession = true) hexists ?_ ?_
    · intro entry model hguard hmodel
      exact (existsSession_update hmodel hguard.1).mpr hguard.2
    · intro answers effect model hguard hmodel
      exact existsSession_runEffect hmodel hguard
  · have hsession : state.model.relock.session = state.model.session.relock := rfl
    rw [hsession, hunlocked]
    rfl
  · have hsession : state.model.relock.session = state.model.session.relock := rfl
    have hunlocked := SessionState.isUnlocked_eq_false_iff hexists
    rw [hsession, SessionState.existsSession_relock, ← not_iff_not, Bool.not_eq_true, hunlocked]
    push Not
    rfl
  · have hsession : model.relock.session = model.session.relock := rfl
    rw [hsession, hnone]
    rfl

/-! ### A dropped workspace -/

section Examples

open TestSupport

theorem keepsWorkspace_started :
    (startOf firstSession).model.session.existsSession = true ∧
      ∀ log later, Runs (eventLoop testEnv) (keeping testEnv) (startOf firstSession) log later →
        later.model.session.existsSession = true := by
  have hexists : (startOf firstSession).model.session.existsSession = true := by decide +kernel
  exact ⟨hexists, (keepsWorkspace hexists).2.2.1⟩

/-- The vault is unlocked, becomes invalid, and is reloaded by a tick. -/
def brokenMoves : List (Move Input Answers) :=
  [.input (press (.char 'p')) (answersOf firstSession 0 1),
    .input (press .enter) (answersOf firstSession 0 2),
    .input .tick (answersOf brokenSession 3 (fromSecs 3)),
    .effect (answersOf brokenSession 3 (fromSecs 3)) (answersOf brokenSession 3 (fromSecs 3))]

/-- A tick half an hour later locks the session that shows why the vault is invalid, and nothing is
left of the workspace. -/
theorem brokenWorkspace_dropped : ∃ log state, ∃ entry : Entry Message Answers,
    Runs (eventLoop testEnv) (steady testEnv) (startOf firstSession) log state ∧
      state.Drained (eventLoop testEnv) ∧ state.model.session.existsSession = true ∧
      (eventLoop testEnv).message .tick state.model = some entry.message ∧
      (loadsSucceed testEnv).update entry state.model ∧
      (update entry.answers entry.message state.model).1.session.existsSession = false := by
  let later := answersOf brokenSession 3 (fromSecs 1803)
  obtain ⟨log, state, hruns, hdrained, hexists, hmessage, hnow, hdropped⟩ :=
    exists_run_of_play (P := fun _ state => (state.pending = [] ∧ state.model.fieldsSyncEffect = none) ∧
      state.model.session.existsSession = true ∧ Input.tick.message state.model = some .tick ∧
      state.model.now ≤ later.now ∧
      (update later .tick state.model).1.session.existsSession = false)
      (show (play (eventLoop testEnv) (steady testEnv) brokenMoves (startOf firstSession)).any _ = true
        by decide +kernel)
  exact ⟨log, state, ⟨.input, later, .tick⟩, hruns, hdrained, hexists, hmessage, ⟨hnow, by simp⟩,
    hdropped⟩

end Examples

end Thorax.Tui
