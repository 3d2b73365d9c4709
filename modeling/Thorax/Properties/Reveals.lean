import Thorax.TestTui
import Thorax.Tui.Outcomes

/-!
# Revealed values

A revealed value and the loaded fields are kept beside the session. When the session is derived from
again the fields are dropped, the reveal is not, and when an operation fails neither is. So what is
shown is current as long as no step replaces the session by one that reads something else there.
-/

namespace Thorax.Tui

open MessageLoop

variable {env : Env}

/-! ### Current values -/

/-- What is revealed is what the session reads, where it reads. -/
def revealHolds (env : Env) (reveal : Option Reveal) (unlocked : UnlockedSession) : Bool :=
  reveal.all fun reveal =>
    match unlocked.getSecret env reveal.selector with
    | .ok plaintext => reveal.plaintext = plaintext.plaintext
    | .error _ => true

def fieldsHold (env : Env) (loaded : Option SecretFields) (unlocked : UnlockedSession) : Bool :=
  loaded.all fun loaded =>
    match unlocked.getSecret env loaded.selector with
    | .ok plaintext => loaded.fields = loadedFields plaintext
    | .error _ => true

lemma revealHolds_some {unlocked : UnlockedSession} {shown : Reveal} {plaintext : SecretPlaintext}
    (h : unlocked.getSecret env shown.selector = .ok plaintext) :
    revealHolds env (some shown) unlocked = true ↔ shown.plaintext = plaintext.plaintext := by
  simp [revealHolds, h]

lemma fieldsHold_some {unlocked : UnlockedSession} {shown : SecretFields} {plaintext : SecretPlaintext}
    (h : unlocked.getSecret env shown.selector = .ok plaintext) :
    fieldsHold env (some shown) unlocked = true ↔ shown.fields = loadedFields plaintext := by
  simp [fieldsHold, h]

lemma fieldsHold_unread {unlocked : UnlockedSession} {shown : SecretFields} {error : OpsError}
    (h : unlocked.getSecret env shown.selector = .error error) :
    fieldsHold env (some shown) unlocked = true := by
  simp [fieldsHold, h]

/-- Everything shown is current. -/
structure Held.ShowsCurrent (env : Env) (held : Held) : Prop where
  reveal : ∀ unlocked, held.session = .unlocked unlocked → revealHolds env held.reveal unlocked = true
  fields : ∀ unlocked, held.session = .unlocked unlocked →
    fieldsHold env held.secretFields unlocked = true

/-! ### Replaced sessions -/

/-- A promotion keeps the revealed value. -/
def Model.promotionKeeps (model : Model env) (answers : Answers) : Bool :=
  match model.session, model.unlockSession, answers.attested with
  | .locked session, some identity, .ok attested =>
    !(session.report.issues = []) || revealHolds env model.reveal ⟨attested, identity⟩
  | _, _, _ => true

def Model.reloadKeeps (model : Model env) (answers : Answers) : Bool :=
  match answers.load with
  | .ok session => { model with session := .locked session }.promotionKeeps answers
  | .error _ => true

/-- An operation keeps the revealed value, and one that fails the fields as well. -/
def Model.operationKeeps (model : Model env) (answers : Answers) : Bool :=
  match model.session with
  | .unlocked unlocked =>
    let after : UnlockedSession := ⟨answers.operated.2, unlocked.identity⟩
    revealHolds env model.reveal after &&
      (answers.operated.1.isOk || fieldsHold env model.secretFields after)
  | _ => true

/-- No step replaces the session by one that reads another value where one is revealed, and no failed
operation leaves one that reads other fields where they are loaded. -/
def renewing (env : Env) : Guard (Model env) Message Effect Answers where
  update entry model := model.now ≤ entry.answers.now ∧
    (match entry.message, entry.answers.unlocked with
      | .unlockSubmit, .ok identity =>
        { model with unlockSession := some identity }.promotionKeeps entry.answers
      | _, _ => true) = true
  run answers effect model :=
    (match effect with
      | .reload => model.reloadKeeps answers
      | .join _ _ => answers.joined.toOption.all fun joined =>
        (model.withCached joined.2).reloadKeeps answers
      | .init _ => answers.vaultExists || answers.initialized.toOption.all fun unlocked =>
        revealHolds env model.reveal unlocked
      | .operate _ | .acceptRollback _ => model.operationKeeps answers
      | _ => true) = true

instance (entry : Entry Message Answers) (model : Model env) :
    Decidable ((renewing env).update entry model) := inferInstanceAs (Decidable (_ ∧ _ = true))

instance (answers : Answers) (effect : Effect) (model : Model env) :
    Decidable ((renewing env).run answers effect model) := inferInstanceAs (Decidable (_ = true))

/-! ### One step -/

variable {model : Model env} {answers : Answers}

lemma Held.ShowsCurrent.of_locked {held : Held}
    (h : ∀ unlocked, held.session ≠ .unlocked unlocked) : held.ShowsCurrent env :=
  ⟨fun unlocked hunlocked => absurd hunlocked (h unlocked),
    fun unlocked hunlocked => absurd hunlocked (h unlocked)⟩

/-- Nothing but the values has to be looked at, and nothing shown is current. -/
lemma Held.ShowsCurrent.of_shown {held after : Held} (h : held.ShowsCurrent env)
    (hsession : after.session = held.session)
    (hreveal : after.reveal = held.reveal ∨ after.reveal = none)
    (hfields : after.secretFields = held.secretFields ∨ after.secretFields = none) :
    after.ShowsCurrent env := by
  refine ⟨fun unlocked hunlocked => ?_, fun unlocked hunlocked => ?_⟩
  · obtain heq | heq := hreveal
    · rw [heq]
      exact h.reveal unlocked (hsession.symm.trans hunlocked)
    · rw [heq]
      rfl
  · obtain heq | heq := hfields
    · rw [heq]
      exact h.fields unlocked (hsession.symm.trans hunlocked)
    · rw [heq]
      rfl

/-- Deriving the model drops the fields. -/
lemma showsCurrent_refresh
    (h : ∀ unlocked, model.session = .unlocked unlocked → revealHolds env model.reveal unlocked = true) :
    (model.refreshFromSession answers).held.ShowsCurrent env := by
  cases hsession : model.session with
  | none =>
    rw [model.refreshFromSession_of_none answers hsession]
    exact .of_locked fun unlocked hunlocked => by simp [hsession] at hunlocked
  | locked session | unlocked session =>
    have hexists : model.session.existsSession = true := by
      rw [hsession]
      rfl
    rw [model.held_refreshFromSession answers hexists]
    exact ⟨h, fun _ _ => rfl⟩

lemma showsCurrent_promoted (hkeeps : model.promotionKeeps answers = true)
    (h : ∀ unlocked, model.session = .unlocked unlocked → revealHolds env model.reveal unlocked = true)
    {unlocked : UnlockedSession}
    (hunlocked : (model.promoteSessionIfUnlocked answers).session = .unlocked unlocked) :
    revealHolds env (model.promoteSessionIfUnlocked answers).reveal unlocked = true := by
  obtain ⟨-, heq⟩ | ⟨session, identity, attested, hpromotes, hattested, heq⟩ |
    ⟨session, identity, error, hpromotes, hattested, heq⟩ := model.promote_cases answers
  · rw [heq] at hunlocked ⊢
    exact h unlocked hunlocked
  · rw [heq] at hunlocked ⊢
    obtain rfl := SessionState.unlocked.inj hunlocked
    rw [Model.promotionKeeps, hpromotes.locked, hpromotes.cached, hattested] at hkeeps
    simpa [hpromotes.clean] using hkeeps
  · have hsession := congrArg Held.session heq
    rw [Model.held_session, hunlocked] at hsession
    dsimp only [Model.reloadedSession] at hsession
    split at hsession <;> simp at hsession

lemma showsCurrent_reload (hkeeps : model.reloadKeeps answers = true) :
    (model.reload answers).held.ShowsCurrent env := by
  cases hload : answers.load with
  | error error =>
    rw [model.held_reload_of_error answers hload]
    exact .of_locked fun unlocked hunlocked => by simp at hunlocked
  | ok session =>
    rw [Model.reloadKeeps, hload] at hkeeps
    rw [model.reload_of_ok answers hload]
    exact showsCurrent_refresh fun unlocked hunlocked => showsCurrent_promoted hkeeps
      (fun unlocked hunlocked => by simp at hunlocked) hunlocked

lemma showsCurrent_relock : model.relock.held.ShowsCurrent env := by
  refine .of_locked fun unlocked hunlocked => ?_
  have hsession : model.relock.held.session = model.session.relock := rfl
  rw [hsession] at hunlocked
  cases hbefore : model.session <;> rw [hbefore] at hunlocked <;> cases hunlocked

/-- After an operation, whether it succeeds or fails. -/
lemma showsCurrent_operated {unlocked : UnlockedSession} (hunlocked : model.session = .unlocked unlocked)
    (hkeeps : model.operationKeeps answers = true) :
    ({ model with session := .unlocked ⟨answers.operated.2, unlocked.identity⟩ }.refreshFromSession
      answers).held.ShowsCurrent env ∧
    ∀ error, answers.operated.1 = .error error →
      { model with session := .unlocked ⟨answers.operated.2, unlocked.identity⟩ }.held.ShowsCurrent
        env := by
  rw [Model.operationKeeps, hunlocked] at hkeeps
  obtain ⟨hreveal, hfields⟩ := Bool.and_eq_true_iff.mp hkeeps
  have hafter : ∀ other, SessionState.unlocked ⟨answers.operated.2, unlocked.identity⟩ =
      .unlocked other → revealHolds env model.reveal other = true := by
    rintro other ⟨⟩
    exact hreveal
  refine ⟨showsCurrent_refresh hafter, fun error herror => ⟨hafter, ?_⟩⟩
  rintro other ⟨⟩
  simpa [herror, Except.isOk, Except.toBool] using hfields

/-- An effect keeps what is shown current, if the session it leaves does. -/
theorem showsCurrent_runEffect {effect : Effect} (h : model.held.ShowsCurrent env)
    (hkeeps : (renewing env).run answers effect model) :
    (runEffect answers effect model).1.held.ShowsCurrent env := by
  cases effect with
  | reload => exact showsCurrent_reload hkeeps
  | getSecret selector purpose =>
    rw [runEffect, Model.getSecret]
    split
    next unlocked hunlocked =>
      split
      · exact h
      next error hread =>
        split
        · refine ⟨h.reveal, fun other hother => ?_⟩
          obtain rfl := SessionState.unlocked.inj (hunlocked.symm.trans hother)
          exact fieldsHold_unread hread
        · exact showsCurrent_relock
    · exact h
  | operate operation =>
    rw [runEffect, Model.operate]
    split
    next unlocked hunlocked =>
      obtain ⟨hrefreshed, hfailed⟩ := showsCurrent_operated hunlocked hkeeps
      split
      · exact hrefreshed
      next error herror => exact hfailed error herror
    · exact h
  | join bundle passphrase =>
    rw [runEffect, Model.join]
    split
    · exact h
    next rollbackProtected identity hjoined =>
      have hreload : answers.joined.toOption.all (fun joined =>
        (model.withCached joined.2).reloadKeeps answers) = true := hkeeps
      rw [hjoined] at hreload
      exact showsCurrent_reload hreload
  | init passphrase =>
    rw [runEffect, Model.init]
    split
    · exact h
    next hvault =>
      split
      · exact h
      next unlocked hinitialized =>
        have hinit : (answers.vaultExists || answers.initialized.toOption.all fun unlocked =>
          revealHolds env model.reveal unlocked) = true := hkeeps
        have hreveal : revealHolds env model.reveal unlocked = true := by
          simpa [hvault, hinitialized, Except.toOption] using hinit
        let started : Model env := { model with session := .unlocked unlocked }
        have hstarted : ∀ other, started.session = .unlocked other →
            revealHolds env started.reveal other = true := by
          rintro other ⟨⟩
          exact hreveal
        have hcurrent : (started.refreshFromSession answers).held.ShowsCurrent env :=
          showsCurrent_refresh hstarted
        exact hcurrent.of_shown rfl (.inl rfl) (.inl rfl)
  | acceptRollback key =>
    rw [runEffect, Model.acceptRollback]
    split
    · exact h
    · have hlocked : ∀ unlocked, SessionState.locked answers.operated.2 ≠ .unlocked unlocked := by
        simp
      split
      · exact showsCurrent_refresh fun unlocked hunlocked => absurd hunlocked (hlocked unlocked)
      · exact .of_locked hlocked
    next unlocked hunlocked =>
      obtain ⟨hrefreshed, hfailed⟩ := showsCurrent_operated hunlocked hkeeps
      split
      · exact hrefreshed
      next error herror => exact hfailed error herror
  | revealConflictCandidates picks =>
    rw [runEffect, Model.revealConflictCandidates]
    split
    · split
      · exact h
      · exact showsCurrent_relock
    · exact h
  | copyToClipboard | quit => exact h

lemma shown_toggleReveal :
    (model.toggleReveal.1.reveal = model.reveal ∨ model.toggleReveal.1.reveal = none) ∧
      model.toggleReveal.1.secretFields = model.secretFields := by
  rw [Model.toggleReveal]
  repeat' split
  all_goals try exact ⟨.inl rfl, rfl⟩
  · exact ⟨.inr rfl, rfl⟩
  · have hheld := model.held_requestGet .reveal
    exact ⟨.inl (congrArg Held.reveal hheld), congrArg Held.secretFields hheld⟩

/-- Inputs show nothing. -/
lemma shown_handle (model : Model env) (answers : Answers) {message : Message} (hlocks : message.locks = false)
    (houtcome : message.isOutcome = false) :
    ((model.handle answers message).1.reveal = model.reveal ∨
      (model.handle answers message).1.reveal = none) ∧
    (model.handle answers message).1.secretFields = model.secretFields := by
  by_cases hshows : message.shows = false
  · have hheld := model.held_handle answers hlocks hshows
    exact ⟨.inl (congrArg Held.reveal hheld), congrArg Held.secretFields hheld⟩
  · cases message with
    | reveal => exact shown_toggleReveal
    | hideReveal => exact ⟨.inr rfl, rfl⟩
    | secretRevealed | secretFieldsLoaded => simp [Message.isOutcome] at houtcome
    | _ => simp [Message.shows] at hshows

lemma showsCurrent_handle {message : Message} (h : model.held.ShowsCurrent env)
    (hlocks : message.locks = false) (houtcome : message.isOutcome = false) :
    (model.handle answers message).1.held.ShowsCurrent env := by
  obtain ⟨hreveal, hfields⟩ := shown_handle model answers hlocks houtcome
  have hsession : (model.handle answers message).1.session = model.session :=
    congrArg Held.session (model.unseen_handle answers hlocks)
  exact h.of_shown hsession hreveal (.inl hfields)

lemma showsCurrent_tick (h : model.held.ShowsCurrent env) :
    (model.tick answers).1.held.ShowsCurrent env := by
  by_cases hidle : model.Idle
  · rw [model.held_tick_of_idle answers hidle]
    exact showsCurrent_relock
  · rw [model.held_tick_of_not_idle answers hidle]
    refine h.of_shown rfl ?_ (.inl rfl)
    cases hreveal : model.reveal with
    | none => exact .inl (by simp [Model.expireReveals, hreveal])
    | some shown =>
      by_cases hexpired : model.now < shown.expiresAt
      · exact .inl (by simp [Model.expireReveals, hreveal, hexpired])
      · exact .inr (by simp [Model.expireReveals, hreveal, Nat.le_of_not_lt hexpired])

/-- A session whose identity was locked in the promotion is not bound to one. -/
lemma not_unlocked_of_locked {identity : MemberIdentity} (hcached : model.unlockSession = some identity)
    (hlocked : (model.promoteSessionIfUnlocked answers).isLocked = true) (unlocked : UnlockedSession) :
    (model.promoteSessionIfUnlocked answers).session ≠ .unlocked unlocked := by
  rw [Model.isLocked, Option.isNone_iff_eq_none] at hlocked
  obtain ⟨-, heq⟩ | ⟨_, _, _, -, -, heq⟩ | ⟨_, _, _, -, -, heq⟩ := model.promote_cases answers
  · rw [heq, hcached] at hlocked
    simp at hlocked
  · rw [heq] at hlocked
    simp [hcached] at hlocked
  · have hsession : (model.promoteSessionIfUnlocked answers).session = Model.reloadedSession answers :=
      congrArg Held.session heq
    rw [hsession, Model.reloadedSession]
    split <;> simp

lemma showsCurrent_unlockSubmit (h : model.held.ShowsCurrent env)
    (hkeeps : ∀ identity, answers.unlocked = .ok identity →
      { model with unlockSession := some identity }.promotionKeeps answers = true) :
    (model.unlockSubmit answers).held.ShowsCurrent env := by
  rw [Model.unlockSubmit]
  split
  · exact h.of_shown rfl (.inl rfl) (.inl rfl)
  · exact h.of_shown rfl (.inl rfl) (.inl rfl)
  · split
    · exact h.of_shown rfl (.inl rfl) (.inl rfl)
    next identity hunlocked =>
      let cached : Model env := { model with unlockInput := "", unlockSession := some identity }
      have hcached : cached.promotionKeeps answers = true := hkeeps identity hunlocked
      have hpromoted : ∀ unlocked, (cached.promoteSessionIfUnlocked answers).session =
          .unlocked unlocked →
          revealHolds env (cached.promoteSessionIfUnlocked answers).reveal unlocked = true :=
        fun unlocked => showsCurrent_promoted hcached h.reveal
      dsimp only
      split
      next hlocked =>
        have hidentity : cached.unlockSession = some identity := rfl
        exact .of_locked (not_unlocked_of_locked hidentity hlocked)
      · exact showsCurrent_refresh hpromoted

/-- A message that is no outcome keeps what is shown current. -/
theorem showsCurrent_update (entry : Entry Message Answers) (h : model.held.ShowsCurrent env)
    (houtcome : entry.message.isOutcome = false) (hkeeps : (renewing env).update entry model) :
    (update entry.answers entry.message model).1.held.ShowsCurrent env := by
  obtain ⟨origin, answers, message⟩ := entry
  have htouched : (model.touch answers message).held.ShowsCurrent env :=
    h.of_shown rfl (.inl rfl) (.inl rfl)
  cases hlocks : message.locks with
  | false =>
    rw [update]
    split
    next resolved hresolved =>
      exact showsCurrent_handle htouched (Model.locks_of_resolve _ answers hresolved hlocks)
        (isOutcome_of_resolve hresolved houtcome)
    next =>
      dsimp only
      rw [Model.held_click]
      exact htouched
  | true =>
    cases message with
    | lockNow => exact showsCurrent_relock
    | tick => exact showsCurrent_tick htouched
    | unlockSubmit =>
      refine showsCurrent_unlockSubmit htouched fun identity hidentity => ?_
      have hunlock := hkeeps.2
      dsimp only at hunlock
      rw [hidentity] at hunlock
      exact hunlock
    | _ => simp [Message.locks] at hlocks

/-- A message that shows nothing, and stands for itself. -/
lemma showsCurrent_silent {message : Message} (h : model.held.ShowsCurrent env)
    (hresolve : (model.touch answers message).resolve answers message = some message)
    (hlocks : message.locks = false) (hshows : message.shows = false) :
    (update answers message model).1.held.ShowsCurrent env := by
  rw [update, hresolve]
  dsimp only
  rw [Model.held_handle _ answers hlocks hshows]
  exact h.of_shown rfl (.inl rfl) (.inl rfl)

/-- A value that was just read is current. -/
lemma showsCurrent_opened {unlocked : UnlockedSession} {selector : SecretSelectorV1}
    {plaintext : SecretPlaintext} (h : model.held.ShowsCurrent env)
    (hsession : model.session = .unlocked unlocked)
    (hread : unlocked.getSecret env selector = .ok plaintext) (purpose : GetPurpose) :
    (update answers (opened selector plaintext purpose) model).1.held.ShowsCurrent env := by
  have hsame : ∀ other, model.session = .unlocked other → other = unlocked := fun other hother =>
    SessionState.unlocked.inj (hother.symm.trans hsession)
  cases purpose with
  | reveal =>
    refine ⟨fun other hother => ?_, h.fields⟩
    rw [hsame other hother]
    let shown : Reveal := ⟨selector, plaintext.plaintext, isUtf8 plaintext.plaintext,
      answers.now + fromSecs revealSecs⟩
    have hshown : revealHolds env (some shown) unlocked = true := (revealHolds_some hread).mpr rfl
    exact hshown
  | fields =>
    refine ⟨h.reveal, fun other hother => ?_⟩
    rw [hsame other hother]
    let loaded : SecretFields := ⟨selector, loadedFields plaintext⟩
    have hloaded : fieldsHold env (some loaded) unlocked = true := (fieldsHold_some hread).mpr rfl
    exact hloaded
  | copy => exact h.of_shown rfl (.inl rfl) (.inl rfl)
  | edit =>
    rw [opened]
    split
    · exact showsCurrent_silent h rfl rfl rfl
    · exact showsCurrent_silent h rfl rfl rfl

/-- The message that an effect ends in keeps what is shown current. -/
theorem showsCurrent_outcome {effect : Effect} {message : Message}
    (houtcome : (runEffect answers effect model).2 = some message)
    (h : (runEffect answers effect model).1.held.ShowsCurrent env) (later : Answers) :
    (update later message (runEffect answers effect model).1).1.held.ShowsCurrent env := by
  obtain ⟨⟨unlocked, selector, purpose, plaintext, hreads⟩, hsame⟩ | hreport :=
    runEffect_cases houtcome
  · rw [hsame] at h ⊢
    rw [hreads.message]
    exact showsCurrent_opened h hreads.session hreads.read purpose
  · cases message with
    | conflictCandidatesRevealed | opFailed | opOk | showBundle =>
      exact showsCurrent_silent h rfl rfl rfl
    | _ => simp [Message.isReport] at hreport

/-! ### Runs -/

lemma showsCurrent_load (started : Answers) : (Model.load env started).held.ShowsCurrent env := by
  have hreload : (Model.load env started).held =
      ((Model.blank env started.now).reload started).held := rfl
  rw [hreload]
  refine showsCurrent_reload ?_
  rw [Model.reloadKeeps]
  split
  · rfl
  · rfl

/-- In a run in which no session is replaced by one that reads another value where one is revealed,
what is revealed and what is loaded is always what the session reads. -/
theorem revealsCurrent {env : Env} {started : Answers} {log : List (Entry Message Answers)}
    {state : State (Model env) Effect}
    (h : Runs (eventLoop env) (renewing env) ⟨Model.load env started, []⟩ log state)
    {unlocked : UnlockedSession} (hunlocked : state.model.session = .unlocked unlocked) :
    (∀ reveal plaintext, state.model.reveal = some reveal →
      unlocked.getSecret env reveal.selector = .ok plaintext →
      reveal.plaintext = plaintext.plaintext) ∧
    (∀ loaded plaintext, state.model.secretFields = some loaded →
      unlocked.getSecret env loaded.selector = .ok plaintext →
      loaded.fields = loadedFields plaintext) := by
  have hcurrent : state.model.held.ShowsCurrent env := by
    refine h.invariant_outcomes (P := fun model => model.held.ShowsCurrent env)
      (showsCurrent_load started) ?_ ?_ ?_
    · intro input message answers model hmessage hguard hmodel
      exact showsCurrent_update ⟨.input, answers, message⟩ hmodel (isOutcome_input hmessage) hguard
    · intro answers effect model hguard hmodel
      exact showsCurrent_runEffect hmodel hguard
    · intro answers later effect message model houtcome _ _ _ hafter
      exact showsCurrent_outcome houtcome hafter later
  refine ⟨fun reveal plaintext hreveal hread => ?_, fun loaded plaintext hloaded hread => ?_⟩
  · have hholds := hcurrent.reveal unlocked hunlocked
    rw [Model.held_reveal, hreveal] at hholds
    exact (revealHolds_some hread).mp hholds
  · have hholds := hcurrent.fields unlocked hunlocked
    rw [Model.held_secretFields, hloaded] at hholds
    exact (fieldsHold_some hread).mp hholds

/-! ### A value that is superseded -/

section Examples

open TestSupport

/-- The vault is unlocked, and its secret selected and revealed. -/
def revealedMoves : List (Move Input Answers) :=
  let first := answersOf firstSession 0 1
  [.input (press (.char 'p')) first, .input (press .enter) first, .input (press .down) first,
    .settle, .effect first first, .input (press (.char 'r')) first, .effect first first]

/-- The same value has been written again. -/
def rewrittenSession : LockedSession :=
  appSession [appRecord firstValue 0, appRecord firstValue 1]

/-- The value is written again by another process, and the next tick reloads the vault. -/
def rewrittenMoves : List (Move Input Answers) :=
  let second := answersOf rewrittenSession 2 (fromSecs 3)
  revealedMoves ++ [.input .tick second, .effect second second, .settle, .effect second second]

/-- Another value is written, and the next tick reloads the vault. -/
def supersededMoves : List (Move Input Answers) :=
  let second := answersOf secondSession 2 (fromSecs 3)
  revealedMoves ++ [.input .tick second, .effect second second, .settle, .effect second second]

/-- What is revealed, and what the session reads there. -/
def shownAndRead (model : Model testEnv) : Option (Bytes × Bytes) :=
  match model.session, model.reveal with
  | .unlocked unlocked, some reveal =>
    match unlocked.getSecret testEnv reveal.selector with
    | .ok plaintext => some (reveal.plaintext, plaintext.plaintext)
    | .error _ => none
  | _, _ => none

lemma exists_of_shownAndRead {model : Model testEnv} {shown read : Bytes}
    (h : shownAndRead model = some (shown, read)) : ∃ unlocked reveal plaintext,
      model.session = .unlocked unlocked ∧ model.reveal = some reveal ∧
        unlocked.getSecret testEnv reveal.selector = .ok plaintext ∧
        reveal.plaintext = shown ∧ plaintext.plaintext = read := by
  rw [shownAndRead] at h
  split at h
  next unlocked reveal hunlocked hreveal =>
    split at h
    next plaintext hread =>
      simp only [Option.some.injEq, Prod.mk.injEq] at h
      exact ⟨unlocked, reveal, plaintext, hunlocked, hreveal, hread, h.1, h.2⟩
    · simp at h
  · simp at h

def unlockedVault (model : Model testEnv) : Option VaultStore :=
  match model.session with
  | .unlocked unlocked => some unlocked.session.vault
  | _ => none

/-- The session is replaced while a value is revealed, which stays on screen and current. -/
theorem revealsCurrent_revealed : ∃ log state unlocked reveal plaintext,
    Runs (eventLoop testEnv) (renewing testEnv) (startOf firstSession) log state ∧
      state.model.session = .unlocked unlocked ∧
      unlocked.session.vault = rewrittenSession.vault ∧ state.model.reveal = some reveal ∧
      unlocked.getSecret testEnv reveal.selector = .ok plaintext ∧
      reveal.plaintext = plaintext.plaintext := by
  obtain ⟨log, state, hruns, hstate, hvault⟩ := exists_run_of_play
    (P := fun _ state => shownAndRead state.model = some (asciiBytes "one", asciiBytes "one") ∧
      unlockedVault state.model = some rewrittenSession.vault)
    (show (play (eventLoop testEnv) (renewing testEnv) rewrittenMoves (startOf firstSession)).any _ =
      true by decide +kernel)
  obtain ⟨unlocked, reveal, plaintext, hunlocked, hreveal, hread, -, -⟩ :=
    exists_of_shownAndRead hstate
  rw [unlockedVault, hunlocked] at hvault
  exact ⟨log, state, unlocked, reveal, plaintext, hruns, hunlocked, Option.some.inj hvault, hreveal,
    hread, (revealsCurrent hruns hunlocked).1 reveal plaintext hreveal hread⟩

/-- The value on screen is the one before the reload, and the session reads another one. -/
theorem superseded_shown : ∃ log state unlocked reveal plaintext,
    Runs (eventLoop testEnv) (steady testEnv) (startOf firstSession) log state ∧
      state.Drained (eventLoop testEnv) ∧ state.model.session = .unlocked unlocked ∧
      state.model.reveal = some reveal ∧
      unlocked.getSecret testEnv reveal.selector = .ok plaintext ∧
      reveal.plaintext = asciiBytes "one" ∧ plaintext.plaintext = asciiBytes "two" := by
  obtain ⟨log, state, hruns, hdrained, hstate⟩ := exists_run_of_play
    (P := fun _ state => (state.pending = [] ∧ state.model.fieldsSyncEffect = none) ∧
      shownAndRead state.model = some (asciiBytes "one", asciiBytes "two"))
    (show (play (eventLoop testEnv) (steady testEnv) supersededMoves (startOf firstSession)).any _ =
      true by decide +kernel)
  obtain ⟨unlocked, reveal, plaintext, hunlocked, hreveal, hread, hshown, hcurrent⟩ :=
    exists_of_shownAndRead hstate
  exact ⟨log, state, unlocked, reveal, plaintext, hruns, hdrained, hunlocked, hreveal, hread, hshown,
    hcurrent⟩

end Examples

end Thorax.Tui
