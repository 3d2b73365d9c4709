import Thorax.Tui.Effects

/-!
# What a step leaves alone

The session, the cached identity and the values on screen are touched by few messages. Every other
message leaves them as they are, and an effect touches them only where it locks the session or derives
the model from it again.
-/

namespace Thorax.Tui

/-- What the model holds of the vault, and the times it goes by. -/
structure Held where
  session : SessionState
  unlockSession : Option MemberIdentity
  reveal : Option Reveal
  secretFields : Option SecretFields
  now : Instant
  lastActive : Instant

/-- Messages that may change the session or the cached identity. -/
def Message.locks : Message → Bool
  | .tick | .lockNow | .unlockSubmit => true
  | _ => false

/-- Messages that show or hide a value, and leave the session alone. -/
def Message.shows : Message → Bool
  | .reveal | .hideReveal | .secretRevealed _ _ _ _ | .secretFieldsLoaded _ _ => true
  | _ => false

/-- A locked session without issues beside a cached identity. -/
structure Model.Promotes {env : Env} (model : Model env) (session : LockedSession)
    (identity : MemberIdentity) : Prop where
  locked : model.session = .locked session
  cached : model.unlockSession = some identity
  clean : session.report.issues = []

lemma ButtonAction.locks_intoMessage (button : ButtonAction) : button.intoMessage.locks = false := by
  cases button <;> rfl

namespace Model

variable {env : Env} (self : Model env) (answers : Answers)

def held : Held :=
  ⟨self.session, self.unlockSession, self.reveal, self.secretFields, self.now, self.lastActive⟩

@[simp] lemma held_session : self.held.session = self.session := rfl
@[simp] lemma held_unlockSession : self.held.unlockSession = self.unlockSession := rfl
@[simp] lemma held_reveal : self.held.reveal = self.reveal := rfl
@[simp] lemma held_secretFields : self.held.secretFields = self.secretFields := rfl
@[simp] lemma held_now : self.held.now = self.now := rfl
@[simp] lemma held_lastActive : self.held.lastActive = self.lastActive := rfl

/-! ### Handlers of input -/

lemma held_requestGet (purpose : GetPurpose) : (self.requestGet purpose).1.held = self.held := by
  rw [requestGet]
  repeat' split
  all_goals rfl

lemma held_startRelabel : self.startRelabel.held = self.held := by
  rw [startRelabel]
  split <;> rfl

lemma held_startNewSecret : self.startNewSecret.held = self.held := by
  rw [startNewSecret]
  split <;> rfl

lemma held_requestDeleteSecret : self.requestDeleteSecret.held = self.held := by
  rw [requestDeleteSecret]
  split <;> rfl

lemma held_editorKey (key : KeyEvent) : (self.editorKey key).held = self.held := by
  rw [editorKey]
  split <;> rfl

lemma held_editorSubmit : self.editorSubmit.1.held = self.held := by
  rw [editorSubmit]
  split <;> rfl

lemma held_requestResolveConflict : self.requestResolveConflict.held = self.held := by
  rw [requestResolveConflict]
  split <;> rfl

lemma held_requestAcceptRollback : self.requestAcceptRollback.held = self.held := by
  rw [requestAcceptRollback]
  repeat' split
  all_goals rfl

lemma held_startSetFresh : self.startSetFresh.held = self.held := by
  rw [startSetFresh]
  repeat' split
  all_goals rfl

lemma held_openPicker (picked : Except Status env.Picker) :
    (self.openPicker picked).held = self.held := by
  cases picked <;> rfl

lemma held_startAddMember : self.startAddMember.held = self.held := by
  rw [startAddMember]
  split <;> rfl

lemma held_openFacetFilter : self.openFacetFilter.held = self.held := by
  rw [openFacetFilter]
  split
  · exact self.held_openPicker _
  · rfl

lemma held_pickerKey (key : KeyEvent) : (self.pickerKey key).1.held = self.held := by
  rw [pickerKey]
  repeat' split
  all_goals rfl

lemma held_requestUserDelete : self.requestUserDelete.held = self.held := by
  rw [requestUserDelete]
  repeat' split
  all_goals rfl

lemma held_requestAccessDelete : self.requestAccessDelete.held = self.held := by
  rw [requestAccessDelete]
  split <;> rfl

lemma held_copyInviteBundle : self.copyInviteBundle.1.held = self.held := by
  rw [copyInviteBundle]
  split <;> rfl

lemma held_confirmYes : self.confirmYes.1.held = self.held := by
  rw [confirmYes]
  split <;> rfl

lemma held_initSubmit : self.initSubmit.1.held = self.held := by
  rw [initSubmit]
  split <;> rfl

lemma held_navigate (motion : Motion) : (self.navigate motion).held = self.held := by
  rw [navigate]
  split <;> rfl

lemma held_submitForm (form : Form) : (self.submitForm form).1.held = self.held := by
  rw [submitForm]
  split
  · rw [submitNewSecret]
    split <;> rfl
  · rw [submitClaim]
    split_ifs <;> rfl
  · rw [submitNamed]
    split <;> rfl
  · rw [submitNamed]
    split <;> rfl
  · rw [submitRelabel]
    repeat' split
    all_goals rfl

lemma held_formKey (key : KeyEvent) : (self.formKey key).1.held = self.held := by
  rw [formKey]
  split
  · split
    · exact self.held_submitForm _
    · rfl
  · rfl

lemma held_click (message : Message) : (self.click message).held = self.held := by
  rw [click.eq_def]
  split <;> rfl

/-- Most messages leave what is held alone. -/
theorem held_handle {message : Message} (hlocks : message.locks = false)
    (hshows : message.shows = false) : (self.handle answers message).1.held = self.held := by
  cases message with
  | tick | lockNow | unlockSubmit => simp [Message.locks] at hlocks
  | reveal | hideReveal | secretRevealed | secretFieldsLoaded => simp [Message.shows] at hshows
  | navigate motion => exact self.held_navigate motion
  | copy | startEdit => exact self.held_requestGet _
  | startRelabel => exact self.held_startRelabel
  | startNewSecret => exact self.held_startNewSecret
  | requestDeleteSecret => exact self.held_requestDeleteSecret
  | requestResolveConflict => exact self.held_requestResolveConflict
  | requestAcceptRollback => exact self.held_requestAcceptRollback
  | startSetFresh => exact self.held_startSetFresh
  | initSubmit => exact self.held_initSubmit
  | startGrant => exact self.held_openPicker _
  | startAddMember => exact self.held_startAddMember
  | pickerKey key => exact self.held_pickerKey key
  | requestUserDelete => exact self.held_requestUserDelete
  | requestAccessDelete => exact self.held_requestAccessDelete
  | openFacetFilter => exact self.held_openFacetFilter
  | copyInviteBundle => exact self.held_copyInviteBundle
  | confirmYes => exact self.held_confirmYes
  | editorKey key => exact self.held_editorKey key
  | editorSubmit => exact self.held_editorSubmit
  | formKey key => exact self.held_formKey key
  | _ => rfl

/-! ### Values shown and hidden -/

/-- What a model holds besides the values on screen. -/
def unseen : Held := { self.held with reveal := none, secretFields := none }

lemma unseen_of_held {after : Model env} (h : after.held = self.held) : after.unseen = self.unseen := by
  rw [unseen, unseen, h]

lemma unseen_toggleReveal : self.toggleReveal.1.unseen = self.unseen := by
  rw [toggleReveal]
  repeat' split
  all_goals try rfl
  exact self.unseen_of_held (self.held_requestGet .reveal)

/-- Only three messages change more than the values on screen. -/
theorem unseen_handle {message : Message} (hlocks : message.locks = false) :
    (self.handle answers message).1.unseen = self.unseen := by
  by_cases hshows : message.shows = false
  · exact self.unseen_of_held (self.held_handle answers hlocks hshows)
  · cases message with
    | reveal => exact self.unseen_toggleReveal
    | hideReveal | secretFieldsLoaded => rfl
    | secretRevealed selector plaintext isUtf8 copy =>
      rw [handle, secretRevealed]
      split <;> rfl
    | _ => simp [Message.shows] at hshows

/-! ### Ticks -/

@[simp] lemma held_clearClipboard : self.clearClipboard.1.held = self.held := by
  rw [clearClipboard]
  repeat' split
  all_goals rfl

@[simp] lemma held_probeFreshness : (self.probeFreshness answers).1.held = self.held := by
  rw [probeFreshness]
  split <;> rfl

@[simp] lemma held_armStatus : self.armStatus.held = self.held := by
  rw [armStatus]
  split <;> rfl

@[simp] lemma held_dismissStatus : self.dismissStatus.held = self.held := by
  rw [dismissStatus]
  split <;> rfl

/-- Whether the model is idle, once the clipboard has been cleared. -/
lemma idle_cleared : self.expireReveals.clearClipboard.1.Idle ↔ self.Idle := by
  have hheld := self.expireReveals.held_clearClipboard
  have hunlock : self.expireReveals.clearClipboard.1.unlockSession = self.unlockSession :=
    congrArg Held.unlockSession hheld
  have hnow : self.expireReveals.clearClipboard.1.now = self.now := congrArg Held.now hheld
  have hactive : self.expireReveals.clearClipboard.1.lastActive = self.lastActive :=
    congrArg Held.lastActive hheld
  rw [Idle, Idle, isLocked, isLocked, hunlock, hnow, hactive]

lemma held_tick_of_idle (h : self.Idle) :
    (self.tick answers).1.held = self.relock.held := by
  have hheld := self.expireReveals.held_clearClipboard
  rw [tick, held_dismissStatus, held_armStatus, held_probeFreshness, relockIdle,
    if_pos (self.idle_cleared.mpr h)]
  exact congrArg (fun held : Held =>
    (⟨held.session.relock, none, none, none, held.now, held.lastActive⟩ : Held)) hheld

lemma held_tick_of_not_idle (h : ¬ self.Idle) :
    (self.tick answers).1.held = self.expireReveals.held := by
  rw [tick, held_dismissStatus, held_armStatus, held_probeFreshness, relockIdle,
    if_neg (mt self.idle_cleared.mp h), held_clearClipboard]

/-! ### Derived from the session -/

lemma held_resolveActing (report : ValidationReport) :
    (self.resolveActing report answers).held = self.held := by
  rw [resolveActing]
  split <;> rfl

lemma held_reproject : self.reproject.held = self.held := by
  rw [reproject]
  split <;> rfl

lemma held_derive (session : LockedSession) : (self.derive session answers).held = self.held := by
  rw [derive, held_reproject]
  exact held_resolveActing _ answers _

lemma held_settleSelection : self.settleSelection.held = { self.held with secretFields := none } := by
  rw [settleSelection]
  split <;> rfl

lemma refreshFromSession_of_none (h : self.session = .none) :
    self.refreshFromSession answers = self := by
  rw [refreshFromSession, h]
  rfl

/-- The fields are dropped, the reveal is not. -/
lemma held_refreshFromSession (h : self.session.existsSession = true) :
    (self.refreshFromSession answers).held = { self.held with secretFields := none } := by
  cases hsession : self.session with
  | none => simp [hsession, SessionState.existsSession] at h
  | locked session | unlocked session =>
    rw [refreshFromSession, hsession]
    dsimp only [SessionState.session?]
    rw [held_settleSelection, held_derive]

lemma held_refreshFromSession_eq : (self.refreshFromSession answers).held =
    { self.held with secretFields := (self.refreshFromSession answers).secretFields } := by
  cases hexists : self.session.existsSession with
  | true =>
    have hheld := self.held_refreshFromSession answers hexists
    have hfields : (self.refreshFromSession answers).secretFields = none :=
      congrArg Held.secretFields hheld
    rw [hheld, hfields]
  | false =>
    have hnone : self.session = .none := by
      cases hsession : self.session <;> simp_all [SessionState.existsSession]
    rw [self.refreshFromSession_of_none answers hnone]
    rfl

lemma session_refreshFromSession : (self.refreshFromSession answers).session = self.session :=
  congrArg Held.session (self.held_refreshFromSession_eq answers)

lemma unlockSession_refreshFromSession :
    (self.refreshFromSession answers).unlockSession = self.unlockSession :=
  congrArg Held.unlockSession (self.held_refreshFromSession_eq answers)

/-! ### Promotion -/

/-- A session after a failed promotion. -/
def reloadedSession (answers : Answers) : SessionState :=
  match answers.reloaded with
  | .ok session => .locked session
  | .error _ => .none

/-- Promotion does nothing, binds the session, or locks the identity. -/
theorem promote_cases :
    (∀ session identity, ¬ self.Promotes session identity) ∧
        self.promoteSessionIfUnlocked answers = self ∨
      (∃ session identity attested, self.Promotes session identity ∧ answers.attested = .ok attested ∧
        self.promoteSessionIfUnlocked answers =
          { self with session := .unlocked ⟨attested, identity⟩ }) ∨
      ∃ session identity error, self.Promotes session identity ∧ answers.attested = .error error ∧
        (self.promoteSessionIfUnlocked answers).held =
          { self.held with session := reloadedSession answers, unlockSession := none } := by
  rw [promoteSessionIfUnlocked]
  split
  next session identity hsession hidentity =>
    split
    next hclean =>
      have hpromotes : self.Promotes session identity := ⟨hsession, hidentity, hclean⟩
      split
      next attested hattested =>
        exact .inr (.inl ⟨session, identity, attested, hpromotes, hattested, rfl⟩)
      next error hattested =>
        refine .inr (.inr ⟨session, identity, error, hpromotes, hattested, ?_⟩)
        cases hreloaded : answers.reloaded <;> simp only [held, reloadedSession, hreloaded]
    next hissues =>
      refine .inl ⟨fun session' identity' h => hissues ?_, rfl⟩
      have heq : session = session' := by simpa [hsession] using h.locked
      exact heq ▸ h.clean
  next hother =>
    exact .inl ⟨fun session identity h => hother session identity h.locked h.cached, rfl⟩

lemma held_promote : (self.promoteSessionIfUnlocked answers).held =
    { self.held with
      session := (self.promoteSessionIfUnlocked answers).session
      unlockSession := (self.promoteSessionIfUnlocked answers).unlockSession } := by
  obtain ⟨-, h⟩ | ⟨_, _, _, -, -, h⟩ | ⟨_, _, _, -, -, h⟩ := self.promote_cases answers
  · rw [h]
    rfl
  · rw [h]
    rfl
  · have hsession := congrArg Held.session h
    have hunlock := congrArg Held.unlockSession h
    rw [held_session] at hsession
    rw [held_unlockSession] at hunlock
    rw [h, hsession, hunlock]

/-- Nothing is cached where nothing was. -/
lemma unlockSession_promote (h : self.unlockSession = none) :
    (self.promoteSessionIfUnlocked answers).unlockSession = none := by
  obtain ⟨-, heq⟩ | ⟨_, _, _, hpromotes, -, -⟩ | ⟨_, _, _, hpromotes, -, -⟩ :=
    self.promote_cases answers
  · rw [heq, h]
  · exact absurd (h.symm.trans hpromotes.cached) (by simp)
  · exact absurd (h.symm.trans hpromotes.cached) (by simp)

/-- A failed load leaves no session. -/
lemma held_reload_of_error {error : OpsError} (h : answers.load = .error error) :
    (self.reload answers).held = { self.held with session := .none } := by
  rw [reload, h]
  dsimp only
  split <;> rfl

lemma reload_of_ok {session : LockedSession} (h : answers.load = .ok session) :
    self.reload answers =
      ({ self with session := .locked session }.promoteSessionIfUnlocked answers).refreshFromSession
        answers := by
  rw [reload, h]

lemma held_reload : (self.reload answers).held =
    { self.held with
      session := (self.reload answers).session
      unlockSession := (self.reload answers).unlockSession
      secretFields := (self.reload answers).secretFields } := by
  cases hload : answers.load with
  | error error =>
    have hheld := self.held_reload_of_error answers hload
    have hsession := congrArg Held.session hheld
    have hunlock := congrArg Held.unlockSession hheld
    have hfields := congrArg Held.secretFields hheld
    simp only [held_session, held_unlockSession, held_secretFields] at hsession hunlock hfields
    rw [hheld, hsession, hunlock, hfields]
    rfl
  | ok session =>
    rw [self.reload_of_ok answers hload, held_refreshFromSession_eq, held_promote]
    rw [session_refreshFromSession, unlockSession_refreshFromSession]
    rfl

lemma unlockSession_reload (h : self.unlockSession = none) :
    (self.reload answers).unlockSession = none := by
  cases hload : answers.load with
  | error error =>
    exact (congrArg Held.unlockSession (self.held_reload_of_error answers hload)).trans h
  | ok session =>
    rw [self.reload_of_ok answers hload, unlockSession_refreshFromSession]
    exact unlockSession_promote _ answers h

/-! ### Updates -/

lemma locks_of_resolve {message resolved : Message} (h : self.resolve answers message = some resolved)
    (hlocks : message.locks = false) : resolved.locks = false := by
  cases message with
  | activateButton | mouseClick =>
    obtain ⟨button, -, rfl⟩ := Option.map_eq_some_iff.mp h
    exact button.locks_intoMessage
  | _ =>
    obtain rfl := Option.some.inj h
    exact hlocks

end Model

variable {env : Env} (model : Model env) (answers : Answers)

lemma unseen_update {message : Message} (hlocks : message.locks = false) :
    (update answers message model).1.unseen = (model.touch answers message).unseen := by
  rw [update]
  split
  next resolved hresolved =>
    exact (model.touch answers message).unseen_handle answers
      (Model.locks_of_resolve _ answers hresolved hlocks)
  next => exact Model.unseen_of_held _ ((model.touch answers message).held_click message)

theorem session_update {message : Message} (hlocks : message.locks = false) :
    (update answers message model).1.session = model.session ∧
      (update answers message model).1.unlockSession = model.unlockSession := by
  have hunseen := unseen_update model answers hlocks
  exact ⟨congrArg Held.session hunseen, congrArg Held.unlockSession hunseen⟩

end Thorax.Tui
