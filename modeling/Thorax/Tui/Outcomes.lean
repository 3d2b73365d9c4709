import Thorax.Tui.Frames

/-!
# What effects end in

The messages of effects are apart from those of keys and clicks: an effect ends in a message about a
value or about an operation, and no input is such a message.
-/

namespace Thorax.Tui

variable {env : Env} {model : Model env} {answers : Answers}

/-- Messages that an effect ends in. -/
def Message.isOutcome : Message → Bool
  | .secretRevealed _ _ _ _ | .secretForEdit _ _ | .secretFieldsLoaded _ _
  | .conflictCandidatesRevealed _ | .opFailed _ | .opOk _ | .showBundle _ => true
  | _ => false

/-- Messages about an operation or about candidates. -/
def Message.isReport : Message → Bool
  | .conflictCandidatesRevealed _ | .opFailed _ | .opOk _ | .showBundle _ => true
  | _ => false

lemma isOutcome_opened (selector : SecretSelectorV1) (plaintext : SecretPlaintext)
    (purpose : GetPurpose) : (opened selector plaintext purpose).isOutcome = true := by
  cases purpose with
  | edit =>
    rw [opened]
    split <;> rfl
  | reveal | copy | fields => rfl

lemma isReport_succeeded (count : ℕ) (encoded : String) (operation : Operation) :
    (model.succeeded count encoded operation).isReport = true := by
  cases operation <;> rfl

/-- A read of a secret that has succeeded. -/
structure Reads (model : Model env) (effect : Effect) (message : Message) (unlocked : UnlockedSession)
    (selector : SecretSelectorV1) (purpose : GetPurpose) (plaintext : SecretPlaintext) : Prop where
  effect : effect = .getSecret selector purpose
  session : model.session = .unlocked unlocked
  read : unlocked.getSecret env selector = .ok plaintext
  message : message = opened selector plaintext purpose

/-- An effect ends in a value that the session reads, or in a report. -/
theorem runEffect_cases {effect : Effect} {message : Message}
    (h : (runEffect answers effect model).2 = some message) :
    ((∃ unlocked selector purpose plaintext,
        Reads model effect message unlocked selector purpose plaintext) ∧
      (runEffect answers effect model).1 = model) ∨ message.isReport = true := by
  have hfailed : ∀ error, env.failed error = some message → message.isReport = true := by
    rintro error ⟨⟩
    rfl
  cases effect with
  | reload | quit => simp [runEffect] at h
  | copyToClipboard bytes =>
    simp only [runEffect] at h
    split at h
    · simp at h
    · exact .inr (hfailed _ h)
  | getSecret selector purpose =>
    rw [runEffect, Model.getSecret] at h
    split at h
    next unlocked hunlocked =>
      split at h
      next plaintext hread =>
        refine .inl ⟨⟨unlocked, selector, purpose, plaintext, rfl, hunlocked, hread,
          (Option.some.inj h).symm⟩, ?_⟩
        rw [runEffect, Model.getSecret, hunlocked]
        simp only [hread]
      · split at h
        · simp at h
        · exact .inr (hfailed _ h)
    · dsimp only at h
      split at h
      · simp at h
      · obtain rfl := Option.some.inj h
        exact .inr rfl
  | operate operation =>
    rw [runEffect, Model.operate] at h
    split at h
    · split at h
      · obtain rfl := Option.some.inj h
        exact .inr (isReport_succeeded ..)
      · exact .inr (hfailed _ h)
    · obtain rfl := Option.some.inj h
      exact .inr rfl
  | join bundle passphrase =>
    rw [runEffect, Model.join] at h
    split at h
    · exact .inr (hfailed _ h)
    · obtain rfl := Option.some.inj h
      exact .inr rfl
  | init passphrase =>
    rw [runEffect, Model.init] at h
    split at h
    · obtain rfl := Option.some.inj h
      exact .inr rfl
    · split at h
      · exact .inr (hfailed _ h)
      · obtain rfl := Option.some.inj h
        exact .inr rfl
  | acceptRollback key =>
    rw [runEffect, Model.acceptRollback] at h
    split at h
    · obtain rfl := Option.some.inj h
      exact .inr rfl
    · split at h
      · obtain rfl := Option.some.inj h
        exact .inr rfl
      · exact .inr (hfailed _ h)
    · split at h
      · obtain rfl := Option.some.inj h
        exact .inr rfl
      · exact .inr (hfailed _ h)
  | revealConflictCandidates picks =>
    rw [runEffect, Model.revealConflictCandidates] at h
    split at h
    · split at h
      · obtain rfl := Option.some.inj h
        exact .inr rfl
      · exact .inr (hfailed _ h)
    · obtain rfl := Option.some.inj h
      exact .inr rfl

/-- What an effect ends in is a message about it. -/
theorem isOutcome_runEffect {effect : Effect} {message : Message}
    (h : (runEffect answers effect model).2 = some message) : message.isOutcome = true := by
  obtain ⟨⟨_, selector, purpose, plaintext, hreads⟩, -⟩ | hreport := runEffect_cases h
  · rw [hreads.message]
    exact isOutcome_opened selector plaintext purpose
  · cases message <;> simp_all [Message.isReport, Message.isOutcome]

lemma ne_tick_of_isOutcome {message : Message} (h : message.isOutcome = true) : message ≠ .tick := by
  rintro rfl
  simp [Message.isOutcome] at h

lemma locks_of_isOutcome {message : Message} (h : message.isOutcome = true) :
    message.locks = false := by
  cases message <;> simp_all [Message.isOutcome, Message.locks]

/-! ### Inputs -/

lemma isOutcome_of_resolve {message resolved : Message}
    (h : model.resolve answers message = some resolved) (houtcome : message.isOutcome = false) :
    resolved.isOutcome = false := by
  cases message with
  | activateButton | mouseClick =>
    obtain ⟨button, -, rfl⟩ := Option.map_eq_some_iff.mp h
    cases button <;> rfl
  | _ =>
    obtain rfl := Option.some.inj h
    exact houtcome

lemma isOutcome_gateKey {key : KeyEvent} {submit message : Message}
    (hsubmit : submit.isOutcome = false) (h : gateKey key submit = some message) :
    message.isOutcome = false := by
  rw [gateKey] at h
  repeat' split at h
  all_goals grind [Message.isOutcome]

lemma isOutcome_mapModal {Picker TextArea : Type} {modal : Modal Picker TextArea} {key : KeyEvent}
    {message : Message} (h : mapModal modal key = some message) : message.isOutcome = false := by
  rw [mapModal.eq_def] at h
  repeat' split at h
  all_goals grind [Message.isOutcome]

lemma isOutcome_mapView {code : KeyCode} {message : Message}
    (h : mapView model code = some message) : message.isOutcome = false := by
  rw [mapView] at h
  split at h
  · rw [mapSecrets.eq_def] at h
    split at h
    all_goals grind [Message.isOutcome]
  · rw [mapAccess.eq_def] at h
    repeat' split at h
    all_goals grind [Message.isOutcome]
  · rw [mapMerge.eq_def] at h
    split at h
    all_goals grind [Message.isOutcome]

lemma isOutcome_workspaceKey {code : KeyCode} {message : Message}
    (h : workspaceKey model code = some message) : message.isOutcome = false := by
  rw [workspaceKey, Option.or_eq_some_iff] at h
  obtain h | ⟨-, h⟩ := h
  · rw [globalKey.eq_def] at h
    split at h
    all_goals grind [Message.isOutcome]
  rw [Option.or_eq_some_iff] at h
  obtain h | ⟨-, h⟩ := h
  · rw [buttonKey.eq_def] at h
    repeat' split at h
    all_goals grind [Message.isOutcome]
  rw [Option.or_eq_some_iff] at h
  obtain h | ⟨-, h⟩ := h
  · rw [listKey.eq_def] at h
    split at h
    all_goals grind [Message.isOutcome]
  · exact isOutcome_mapView h

lemma isOutcome_screenKey {key : KeyEvent} {message : Message}
    (h : screenKey model key = some message) : message.isOutcome = false := by
  rw [screenKey] at h
  split_ifs at h
  · rw [searchKey.eq_def] at h
    repeat' split at h
    all_goals grind [Message.isOutcome]
  · obtain rfl := Option.some.inj h
    rfl
  · exact isOutcome_gateKey rfl h
  · rw [joinKey.eq_def] at h
    split at h
    all_goals grind [Message.isOutcome]
  · exact isOutcome_workspaceKey h

lemma isOutcome_mapKey {event : KeyEvent} {message : Message}
    (h : mapKey model event = some message) : message.isOutcome = false := by
  rw [mapKey] at h
  split at h
  · obtain rfl := Option.some.inj h
    rfl
  · split at h
    · exact isOutcome_gateKey rfl h
    · split at h
      · exact isOutcome_mapModal h
      · exact isOutcome_screenKey h

/-- No input is the outcome of an effect. -/
theorem isOutcome_input {input : Input} {message : Message}
    (h : input.message model = some message) : message.isOutcome = false := by
  cases input with
  | key event =>
    rw [Input.message] at h
    split_ifs at h
    exact isOutcome_mapKey h
  | click column row | tick =>
    rw [Input.message] at h
    split_ifs at h
    obtain rfl := Option.some.inj h
    rfl

end Thorax.Tui
