import Thorax.Library.MessageLoop
import Thorax.Tui.Keys

/-!
# Effects and the event loop

What an effect does to the model, and the message it ends in. The loop reads a key, a click or a tick,
and works off the effects that come of it. When none is left, the additional fields of the selected
secret are loaded.
-/

namespace Thorax.Tui

def countNoun (count : ℕ) (singular : String) : String :=
  if count = 1 then "1 " ++ singular else toString count ++ " " ++ singular ++ "s"

def loadedFields (plaintext : SecretPlaintext) : List RevealedField :=
  plaintext.fields.map fun field => ⟨field.key, field.value, isUtf8 field.value⟩

/-- The message about a decrypted secret. Only text goes to the editor. -/
def opened (selector : SecretSelectorV1) (plaintext : SecretPlaintext) : GetPurpose → Message
  | .fields => .secretFieldsLoaded selector (loadedFields plaintext)
  | .edit =>
    if isUtf8 plaintext.plaintext then .secretForEdit selector plaintext.plaintext
    else .opFailed "binary secret — edit it via the CLI or a file, not the text editor"
  | .reveal => .secretRevealed selector plaintext.plaintext (isUtf8 plaintext.plaintext) false
  | .copy => .secretRevealed selector plaintext.plaintext (isUtf8 plaintext.plaintext) true

/-- What an unlocked session reads at a selector. -/
def UnlockedSession.getSecret (env : Env) (self : UnlockedSession) (selector : SecretSelectorV1) :
    Except OpsError SecretPlaintext :=
  self.session.getSecret env.provider env.sealing self.identity.toUnlockedIdentity selector

def Env.failed (env : Env) (error : FrontendError) : Option Message :=
  some (.opFailed (env.diagnose error))

namespace Model

variable {env : Env} (self : Model env)

/-- A failed decryption locks the session, except where only fields are loaded. -/
def getSecret (selector : SecretSelectorV1) (purpose : GetPurpose) : Model env × Option Message :=
  match self.session with
  | .unlocked unlocked =>
    match unlocked.getSecret env selector with
    | .ok plaintext => (self, some (opened selector plaintext purpose))
    | .error error =>
      if purpose = .fields then ({ self with secretFields := some ⟨selector, []⟩ }, none)
      else (self.relock, env.failed (.ops error))
  | _ => (self, if purpose = .fields then none else some (.opFailed "session is locked"))

/-- The message about an operation that has succeeded, on the model after it. -/
def succeeded (count : ℕ) (encoded : String) : Operation → Message
  | .setSecret _ _ label => .opOk ("saved " ++ label)
  | .deleteSecret selector => .opOk ("deleted " ++ selectorPath selector)
  | .relabel _ new => .opOk ("moved to " ++ selectorPath new)
  | .deleteGrant _ => .opOk "deleted grant"
  | .deleteGroup _ => .opOk "deleted group"
  | .invite _ => .showBundle encoded
  | .deleteUser _ => .opOk "deleted user"
  | .createGroup _ => .opOk "created group"
  | .grantPermission _ _ =>
    .opOk (if count = 0 then "granted access"
      else "granted access ╱ re-encrypted " ++ countNoun count "secret" ++ " to the new reader")
  | .addMember _ _ =>
    .opOk (if count = 0 then "added member"
      else "added member ╱ re-encrypted " ++ countNoun count "secret")
  | .resolveConflict _ =>
    .opOk (if self.conflicts = [] then
        "all conflicts resolved — git add the vault to finish the merge"
      else "conflict resolved — " ++ toString self.conflicts.length ++ " left")

/-- An operation replaces the session, also where it fails. Only after a success is the model derived
from it again. -/
def operate (answers : Answers) (operation : Operation) : Model env × Option Message :=
  match self.session with
  | .unlocked unlocked =>
    let after := { self with session := .unlocked ⟨answers.operated.2, unlocked.identity⟩ }
    match answers.operated.1 with
    | .ok (count, encoded) =>
      let refreshed := after.refreshFromSession answers
      (refreshed, some (refreshed.succeeded count encoded operation))
    | .error error => (after, env.failed error)
  | _ => (self, some (.opFailed "session is locked"))

/-- Accepting a rollback needs no identity. -/
def acceptRollback (answers : Answers) (key : RecordKey) : Model env × Option Message :=
  let label := ((self.conflicts.find? (·.key = key)).map env.conflictLabel).getD "this key"
  let finish (after : Model env) : Model env × Option Message :=
    match answers.operated.1 with
    | .ok _ => (after.refreshFromSession answers, some (.opOk ("accepted rollback at " ++ label)))
    | .error error => (after, env.failed error)
  match self.session with
  | .none => (self, some (.opFailed "no workspace loaded"))
  | .locked _ => finish { self with session := .locked answers.operated.2 }
  | .unlocked unlocked =>
    finish { self with session := .unlocked ⟨answers.operated.2, unlocked.identity⟩ }

def revealConflictCandidates (answers : Answers) : Model env × Option Message :=
  match self.session with
  | .unlocked _ =>
    match answers.candidates with
    | .ok values => (self, some (.conflictCandidatesRevealed values))
    | .error error => (self.relock, env.failed (.ops error))
  | _ => (self, some (.opFailed "session is locked"))

/-- Keep an identity that is at hand. -/
def withCached : Option MemberIdentity → Model env
  | none => self
  | some identity => { self with unlockSession := some identity }

/-- Joining ends in a load of the workspace, which is bound to the new identity. -/
def join (answers : Answers) : Model env × Option Message :=
  match answers.joined with
  | .error error => (self, env.failed error)
  | .ok (rollbackProtected, identity) =>
    ((self.withCached identity).reload answers,
      some (.opOk (if rollbackProtected then "joined vault"
        else "joined vault — compact invite; rollback protection begins now")))

def init (answers : Answers) : Model env × Option Message :=
  if answers.vaultExists then (self, some (.opFailed "a vault already exists here"))
  else
    match answers.initialized with
    | .error error => (self, env.failed error)
    | .ok unlocked =>
      (({ self with session := .unlocked unlocked }.refreshFromSession answers).withCached
        (some unlocked.identity), some (.opOk "initialized a new Thorax vault"))

/-- The load of the fields of the selected secret, unless it is there already. -/
def fieldsSyncEffect : Option Effect :=
  match self.session, self.selectedLeaf with
  | .unlocked _, some leaf =>
    if leaf.state = .activeDecryptable ∧
        ¬ self.secretFields.any fun loaded => loaded.selector = leaf.selector then
      some (.getSecret leaf.selector .fields)
    else none
  | _, _ => none

end Model

def runEffect {env : Env} (answers : Answers) (effect : Effect) (model : Model env) :
    Model env × Option Message :=
  match effect with
  | .quit => (model, none)
  | .reload => (model.reload answers, none)
  | .copyToClipboard _ =>
    (model, match answers.copied with
      | .ok _ => none
      | .error error => env.failed error)
  | .getSecret selector purpose => model.getSecret selector purpose
  | .operate operation => model.operate answers operation
  | .join _ _ => model.join answers
  | .init _ => model.init answers
  | .acceptRollback key => model.acceptRollback answers key
  | .revealConflictCandidates _ => model.revealConflictCandidates answers

/-! ### The loop -/

inductive Input where
  | key (event : KeyEvent)
  | click (column row : ℕ)
  | tick
  deriving DecidableEq

/-- The message of an input, while the interface runs. -/
def Input.message {env : Env} (model : Model env) : Input → Option Message
  | .key event => if model.shouldQuit then none else mapKey model event
  | .click column row => if model.shouldQuit then none else some (.mouseClick column row)
  | .tick => if model.shouldQuit then none else some .tick

def eventLoop (env : Env) : MessageLoop.Loop (Model env) Input Message Effect Answers where
  message input model := input.message model
  update := update
  run := runEffect
  settle := Model.fieldsSyncEffect

/-- The clock of a run never goes back. -/
def steady (env : Env) : MessageLoop.Guard (Model env) Message Effect Answers where
  update entry model := model.now ≤ entry.answers.now
  run _ _ _ := True

instance (env : Env) (entry : MessageLoop.Entry Message Answers) (model : Model env) :
    Decidable ((steady env).update entry model) := inferInstanceAs (Decidable (_ ≤ _))

instance (env : Env) (answers : Answers) (effect : Effect) (model : Model env) :
    Decidable ((steady env).run answers effect model) := inferInstanceAs (Decidable True)

end Thorax.Tui
