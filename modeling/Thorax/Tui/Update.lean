import Thorax.Frontend.Selector
import Thorax.Tui.Model

/-!
# Messages

What a message does to the model, and which effects it asks for. A message is an input of the user, a
tick, or what an effect has ended in.
-/

namespace Thorax.Tui

/-! ### Effects and messages -/

/-- Why a secret is decrypted. -/
inductive GetPurpose where
  | reveal
  | copy
  | edit
  /-- Load the additional fields, which are shown without a reveal. -/
  | fields
  deriving DecidableEq

inductive Effect where
  | reload
  | getSecret (selector : SecretSelectorV1) (purpose : GetPurpose)
  | operate (operation : Operation)
  | join (bundle passphrase : String)
  | init (passphrase : String)
  | acceptRollback (key : RecordKey)
  | revealConflictCandidates (picks : List HashValue)
  | copyToClipboard (bytes : Bytes)
  | quit
  deriving DecidableEq

inductive Message where
  | navigate (motion : Motion)
  | reveal
  | hideReveal
  | copy
  | startEdit
  | startRelabel
  | startNewSecret
  | requestDeleteSecret
  | requestResolveConflict
  | requestAcceptRollback
  | startSetFresh
  | initSubmit
  | startClaim
  | startInvite
  | startGrant
  | startGroup
  | startAddMember
  | pickerKey (key : KeyEvent)
  | requestUserDelete
  | requestAccessDelete
  | openFacetFilter
  | showBundle (encoded : String)
  | copyInviteBundle
  | activateButton
  | mouseClick (column row : ℕ)
  | unlockChar (c : Char)
  | unlockBackspace
  | unlockClear
  | unlockSubmit
  | openHelp
  | openHealth
  | closeModal
  | confirmYes
  | editorKey (key : KeyEvent)
  | editorSubmit
  | formKey (key : KeyEvent)
  | secretRevealed (selector : SecretSelectorV1) (plaintext : Bytes) (isUtf8 copy : Bool)
  | secretForEdit (selector : SecretSelectorV1) (plaintext : Bytes)
  | secretFieldsLoaded (selector : SecretSelectorV1) (fields : List RevealedField)
  | conflictCandidatesRevealed (values : List MergeRevealValue)
  | opFailed (text : String)
  | opOk (text : String)
  | lockNow
  | tick
  | quit
  deriving DecidableEq

def ButtonAction.intoMessage : ButtonAction → Message
  | .switchView view => .navigate (.switchView view)
  | .accessTab tab => .navigate (.setAccessTab tab)
  | .newSecret => .startNewSecret
  | .editSecret => .startEdit
  | .relabel => .startRelabel
  | .deleteSecret => .requestDeleteSecret
  | .revealSecret => .reveal
  | .hideSecret => .hideReveal
  | .inviteUser => .startInvite
  | .deleteUser => .requestUserDelete
  | .newGrant => .startGrant
  | .grantHere => .startGrant
  | .deleteGrant => .requestAccessDelete
  | .newGroup => .startGroup
  | .addMember => .startAddMember
  | .deleteAccess => .requestAccessDelete
  | .resolveConflict => .requestResolveConflict

/-! ### Texts -/

def selectorPath (selector : SecretSelectorV1) : String := String.ofList (escapeTuple selector.tuple)

def selectorLabelPairs (selector : SecretSelectorV1) : String :=
  String.ofList (List.intercalate ['&'] (selector.labels.map labelText))

def stateReason : SecretState → String
  | .activeDecryptable => "decryptable"
  | .notEncryptedForReader => "not encrypted to you (stale); re-set the value"
  | .unauthorized => "not authorized to read"
  | .missing => "no value"
  | .conflicted => "conflicted — no effective value; resolve it in the Conflicts tab"
  | .invalid => "invalid record"

def parseSelector (env : Env) (input : String) : Except String SecretSelectorV1 :=
  (parseSecretSelector (trim input)).mapError env.display

/-- A path and the labels as one selector. -/
def combineSelectorSpec (path labels : String) : String :=
  if labels = "" then path else path ++ "@" ++ labels

/-- Drop the white space at the end, then the run before it. -/
def deleteWordEnd (value : String) : String :=
  String.ofList ((value.toList.reverse.dropWhile isWhiteSpace).dropWhile (!isWhiteSpace ·)).reverse

def dropLast (value : String) : String := String.ofList value.toList.dropLast

/-- The lines behind the parts of a text between its line feeds. A carriage return before a line feed
belongs to the line end, and nothing follows the last line end. -/
def linesOf : List (List Char) → List (List Char)
  | [] => []
  | [last] => if last = [] then [] else [last]
  | part :: rest =>
    (if part.getLast? = some '\r' then part.dropLast else part) :: linesOf rest

def lines (text : String) : List String := (linesOf (text.toList.splitOn '\n')).map String.ofList

/-- The selector a conflict about a secret is about, from its first candidate. -/
def conflictSelector (conflict : ConflictReport) : Option SecretSelectorV1 :=
  conflict.candidates.head?.bind fun signed =>
    match signed.body with
    | .known (.secret record) => some record.selector
    | .known (.secretDeleted record) => some record.selector
    | _ => none

/-- The selector from which a rollback is set afresh. -/
def rollbackSetSelector (conflict : ConflictReport) : Option SecretSelectorV1 :=
  (conflictSelector conflict).or <|
    match conflict.origin with
    | some (.secret selector) => some selector
    | _ => none

def valueSelectors (state : EffectiveState) : List SecretSelectorV1 :=
  state.secretRecords.map fun active => active.value.selector

/-! ### The handlers -/

/-- The editor's shortcuts, before the keys of the text area. -/
def editTextarea {TextArea : Type} (editing : Editing TextArea) (textarea : TextArea)
    (key : KeyEvent) : TextArea :=
  match key.code, key.word, key.control with
  | .backspace, true, _ => editing.deleteWord textarea
  | .delete, true, _ => editing.deleteNextWord textarea
  | .left, true, _ => editing.moveCursor .wordBack textarea
  | .right, true, _ => editing.moveCursor .wordForward textarea
  | .home, _, true => editing.moveCursor .head (editing.moveCursor .top textarea)
  | .end, _, true => editing.moveCursor .end (editing.moveCursor .bottom textarea)
  | _, _, _ => editing.input key textarea

/-- What a key other than Enter does in a form. -/
def Form.key (self : Form) (key : KeyEvent) : Form :=
  let n := max self.fields.length 1
  match key.code with
  | .tab | .down => { self with focus := (self.focus + 1) % n }
  | .backTab | .up => { self with focus := (self.focus + n - 1) % n }
  | .backspace =>
    match self.fields[self.focus]? with
    | none => self
    | some field =>
      let value := if key.word then deleteWordEnd field.value else dropLast field.value
      { self with fields := self.fields.set self.focus { field with value := value }, error := none }
  | .char c =>
    match self.fields[self.focus]? with
    | none => self
    | some field =>
      if key.word then self
      else
        { self with
          fields := self.fields.set self.focus { field with value := field.value.push c }
          error := none }
  | _ => self

namespace Model

variable {env : Env} (self : Model env)

def withError (text : String) : Model env := { self with status := .error text }

/-- Open a form with the focus on its first field. -/
def openForm (title : String) (fields : List FormField) (note : Option String) (submitVerb : String)
    (andThen : FormThen) : Model env :=
  { self with modal := some (.form ⟨title, fields, 0, none, note, submitVerb, andThen⟩) }

def formError (form : Form) (text : String) : Model env :=
  { self with modal := some (.form { form with error := some text }) }

/-! ### Ticks -/

/-- Mask what has been revealed long enough. -/
def expireReveals : Model env :=
  { self with
    reveal := self.reveal.filter fun reveal => self.now < reveal.expiresAt
    mergeReveal := self.mergeReveal.filter fun reveal => self.now < reveal.expiresAt }

def clearClipboard : Model env × List Effect :=
  match self.clipboardClearAt with
  | none => (self, [])
  | some time =>
    if time ≤ self.now then ({ self with clipboardClearAt := none }, [.copyToClipboard []])
    else (self, [])

/-- A cached identity, and no activity for long enough. -/
def Idle : Prop := self.isLocked = false ∧ idleTimeout ≤ self.now - self.lastActive

instance : Decidable self.Idle := inferInstanceAs (Decidable (_ ∧ _))

def relockIdle : Model env :=
  if self.Idle then { self.relock with status := .info "locked after inactivity" } else self

/-- Look at the vault file, and reload when it has changed. -/
def probeFreshness (answers : Answers) : Model env × List Effect :=
  if self.session.existsSession = true ∧ freshnessInterval ≤ self.now - self.lastFreshnessCheck then
    ({ self with lastFreshnessCheck := self.now },
      if answers.fingerprint = self.vaultFingerprint then [] else [.reload])
  else (self, [])

/-- The timer of the status starts over when its text changes. -/
def armStatus : Model env :=
  if self.status.text = self.statusSeen then self
  else
    { self with
      statusSeen := self.status.text
      statusExpires :=
        if self.status.text = "" then none
        else
          some (self.now + fromSecs (if self.status.isError then statusErrorSecs else statusInfoSecs)) }

def dismissStatus : Model env :=
  if self.statusExpires.any (· ≤ self.now) then
    { self with status := .empty, statusSeen := "", statusExpires := none }
  else self

def tick (answers : Answers) : Model env × List Effect :=
  let cleared := self.expireReveals.clearClipboard
  let probed := cleared.1.relockIdle.probeFreshness answers
  (probed.1.armStatus.dismissStatus, cleared.2 ++ probed.2)

/-! ### The gates -/

/-- The entered passphrase unlocks the identity, which the session is then bound to. -/
def unlockSubmit (answers : Answers) : Model env :=
  let taken := { self with unlockInput := "" }
  match self.acting, self.effective.bind (·.rootSigningPublicKeyHash) with
  | none, _ => { taken with unlockError := some "no identity selected" }
  | some _, none => { taken with unlockError := some "no trusted root" }
  | some _, some _ =>
    match answers.unlocked with
    | .error error => { taken with unlockSession := none, unlockError := some error }
    | .ok identity =>
      let promoted := { taken with unlockSession := some identity }.promoteSessionIfUnlocked answers
      if promoted.isLocked then promoted
      else
        { promoted with unlockError := none, status := .info "unlocked" }.refreshFromSession answers

/-- The passphrase of a new vault must not be empty. -/
def initSubmit : Model env × List Effect :=
  let taken := { self with unlockInput := "" }
  if self.unlockInput = "" then
    ({ taken with unlockError := some "passphrase cannot be empty" }, [])
  else ({ taken with unlockError := none }, [.init self.unlockInput])

/-! ### Secrets -/

def isSelectedRevealed : Bool :=
  match self.selectedLeaf, self.reveal with
  | some leaf, some reveal => reveal.selector = leaf.selector
  | _, _ => false

def isMergeRevealed (pick : HashValue) : Bool :=
  self.mergeReveal.any fun reveal => reveal.values.any fun value => value.pick = pick

/-- Ask for the selected secret, which has to be readable. -/
def requestGet (purpose : GetPurpose) : Model env × List Effect :=
  match env.navigation.view self.nav, self.selectedLeaf with
  | .secrets, some leaf =>
    if leaf.state = .activeDecryptable then (self, [.getSecret leaf.selector purpose])
    else (self.withError (selectorPath leaf.selector ++ ": " ++ stateReason leaf.state), [])
  | _, _ => (self, [])

/-- Reveal or hide the selected secret, or all candidates of the selected conflict. -/
def toggleReveal : Model env × List Effect :=
  match env.navigation.view self.nav with
  | .merge =>
    match env.navigation.mergeSelection self.nav with
    | some (.candidate pick decryptable _ decryptablePicks) =>
      if self.isMergeRevealed pick then
        ({ self with mergeReveal := none, status := .info "hidden" }, [])
      else if decryptable then (self, [.revealConflictCandidates decryptablePicks])
      else (self.withError "this candidate is not decryptable by you", [])
    | _ => (self, [])
  | _ =>
    if self.isSelectedRevealed then ({ self with reveal := none, status := .info "hidden" }, [])
    else self.requestGet .reveal

def openSelectorForm (title : String) (selector : SecretSelectorV1) (note submitVerb : String)
    (andThen : FormThen) : Model env :=
  self.openForm title
    [.prefilled "Path" (selectorPath selector), .prefilled "Labels" (selectorLabelPairs selector)]
    (some note) submitVerb andThen

def startRelabel : Model env :=
  match self.selectedLeaf with
  | none => self
  | some leaf =>
    self.openSelectorForm "Move secret" leaf.selector "re-keys the secret; readers may change" "move"
      (.relabel leaf.selector)

def startNewSecret : Model env :=
  match env.navigation.view self.nav with
  | .secrets =>
    self.openForm "New secret"
      [.text "Path" "app/prod/db", .text "Labels" "env=prod&region=us  (optional)"] none
      "next: enter value" .newSecret
  | _ => self

def requestDeleteSecret : Model env :=
  match self.selectedLeaf with
  | none => self
  | some leaf => { self with modal := some (.confirm (.deleteSecret leaf.selector)) }

/-- Show a value in the editor. -/
def openEditor (selector : SecretSelectorV1) (lines : List String) : Model env :=
  { self with modal := some (.editor selector (env.editing.fromLines lines)) }

def editorKey (key : KeyEvent) : Model env :=
  match self.modal with
  | some (.editor selector textarea) =>
    { self with modal := some (.editor selector (editTextarea env.editing textarea key)) }
  | _ => self

/-- The joined lines become the value of the secret. -/
def editorSubmit : Model env × List Effect :=
  match self.modal with
  | some (.editor selector textarea) =>
    let text := String.intercalate "\n" (env.editing.lines textarea)
    ({ self with modal := none, selectTarget := some selector },
      [.operate (.setSecret selector text.toUTF8.data.toList (selectorPath selector))])
  | _ => ({ self with modal := none }, [])

/-- A decrypted value is shown, or copied and cleared again later. -/
def secretRevealed (selector : SecretSelectorV1) (plaintext : Bytes) (isUtf8 copy : Bool) :
    Model env × List Effect :=
  if copy then
    ({ self with
        clipboardClearAt := some (self.now + fromSecs clipboardClearSecs)
        status := .info ("copied " ++ selectorPath selector ++ " to clipboard (clears in " ++
          toString clipboardClearSecs ++ "s)") },
      [.copyToClipboard plaintext])
  else
    ({ self with reveal := some ⟨selector, plaintext, isUtf8, self.now + fromSecs revealSecs⟩ }, [])

/-! ### Conflicts -/

def requestResolveConflict : Model env :=
  match env.navigation.mergeSelection self.nav with
  | none => self
  | some (.conflict _) =>
    { self with status := .info "pick a candidate below this conflict first" }
  | some (.candidate _ _ (some reason) _) =>
    self.withError ("you cannot resolve this conflict: " ++ reason)
  | some (.candidate pick _ none _) => { self with modal := some (.confirm (.resolveConflict pick)) }

/-- Only a rollback can be accepted. -/
def requestAcceptRollback : Model env :=
  match env.navigation.mergeSelection self.nav with
  | some (.conflict report) =>
    match report.kind with
    | .rollback _ => { self with modal := some (.confirm (.acceptRollback report.key)) }
    | _ => self.withError "only a rollback can be accepted — resolve a tie by picking a winner"
  | _ => self

/-- Set the secret of a rollback afresh, above the counter that is remembered. -/
def startSetFresh : Model env :=
  match env.navigation.mergeSelection self.nav with
  | some (.conflict report) =>
    match report.kind, report.key, rollbackSetSelector report with
    | .rollback _, .secret _, some selector =>
      self.openSelectorForm "Set a fresh value" selector
        "an ordinary set — it lands above the remembered counter and clears the rollback"
        "next: enter value" .newSecret
    | _, _, _ => self
  | _ => self

/-! ### Principals -/

def startClaim : Model env :=
  self.openForm "Join vault with an invite"
    [.text "Bundle" "paste the thrx1… invite string",
      .secret "Passphrase" "to protect your identity on this machine"] none "join" .claim

def startInvite : Model env :=
  self.openForm "Invite user" [.text "Handle" "e.g. alice"] none "invite" .invite

def startGroup : Model env :=
  self.openForm "New group" [.text "Name" "e.g. devs"] none "create" .group

/-- Open a picker, or say why there is nothing to pick. -/
def openPicker : Except Status env.Picker → Model env
  | .ok picker => { self with modal := some (.picker picker) }
  | .error status => { self with status := status }

def startAddMember : Model env :=
  match env.navigation.memberPicker self.nav with
  | .ok none => self
  | .ok (some picker) => self.openPicker (.ok picker)
  | .error status => self.openPicker (.error status)

def openFacetFilter : Model env :=
  match env.navigation.view self.nav with
  | .secrets => self.openPicker (env.navigation.facetPicker self.nav)
  | _ => self

def pickerKey (key : KeyEvent) : Model env × List Effect :=
  match self.modal with
  | some (.picker picker) =>
    match env.navigation.pickerKey key self.session.session? self.acting picker self.nav with
    | .keep picker nav => ({ self with modal := some (.picker picker), nav := nav }, [])
    | .close nav => ({ self with modal := none, nav := nav }, [])
    | .submit operation => ({ self with modal := none }, [.operate operation])
  | _ => (self, [])

/-- The root user is never deleted. -/
def requestUserDelete : Model env :=
  match env.navigation.selectedUser self.nav with
  | none => self
  | some user =>
    if self.effective.bind (·.rootUserId) = some user then
      self.withError "cannot delete the root user"
    else { self with modal := some (.confirm (.deleteUser user)) }

/-- The selected grant, or the group when a group itself is selected. -/
def requestAccessDelete : Model env :=
  match env.navigation.selectedGrant self.nav, env.navigation.selectedGroup self.nav with
  | some grant, _ => { self with modal := some (.confirm (.deleteGrant grant)) }
  | none, some group => { self with modal := some (.confirm (.deleteGroup group)) }
  | none, none => self

def copyInviteBundle : Model env × List Effect :=
  match self.modal with
  | some (.inviteBundle encoded) =>
    ({ self with
        clipboardClearAt := some (self.now + fromSecs clipboardClearSecs)
        status := .info ("copied invite bundle to clipboard (clears in " ++
          toString clipboardClearSecs ++ "s)") },
      [.copyToClipboard encoded.toUTF8.data.toList])
  | _ => (self, [])

/-! ### Dialogues -/

def ConfirmAction.effect : ConfirmAction → Effect
  | .deleteSecret selector => .operate (.deleteSecret selector)
  | .deleteUser user => .operate (.deleteUser user)
  | .deleteGrant grant => .operate (.deleteGrant grant)
  | .deleteGroup group => .operate (.deleteGroup group)
  | .resolveConflict pick => .operate (.resolveConflict pick)
  | .acceptRollback key => .acceptRollback key

/-- The dialogue is taken, also where it was no question. -/
def confirmYes : Model env × List Effect :=
  match self.modal with
  | some (.confirm action) => ({ self with modal := none }, [ConfirmAction.effect action])
  | _ => ({ self with modal := none }, [])

def submitNewSecret (form : Form) : Model env × List Effect :=
  match parseSelector env (combineSelectorSpec (form.value 0) (form.value 1)) with
  | .ok selector => (self.openEditor selector [""], [])
  | .error error => (self.formError form error, [])

def submitClaim (form : Form) : Model env × List Effect :=
  if form.value 0 = "" then (self.formError form "paste an invite", [])
  else if form.value 1 = "" then
    (self.formError form "set a passphrase to protect your identity", [])
  else ({ self with modal := none }, [.join (form.value 0) (form.value 1)])

def submitNamed (form : Form) (missing : String) (operation : String → Operation) :
    Model env × List Effect :=
  if form.value 0 = "" then (self.formError form missing, [])
  else ({ self with modal := none }, [.operate (operation (form.value 0))])

/-- A move to a selector at which no value is seen. -/
def submitRelabel (form : Form) (old : SecretSelectorV1) : Model env × List Effect :=
  match parseSelector env (combineSelectorSpec (form.value 0) (form.value 1)) with
  | .error error => (self.formError form error, [])
  | .ok new =>
    if new = old then
      ({ self with modal := none, status := .info "selector unchanged" }, [])
    else if self.effective.any fun state => (valueSelectors state).contains new then
      (self.formError form "a secret already exists at that selector", [])
    else ({ self with modal := none }, [.operate (.relabel old new)])

def submitForm (form : Form) : Model env × List Effect :=
  match form.andThen with
  | .newSecret => self.submitNewSecret form
  | .claim => self.submitClaim form
  | .invite => self.submitNamed form "handle cannot be empty" .invite
  | .group => self.submitNamed form "group name cannot be empty" .createGroup
  | .relabel old => self.submitRelabel form old

def formKey (key : KeyEvent) : Model env × List Effect :=
  match self.modal with
  | some (.form form) =>
    if key.code = .enter then self.submitForm form
    else ({ self with modal := some (.form (form.key key)) }, [])
  | _ => (self, [])

/-- Move in a view. What is derived from the session is looked at on the way. -/
def navigate (motion : Motion) : Model env :=
  let moved := env.navigation.motion motion self.session.session? self.acting self.nav
  match moved.2 with
  | none => { self with nav := moved.1 }
  | some status => { self with nav := moved.1, status := status }

end Model

/-! ### Update -/

namespace Model

variable {env : Env} (self : Model env)

/-- A message other than a button, on a model that has read the clock. -/
def handle (answers : Answers) : Message → Model env × List Effect
  | .tick => self.tick answers
  | .quit => ({ self with shouldQuit := true }, [.quit])
  | .openHelp => ({ self with modal := some .help }, [])
  | .openHealth => ({ self with modal := some .health }, [])
  | .closeModal => ({ self with modal := none }, [])
  | .lockNow => ({ self.relock with status := .info "locked" }, [])
  | .unlockChar c => ({ self with unlockInput := self.unlockInput.push c }, [])
  | .unlockBackspace => ({ self with unlockInput := dropLast self.unlockInput }, [])
  | .unlockClear => ({ self with unlockInput := "", unlockError := none }, [])
  | .unlockSubmit => (self.unlockSubmit answers, [])
  | .navigate motion => (self.navigate motion, [])
  | .reveal => self.toggleReveal
  | .hideReveal =>
    ({ self with reveal := none, mergeReveal := none, status := .info "hidden" }, [])
  | .copy => self.requestGet .copy
  | .startEdit => self.requestGet .edit
  | .startRelabel => (self.startRelabel, [])
  | .startNewSecret => (self.startNewSecret, [])
  | .startClaim => (self.startClaim, [])
  | .startInvite => (self.startInvite, [])
  | .initSubmit => self.initSubmit
  | .startGroup => (self.startGroup, [])
  | .startGrant => (self.openPicker (env.navigation.grantPicker self.nav), [])
  | .startAddMember => (self.startAddMember, [])
  | .pickerKey key => self.pickerKey key
  | .requestUserDelete => (self.requestUserDelete, [])
  | .requestAccessDelete => (self.requestAccessDelete, [])
  | .openFacetFilter => (self.openFacetFilter, [])
  | .showBundle encoded => ({ self with modal := some (.inviteBundle encoded) }, [])
  | .copyInviteBundle => self.copyInviteBundle
  | .requestDeleteSecret => (self.requestDeleteSecret, [])
  | .requestResolveConflict => (self.requestResolveConflict, [])
  | .requestAcceptRollback => (self.requestAcceptRollback, [])
  | .startSetFresh => (self.startSetFresh, [])
  | .confirmYes => self.confirmYes
  | .editorKey key => (self.editorKey key, [])
  | .editorSubmit => self.editorSubmit
  | .formKey key => self.formKey key
  | .secretForEdit selector plaintext =>
    (self.openEditor selector (lines (env.fromUtf8Lossy plaintext)), [])
  | .secretRevealed selector plaintext isUtf8 copy =>
    self.secretRevealed selector plaintext isUtf8 copy
  | .secretFieldsLoaded selector fields => ({ self with secretFields := some ⟨selector, fields⟩ }, [])
  | .conflictCandidatesRevealed values =>
    ({ self with mergeReveal := some ⟨values, self.now + fromSecs revealSecs⟩ }, [])
  | .opOk text => ({ self with status := .info text }, [])
  | .opFailed text => (self.withError text, [])
  | .activateButton | .mouseClick _ _ => (self, [])

/-- The message a button or a click stands for. A click that meets no button goes to the lists. -/
def resolve (answers : Answers) : Message → Option Message
  | .activateButton =>
    (env.navigation.focusedButton self.reveal self.mergeReveal self.nav).map (·.intoMessage)
  | .mouseClick _ _ => answers.hit.map (·.intoMessage)
  | message => some message

/-- Read the clock. Every message but a tick counts as activity. -/
def touch (answers : Answers) (message : Message) : Model env :=
  { self with
    now := answers.now
    lastActive := if message = .tick then self.lastActive else answers.now }

def click : Message → Model env
  | .mouseClick column row => { self with nav := env.navigation.clickList column row self.nav }
  | _ => self

end Model

def update {env : Env} (answers : Answers) (message : Message) (model : Model env) :
    Model env × List Effect :=
  let touched := model.touch answers message
  match touched.resolve answers message with
  | some resolved => touched.handle answers resolved
  | none => (touched.click message, [])

end Thorax.Tui
