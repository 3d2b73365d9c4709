import Thorax.Frontend.References
import Thorax.Ops.SecretEdits

/-!
# The state of the terminal interface

The interface keeps a session of the vault, locked or bound to an identity that has been unlocked, and
beside it what it shows: revealed values, the open dialogue, and a navigation over lists and trees that
is derived from the session. Whatever the operations below it answer reaches it as an answer to the
step in which it asks.
-/

namespace Thorax.Tui

open Collections

/-- Nanoseconds of a clock that never goes back. -/
abbrev Instant := ℕ

def fromSecs (seconds : ℕ) : ℕ := seconds * 1000000000

def revealSecs : ℕ := 30
def clipboardClearSecs : ℕ := 20
def statusInfoSecs : ℕ := 4
def statusErrorSecs : ℕ := 9

/-- Relock the session after this much inactivity. -/
def idleTimeout : ℕ := fromSecs (30 * 60)

/-- How often a tick looks at the vault file at most. -/
def freshnessInterval : ℕ := fromSecs 2

/-! ### Sessions -/

/-- An identity that has been unlocked: it opens and signs records, and signs caches. -/
structure MemberIdentity extends UnlockedIdentity where
  signCache : Bytes → Bytes

/-- A session that acts as an unlocked identity. -/
structure UnlockedSession where
  session : LockedSession
  identity : MemberIdentity

inductive SessionState where
  /-- No usable workspace: no vault, or no local trust yet. -/
  | none
  | locked (session : LockedSession)
  | unlocked (session : UnlockedSession)

namespace SessionState

/-- The read snapshot at either tier. -/
def session? : SessionState → Option LockedSession
  | .none => .none
  | .locked session => some session
  | .unlocked session => some session.session

def existsSession : SessionState → Bool
  | .none => false
  | _ => true

def isUnlocked : SessionState → Bool
  | .unlocked _ => true
  | _ => false

/-- The session state is taken out, and only an unlocked one is put back. -/
def relock : SessionState → SessionState
  | .unlocked session => .locked session.session
  | _ => .none

end SessionState

/-! ### What is shown -/

structure Status where
  text : String
  isError : Bool
  deriving DecidableEq

def Status.info (text : String) : Status := ⟨text, false⟩
def Status.error (text : String) : Status := ⟨text, true⟩
def Status.empty : Status := ⟨"", false⟩

/-- A revealed value with the time at which it is masked again. -/
structure Reveal where
  selector : SecretSelectorV1
  plaintext : Bytes
  isUtf8 : Bool
  expiresAt : Instant
  deriving DecidableEq

structure RevealedField where
  key : String
  value : Bytes
  isUtf8 : Bool
  deriving DecidableEq

/-- The additional fields of the selected secret, shown without a reveal. -/
structure SecretFields where
  selector : SecretSelectorV1
  fields : List RevealedField
  deriving DecidableEq

structure MergeRevealValue where
  pick : HashValue
  plaintext : Bytes
  isUtf8 : Bool
  deriving DecidableEq

structure MergeReveal where
  values : List MergeRevealValue
  expiresAt : Instant
  deriving DecidableEq

structure SecretLeaf where
  selector : SecretSelectorV1
  state : SecretState
  deriving DecidableEq

inductive BlockReason where
  | badSignature (key : RecordKey)
  | unknownSignerKey
  | rootNotTrusted
  | ambiguousRoot
  | authorityDidNotConverge
  | formatVersionRegression (remembered current : ℕ)
  | structure (message : String)
  deriving DecidableEq

/-- Every issue of a validation blocks the interface. -/
def blockReason (report : ValidationReport) : Option BlockReason :=
  report.issues.head?.map fun
    | .invalidSignature key => .badSignature key
    | .unknownSignerKey _ => .unknownSignerKey
    | .rootNotTrusted => .rootNotTrusted
    | .ambiguousRoot => .ambiguousRoot
    | .authorityDidNotConverge => .authorityDidNotConverge
    | .formatVersionRegression remembered current => .formatVersionRegression remembered current
    | .invalidStructure message => .structure message

inductive View where
  | secrets
  | access
  | merge
  deriving DecidableEq

inductive AccessTab where
  | users
  | groups
  deriving DecidableEq

/-! ### Keys -/

inductive KeyCode where
  | char (c : Char)
  | enter
  | esc
  | backspace
  | delete
  | tab
  | backTab
  | up
  | down
  | left
  | right
  | home
  | «end»
  | pageUp
  | pageDown
  | other (code : ℕ)
  deriving DecidableEq

structure KeyEvent where
  code : KeyCode
  control : Bool
  alt : Bool
  shift : Bool
  deriving DecidableEq

/-- A modified key acts on words, or is no text. -/
def KeyEvent.word (key : KeyEvent) : Bool := key.control || key.alt

/-! ### Dialogues -/

structure FormField where
  label : String
  value : String
  placeholder : String
  masked : Bool
  deriving DecidableEq

namespace FormField

def text (label placeholder : String) : FormField := ⟨label, "", placeholder, false⟩
def prefilled (label value : String) : FormField := ⟨label, value, "", false⟩
def secret (label placeholder : String) : FormField := ⟨label, "", placeholder, true⟩

end FormField

/-- What a form feeds into on submit. -/
inductive FormThen where
  | newSecret
  | relabel (old : SecretSelectorV1)
  | claim
  | invite
  | group
  deriving DecidableEq

structure Form where
  title : String
  fields : List FormField
  focus : ℕ
  error : Option String
  note : Option String
  submitVerb : String
  andThen : FormThen
  deriving DecidableEq

def trim (value : String) : String := String.ofList (trimChars value.toList)

/-- The trimmed value of a field, or nothing. -/
def Form.value (self : Form) (i : ℕ) : String :=
  match self.fields[i]? with
  | some field => trim field.value
  | none => ""

/-- What is asked about before it is done. -/
inductive ConfirmAction where
  | deleteSecret (selector : SecretSelectorV1)
  | deleteGrant (grant : GrantId)
  | deleteGroup (group : GroupId)
  | deleteUser (user : UserId)
  | resolveConflict (pick : HashValue)
  | acceptRollback (key : RecordKey)
  deriving DecidableEq

/-- The open dialogue, over the pickers of grants, members and labels and the editor's text area. -/
inductive Modal (Picker TextArea : Type) where
  | help
  | health
  | confirm (action : ConfirmAction)
  | inviteBundle (encoded : String)
  | editor (selector : SecretSelectorV1) (textarea : TextArea)
  | form (form : Form)
  | picker (picker : Picker)

inductive CursorMove where
  | wordBack
  | wordForward
  | top
  | head
  | bottom
  | «end»
  deriving DecidableEq

/-- The text areas of the editor, code outside the repository. -/
structure Editing (TextArea : Type) where
  fromLines : List String → TextArea
  lines : TextArea → List String
  deleteWord : TextArea → TextArea
  deleteNextWord : TextArea → TextArea
  moveCursor : CursorMove → TextArea → TextArea
  input : KeyEvent → TextArea → TextArea

/-- What goes through the unlocked session into the vault. -/
inductive Operation where
  | setSecret (selector : SecretSelectorV1) (plaintext : Bytes) (label : String)
  | deleteSecret (selector : SecretSelectorV1)
  | relabel (old new : SecretSelectorV1)
  | deleteGrant (grant : GrantId)
  | deleteGroup (group : GroupId)
  | invite (handle : String)
  | deleteUser (user : UserId)
  | createGroup (name : String)
  | grantPermission (subject : PrincipalRefV1) (permission : GrantPermissionV1)
  | addMember (group : GroupId) (member : PrincipalRefV1)
  | resolveConflict (pick : HashValue)
  deriving DecidableEq

/-- What a key does in a picker. -/
inductive PickerStep (Nav Picker : Type) where
  | keep (picker : Picker) (nav : Nav)
  | close (nav : Nav)
  | submit (operation : Operation)

/-! ### Navigation -/

/-- The messages that move in a view or change the view. -/
inductive Motion where
  | moveUp
  | moveDown
  | moveTop
  | moveBottom
  | pageUp
  | pageDown
  | open
  | close
  | switchView (view : View)
  | cycleAccessTab
  | setAccessTab (tab : AccessTab)
  | focusNext
  | focusList
  | buttonPrev
  | buttonNext
  | openSearch
  | searchChar (c : Char)
  | searchBackspace
  | searchApply
  | searchCancel
  deriving DecidableEq

/-- The selected row of the merge view: the header of a conflict, or a candidate with the reason
why its conflict cannot be resolved and the candidates that can be decrypted. -/
inductive MergeSelection where
  | conflict (report : ConflictReport)
  | candidate (pick : HashValue) (decryptable : Bool) (blocked : Option String)
      (decryptablePicks : List HashValue)
  deriving DecidableEq

inductive ButtonAction where
  | switchView (view : View)
  | accessTab (tab : AccessTab)
  | newSecret
  | editSecret
  | relabel
  | deleteSecret
  | revealSecret
  | hideSecret
  | inviteUser
  | deleteUser
  | newGrant
  | grantHere
  | deleteGrant
  | newGroup
  | addMember
  | deleteAccess
  | resolveConflict
  deriving DecidableEq

/-- The lists and trees of the views, with what is expanded, selected and focused in them. They are
derived from the session and looked at through these functions. -/
structure Navigation (Nav Picker : Type) where
  initial : Nav
  reproject : LockedSession → Option UserId → List ConflictReport → Nav → Nav
  leaveEmptyMerge : Nav → Nav
  navigateTo : SecretSelectorV1 → Nav → Nav
  expandTop : Nav → Nav
  motion : Motion → Option LockedSession → Option UserId → Nav → Nav × Option Status
  view : Nav → View
  accessTab : Nav → AccessTab
  searching : Nav → Bool
  onButton : Nav → Bool
  selectedLeaf : Nav → Option SecretLeaf
  selectedUser : Nav → Option UserId
  selectedGrant : Nav → Option GrantId
  selectedGroup : Nav → Option GroupId
  mergeSelection : Nav → Option MergeSelection
  focusedButton : Option Reveal → Option MergeReveal → Nav → Option ButtonAction
  clickList : ℕ → ℕ → Nav → Nav
  grantPicker : Nav → Except Status Picker
  memberPicker : Nav → Except Status (Option Picker)
  facetPicker : Nav → Except Status Picker
  pickerKey : KeyEvent → Option LockedSession → Option UserId → Picker → Nav → PickerStep Nav Picker

/-! ### The model -/

/-- The libraries below the interface. -/
structure Env where
  provider : StoreProvider
  sealing : SealProvider
  Nav : Type
  Picker : Type
  TextArea : Type
  navigation : Navigation Nav Picker
  editing : Editing TextArea
  fromUtf8Lossy : Bytes → String
  fromUtf8Lossy_utf8 : ∀ text : String, fromUtf8Lossy text.toUTF8.data.toList = text
  diagnose : FrontendError → String
  display : FrontendError → String
  conflictLabel : ConflictReport → String

def Env.opError (env : Env) (error : OpsError) : String := env.diagnose (.ops error)

/-- Whether bytes are the encoding of a text. -/
def isUtf8 (bytes : Bytes) : Bool := (String.fromUTF8? ⟨bytes.toArray⟩).isSome

lemma fromUTF8?_toUTF8 (text : String) :
    String.fromUTF8? ⟨text.toUTF8.data.toList.toArray⟩ = some text := by
  have hbytes : (⟨text.toUTF8.data.toList.toArray⟩ : ByteArray) = text.toByteArray := by simp
  rw [hbytes, String.fromUTF8?, dif_pos text.isValidUTF8]
  rfl

/-- `(len, modified)` of the vault file. -/
structure Fingerprint where
  len : ℕ
  modified : Instant
  deriving DecidableEq

structure Model (env : Env) where
  session : SessionState
  block : Option BlockReason
  workspaceError : Option String
  vaultFingerprint : Option Fingerprint
  lastFreshnessCheck : Instant
  conflicts : List ConflictReport
  nav : env.Nav
  mergeReveal : Option MergeReveal
  selectTarget : Option SecretSelectorV1
  modal : Option (Modal env.Picker env.TextArea)
  status : Status
  statusSeen : String
  statusExpires : Option Instant
  acting : Option UserId
  actingLabel : Option String
  needsJoin : Bool
  unlockSession : Option MemberIdentity
  reveal : Option Reveal
  secretFields : Option SecretFields
  clipboardClearAt : Option Instant
  unlockInput : String
  unlockError : Option String
  lastActive : Instant
  shouldQuit : Bool
  now : Instant

/-- What the outside answers within one step: the clock, the disk and the operations on it, the
keychain and the clipboard. -/
structure Answers where
  now : Instant
  /-- A fresh load of the workspace. -/
  load : Except OpsError LockedSession
  /-- The session after the possession and membership checks of the cached identity. -/
  attested : Except OpsError LockedSession
  /-- A fresh load after these checks have failed. -/
  reloaded : Except OpsError LockedSession
  stored : Option StoredDefaultUser
  fingerprint : Option Fingerprint
  /-- The button that was last drawn where a click lands. -/
  hit : Option ButtonAction
  unlocked : Except String MemberIdentity
  /-- How an operation ended, and the session after it. The result is a count of secrets that were
  encrypted again, or an encoded invite. -/
  operated : Except FrontendError (ℕ × String) × LockedSession
  candidates : Except OpsError (List MergeRevealValue)
  copied : Except FrontendError Unit
  joined : Except FrontendError (Bool × Option MemberIdentity)
  vaultExists : Bool
  initialized : Except FrontendError UnlockedSession

namespace Model

variable {env : Env} (self : Model env)

def isLocked : Bool := self.unlockSession.isNone

/-- A usable workspace whose session is locked takes over the screen. -/
def isUnlockGate : Bool :=
  self.session.existsSession && self.block.isNone && self.workspaceError.isNone &&
    self.acting.isSome && self.isLocked

def isJoinGate : Bool := self.needsJoin && self.block.isNone && self.workspaceError.isNone

def effective : Option EffectiveState := self.session.session?.map (·.report.effective)

def selectedLeaf : Option SecretLeaf := env.navigation.selectedLeaf self.nav

/-- Promote a locked session without issues to the cached identity. When that fails, the session is
loaded afresh and the identity is locked. -/
def promoteSessionIfUnlocked (answers : Answers) : Model env :=
  match self.session, self.unlockSession with
  | .locked session, some identity =>
    if session.report.issues = [] then
      match answers.attested with
      | .ok attested => { self with session := .unlocked ⟨attested, identity⟩ }
      | .error error =>
        let locked := { self with
          session := .none, unlockSession := none, unlockError := some (env.opError error) }
        match answers.reloaded with
        | .ok session => { locked with session := .locked session }
        | .error error => { locked with workspaceError := some (env.opError error) }
    else self
  | _, _ => self

/-- Lock the session and drop what is sensitive on screen. -/
def relock : Model env :=
  { self with
    session := self.session.relock
    unlockSession := none
    reveal := none
    secretFields := none
    mergeReveal := none
    modal := none
    unlockInput := ""
    unlockError := none }

/-- The acting identity is the stored default of the root, if the vault knows it. -/
def resolveActing (report : ValidationReport) (answers : Answers) : Model env :=
  let stored := report.effective.rootSigningPublicKeyHash.bind fun _ => answers.stored
  match Tui.resolveActing env.provider.toCryptoProvider report stored with
  | some (user, label) =>
    { self with acting := some user, actingLabel := some label, needsJoin := false }
  | none => { self with acting := none, actingLabel := none, needsJoin := true }

/-- Rebuild the projections from the current session. -/
def reproject : Model env :=
  match self.session.session? with
  | none => self
  | some session =>
    { self with nav := env.navigation.reproject session self.acting self.conflicts self.nav }

/-- What is derived from the report of the session. -/
def derive (session : LockedSession) (answers : Answers) : Model env :=
  let resolved := { self with block := blockReason session.report }.resolveActing session.report
    answers
  { resolved with
    conflicts := values session.report.effective.conflicted
    workspaceError := none
    vaultFingerprint := answers.fingerprint }.reproject

/-- Drop what was read before, and go to the secret that was just written. -/
def settleSelection : Model env :=
  let settled := { self with
    mergeReveal := none
    secretFields := none
    nav := env.navigation.leaveEmptyMerge self.nav }
  match self.selectTarget with
  | none => settled
  | some target =>
    { settled with selectTarget := none, nav := env.navigation.navigateTo target settled.nav }

/-- Derive everything besides the session from the session. -/
def refreshFromSession (answers : Answers) : Model env :=
  match self.session.session? with
  | none => self
  | some session => (self.derive session answers).settleSelection

/-- Read the vault from disk into a fresh session, promote it and derive the rest from it. -/
def reload (answers : Answers) : Model env :=
  match answers.load with
  | .ok session =>
    ({ self with session := .locked session }.promoteSessionIfUnlocked answers).refreshFromSession
      answers
  | .error error =>
    let dropped := { self with session := .none, vaultFingerprint := none, conflicts := [] }
    match error with
    | .missingRatchet _ =>
      { dropped with needsJoin := true, workspaceError := none, acting := none, actingLabel := none }
    | _ => { dropped with needsJoin := false, workspaceError := some (env.opError error) }

/-- The model before anything has been loaded. -/
def blank (env : Env) (now : Instant) : Model env where
  session := .none
  block := none
  workspaceError := none
  vaultFingerprint := none
  lastFreshnessCheck := now
  conflicts := []
  nav := env.navigation.initial
  mergeReveal := none
  selectTarget := none
  modal := none
  status := .empty
  statusSeen := ""
  statusExpires := none
  acting := none
  actingLabel := none
  needsJoin := false
  unlockSession := none
  reveal := none
  secretFields := none
  clipboardClearAt := none
  unlockInput := ""
  unlockError := none
  lastActive := now
  shouldQuit := false
  now := now

def load (env : Env) (answers : Answers) : Model env :=
  let loaded := (blank env answers.now).reload answers
  { loaded with nav := env.navigation.expandTop loaded.nav }

end Model

end Thorax.Tui
