import Thorax.Tui.Update

/-!
# Keys

Which message a key stands for. The gates come first, then the open dialogue and the search bar, and
last the view.
-/

namespace Thorax.Tui

/-- Shift and Tab reach some terminals as one key. -/
def KeyEvent.normalized (key : KeyEvent) : KeyEvent :=
  if key.code = .tab ∧ key.shift then { key with code := .backTab, shift := false } else key

/-- The keys of a full-screen gate: a passphrase, and its submission. -/
def gateKey (key : KeyEvent) (submit : Message) : Option Message :=
  match key.code with
  | .enter => some submit
  | .backspace => some (if key.word then .unlockClear else .unlockBackspace)
  | .char c =>
    if (c = 'u' ∨ c = 'w') ∧ key.control then some .unlockClear
    else if key.word then none
    else some (.unlockChar c)
  | _ => none

def closesHelp (code : KeyCode) : Bool :=
  code = .esc || code = .enter || code = .char 'q' || code = .char '?' || code = .char 'H'

def mapModal {Picker TextArea : Type} (modal : Modal Picker TextArea) (key : KeyEvent) :
    Option Message :=
  match modal with
  | .help | .health => if closesHelp key.code then some .closeModal else none
  | .inviteBundle _ =>
    if key.code = .char 'y' then some .copyInviteBundle
    else if closesHelp key.code then some .closeModal
    else none
  | .confirm _ =>
    match key.code with
    | .char 'y' | .char 'Y' | .enter => some .confirmYes
    | .char 'n' | .char 'N' | .esc => some .closeModal
    | _ => none
  | .form _ => some (if key.code = .esc then .closeModal else .formKey key)
  | .editor _ _ =>
    some (if key.control = true ∧ key.code = .char 's' then .editorSubmit
      else if key.code = .esc then .closeModal
      else .editorKey key)
  | .picker _ => some (if key.code = .esc then .closeModal else .pickerKey key)

def searchKey (key : KeyEvent) : Option Message :=
  match key.code with
  | .esc => some (.navigate .searchCancel)
  | .enter => some (.navigate .searchApply)
  | .backspace => some (.navigate .searchBackspace)
  | .down => some (.navigate .moveDown)
  | .up => some (.navigate .moveUp)
  | .char c => if key.word then none else some (.navigate (.searchChar c))
  | _ => none

def joinKey (code : KeyCode) : Option Message :=
  match code with
  | .char 'c' | .enter => some .startClaim
  | .char '?' => some .openHelp
  | .char 'q' => some .quit
  | _ => none

def globalKey (code : KeyCode) : Option Message :=
  match code with
  | .char 'q' => some .quit
  | .char '?' => some .openHelp
  | .char '1' => some (.navigate (.switchView .secrets))
  | .char '2' => some (.navigate (.setAccessTab .users))
  | .char '3' => some (.navigate (.setAccessTab .groups))
  | .char '4' => some (.navigate (.switchView .merge))
  | .char 'H' => some .openHealth
  | .char 'L' => some .lockNow
  | .backTab => some (.navigate .focusList)
  | .tab => some (.navigate .focusNext)
  | _ => none

/-- The keys of a focused button. -/
def buttonKey (code : KeyCode) : Option Message :=
  match code with
  | .left | .char 'h' => some (.navigate .buttonPrev)
  | .right | .char 'l' => some (.navigate .buttonNext)
  | .up | .char 'k' | .esc => some (.navigate .focusList)
  | .enter | .char ' ' => some .activateButton
  | _ => none

def listKey (code : KeyCode) : Option Message :=
  match code with
  | .home | .char 'g' => some (.navigate .moveTop)
  | .end | .char 'G' => some (.navigate .moveBottom)
  | .pageUp => some (.navigate .pageUp)
  | .pageDown => some (.navigate .pageDown)
  | _ => none

def mapSecrets (code : KeyCode) : Option Message :=
  match code with
  | .char 'j' | .down => some (.navigate .moveDown)
  | .char 'k' | .up => some (.navigate .moveUp)
  | .char 'l' | .right | .enter => some (.navigate .open)
  | .char 'h' | .left => some (.navigate .close)
  | .char 'r' => some .reveal
  | .char 'y' => some .copy
  | .char 'e' => some .startEdit
  | .char 'n' => some .startNewSecret
  | .char 'd' => some .requestDeleteSecret
  | .char 'f' => some .openFacetFilter
  | .char '/' => some (.navigate .openSearch)
  | .esc => some (.navigate .searchCancel)
  | _ => none

def mapAccess (tab : AccessTab) (code : KeyCode) : Option Message :=
  match code with
  | .char 'n' => some (if tab = .users then .startInvite else .startGroup)
  | .char 'j' | .down => some (.navigate .moveDown)
  | .char 'k' | .up => some (.navigate .moveUp)
  | .char 'l' | .right | .enter => some (.navigate .open)
  | .char 'h' | .left => some (.navigate .close)
  | .char '[' | .char ']' => some (.navigate .cycleAccessTab)
  | .char 'i' => some .startInvite
  | .char 'V' => some .requestUserDelete
  | .char 'd' => some .requestAccessDelete
  | _ => none

def mapMerge (code : KeyCode) : Option Message :=
  match code with
  | .char 'j' | .down => some (.navigate .moveDown)
  | .char 'k' | .up => some (.navigate .moveUp)
  | .char 'l' | .right => some (.navigate .open)
  | .char 'h' | .left => some (.navigate .close)
  | .char 'r' => some .reveal
  | .char 'a' => some .requestAcceptRollback
  | .char 's' => some .startSetFresh
  | .enter | .char 'R' => some .requestResolveConflict
  | _ => none

section Maps

variable {env : Env} (model : Model env)

def mapView (code : KeyCode) : Option Message :=
  match env.navigation.view model.nav with
  | .secrets => mapSecrets code
  | .access => mapAccess (env.navigation.accessTab model.nav) code
  | .merge => mapMerge code

/-- The keys of the workspace itself. -/
def workspaceKey (code : KeyCode) : Option Message :=
  (globalKey code).or <|
    (if env.navigation.onButton model.nav then buttonKey code else none).or <|
      (listKey code).or (mapView model code)

/-- The keys where no dialogue is open. -/
def screenKey (key : KeyEvent) : Option Message :=
  if env.navigation.searching model.nav then searchKey key
  else if model.block.isSome then if key.code = .char 'q' then some .quit else none
  else if model.workspaceError.isSome then gateKey key .initSubmit
  else if model.isJoinGate then joinKey key.code
  else workspaceKey model key.code

def mapKey (event : KeyEvent) : Option Message :=
  let key := event.normalized
  if key.control = true ∧ key.code = .char 'c' then some .quit
  else if model.isUnlockGate then gateKey key .unlockSubmit
  else
    match model.modal with
    | some modal => mapModal modal key
    | none => screenKey model key

end Maps

end Thorax.Tui
