import Thorax.TestSecrets
import Thorax.Tui.Effects

/-!
# An interface that can be evaluated

A vault with one secret below a namespace. The list shows the namespace and the secret, and a key
moves from one to the other.
-/

namespace Thorax.TestSupport

open Collections Tui

/-! ### Vaults with one secret -/

/-- A root user whose identifier is as long as a real one. -/
def owner : TestUser := ⟨List.replicate 15 1, List.replicate 14 2⟩

def ownerRoot : HashValue := keyHash transparentCrypto owner.signingPublicKey

def ownerRecord : VaultRecordV1 := signedRecord owner (.vaultRoot ⟨owner.id, owner.hpkePublicKey⟩)

def appSelector : SecretSelectorV1 := ⟨["app"], []⟩

def appSecretId : SecretId := deriveSecretId transparentCrypto appSelector

/-- The owner's secret, sealed to the owner. -/
def appRecord (value : SecretValueV1) (counter : ℕ) : VaultRecordV1 :=
  let slots : List RecipientSlotV1 :=
    [⟨owner.id, owner.hpkePublicKey,
      slotBytes ⟨ownerRoot, appSecretId, appSelector, owner.id⟩ ++ testRandomness.contentKey⟩]
  let aad := contentBytes ⟨ownerRoot, ⟨.secret appSecretId, owner.signingPublicKey, counter,
    appSecretId, appSelector⟩, testRandomness.nonce, slots⟩
  signedRecord owner (.secret ⟨appSecretId, appSelector,
    ⟨testRandomness.nonce, aad ++ (sealedValueV1Magic ++ fieldSeal.serializeValue value), slots⟩,
    counter⟩)

def testStore : StoreProvider := tableProvider ⟨[], [], [], []⟩

/-- A load of a vault with a root and further records. -/
def appSession (records : List VaultRecordV1) : LockedSession :=
  loadedSession testStore (.v1 ⟨ownerRecord :: records⟩) 0 (.new ownerRoot)

def firstValue : SecretValueV1 := ⟨asciiBytes "one", []⟩

def secondValue : SecretValueV1 := ⟨asciiBytes "two", []⟩

def firstSession : LockedSession := appSession [appRecord firstValue 0]

/-- The value has been written again. -/
def secondSession : LockedSession := appSession [appRecord firstValue 0, appRecord secondValue 1]

/-- The same vault with a signature that does not verify. -/
def brokenSession : LockedSession := appSession [{ appRecord firstValue 0 with signature := [] }]

/-! ### The list -/

structure TestNav where
  leaf : Option SecretLeaf
  onLeaf : Bool

def firstLeaf (session : LockedSession) (acting : Option UserId) : Option SecretLeaf :=
  session.report.effective.secretRecords.head?.map fun active =>
    ⟨active.value.selector, match acting with
      | some user => session.report.effective.classifySecretForUser transparentCrypto
          active.value.selector user
      | none => .unauthorized⟩

def testNavigation : Navigation TestNav Unit where
  initial := ⟨none, false⟩
  reproject session acting _ nav := { nav with leaf := firstLeaf session acting }
  leaveEmptyMerge nav := nav
  navigateTo _ nav := { nav with onLeaf := nav.leaf.isSome }
  expandTop nav := nav
  motion motion _ _ nav :=
    match motion with
    | .moveDown => ({ nav with onLeaf := nav.leaf.isSome }, none)
    | .moveUp => ({ nav with onLeaf := false }, none)
    | _ => (nav, none)
  view _ := .secrets
  accessTab _ := .users
  searching _ := false
  onButton _ := false
  selectedLeaf nav := if nav.onLeaf then nav.leaf else none
  selectedUser _ := none
  selectedGrant _ := none
  selectedGroup _ := none
  mergeSelection _ := none
  focusedButton _ _ _ := none
  clickList _ _ nav := nav
  grantPicker _ := .ok ()
  memberPicker _ := .ok none
  facetPicker _ := .error (.info "no labels to filter by — give secrets labels like env=prod")
  pickerKey _ _ _ picker nav := .keep picker nav

/-- The text is typed at its end. -/
def testEditing : Editing (List String) where
  fromLines lines := if lines = [] then [""] else lines
  lines area := area
  deleteWord area := area
  deleteNextWord area := area
  moveCursor _ area := area
  input key area :=
    match key.code with
    | .char c => area.dropLast ++ [(area.getLast?.getD "").push c]
    | .enter => area ++ [""]
    | _ => area

def testLossy (bytes : Bytes) : String := (String.fromUTF8? ⟨bytes.toArray⟩).getD "?"

lemma testLossy_utf8 (text : String) : testLossy text.toUTF8.data.toList = text := by
  rw [testLossy, fromUTF8?_toUTF8, Option.getD_some]

def testEnv : Env where
  provider := testStore
  sealing := fieldSeal
  Nav := TestNav
  Picker := Unit
  TextArea := List String
  navigation := testNavigation
  editing := testEditing
  fromUtf8Lossy := testLossy
  fromUtf8Lossy_utf8 := testLossy_utf8
  diagnose _ := "the operation failed"
  display _ := "invalid selector"
  conflictLabel _ := "conflict"

/-! ### Answers -/

def testMember : MemberIdentity where
  toUnlockedIdentity := testIdentity owner
  signCache message := owner.signingPublicKey ++ message

/-- What the outside answers about a vault file written at some time, at some later time. -/
def answersOf (session : LockedSession) (modified now : Instant) : Answers where
  now := now
  load := .ok session
  attested := .ok session
  reloaded := .ok session
  stored := some ⟨userHex owner.id, "root"⟩
  fingerprint := some ⟨session.vaultBytes.length, modified⟩
  hit := none
  unlocked := .ok testMember
  operated := (.ok (0, ""), session)
  candidates := .ok []
  copied := .ok ()
  joined := .error .missingDefaultUser
  vaultExists := true
  initialized := .error .missingDefaultUser

def startOf (session : LockedSession) : MessageLoop.State (Model testEnv) Effect :=
  ⟨Model.load testEnv (answersOf session 0 0), []⟩

def press (code : KeyCode) : Input := .key ⟨code, false, false, false⟩

end Thorax.TestSupport
