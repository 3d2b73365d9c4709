import Thorax.Library.Lines
import Thorax.Properties.SecretEdits
import Thorax.TestTui

/-!
# Values in the editor

The editor shows the lines of the primary value, and a submission writes the joined lines as the whole
value. The line ends are not all given back, and whatever is typed, the additional fields are not part
of what is written.
-/

namespace Thorax.Tui

open Collections Durable

/-! ### Lines -/

lemma linesOf_eq : linesOf = Lines.ofParts '\r' := by
  funext parts
  induction parts with
  | nil => rfl
  | cons part rest ih =>
    cases rest with
    | nil => rfl
    | cons next rest =>
      rw [Lines.ofParts_cons (List.cons_ne_nil _ _), ← ih]
      rfl

/-- The lines of a text, joined by an editor that gives back what it was given. -/
lemma toList_rejoined (text : String) : (String.intercalate "\n"
    (if lines text = [] then [""] else lines text)).toList =
      Lines.join '\n' (Lines.lines '\n' '\r' text.toList) := by
  have hlines : (lines text).map String.toList = Lines.lines '\n' '\r' text.toList := by
    simp [lines, Lines.lines, linesOf_eq, Function.comp_def]
  rw [String.toList_intercalate, ← hlines]
  split_ifs with hnil
  · rw [hnil]
    rfl
  · rfl

/-- A text that has only line feeds for its line ends, and none of them at its end. -/
def Restored (text : String) : Prop :=
  ¬ ['\r', '\n'] <:+: text.toList ∧ text.toList.getLast? ≠ some '\n'

instance (text : String) : Decidable (Restored text) := inferInstanceAs (Decidable (_ ∧ _))

lemma rejoined_eq_iff {text : String} : String.intercalate "\n"
    (if lines text = [] then [""] else lines text) = text ↔ Restored text := by
  rw [← String.toList_inj, toList_rejoined]
  exact Lines.join_lines_iff (by decide)

/-! ### From the request to the submission -/

section Flow

variable {env : Env} {model : Model env} {unlocked : UnlockedSession} {selector : SecretSelectorV1}
variable {plaintext : SecretPlaintext} {text : String} {asked ran told submitted : Answers}
variable {keys : List (Answers × KeyEvent)}

/-- Run an effect, and deliver the message it ends in. -/
def deliver (ran told : Answers) (model : Model env) (effect : Effect) : Model env :=
  match (runEffect ran effect model).2 with
  | some message => (update told message (runEffect ran effect model).1).1
  | none => (runEffect ran effect model).1

/-- Ask to edit the selected secret, and work off the effects of it. -/
def openForEdit (asked ran told : Answers) (model : Model env) : Model env :=
  (update asked .startEdit model).2.foldl (deliver ran told) (update asked .startEdit model).1

def typeKeys (keys : List (Answers × KeyEvent)) (model : Model env) : Model env :=
  keys.foldl (fun model typed => (update typed.1 (.editorKey typed.2) model).1) model

/-- The text area after some keys, with a text to begin with. -/
def typedArea (env : Env) (keys : List (Answers × KeyEvent)) (text : String) : env.TextArea :=
  keys.foldl (fun area typed => editTextarea env.editing area typed.2)
    (env.editing.fromLines (lines text))

/-- The bytes that are submitted. -/
def typedBytes (env : Env) (keys : List (Answers × KeyEvent)) (text : String) : Bytes :=
  (String.intercalate "\n" (env.editing.lines (typedArea env keys text))).toUTF8.data.toList

/-- The selected secret is a text that the session reads. -/
structure ReadsText (model : Model env) (unlocked : UnlockedSession) (selector : SecretSelectorV1)
    (plaintext : SecretPlaintext) (text : String) : Prop where
  session : model.session = .unlocked unlocked
  view : env.navigation.view model.nav = .secrets
  selected : model.selectedLeaf = some ⟨selector, .activeDecryptable⟩
  read : unlocked.getSecret env selector = .ok plaintext
  text : plaintext.plaintext = text.toUTF8.data.toList

/-- The request opens the editor on the lines of the value. -/
lemma modal_openForEdit (h : ReadsText model unlocked selector plaintext text) :
    (openForEdit asked ran told model).modal =
      some (.editor selector (env.editing.fromLines (lines text))) := by
  have hask : update asked .startEdit model =
      (model.touch asked .startEdit, [.getSecret selector .edit]) := by
    have hview : env.navigation.view (model.touch asked .startEdit).nav = .secrets := h.view
    have hselected : (model.touch asked .startEdit).selectedLeaf =
        some ⟨selector, .activeDecryptable⟩ := h.selected
    have hrequest : update asked .startEdit model =
        (model.touch asked .startEdit).requestGet .edit := rfl
    rw [hrequest, Model.requestGet, hview, hselected]
    rfl
  have hread : runEffect ran (.getSecret selector .edit) (model.touch asked .startEdit) =
      (model.touch asked .startEdit, some (.secretForEdit selector plaintext.plaintext)) := by
    have hsession : (model.touch asked .startEdit).session = .unlocked unlocked := h.session
    have hutf8 : isUtf8 plaintext.plaintext = true := by
      rw [isUtf8, h.text, fromUTF8?_toUTF8]
      rfl
    rw [runEffect, Model.getSecret, hsession]
    simp only [h.read, opened, hutf8, if_true]
  rw [openForEdit, hask, List.foldl_cons, List.foldl_nil, deliver, hread, h.text]
  have hshown : (update told (.secretForEdit selector text.toUTF8.data.toList)
      (model.touch asked .startEdit)).1.modal = some (.editor selector (env.editing.fromLines
        (lines (env.fromUtf8Lossy text.toUTF8.data.toList)))) := rfl
  rw [hshown, env.fromUtf8Lossy_utf8]

lemma modal_typeKeys {area : env.TextArea} (h : model.modal = some (.editor selector area)) :
    (typeKeys keys model).modal = some (.editor selector
      (keys.foldl (fun area typed => editTextarea env.editing area typed.2) area)) := by
  induction keys generalizing model area with
  | nil => exact h
  | cons typed keys ih =>
    rw [typeKeys, List.foldl_cons, List.foldl_cons, ← typeKeys]
    refine ih ?_
    have hkey : update typed.1 (.editorKey typed.2) model =
        ((model.touch typed.1 (.editorKey typed.2)).editorKey typed.2, []) := rfl
    have hmodal : (model.touch typed.1 (.editorKey typed.2)).modal = some (.editor selector area) := h
    rw [hkey, Model.editorKey, hmodal]

/-- The submission asks for a set of the joined lines. -/
lemma effects_submitted (h : ReadsText model unlocked selector plaintext text) :
    (update submitted .editorSubmit (typeKeys keys (openForEdit asked ran told model))).2 =
      [.operate (.setSecret selector (typedBytes env keys text) (selectorPath selector))] := by
  set typed := typeKeys keys (openForEdit asked ran told model)
  have hmodal : (typed.touch submitted .editorSubmit).modal =
      some (.editor selector (typedArea env keys text)) := modal_typeKeys (modal_openForEdit h)
  have hsubmit : update submitted .editorSubmit typed =
      (typed.touch submitted .editorSubmit).editorSubmit := rfl
  rw [hsubmit, Model.editorSubmit, hmodal]
  rfl

/-- Without a key, the lines of the text are joined. -/
lemma typedBytes_nil (hlines : ∀ given, env.editing.lines (env.editing.fromLines given) =
    if given = [] then [""] else given) :
    typedBytes env [] text = text.toUTF8.data.toList ↔ Restored text := by
  rw [typedBytes, typedArea, List.foldl_nil, hlines, ← rejoined_eq_iff]
  constructor
  · intro hbytes
    have hread := congrArg (fun bytes : Bytes => String.fromUTF8? ⟨bytes.toArray⟩) hbytes
    simp only [fromUTF8?_toUTF8] at hread
    exact Option.some.inj hread
  · intro heq
    rw [heq]

end Flow

/-! ### What is committed -/

section Commit

variable {env : Env} {model : Model env} {unlocked committing : UnlockedSession}
variable {selector target : SecretSelectorV1} {plaintext : SecretPlaintext} {text label : String}
variable {bytes vaultBytes : Bytes} {asked ran told submitted answers : Answers}
variable {keys : List (Answers × KeyEvent)} {envelopes : Set VaultRecordV1} {paths : WorkspacePaths}
variable {root : HashValue} {disk disk' : Disk} {vault : VaultStore} {ratchet : Ratchet}
variable {wrap : Bytes → Bytes → Bytes → Bytes → Except CryptoError HpkeSealed}

/-- The session has set the primary value, and the effect is answered with the session after it. -/
def SetsPrimary (env : Env)
    (wrap : Bytes → Bytes → Bytes → Bytes → Except CryptoError HpkeSealed)
    (committing : UnlockedSession) (selector : SecretSelectorV1) (bytes : Bytes) (answers : Answers)
    (disk disk' : Disk) : Prop :=
  ∃ contended transactionId random output, answers.operated.1 = .ok (0, "") ∧
    (setSecret env.provider (env.sealing.wrapping wrap) contended transactionId
      committing.identity.toUnlockedIdentity selector random bytes).Ends (disk, committing.session)
        output (disk', answers.operated.2)

/-- The fields of the value that a set replaces: those an owner of it reads, and none where nothing
is live at the selector. -/
def ReplacedFields (env : Env)
    (wrap : Bytes → Bytes → Bytes → Bytes → Except CryptoError HpkeSealed) (vault : VaultStore)
    (ratchet : Ratchet) (selector : SecretSelectorV1) (fields : List SecretFieldEntryV1) : Prop :=
  (∃ owner before, owner.Unwraps (env.sealing.wrapping wrap) ∧
    getSecretFrom env.provider env.sealing
      (validateVault env.provider.toCryptoProvider vault ratchet) owner selector = .ok before ∧
    fields = before.fields) ∨
  ((validateVault env.provider.toCryptoProvider vault ratchet).effective.secretRecord
      env.provider.toCryptoProvider selector = none ∧ fields = [])

/-- Only what is typed has changed: without a key the primary value is the one that was opened, and
with any keys the fields of the value that is replaced are kept. -/
def ChangesOnlyTyped (keys : List (Answers × KeyEvent)) (opened : SecretPlaintext)
    (fields : List SecretFieldEntryV1) (after : SecretPlaintext) : Prop :=
  (keys = [] → after.plaintext = opened.plaintext) ∧ ∀ field ∈ fields, field ∈ after.fields

lemma of_parts_fromPrimary {after : SecretPlaintext}
    (h : after.toValue.parts = (SecretValueV1.fromPrimary bytes).parts) :
    after.plaintext = bytes ∧ after.fields = [] := by
  refine ⟨Set.singleton_injective (congrFun h .primary), ?_⟩
  rw [List.eq_nil_iff_forall_not_mem]
  rintro ⟨key, value⟩ hmem
  have hfield : value ∈ (SecretValueV1.fromPrimary bytes).parts (.field key) := h ▸ hmem
  simp [SecretValueV1.parts, SecretValueV1.fromPrimary] at hfield

/-- Whoever opens what a submission commits finds that only what was typed has changed exactly if the
value that it replaces, which others may have committed after the editor was opened, has no fields,
and, without a key, the opened text had only line feeds for its line ends and none at its end. -/
theorem editor_changesOnlyTyped_iff
    (hlines : ∀ given, env.editing.lines (env.editing.fromLines given) =
      if given = [] then [""] else given)
    (hreads : ReadsText model unlocked selector plaintext text)
    (hsubmit : .operate (.setSecret target bytes label) ∈
      (update submitted .editorSubmit (typeKeys keys (openForEdit asked ran told model))).2)
    (hseparate : CollisionFreeEnvelopes env.provider.toCryptoProvider envelopes)
    (htrips : env.sealing.RoundTrips) (hdisk : disk.Within envelopes env.provider)
    (hdisk' : disk'.Within envelopes env.provider) (hcaches : CachesGenuine env.provider envelopes disk)
    (hrests : disk.RestsAt env.provider paths root vaultBytes vault ratchet)
    (hworks : committing.session.WorksAt env.provider envelopes paths root)
    (hset : SetsPrimary env wrap committing target bytes answers disk disk') :
    target = selector ∧ ∃ vaultBytes' vault' ratchet',
      disk'.RestsAt env.provider paths root vaultBytes' vault' ratchet' ∧
      ∀ fields reader after, ReplacedFields env wrap vault ratchet selector fields →
        reader.Unwraps (env.sealing.wrapping wrap) →
        getSecretFrom env.provider env.sealing
          (validateVault env.provider.toCryptoProvider vault' ratchet') reader selector = .ok after →
        (ChangesOnlyTyped keys plaintext fields after ↔
          fields = [] ∧ (keys = [] → Restored text)) := by
  rw [effects_submitted hreads, List.mem_singleton] at hsubmit
  obtain ⟨rfl, rfl, rfl⟩ := Operation.setSecret.inj (Effect.operate.inj hsubmit)
  obtain ⟨contended, transactionId, random, output, -, hends⟩ := hset
  obtain ⟨-, -, bytes', written, stored, signed, record, hrests', hlive, hroot, hseals⟩ :=
    hrests.sets hseparate hdisk hcaches hworks hends hdisk'
  refine ⟨rfl, bytes', written, stored, hrests', fun fields reader after _ hunwraps hread => ?_⟩
  have hwrapping : (env.sealing.wrapping wrap).RoundTrips := ⟨htrips.opens, htrips.reads⟩
  obtain ⟨_, -, hread⟩ := bind_eq_ok.mp hread
  simp only [decryptSecretFromReport, hlive, effectiveTrustedRoot, hroot] at hread
  obtain ⟨hprimary, hfields⟩ :=
    of_parts_fromPrimary (hseals.parts_of_decrypt hwrapping hunwraps hread)
  rw [ChangesOnlyTyped, hprimary, hfields, hreads.text, and_comm]
  refine and_congr ?_ (forall_congr' fun hkeys => ?_)
  · simp [List.eq_nil_iff_forall_not_mem]
  · rw [hkeys]
    exact typedBytes_nil hlines

end Commit

/-! ### Two secrets -/

section Examples

open TestSupport

/-- A vault before and after an edit without a key, once without fields and once with one. -/
def editorTables : Tables where
  vaults := [plainVault, plainVault.appendRecord (fieldsRecord [] 1), firstVault,
    firstVault.appendRecord (fieldsRecord [] 2)]
  ratchets := [ratchetStore writtenRatchet, ratchetStore (editedRatchet 1),
    ratchetStore (editedRatchet 2)]
  transactions := [editJournal 0 1 0, editJournal 2 3 1]
  caches := []

def editorEnv : Env := { testEnv with provider := tableProvider editorTables }

def editorMember : MemberIdentity where
  toUnlockedIdentity := testIdentity rootUser
  signCache message := rootUser.signingPublicKey ++ message

/-- The vault at some position of the table, and the ratchet that fits it. -/
def editorDisk (vault ratchet : UInt8) : Disk :=
  testDisk (some (vaultFile vault)) (some (ratchetFile ratchet)) none

def editorLoad (disk : Disk) : LockedSession :=
  (load editorEnv.provider false testPaths disk).result.toOption.getD firstSession

def editorSession (disk : Disk) : UnlockedSession := ⟨editorLoad disk, editorMember⟩

/-- The secret is selected. -/
def editorModel (disk : Disk) : Model editorEnv :=
  { Model.blank editorEnv 0 with
    session := .unlocked (editorSession disk)
    nav := (⟨some ⟨testSelector, .activeDecryptable⟩, true⟩ : TestNav) }

/-- What the session has set. -/
def editorOutcome (disk : Disk) : Outcome (Disk × LockedSession) OpsError SetSecretOutput :=
  setSecret editorEnv.provider (editorEnv.sealing.wrapping transparentSeal.wrapContentKey) false
    (List.replicate 32 7) (testIdentity rootUser) testSelector testRandomness (asciiBytes "value")
    (disk, editorLoad disk)

def editorAnswers (disk : Disk) : Answers :=
  { answersOf firstSession 0 0 with operated := (.ok (0, ""), (editorOutcome disk).last.2) }

/-- The effects of a submission without a key. -/
def editorEffects (disk : Disk) : List Effect :=
  (update (editorAnswers disk) .editorSubmit (typeKeys [] (openForEdit (editorAnswers disk)
    (editorAnswers disk) (editorAnswers disk) (editorModel disk)))).2

section Disks

variable {disk : Disk} {fields : List SecretFieldEntryV1} {vaultBytes : Bytes} {vault : VaultStore}
variable {ratchet : Ratchet}

/-- The value of both secrets, with some fields. -/
def editorPlaintext (fields : List SecretFieldEntryV1) : SecretPlaintext :=
  ⟨testSelector, asciiBytes "value", fields⟩

lemma asciiBytes_value : asciiBytes "value" = "value".toUTF8.data.toList := rfl

lemma lines_testEditing (given : List String) :
    editorEnv.editing.lines (editorEnv.editing.fromLines given) = if given = [] then [""] else given :=
  rfl

lemma readsText_editorModel
    (hread : (editorSession disk).getSecret editorEnv testSelector = .ok (editorPlaintext fields)) :
    ReadsText (editorModel disk) (editorSession disk) testSelector (editorPlaintext fields) "value" :=
  ⟨rfl, rfl, rfl, hread, asciiBytes_value⟩

lemma restored_value : Restored "value" := by decide

lemma editorEffects_eq
    (hread : (editorSession disk).getSecret editorEnv testSelector = .ok (editorPlaintext fields)) :
    editorEffects disk =
      [.operate (.setSecret testSelector (asciiBytes "value") (selectorPath testSelector))] := by
  rw [editorEffects, effects_submitted (readsText_editorModel hread), asciiBytes_value,
    (typedBytes_nil lines_testEditing).mpr restored_value]

lemma setsPrimary_editor (hset : (editorOutcome disk).result.isOk = true) :
    SetsPrimary editorEnv transparentSeal.wrapContentKey (editorSession disk) testSelector
      (asciiBytes "value") (editorAnswers disk) disk (editorOutcome disk).last.1 := by
  cases hresult : (editorOutcome disk).result with
  | error e => simp [hresult, Except.isOk, Except.toBool] at hset
  | ok output => exact ⟨false, _, testRandomness, output, rfl, hresult, rfl⟩

end Disks

lemma collisionFree_editorTables :
    CollisionFreeEnvelopes editorEnv.provider.toCryptoProvider editorTables.envelopes := by
  have hfree : CollisionFree editorEnv.provider.toCryptoProvider
      [vaultRootRecord, fieldsRecord [] 0, fieldsRecord [] 1, fieldsRecord [editedField "a" "1"] 1,
        fieldsRecord [] 2] := by
    decide +kernel
  exact collisionFree_envelopes hfree (by decide +kernel)

lemma restsAt_plain : (editorDisk 0 0).RestsAt editorEnv.provider testPaths testRoot (vaultFile 0)
    plainVault writtenRatchet :=
  ⟨rfl, rfl, rfl, rfl, rfl, rfl⟩

/-- The disk is loaded, and the root reads the secret: in the session and of the vault. -/
lemma opens_plain :
    (load editorEnv.provider false testPaths (editorDisk 0 0)).result.isOk = true ∧
      (editorSession (editorDisk 0 0)).getSecret editorEnv testSelector =
        .ok (editorPlaintext []) ∧
      getSecretFrom editorEnv.provider editorEnv.sealing
        (validateVault editorEnv.provider.toCryptoProvider plainVault writtenRatchet)
        (testIdentity rootUser) testSelector = .ok (editorPlaintext []) := by
  decide +kernel

lemma worksAt_plain : (editorSession (editorDisk 0 0)).session.WorksAt editorEnv.provider
    editorTables.envelopes testPaths testRoot := by
  have hloads := opens_plain.1
  cases hresult : (load editorEnv.provider false testPaths (editorDisk 0 0)).result with
  | error e => simp [hresult, Except.isOk, Except.toBool] at hloads
  | ok session =>
    have hsession : (editorSession (editorDisk 0 0)).session = session := by
      rw [editorSession, editorLoad, hresult]
      rfl
    rw [hsession]
    exact (restsAt_plain.loads collisionFree_editorTables.identify
      (within_tableProvider editorTables _) (cachesGenuine_testDisk _ _ _ _ _) ⟨hresult, rfl⟩).1

lemma replacedFields_plain : ReplacedFields editorEnv transparentSeal.wrapContentKey plainVault
    writtenRatchet testSelector [] :=
  .inl ⟨testIdentity rootUser, editorPlaintext [], unwraps_root, opens_plain.2.2, rfl⟩

/-- A text without fields is written back as it was. -/
theorem editor_keeps_plain : ∃ disk' vaultBytes' vault' ratchet',
    SetsPrimary editorEnv transparentSeal.wrapContentKey (editorSession (editorDisk 0 0)) testSelector
      (asciiBytes "value") (editorAnswers (editorDisk 0 0)) (editorDisk 0 0) disk' ∧
    disk'.RestsAt editorEnv.provider testPaths testRoot vaultBytes' vault' ratchet' ∧
    ∀ reader after, reader.Unwraps (editorEnv.sealing.wrapping transparentSeal.wrapContentKey) →
      getSecretFrom editorEnv.provider editorEnv.sealing
        (validateVault editorEnv.provider.toCryptoProvider vault' ratchet') reader testSelector =
          .ok after →
      ChangesOnlyTyped [] (editorPlaintext []) [] after := by
  have hset := setsPrimary_editor (show (editorOutcome (editorDisk 0 0)).result.isOk = true by
    decide +kernel)
  have hsubmit : .operate (.setSecret testSelector (asciiBytes "value") (selectorPath testSelector)) ∈
      editorEffects (editorDisk 0 0) := by
    rw [editorEffects_eq opens_plain.2.1]
    exact List.mem_singleton_self _
  rw [editorEffects] at hsubmit
  obtain ⟨-, vaultBytes', vault', ratchet', hrests, hfinds⟩ := editor_changesOnlyTyped_iff
    lines_testEditing (readsText_editorModel opens_plain.2.1) hsubmit collisionFree_editorTables
    roundTrips_fieldSeal (within_tableProvider editorTables _) (within_tableProvider editorTables _)
    (cachesGenuine_testDisk _ _ _ _ _) restsAt_plain worksAt_plain hset
  refine ⟨_, vaultBytes', vault', ratchet', hset, hrests, fun reader after hunwraps hread => ?_⟩
  exact (hfinds [] reader after replacedFields_plain hunwraps hread).mpr
    ⟨rfl, fun _ => restored_value⟩

/-- A field of a secret is gone once the editor was opened and submitted. -/
theorem editor_drops_field : ∃ disk' after,
    ReplacedFields editorEnv transparentSeal.wrapContentKey
      firstVault (editedRatchet 1) testSelector [editedField "a" "1"] ∧
    ReadsText (editorModel (editorDisk 2 1)) (editorSession (editorDisk 2 1)) testSelector
      (editorPlaintext [editedField "a" "1"]) "value" ∧
    editorEffects (editorDisk 2 1) =
      [.operate (.setSecret testSelector (asciiBytes "value") (selectorPath testSelector))] ∧
    SetsPrimary editorEnv transparentSeal.wrapContentKey (editorSession (editorDisk 2 1)) testSelector
      (asciiBytes "value") (editorAnswers (editorDisk 2 1)) (editorDisk 2 1) disk' ∧
    disk'.RestsAt editorEnv.provider testPaths testRoot (vaultFile 3)
      (firstVault.appendRecord (fieldsRecord [] 2)) (editedRatchet 2) ∧
    getSecretFrom editorEnv.provider editorEnv.sealing
      (validateVault editorEnv.provider.toCryptoProvider (firstVault.appendRecord (fieldsRecord [] 2))
        (editedRatchet 2)) (testIdentity rootUser) testSelector = .ok after ∧
    ¬ ChangesOnlyTyped [] (editorPlaintext [editedField "a" "1"]) [editedField "a" "1"] after := by
  obtain ⟨hread, hopens, hset, hrests, hafter⟩ :
      (editorSession (editorDisk 2 1)).getSecret editorEnv testSelector =
          .ok (editorPlaintext [editedField "a" "1"]) ∧
        getSecretFrom editorEnv.provider editorEnv.sealing
          (validateVault editorEnv.provider.toCryptoProvider firstVault (editedRatchet 1))
          (testIdentity rootUser) testSelector = .ok (editorPlaintext [editedField "a" "1"]) ∧
        (editorOutcome (editorDisk 2 1)).result.isOk = true ∧
        (editorOutcome (editorDisk 2 1)).last.1.RestsAt editorEnv.provider testPaths testRoot
          (vaultFile 3) (firstVault.appendRecord (fieldsRecord [] 2)) (editedRatchet 2) ∧
        getSecretFrom editorEnv.provider editorEnv.sealing
          (validateVault editorEnv.provider.toCryptoProvider
            (firstVault.appendRecord (fieldsRecord [] 2)) (editedRatchet 2))
          (testIdentity rootUser) testSelector = .ok (editorPlaintext []) := by
    decide +kernel
  refine ⟨(editorOutcome (editorDisk 2 1)).last.1, editorPlaintext [],
    .inl ⟨testIdentity rootUser, editorPlaintext [editedField "a" "1"], unwraps_root, hopens, rfl⟩,
    readsText_editorModel hread, editorEffects_eq hread, setsPrimary_editor hset, hrests, hafter,
    fun hkept => ?_⟩
  simpa [editorPlaintext] using hkept.2

end Examples

end Thorax.Tui
