import Thorax.Ops.SecretEdits
import Thorax.Properties.SecretReadings
import Thorax.TestSecrets

/-!
# Sealed values cannot be moved

With ciphers that open what was sealed and nothing else, whoever is a reader of a sealed record finds
the value that was sealed in it. A record that is put together from what can be observed opens only
if all that was bound to a ciphertext is as it was: the ciphers are judged by the calls that were
made, by those who seal and by others who do not know their content keys.
-/

namespace Thorax

open Collections Durable

/-! ### The calls that are made -/

/-- A payload that was sealed, with all that went into it. -/
structure SealRun (sealing : SealProvider) where
  effective : EffectiveState
  root : HashValue
  context : SealContext
  value : SecretValueV1
  random : SealRandomness
  payload : SealedPayloadV1
  trustedRoot : effectiveTrustedRoot effective = .ok root
  keyLength : random.contentKey.length = contentKeyLen
  nonceLength : random.nonce.length = contentNonceLen
  sealed : sealSecretPayload sealing effective context value random = .ok payload

/-- A ciphertext that a content key gave. -/
structure ContentCall where
  key : Bytes
  nonce : Bytes
  aad : Bytes
  plaintext : Bytes
  ciphertext : Bytes
  deriving DecidableEq

/-- A content key that was wrapped for the holder of a key. -/
structure WrapCall where
  recipient : Bytes
  info : Bytes
  aad : Bytes
  contentKey : Bytes
  wrapped : HpkeSealed
  deriving DecidableEq

section Runs

variable {sealing : SealProvider} (run : SealRun sealing)

/-- What is bound to the slot of a reader. -/
def SealRun.binding (reader : UserId) : Bytes :=
  sealing.slotBindingBytes ⟨run.root, run.context.secretId, run.context.selector, reader⟩

def SealRun.contentCall : ContentCall where
  key := run.random.contentKey
  nonce := run.random.nonce
  aad := sealing.contentAadBytes
    ⟨run.root, run.context, run.random.nonce, run.payload.recipientSlots⟩
  plaintext := sealedValueV1Magic ++ sealing.serializeValue run.value
  ciphertext := run.payload.ciphertext

/-- The content key was wrapped for each reader, under the binding of its slot. -/
def SealRun.Wraps (call : WrapCall) : Prop :=
  ∃ slot ∈ run.payload.recipientSlots, ∃ user,
    run.effective.users[slot.recipientId]? = some user ∧
      call = ⟨user.hpkePublicKey, run.binding slot.recipientId, run.binding slot.recipientId,
        run.random.contentKey, ⟨slot.hpkeEncapsulatedKey, slot.wrappedContentKey⟩⟩

end Runs

/-- The payloads that were sealed, and the calls of others, who do not know their content keys and
whose wrapped keys are new. -/
structure CipherLog (sealing : SealProvider) where
  runs : Set (SealRun sealing)
  contents : Set ContentCall
  wraps : Set WrapCall
  unknown : ∀ call ∈ contents, ∀ run ∈ runs, call.key ≠ run.random.contentKey
  new : ∀ call ∈ wraps, ∀ run ∈ runs, ∀ slot ∈ run.payload.recipientSlots,
    call.wrapped ≠ ⟨slot.hpkeEncapsulatedKey, slot.wrappedContentKey⟩

section Log

variable {sealing : SealProvider} (log : CipherLog sealing)

/-- Contents open exactly where they were sealed, and the serializer reads what it has written and
writes no two bindings alike. -/
structure CipherLog.Ideal : Prop where
  opens : ∀ call : ContentCall,
    sealing.openContent call.key call.nonce call.aad call.ciphertext = .ok call.plaintext ↔
      call ∈ log.contents ∨ ∃ run ∈ log.runs, run.contentCall = call
  reads : ∀ value, ∃ read, sealing.deserializeValue (sealing.serializeValue value) = .ok read ∧
    read.primary = value.primary ∧ ∀ entry, entry ∈ read.fields ↔ entry ∈ value.fields
  bound : Function.Injective sealing.contentAadBytes

/-- An identity unwraps exactly the content keys that were wrapped for its key. -/
def CipherLog.IdealFor (identity : UnlockedIdentity) : Prop :=
  ∀ call : WrapCall, call.recipient = identity.hpkePublicKey →
    (identity.unwrapContentKey call.wrapped.encapsulatedKey call.info call.aad
      call.wrapped.ciphertext = .ok call.contentKey ↔
        call ∈ log.wraps ∨ ∃ run ∈ log.runs, run.Wraps call)

/-- A record that is put together from nonces, ciphertexts and slots of payloads. -/
structure CipherLog.Assembled (record : SecretRecordV1) : Prop where
  nonce : ∃ run ∈ log.runs, record.sealed.nonce = run.payload.nonce
  ciphertext : ∃ run ∈ log.runs, record.sealed.ciphertext = run.payload.ciphertext
  slots : ∀ slot ∈ record.sealed.recipientSlots, ∃ run ∈ log.runs,
    slot ∈ run.payload.recipientSlots

end Log

/-! ### Sealing -/

section Sealing

variable {sealing : SealProvider} {effective : EffectiveState} {context : SealContext}
variable {value : SecretValueV1} {random : SealRandomness} {payload : SealedPayloadV1}
variable {root : HashValue}

/-- Each slot wraps the content key for the user it names. -/
lemma slot_of_sealSecretPayload (hroot : effectiveTrustedRoot effective = .ok root)
    (h : sealSecretPayload sealing effective context value random = .ok payload)
    {slot : RecipientSlotV1} (hslot : slot ∈ payload.recipientSlots) :
    ∃ user, effective.users[slot.recipientId]? = some user ∧
      sealing.wrapContentKey user.hpkePublicKey
          (sealing.slotBindingBytes ⟨root, context.secretId, context.selector, slot.recipientId⟩)
          (sealing.slotBindingBytes ⟨root, context.secretId, context.selector, slot.recipientId⟩)
          random.contentKey = .ok ⟨slot.hpkeEncapsulatedKey, slot.wrappedContentKey⟩ := by
  simp only [sealSecretPayload, hroot, bind_eq_ok, mapError_eq_ok] at h
  obtain ⟨_, hsame, slots, hslots, ciphertext, -, h⟩ := h
  obtain rfl := Except.ok.inj hsame
  obtain rfl := Except.ok.inj h
  obtain ⟨reader, -, hsealed⟩ := (mem_of_mapM hslots).2 slot hslot
  unfold sealSlot at hsealed
  split at hsealed
  · cases hsealed
  · next user huser =>
    obtain ⟨wrapped, hwrapped, hsealed⟩ := bind_eq_ok.mp hsealed
    obtain rfl := Except.ok.inj hsealed
    exact ⟨user, huser, mapError_eq_ok.mp hwrapped⟩

lemma fixedArray_eq_ok {length : ℕ} {name : String} {bytes result : Bytes} :
    fixedArray length name bytes = .ok result ↔ bytes.length = length ∧ bytes = result := by
  rw [fixedArray]
  split_ifs with h
  · simp [h]
  · simp [h]

/-- The steps of opening a record. -/
lemma decryptSecretRecord_eq_ok {identity : UnlockedIdentity} {signed : VaultRecordV1}
    {record : SecretRecordV1} {plaintext : SecretPlaintext} :
    decryptSecretRecord sealing identity signed record root = .ok plaintext ↔
      ∃ slot, record.sealed.recipientSlots.find? (·.recipientId = identity.userId) = some slot ∧
        ∃ key, identity.unwrapContentKey slot.hpkeEncapsulatedKey
            (sealing.slotBindingBytes ⟨root, record.id, record.selector, slot.recipientId⟩)
            (sealing.slotBindingBytes ⟨root, record.id, record.selector, slot.recipientId⟩)
            slot.wrappedContentKey = .ok key ∧
          key.length = contentKeyLen ∧ record.sealed.nonce.length = contentNonceLen ∧
            ∃ opened, sealing.openContent key record.sealed.nonce (sealing.contentAadBytes ⟨root,
                ⟨.secret record.id, signed.signingPublicKey, record.counter, record.id,
                  record.selector⟩, record.sealed.nonce, record.sealed.recipientSlots⟩)
                record.sealed.ciphertext = .ok opened ∧
              ∃ decoded, decodeSecretValue sealing opened = .ok decoded ∧
                (⟨record.selector, decoded.primary,
                  sortBy (compareOn SecretFieldEntryV1.key) decoded.fields⟩ : SecretPlaintext) =
                    plaintext := by
  unfold decryptSecretRecord
  cases hfind : record.sealed.recipientSlots.find? (·.recipientId = identity.userId) with
  | none => simp
  | some slot =>
    simp only [bind_eq_ok, mapError_eq_ok, fixedArray_eq_ok, Option.some.injEq,
      exists_eq_left', Except.ok.injEq]
    constructor
    · rintro ⟨key, hkey, _, ⟨hlength, rfl⟩, _, ⟨hnonce, rfl⟩, hrest⟩
      exact ⟨key, hkey, hlength, hnonce, hrest⟩
    · rintro ⟨key, hkey, hlength, hnonce, hrest⟩
      exact ⟨key, hkey, key, ⟨hlength, rfl⟩, _, ⟨hnonce, rfl⟩, hrest⟩

end Sealing

/-! ### Opening what was sealed -/

section Opening

variable {sealing : SealProvider} {log : CipherLog sealing} {run : SealRun sealing}
variable {identity : UnlockedIdentity} {signed : VaultRecordV1} {record : SecretRecordV1}

/-- A record of a payload, at the place the payload was sealed for. -/
structure SealRun.RecordedAs (run : SealRun sealing) (signed : VaultRecordV1)
    (record : SecretRecordV1) : Prop where
  context : run.context =
    ⟨.secret record.id, signed.signingPublicKey, record.counter, record.id, record.selector⟩
  payload : run.payload = record.sealed

/-- A user who could read a selector, with the key that its record names. -/
structure SealRun.ReadBy (run : SealRun sealing) (identity : UnlockedIdentity) : Prop where
  reader : identity.userId ∈ run.effective.currentReaderEntries run.context.selector
  key : ∀ user, run.effective.users[identity.userId]? = some user →
    user.hpkePublicKey = identity.hpkePublicKey

/-- An opened record shows a value: its primary bytes, and the set of its fields. -/
structure SecretPlaintext.Shows (plaintext : SecretPlaintext) (value : SecretValueV1) : Prop where
  primary : plaintext.plaintext = value.primary
  fields : ∀ entry, entry ∈ plaintext.fields ↔ entry ∈ value.fields

lemma SealRun.nonce_payload (run : SealRun sealing) : run.payload.nonce = run.random.nonce :=
  (seals_of_sealSecretPayload run.trustedRoot run.sealed).nonce

/-- Among the slots there is one for each reader. -/
lemma SealRun.ReadBy.exists_slot (h : run.ReadBy identity) : ∃ slot,
    run.payload.recipientSlots.find? (·.recipientId = identity.userId) = some slot ∧
      slot ∈ run.payload.recipientSlots ∧ slot.recipientId = identity.userId := by
  have hreader := h.reader
  rw [← slots_of_sealSecretPayload run.sealed, List.mem_map] at hreader
  obtain ⟨slot, hslot, hid⟩ := hreader
  have hsome : (run.payload.recipientSlots.find? (·.recipientId = identity.userId)).isSome := by
    rw [List.find?_isSome]
    exact ⟨slot, hslot, decide_eq_true hid⟩
  obtain ⟨found, hfound⟩ := Option.isSome_iff_exists.mp hsome
  exact ⟨found, hfound, List.mem_of_find?_eq_some hfound, by simpa using List.find?_some hfound⟩

/-- A reader finds what was sealed. -/
lemma opened_of_recorded (hideal : log.Ideal) (hidentity : log.IdealFor identity)
    (hrun : run ∈ log.runs) (hreads : run.ReadBy identity) (hrecorded : run.RecordedAs signed record) :
    ∃ plaintext, decryptSecretRecord sealing identity signed record run.root = .ok plaintext ∧
      plaintext.selector = record.selector ∧ plaintext.Shows run.value := by
  obtain ⟨slot, hfind, hslot, hid⟩ := hreads.exists_slot
  obtain ⟨user, huser, -⟩ := slot_of_sealSecretPayload run.trustedRoot run.sealed hslot
  have hunwrap := (hidentity ⟨user.hpkePublicKey, run.binding slot.recipientId,
    run.binding slot.recipientId, run.random.contentKey,
    ⟨slot.hpkeEncapsulatedKey, slot.wrappedContentKey⟩⟩ (hreads.key user (hid ▸ huser))).mpr
      (Or.inr ⟨run, hrun, slot, hslot, user, huser, rfl⟩)
  have hopen := (hideal.opens run.contentCall).mpr (Or.inr ⟨run, hrun, rfl⟩)
  obtain ⟨read, hread, hprimary, hfields⟩ := hideal.reads run.value
  refine ⟨⟨record.selector, read.primary, sortBy (compareOn SecretFieldEntryV1.key) read.fields⟩,
    ?_, rfl, hprimary, fun entry => (mem_sortBy _).trans (hfields entry)⟩
  rw [SealRun.binding, hrecorded.context] at hunwrap
  rw [SealRun.contentCall, hrecorded.context, ← run.nonce_payload, hrecorded.payload] at hopen
  rw [hrecorded.payload] at hfind
  refine decryptSecretRecord_eq_ok.mpr ⟨slot, hfind, run.random.contentKey, hunwrap, run.keyLength,
    ?_, _, hopen, read, ?_, rfl⟩
  · rw [← hrecorded.payload, run.nonce_payload]
    exact run.nonceLength
  · rw [decodeSecretValue_magic, hread]

/-- What opens is bound to what it was sealed with. -/
lemma bound_of_decrypt {root : HashValue} {plaintext : SecretPlaintext} (hideal : log.Ideal)
    (hidentity : log.IdealFor identity) (hassembled : log.Assembled record)
    (h : decryptSecretRecord sealing identity signed record root = .ok plaintext) :
    ∃ run ∈ log.runs, run.root = root ∧ run.RecordedAs signed record ∧
      plaintext.Shows run.value := by
  obtain ⟨slot, hfind, key, hunwrap, -, -, opened, hopen, decoded, hdecoded, rfl⟩ :=
    decryptSecretRecord_eq_ok.mp h
  obtain ⟨source, hsource, hslot⟩ := hassembled.slots slot (List.mem_of_find?_eq_some hfind)
  -- the slot was observed, so it wraps a key that others do not know
  obtain ⟨owner, howner, hkey⟩ : ∃ owner ∈ log.runs, key = owner.random.contentKey := by
    rcases (hidentity ⟨identity.hpkePublicKey, _, _, key,
      ⟨slot.hpkeEncapsulatedKey, slot.wrappedContentKey⟩⟩ rfl).mp hunwrap with
        hforeign | ⟨owner, howner, _, -, _, -, hcall⟩
    · exact absurd rfl (log.new _ hforeign source hsource slot hslot)
    · exact ⟨owner, howner, (WrapCall.mk.inj hcall).2.2.2.1⟩
  rcases (hideal.opens ⟨key, _, _, opened, _⟩).mp hopen with hforeign | ⟨run, hrun, hcall⟩
  · exact absurd hkey (log.unknown _ hforeign owner howner)
  obtain ⟨-, hnonce, haad, hplain, hciphertext⟩ := ContentCall.mk.inj hcall
  obtain ⟨hroot, hcontext, -, hslots⟩ := SecretContentAadV1.mk.inj (hideal.bound haad)
  have hpayload : run.payload = record.sealed := by
    have hsame := run.nonce_payload.trans hnonce
    cases hrunPayload : run.payload
    cases hrecord : record.sealed
    simp_all
  obtain ⟨read, hread, hprimary, hfields⟩ := hideal.reads run.value
  rw [← hplain, decodeSecretValue_magic, hread] at hdecoded
  obtain rfl := Except.ok.inj hdecoded
  exact ⟨run, hrun, hroot, ⟨hcontext, hpayload⟩, hprimary, fun entry =>
    (mem_sortBy _).trans (hfields entry)⟩

/-- What begins like a value of the program and is none is refused. -/
lemma decodeSecretValue_prefixed {opened : Bytes} (hprefixed : sealedValuePrefix <+: opened)
    (hnone : ∀ payload value, opened = sealedValueV1Magic ++ payload →
      sealing.deserializeValue payload ≠ .ok value) :
    decodeSecretValue sealing opened = .error .invalidSecretPlaintext := by
  by_cases hmagic : sealedValueV1Magic <+: opened
  · obtain ⟨payload, rfl⟩ := hmagic
    rw [decodeSecretValue_magic]
    cases hread : sealing.deserializeValue payload with
    | ok value => exact absurd hread (hnone payload value rfl)
    | error _ => rfl
  · rw [decodeSecretValue, if_neg (List.isPrefixOf_iff_prefix.not.mpr hmagic),
      if_pos (List.isPrefixOf_iff_prefix.mpr hprefixed)]

end Opening

/-! ### What is promised of sealed values -/

/-- An edit of an opened secret changes what it names and nothing else. -/
structure EditsExact (previous : SecretPlaintext) : Prop where
  primary : ∀ bytes, (previous.toValueWithPrimary bytes).primary = bytes ∧
    ∀ entry, entry ∈ (previous.toValueWithPrimary bytes).fields ↔ entry ∈ previous.fields
  inserted : ∀ key bytes, (previous.withField key bytes).primary = previous.plaintext ∧
    ∀ entry, entry ∈ (previous.withField key bytes).fields ↔
      entry = ⟨key, bytes⟩ ∨ (entry ∈ previous.fields ∧ entry.key ≠ key)
  removed : ∀ key, (previous.withoutField key).primary = previous.plaintext ∧
    ∀ entry, entry ∈ (previous.withoutField key).fields ↔
      entry ∈ previous.fields ∧ entry.key ≠ key

/-- Sealed values open to what was sealed, and nowhere but where they were sealed. -/
structure SealedValuesSound {sealing : SealProvider} (log : CipherLog sealing) : Prop where
  opened : ∀ run ∈ log.runs, ∀ identity, log.IdealFor identity → run.ReadBy identity →
    ∀ signed record, run.RecordedAs signed record → ∃ plaintext,
      decryptSecretRecord sealing identity signed record run.root = .ok plaintext ∧
        plaintext.selector = record.selector ∧ plaintext.Shows run.value
  bound : ∀ identity, log.IdealFor identity → ∀ signed record root plaintext,
    log.Assembled record →
      decryptSecretRecord sealing identity signed record root = .ok plaintext →
        ∃ run ∈ log.runs, run.root = root ∧ run.RecordedAs signed record ∧
          plaintext.Shows run.value
  edits : ∀ previous, EditsExact previous
  refused : ∀ opened, sealedValuePrefix <+: opened →
    (∀ payload value, opened = sealedValueV1Magic ++ payload →
      sealing.deserializeValue payload ≠ .ok value) →
        decodeSecretValue sealing opened = .error .invalidSecretPlaintext

lemma editsExact (previous : SecretPlaintext) : EditsExact previous where
  primary _ := ⟨rfl, fun _ => Iff.rfl⟩
  inserted key bytes := by
    refine ⟨rfl, fun entry => ?_⟩
    simp only [SecretPlaintext.withField, List.mem_append, List.mem_filter, List.mem_singleton,
      decide_not, Bool.not_eq_true', decide_eq_false_iff_not]
    exact or_comm
  removed key := by
    refine ⟨rfl, fun entry => ?_⟩
    simp [SecretPlaintext.withoutField]

/-- With ideal ciphers, sealed values open to what was sealed and cannot be moved. -/
theorem sealedValues_sound {sealing : SealProvider} {log : CipherLog sealing}
    (hideal : log.Ideal) : SealedValuesSound log where
  opened _ hrun _ hidentity hreads _ _ := opened_of_recorded hideal hidentity hrun hreads
  bound _ hidentity _ _ _ _ := bound_of_decrypt hideal hidentity
  edits := editsExact
  refused _ := decodeSecretValue_prefixed

/-! ### Ciphers that know one payload -/

section Example

open TestSupport

/-- What is written tells a part of what it is for, and where it ends. -/
def Tells {α β : Type} (write : α → Bytes) (part : α → β) : Prop :=
  ∀ a b rest rest', write a ++ rest = write b ++ rest' → part a = part b ∧ rest = rest'

section Tells

variable {α β γ : Type} {write write' : α → Bytes} {part : α → β} {part' : α → γ}

lemma Tells.imp (h : Tells write part) (hparts : ∀ a b, part a = part b → part' a = part' b) :
    Tells write part' := by
  intro a b rest rest' heq
  obtain ⟨hpart, hrest⟩ := h a b rest rest' heq
  exact ⟨hparts a b hpart, hrest⟩

lemma Tells.comp {write : β → Bytes} (h : Tells write id) (part : α → β) :
    Tells (fun a => write (part a)) part :=
  fun a b rest rest' heq => h (part a) (part b) rest rest' heq

lemma Tells.append (h : Tells write part) (h' : Tells write' part') :
    Tells (fun a => write a ++ write' a) fun a => (part a, part' a) := by
  intro a b rest rest' heq
  rw [List.append_assoc, List.append_assoc] at heq
  obtain ⟨hpart, heq⟩ := h _ _ _ _ heq
  obtain ⟨hpart', heq⟩ := h' _ _ _ _ heq
  exact ⟨Prod.ext hpart hpart', heq⟩

lemma Tells.items (h : Tells write id) : Tells (writeItems write) id := by
  intro a
  induction a with
  | nil =>
    intro b rest rest' heq
    cases b with
    | nil => exact ⟨rfl, (List.cons.inj heq).2⟩
    | cons => exact absurd (List.cons.inj heq).1 (by decide)
  | cons item items ih =>
    intro b rest rest' heq
    cases b with
    | nil => exact absurd (List.cons.inj heq).1 (by decide)
    | cons item' items' =>
      rw [writeItems, writeItems, List.cons_append, List.cons_append] at heq
      have htail := (List.cons.inj heq).2
      rw [List.append_assoc, List.append_assoc] at htail
      obtain ⟨hitem, htail⟩ := h item item' _ _ htail
      obtain ⟨hitems, hrest⟩ := ih items' _ _ htail
      exact ⟨congrArg₂ List.cons hitem hitems, hrest⟩

lemma Tells.injective (h : Tells write id) : Function.Injective write := fun a b heq =>
  (h a b [] [] (by rw [heq])).1

end Tells

/-- A number is as many ones. -/
def writeNat (n : ℕ) : Bytes := writeItems (fun _ : Unit => []) (List.replicate n ())

def writeText (text : String) : Bytes := writeItems writeNat (text.toList.map Char.toNat)

def writeHash (hash : HashValue) : Bytes := writeItems writeByte hash.bytes

def writeKey (key : RecordKey) : Bytes := writeNat key.tagged.index ++ writeHash key.tagged.hash

def writeSelector (selector : SecretSelectorV1) : Bytes :=
  writeItems writeText selector.tuple ++
    writeItems (fun label : SecretLabelV1 => writeText label.key ++ writeText label.value)
      selector.labels

def writeSlot (slot : RecipientSlotV1) : Bytes :=
  writeHash slot.recipientId.hash ++ (writeItems writeByte slot.hpkeEncapsulatedKey ++
    writeItems writeByte slot.wrappedContentKey)

def writeContext (context : SealContext) : Bytes :=
  writeKey context.recordKey ++ (writeItems writeByte context.signerKey ++
    (writeNat context.counter ++ (writeHash context.secretId.hash ++
      writeSelector context.selector)))

def writeAad (aad : SecretContentAadV1) : Bytes :=
  writeHash aad.trustedRoot ++ (writeContext aad.context ++
    (writeItems writeByte aad.nonce ++ writeItems writeSlot aad.recipientSlots))

lemma tells_writeNat : Tells writeNat id := by
  have hunit : Tells (fun _ : Unit => []) id := fun _ _ _ _ heq => ⟨rfl, heq⟩
  exact (hunit.items.comp fun n => List.replicate n ()).imp fun _ _ heq => by
    simpa using congrArg List.length heq

lemma tells_writeBytes : Tells (writeItems writeByte) id :=
  Tells.items fun _ _ _ _ heq => List.cons.inj heq

lemma tells_writeText : Tells writeText id :=
  (tells_writeNat.items.comp fun text : String => text.toList.map Char.toNat).imp fun _ _ heq =>
    String.toList_injective (List.map_injective_iff.mpr (fun _ _ => Char.toNat_inj.mp) heq)

lemma tells_writeHash : Tells writeHash id :=
  (tells_writeBytes.comp HashValue.bytes).imp fun _ _ => HashValue.ext

lemma tells_writeId {kind : IdKind} : Tells (fun id : Id kind => writeHash id.hash) id :=
  (tells_writeHash.comp Id.hash).imp fun _ _ => Id.ext

lemma tells_writeKey : Tells writeKey id := by
  have htagged : Tells (fun tagged : Tagged => writeNat tagged.index ++ writeHash tagged.hash) id := by
    refine ((tells_writeNat.comp Tagged.index).append (tells_writeHash.comp Tagged.hash)).imp ?_
    rintro ⟨index, hash⟩ ⟨index', hash'⟩ heq
    obtain ⟨rfl, rfl⟩ := Prod.mk.inj heq
    rfl
  exact (htagged.comp RecordKey.tagged).imp fun _ _ heq => RecordKey.tagged_injective heq

lemma tells_writeSelector : Tells writeSelector id := by
  have hlabel : Tells (fun label : SecretLabelV1 => writeText label.key ++ writeText label.value)
      id := by
    refine ((tells_writeText.comp SecretLabelV1.key).append
      (tells_writeText.comp SecretLabelV1.value)).imp ?_
    rintro ⟨key, value⟩ ⟨key', value'⟩ heq
    obtain ⟨rfl, rfl⟩ := Prod.mk.inj heq
    rfl
  refine ((tells_writeText.items.comp SecretSelectorV1.tuple).append
    (hlabel.items.comp SecretSelectorV1.labels)).imp ?_
  rintro ⟨tuple, labels⟩ ⟨tuple', labels'⟩ heq
  obtain ⟨rfl, rfl⟩ := Prod.mk.inj heq
  rfl

lemma tells_writeSlot : Tells writeSlot id := by
  refine ((tells_writeId.comp RecipientSlotV1.recipientId).append
    ((tells_writeBytes.comp RecipientSlotV1.hpkeEncapsulatedKey).append
      (tells_writeBytes.comp RecipientSlotV1.wrappedContentKey))).imp ?_
  rintro ⟨recipient, encapsulated, wrapped⟩ ⟨recipient', encapsulated', wrapped'⟩ heq
  simp only [Prod.mk.injEq] at heq
  obtain ⟨rfl, rfl, rfl⟩ := heq
  rfl

lemma tells_writeContext : Tells writeContext id := by
  refine ((tells_writeKey.comp SealContext.recordKey).append
    ((tells_writeBytes.comp SealContext.signerKey).append
      ((tells_writeNat.comp SealContext.counter).append
        ((tells_writeId.comp SealContext.secretId).append
          (tells_writeSelector.comp SealContext.selector))))).imp ?_
  rintro ⟨key, signer, counter, secret, selector⟩ ⟨key', signer', counter', secret', selector'⟩ heq
  simp only [Prod.mk.injEq] at heq
  obtain ⟨rfl, rfl, rfl, rfl, rfl⟩ := heq
  rfl

lemma tells_writeAad : Tells writeAad id := by
  refine ((tells_writeHash.comp SecretContentAadV1.trustedRoot).append
    ((tells_writeContext.comp SecretContentAadV1.context).append
      ((tells_writeBytes.comp SecretContentAadV1.nonce).append
        (tells_writeSlot.items.comp SecretContentAadV1.recipientSlots)))).imp ?_
  rintro ⟨root, context, nonce, slots⟩ ⟨root', context', nonce', slots'⟩ heq
  simp only [Prod.mk.injEq] at heq
  obtain ⟨rfl, rfl, rfl, rfl⟩ := heq
  rfl

/-- The vault of the root alone, in which one payload is sealed for the root. -/
def sealedState : EffectiveState :=
  (validateVault transparentCrypto (.v1 ⟨[vaultRootRecord]⟩) freshRatchet).effective

def sealedContext : SealContext :=
  ⟨.secret testSecretId, rootUser.signingPublicKey, 1, testSecretId, testSelector⟩

def sealedBinding : Bytes := slotBytes ⟨testRoot, testSecretId, testSelector, rootUser.id⟩

def sealedSlots : List RecipientSlotV1 :=
  [⟨rootUser.id, rootUser.hpkePublicKey, sealedBinding ++ testRandomness.contentKey⟩]

def sealedCall : ContentCall where
  key := testRandomness.contentKey
  nonce := testRandomness.nonce
  aad := writeAad ⟨testRoot, sealedContext, testRandomness.nonce, sealedSlots⟩
  plaintext := sealedValueV1Magic ++ fieldSeal.serializeValue testValue
  ciphertext := writeAad ⟨testRoot, sealedContext, testRandomness.nonce, sealedSlots⟩ ++
    (sealedValueV1Magic ++ fieldSeal.serializeValue testValue)

/-- Ciphers that open the one payload and nothing else. -/
def loggedSeal : SealProvider where
  __ := fieldSeal
  contentAadBytes := writeAad
  openContent key nonce aad ciphertext :=
    if key = sealedCall.key ∧ nonce = sealedCall.nonce ∧ aad = sealedCall.aad ∧
      ciphertext = sealedCall.ciphertext then .ok sealedCall.plaintext
    else .error .aead

def sealedPayload : SealedPayloadV1 := ⟨sealedCall.nonce, sealedCall.ciphertext, sealedSlots⟩

/-- The root, who unwraps the one content key and nothing else. -/
def loggedIdentity : UnlockedIdentity where
  toRecordSigner := testSigner rootUser
  unwrapContentKey encapsulated info aad wrapped :=
    if encapsulated = rootUser.hpkePublicKey ∧ info = sealedBinding ∧ aad = sealedBinding ∧
      wrapped = sealedBinding ++ testRandomness.contentKey then .ok testRandomness.contentKey
    else .error .invalidHpkeEncapsulatedKey

lemma root_sealedState : effectiveTrustedRoot sealedState = .ok testRoot := rfl

lemma readers_sealedState :
    sealedState.currentReaderEntries sealedContext.selector = [rootUser.id] := rfl

lemma user_sealedState : ∃ user, sealedState.users[rootUser.id]? = some user ∧
    user.hpkePublicKey = rootUser.hpkePublicKey := by
  have hkey : (sealedState.users[rootUser.id]?).map (·.hpkePublicKey) =
      some rootUser.hpkePublicKey := rfl
  exact Option.map_eq_some_iff.mp hkey

lemma sealed_sealedState : sealSecretPayload loggedSeal sealedState sealedContext testValue
    testRandomness = .ok sealedPayload := by
  obtain ⟨user, huser, hkey⟩ := user_sealedState
  have hslot : sealSlot loggedSeal sealedState testRoot sealedContext testRandomness.contentKey
      rootUser.id = .ok ⟨rootUser.id, rootUser.hpkePublicKey,
        sealedBinding ++ testRandomness.contentKey⟩ := by
    rw [sealSlot, huser, ← hkey]
    rfl
  have hslots : (sealedState.currentReaderEntries sealedContext.selector).mapM
      (sealSlot loggedSeal sealedState testRoot sealedContext testRandomness.contentKey) =
        .ok sealedSlots := by
    rw [readers_sealedState]
    exact mapM_eq_ok.mpr (.cons hslot .nil)
  rw [sealSecretPayload, root_sealedState]
  refine bind_eq_ok.mpr ⟨testRoot, rfl, bind_eq_ok.mpr ⟨sealedSlots, hslots, rfl⟩⟩

def sealedRun : SealRun loggedSeal where
  effective := sealedState
  root := testRoot
  context := sealedContext
  value := testValue
  random := testRandomness
  payload := sealedPayload
  trustedRoot := root_sealedState
  keyLength := rfl
  nonceLength := rfl
  sealed := sealed_sealedState

def sealedLog : CipherLog loggedSeal where
  runs := {sealedRun}
  contents := ∅
  wraps := ∅
  unknown := by simp
  new := by simp

lemma ideal_sealedLog : sealedLog.Ideal where
  opens call := by
    obtain ⟨key, nonce, aad, plaintext, ciphertext⟩ := call
    have hlogged : (∃ run ∈ sealedLog.runs,
        run.contentCall = ⟨key, nonce, aad, plaintext, ciphertext⟩) ↔
          sealedCall = ⟨key, nonce, aad, plaintext, ciphertext⟩ := by
      constructor
      · rintro ⟨run, rfl, hcall⟩
        exact hcall
      · exact fun hcall => ⟨sealedRun, rfl, hcall⟩
    rw [hlogged]
    constructor
    · intro hopen
      refine Or.inr ?_
      simp only [loggedSeal] at hopen
      split_ifs at hopen with hsame
      obtain ⟨rfl, rfl, rfl, rfl⟩ := hsame
      rw [← Except.ok.inj hopen]
    · rintro (hnone | hcall)
      · exact absurd hnone (Set.notMem_empty _)
      · have hopened : loggedSeal.openContent sealedCall.key sealedCall.nonce sealedCall.aad
            sealedCall.ciphertext = .ok sealedCall.plaintext := by
          simp [loggedSeal]
        rw [hcall] at hopened
        exact hopened
  reads value := ⟨value, deserializeValue_fieldSeal value, rfl, fun _ => Iff.rfl⟩
  bound := tells_writeAad.injective

lemma idealFor_loggedIdentity : sealedLog.IdealFor loggedIdentity := by
  rintro ⟨recipient, info, aad, contentKey, encapsulated, wrapped⟩ hrecipient
  obtain rfl : recipient = rootUser.hpkePublicKey := hrecipient
  obtain ⟨user, huser, hkey⟩ := user_sealedState
  constructor
  · intro hunwrap
    refine Or.inr ⟨sealedRun, rfl, _, List.mem_singleton_self _, user, huser, ?_⟩
    simp only [loggedIdentity] at hunwrap
    split_ifs at hunwrap with hsame
    obtain ⟨rfl, rfl, rfl, rfl⟩ := hsame
    rw [← Except.ok.inj hunwrap, hkey]
    rfl
  · rintro (hnone | ⟨run, rfl, slot, hslot, other, hother, hcall⟩)
    · exact absurd hnone (Set.notMem_empty _)
    · obtain rfl := List.mem_singleton.mp hslot
      obtain ⟨-, rfl, rfl, rfl, hwrapped⟩ := WrapCall.mk.inj hcall
      obtain ⟨rfl, rfl⟩ := HpkeSealed.mk.inj hwrapped
      simp [loggedIdentity, SealRun.binding, sealedRun, sealedContext, sealedBinding, loggedSeal,
        fieldSeal, transparentSeal]

def loggedRecord : SecretRecordV1 := ⟨testSecretId, testSelector, sealedPayload, 1⟩

/-- The root opens the one payload. -/
theorem sealedValues_sound_root : ∃ plaintext, decryptSecretRecord loggedSeal loggedIdentity
    (signedRecord rootUser (.secret loggedRecord)) loggedRecord testRoot = .ok plaintext ∧
      plaintext.plaintext = asciiBytes "value" := by
  have hreads : sealedRun.ReadBy loggedIdentity := by
    refine ⟨?_, fun user huser => ?_⟩
    · show rootUser.id ∈ sealedState.currentReaderEntries sealedContext.selector
      rw [readers_sealedState]
      exact List.mem_singleton_self _
    · obtain ⟨other, hother, hkey⟩ := user_sealedState
      obtain rfl := Option.some.inj (huser.symm.trans hother)
      exact hkey
  obtain ⟨plaintext, hopened, -, hshows⟩ := (sealedValues_sound ideal_sealedLog).opened sealedRun rfl
    loggedIdentity idealFor_loggedIdentity hreads
    (signedRecord rootUser (.secret loggedRecord)) loggedRecord ⟨rfl, rfl⟩
  exact ⟨plaintext, hopened, hshows.primary⟩

end Example

end Thorax
