import Thorax.Ops.Secrets
import Thorax.TestStore

/-!
# Ciphers that can be evaluated

A sealed value is the value under its associated data, and a wrapped key is the key under its
binding, addressed by the HPKE key of the reader.
-/

namespace Thorax.TestSupport

open Collections

/-! ### The ciphers -/

/-- The part of a text after what it was sealed under. -/
def openedUnder (bound text : Bytes) : Except CryptoError Bytes :=
  if bound.isPrefixOf text then .ok (text.drop bound.length) else .error .aead

def slotBytes (binding : RecipientSlotBindingV1) : Bytes :=
  hashBytes binding.trustedRoot ++ idBytes binding.secretId ++ selectorBytes binding.selector ++
    idBytes binding.recipientId

def contentBytes (aad : SecretContentAadV1) : Bytes :=
  hashBytes aad.trustedRoot ++ idBytes aad.context.secretId ++ sized aad.context.signerKey ++
    counterBytes aad.context.counter ++ sealedBytes ⟨aad.nonce, [], aad.recipientSlots⟩

/-- Values without fields are read back. -/
def readValue : Bytes → Except CordError SecretValueV1
  | [] => .error (.malformed "no length")
  | length :: bytes =>
    if bytes.drop length.toNat = [0] then .ok ⟨bytes.take length.toNat, []⟩
    else .error (.malformed "not a value without fields")

def transparentSeal : SealProvider where
  wrapContentKey recipient _ aad contentKey := .ok ⟨recipient, aad ++ contentKey⟩
  sealContent _ _ aad plaintext := .ok (aad ++ plaintext)
  openContent _ _ aad ciphertext := openedUnder aad ciphertext
  slotBindingBytes := slotBytes
  contentAadBytes := contentBytes
  serializeValue value := sized value.primary ++
    listBytes (fun field => textBytes field.key ++ sized field.value) value.fields
  deserializeValue := readValue

/-! ### Values with fields -/

/-- Items one after another, each announced by a one. -/
def writeItems {α : Type} (write : α → Bytes) : List α → Bytes
  | [] => [0]
  | item :: items => 1 :: (write item ++ writeItems write items)

def readItems {α : Type} (read : Bytes → Option (α × Bytes)) : ℕ → Bytes → Option (List α × Bytes)
  | _, [] => none
  | 0, mark :: rest => if mark = 0 then some ([], rest) else none
  | fuel + 1, mark :: rest =>
    if mark = 0 then some ([], rest)
    else if mark = 1 then do
      let (item, rest) ← read rest
      let (items, rest) ← readItems read fuel rest
      some (item :: items, rest)
    else none

/-- Items that are read back one at a time are read back together. -/
lemma readItems_writeItems {α : Type} {write : α → Bytes} {read : Bytes → Option (α × Bytes)}
    (h : ∀ item rest, read (write item ++ rest) = some (item, rest)) (items : List α) (rest : Bytes) :
    ∀ fuel, items.length ≤ fuel →
      readItems read fuel (writeItems write items ++ rest) = some (items, rest) := by
  induction items with
  | nil =>
    intro fuel _
    cases fuel <;> simp [writeItems, readItems]
  | cons item items ih =>
    intro fuel hfuel
    cases fuel with
    | zero => simp at hfuel
    | succ fuel =>
      simp only [List.length_cons, Nat.add_le_add_iff_right] at hfuel
      simp [writeItems, readItems, h, ih fuel hfuel]

lemma length_le_writeItems {α : Type} {write : α → Bytes} (items : List α) :
    items.length ≤ (writeItems write items).length := by
  induction items with
  | nil => simp
  | cons item items ih =>
    simp only [writeItems, List.length_cons, List.length_append]
    omega

def readAll {α : Type} (read : Bytes → Option (α × Bytes)) (bytes : Bytes) :
    Option (List α × Bytes) := readItems read bytes.length bytes

lemma readAll_writeItems {α : Type} {write : α → Bytes} {read : Bytes → Option (α × Bytes)}
    (h : ∀ item rest, read (write item ++ rest) = some (item, rest)) (items : List α) (rest : Bytes) :
    readAll read (writeItems write items ++ rest) = some (items, rest) := by
  refine readItems_writeItems h items rest _ ?_
  rw [List.length_append]
  exact Nat.le_add_right_of_le (length_le_writeItems items)

def writeByte (byte : UInt8) : Bytes := [byte]

def readByte : Bytes → Option (UInt8 × Bytes)
  | [] => none
  | byte :: rest => some (byte, rest)

lemma readByte_writeByte (byte : UInt8) (rest : Bytes) :
    readByte (writeByte byte ++ rest) = some (byte, rest) := rfl

/-- A character is its code, in ones. -/
def writeChar (char : Char) : Bytes := writeItems (fun _ => []) (List.replicate char.toNat ())

def readChar (bytes : Bytes) : Option (Char × Bytes) := do
  let (ones, rest) ← readAll (fun rest => some ((), rest)) bytes
  some (Char.ofNat ones.length, rest)

lemma readChar_writeChar (char : Char) (rest : Bytes) :
    readChar (writeChar char ++ rest) = some (char, rest) := by
  rw [readChar, writeChar, readAll_writeItems fun _ _ => rfl]
  simp [Char.ofNat_toNat]

def writeField (field : SecretFieldEntryV1) : Bytes :=
  writeItems writeChar field.key.toList ++ writeItems writeByte field.value

def readField (bytes : Bytes) : Option (SecretFieldEntryV1 × Bytes) := do
  let (key, rest) ← readAll readChar bytes
  let (value, rest) ← readAll readByte rest
  some (⟨String.ofList key, value⟩, rest)

lemma readField_writeField (field : SecretFieldEntryV1) (rest : Bytes) :
    readField (writeField field ++ rest) = some (field, rest) := by
  rw [readField, writeField, List.append_assoc, readAll_writeItems readChar_writeChar]
  simp only [Option.bind_eq_bind, Option.bind_some, readAll_writeItems readByte_writeByte,
    String.ofList_toList]

/-- The ciphers, with a serializer that reads every value back. -/
def fieldSeal : SealProvider where
  __ := transparentSeal
  serializeValue value :=
    writeItems writeByte value.primary ++ writeItems writeField value.fields
  deserializeValue bytes :=
    match readAll readByte bytes with
    | none => .error (.malformed "no primary value")
    | some (primary, rest) =>
      match readAll readField rest with
      | some (fields, []) => .ok ⟨primary, fields⟩
      | _ => .error (.malformed "no fields")

lemma openedUnder_append (bound text : Bytes) : openedUnder bound (bound ++ text) = .ok text := by
  have hprefix : bound.isPrefixOf (bound ++ text) = true := by
    rw [List.isPrefixOf_iff_prefix]
    exact List.prefix_append _ _
  rw [openedUnder, if_pos hprefix, List.drop_left]

lemma openContent_fieldSeal {key nonce aad plaintext ciphertext : Bytes}
    (h : fieldSeal.sealContent key nonce aad plaintext = .ok ciphertext) :
    fieldSeal.openContent key nonce aad ciphertext = .ok plaintext := by
  obtain rfl := Except.ok.inj h
  exact openedUnder_append aad plaintext

lemma deserializeValue_fieldSeal (value : SecretValueV1) :
    fieldSeal.deserializeValue (fieldSeal.serializeValue value) = .ok value := by
  have hfields : readAll readField (writeItems writeField value.fields) = some (value.fields, []) := by
    rw [← List.append_nil (writeItems writeField value.fields)]
    exact readAll_writeItems readField_writeField value.fields []
  simp only [fieldSeal, readAll_writeItems readByte_writeByte, hfields]

/-! ### Identities -/

def testSigner (user : TestUser) : RecordSigner where
  userId := user.id
  signingPublicKey := user.signingPublicKey
  hpkePublicKey := user.hpkePublicKey
  sign message := user.signingPublicKey ++ message

lemma genuine_testSigner (user : TestUser) :
    (testSigner user).Genuine transparentCrypto := by
  refine ⟨fun message => ?_, rfl⟩
  simp [testSigner, transparentCrypto]

def testIdentity (user : TestUser) : UnlockedIdentity where
  toRecordSigner := testSigner user
  unwrapContentKey encapsulated _ aad wrapped :=
    if encapsulated = user.hpkePublicKey then openedUnder aad wrapped
    else .error .invalidHpkeEncapsulatedKey

def testRandomness : SealRandomness := ⟨List.replicate 32 1, List.replicate 12 2⟩

def testValue : SecretValueV1 := ⟨asciiBytes "value", []⟩

/-- What a user seals at the selector of the builders, for some readers. -/
def sealedFor (signer : TestUser) (readers : List TestUser) (counter : ℕ) : SealedPayloadV1 :=
  let slots := readers.map fun user =>
    (⟨user.id, user.hpkePublicKey, slotBytes ⟨testRoot, testSecretId, testSelector, user.id⟩ ++
      testRandomness.contentKey⟩ : RecipientSlotV1)
  ⟨testRandomness.nonce, contentBytes ⟨testRoot, ⟨.secret testSecretId, signer.signingPublicKey,
    counter, testSecretId, testSelector⟩, testRandomness.nonce, slots⟩ ++
      (sealedValueV1Magic ++ transparentSeal.serializeValue testValue), slots⟩

def sealedRecord (signer : TestUser) (readers : List TestUser) (counter : ℕ) : VaultRecordV1 :=
  signedRecord signer (.secret
    ⟨testSecretId, testSelector, sealedFor signer readers counter, counter⟩)

/-- A session of a load of a vault file under a ratchet. -/
def loadedSession (provider : StoreProvider) (vault : VaultStore) (position : UInt8)
    (ratchet : Ratchet) : LockedSession where
  paths := testPaths
  vault := vault
  vaultBytes := vaultFile position
  ratchet := ratchet
  report := validateVault provider.toCryptoProvider vault ratchet
  verifications := .direct
  pendingTransaction := none
  recoveredTransaction := false
  persistence := .live

end Thorax.TestSupport
