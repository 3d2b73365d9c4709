import Thorax.Ops.SecretEdits
import Thorax.Properties.SecretIndex
import Thorax.Properties.StoredRatchet

/-!
# Readings of a secret

What a report shows of a secret does not depend on the order of the records or on what a file keeps
of a ratchet, and whoever can open what was sealed finds the value that was sealed.
-/

namespace Thorax

open Collections Durable
open Std (ExtTreeMap)

/-! ### Reports that show the same -/

/-- Two states that show everybody the same secrets. -/
structure SameReading (crypto : CryptoProvider) (a b : EffectiveState) : Prop where
  secretRecord : ∀ selector, a.secretRecord crypto selector = b.secretRecord crypto selector
  classified : ∀ selector user, a.classifySecretForUser crypto selector user =
    b.classifySecretForUser crypto selector user
  rootKey : a.rootSigningPublicKeyHash = b.rootSigningPublicKeyHash

section SameReading

variable {crypto : CryptoProvider} {a b c : EffectiveState} {vault vault' : VaultStore}
variable {ratchet ratchet' : Ratchet}

lemma SameReading.refl (a : EffectiveState) : SameReading crypto a a :=
  ⟨fun _ => rfl, fun _ _ => rfl, rfl⟩

lemma SameReading.symm (h : SameReading crypto a b) : SameReading crypto b a :=
  ⟨fun selector => (h.secretRecord selector).symm,
    fun selector user => (h.classified selector user).symm, h.rootKey.symm⟩

lemma SameReading.trans (h : SameReading crypto a b) (h' : SameReading crypto b c) :
    SameReading crypto a c :=
  ⟨fun selector => (h.secretRecord selector).trans (h'.secretRecord selector),
    fun selector user => (h.classified selector user).trans (h'.classified selector user),
    h.rootKey.trans h'.rootKey⟩

lemma SameVerdict.sameReading {report report' : ValidationReport} (h : SameVerdict report report') :
    SameReading crypto report.effective report'.effective :=
  h.1 ▸ .refl _

/-- Whoever is shown the same reads the same. -/
lemma SameReading.getSecretFrom_eq {provider : StoreProvider} {sealing : SealProvider}
    {report report' : ValidationReport}
    (h : SameReading provider.toCryptoProvider report.effective report'.effective)
    (identity : UnlockedIdentity) (selector : SecretSelectorV1) :
    getSecretFrom provider sealing report identity selector =
      getSecretFrom provider sealing report' identity selector := by
  simp only [getSecretFrom, ensureSecretDecryptable, decryptSecretFromReport, effectiveTrustedRoot,
    h.classified, h.secretRecord, h.rootKey]

lemma rootSigningPublicKeyHash_resolveRecords {root : SelectedRoot} {records : List VerifiedRecord} :
    (resolveRecords crypto ratchet root records).rootSigningPublicKeyHash =
      some root.rootSigningPublicKeyHash := rfl

/-- The records of a vault count as a set. -/
lemma sameReading_of_mem (hcf : CollisionFree crypto vault.records)
    (h : ∀ signed, signed ∈ vault.records ↔ signed ∈ vault'.records) (ratchet : Ratchet) :
    SameReading crypto (validateVault crypto vault ratchet).effective
      (validateVault crypto vault' ratchet).effective := by
  have hperm := distinctRecords_perm hcf h
  have hversion : vault'.formatVersion = vault.formatVersion := by
    cases vault
    cases vault'
    rfl
  cases hresolved : resolvedRecords crypto vault ratchet with
  | none =>
    have hunresolved : resolvedRecords crypto vault' ratchet = none := by
      rw [Option.eq_none_iff_forall_ne_some]
      rintro ⟨root, records⟩ hresolved'
      obtain ⟨hformat, hroot, -⟩ := resolvedRecords_eq_some.mp hresolved'
      rw [hversion] at hformat
      rw [← selectRoot_perm hperm] at hroot
      rw [resolvedRecords_eq_some.mpr ⟨hformat, hroot, rfl⟩] at hresolved
      cases hresolved
    rw [(validateVault_of_unresolved hresolved).1, (validateVault_of_unresolved hunresolved).1]
    exact .refl _
  | some resolved =>
    obtain ⟨root, records⟩ := resolved
    obtain ⟨hformat, hroot, rfl⟩ := resolvedRecords_eq_some.mp hresolved
    have hcf' : CollisionFree crypto (distinctRecords crypto ∅ vault.records) :=
      hcf.mono fun signed hs => (mem_of_mem_distinctRecords hs).1
    obtain ⟨hverified, -⟩ := screenRecords_perm hperm hcf' hroot
    have hresolved' : resolvedRecords crypto vault' ratchet = some (root, (screenRecords crypto ∅
        root (distinctRecords crypto ∅ vault'.records)).verifiedRecords) :=
      resolvedRecords_eq_some.mpr ⟨hversion ▸ hformat, selectRoot_perm hperm ▸ hroot, rfl⟩
    rw [(validateVault_of_resolved hresolved).1, (validateVault_of_resolved hresolved').1]
    have hsep : HashesSeparate (screenRecords crypto ∅ root (distinctRecords crypto ∅
        vault.records)).verifiedRecords := hashesSeparate_verified hcf'
    have hview := resolveRecords_view_perm hverified hsep (bytesSeparate_verified hcf') ratchet root
      (originsAgree_verified hcf')
    have hindexed := resolveRecords_indexed crypto ratchet root
    refine ⟨secretRecord_congr hview (hindexed _) (hindexed _) hverified hsep crypto,
      classifySecretForUser_congr hview (hindexed _) (hindexed _) hverified hsep crypto, ?_⟩
    rw [rootSigningPublicKeyHash_resolveRecords, rootSigningPublicKeyHash_resolveRecords]

/-- Of a ratchet only the root, the counters and the version count; where the origins of a key
differ, so does no more than how its rollback is told. -/
lemma sameReading_of_memory (hroot : ratchet'.trustedRoot = ratchet.trustedRoot)
    (hmemory : ratchet'.memory = ratchet.memory) (vault : VaultStore) :
    SameReading crypto (validateVault crypto vault ratchet').effective
      (validateVault crypto vault ratchet).effective := by
  obtain ⟨hwatermarks, hversion⟩ := Ratchet.memory_eq_iff.mp hmemory
  have hresolves : resolvedRecords crypto vault ratchet' = resolvedRecords crypto vault ratchet :=
    resolvedRecords_congr hroot (by rw [hversion])
  cases hresolved : resolvedRecords crypto vault ratchet with
  | none =>
    rw [(validateVault_of_unresolved hresolved).1,
      (validateVault_of_unresolved (hresolves.trans hresolved)).1]
    exact .refl _
  | some resolved =>
    obtain ⟨root, records⟩ := resolved
    rw [(validateVault_of_resolved hresolved).1,
      (validateVault_of_resolved (hresolves.trans hresolved)).1]
    have hkeys : regressedKeys ratchet' (currentWatermarks crypto root records) =
        regressedKeys ratchet (currentWatermarks crypto root records) := by
      simp only [regressedKeys, hwatermarks]
    have hconflicted : ∀ key, key ∈ (resolveRecords crypto ratchet' root records).conflicted ↔
        key ∈ (resolveRecords crypto ratchet root records).conflicted := by
      intro key
      simp only [resolveRecords, EffectiveState.attachVerifiedRecords, hkeys, ExtTreeMap.mem_union_iff,
        ExtTreeMap.mem_map]
    have hconflict : ∀ selector,
        ((resolveRecords crypto ratchet' root records).secretConflict crypto selector).isSome =
          ((resolveRecords crypto ratchet root records).secretConflict crypto selector).isSome :=
      fun selector => by
        rw [Bool.eq_iff_iff, secretConflict_isSome, secretConflict_isSome, hconflicted]
    have hstate : resolveRecords crypto ratchet' root records =
        { resolveRecords crypto ratchet root records with
          conflicted := (resolveRecords crypto ratchet' root records).conflicted } := by
      simp only [resolveRecords, hkeys]
      rfl
    refine ⟨fun selector => ?_, fun selector user => ?_, ?_⟩
    · rw [EffectiveState.secretRecord, EffectiveState.secretRecord, hconflict, hstate]
      rfl
    · rw [EffectiveState.classifySecretForUser, EffectiveState.classifySecretForUser, hconflict,
        hstate]
      rfl
    · rw [rootSigningPublicKeyHash_resolveRecords, rootSigningPublicKeyHash_resolveRecords]

/-- What a validation learns, and the way through the file, change nothing of what is shown. -/
lemma sameReading_of_storedAs {stored : Ratchet}
    (hstored : (ratchet.applyUpdate (validateVault crypto vault ratchet).ratchetUpdate).StoredAs
      stored)
    (hroot : ratchet.watermarks[RecordKey.vaultRoot]? = none) :
    SameReading crypto (validateVault crypto vault stored).effective
      (validateVault crypto vault ratchet).effective := by
  have hremembered : (ratchet.applyUpdate
      (validateVault crypto vault ratchet).ratchetUpdate).watermarks[RecordKey.vaultRoot]? = none := by
    rw [getElem?_applyUpdate, validateVault, vaultRoot_not_raised]
    exact hroot
  have hmemory := hstored.memory.trans (Ratchet.storedMemory_eq_memory hremembered)
  exact (sameReading_of_memory hstored.trustedRoot hmemory vault).trans
    (sameVerdict_applyUpdate crypto vault ratchet ∅).sameReading

end SameReading

/-! ### Parts of a value -/

/-- The parts of a secret that are edited one at a time. -/
inductive SecretPart where
  | primary
  | field (key : String)
  deriving DecidableEq

/-- The bytes at each part of a value; a field that is not there has none. -/
def SecretValueV1.parts (self : SecretValueV1) : SecretPart → Set Bytes
  | .primary => {self.primary}
  | .field key => {value | ⟨key, value⟩ ∈ self.fields}

/-- Where there is no value, there are no bytes. -/
def noParts : SecretPart → Set Bytes := fun _ => ∅

lemma SecretValueV1.parts_congr {a b : SecretValueV1} (hprimary : a.primary = b.primary)
    (hfields : ∀ entry, entry ∈ a.fields ↔ entry ∈ b.fields) : a.parts = b.parts := by
  funext part
  cases part with
  | primary => simp only [parts, hprimary]
  | field key =>
    ext value
    exact hfields ⟨key, value⟩

/-- What the ciphers and the serializer are relied on for: a ciphertext opens to what was sealed, and
a value is read back with its primary bytes and the set of its fields. -/
structure SealProvider.RoundTrips (sealing : SealProvider) : Prop where
  opens : ∀ key nonce aad plaintext ciphertext,
    sealing.sealContent key nonce aad plaintext = .ok ciphertext →
      sealing.openContent key nonce aad ciphertext = .ok plaintext
  reads : ∀ value, ∃ read, sealing.deserializeValue (sealing.serializeValue value) = .ok read ∧
    read.primary = value.primary ∧ ∀ entry, entry ∈ read.fields ↔ entry ∈ value.fields

/-- A wrapped content key unwraps to itself, or not at all. -/
def UnlockedIdentity.Unwraps (sealing : SealProvider) (identity : UnlockedIdentity) : Prop :=
  ∀ recipient binding key wrapped unwrapped,
    sealing.wrapContentKey recipient binding binding key = .ok wrapped →
      identity.unwrapContentKey wrapped.encapsulatedKey binding binding wrapped.ciphertext =
        .ok unwrapped → unwrapped = key

section Sealed

variable {provider : StoreProvider} {sealing : SealProvider} {report : ValidationReport}
variable {effective : EffectiveState} {context : SealContext} {value : SecretValueV1}
variable {random : SealRandomness} {payload : SealedPayloadV1} {root : HashValue}

/-- A payload is sealed with its own nonce, binding its place and its slots, each of which wraps the
content key under its own binding. -/
structure Seals (sealing : SealProvider) (root : HashValue) (context : SealContext)
    (value : SecretValueV1) (random : SealRandomness) (payload : SealedPayloadV1) : Prop where
  nonce : payload.nonce = random.nonce
  slots : ∀ slot ∈ payload.recipientSlots, ∃ recipient wrapped,
    sealing.wrapContentKey recipient
        (sealing.slotBindingBytes ⟨root, context.secretId, context.selector, slot.recipientId⟩)
        (sealing.slotBindingBytes ⟨root, context.secretId, context.selector, slot.recipientId⟩)
        random.contentKey = .ok wrapped ∧
      slot.hpkeEncapsulatedKey = wrapped.encapsulatedKey ∧
      slot.wrappedContentKey = wrapped.ciphertext
  content : sealing.sealContent random.contentKey random.nonce
    (sealing.contentAadBytes ⟨root, context, random.nonce, payload.recipientSlots⟩)
    (sealedValueV1Magic ++ sealing.serializeValue value) = .ok payload.ciphertext

lemma seals_of_sealSecretPayload (hroot : effectiveTrustedRoot effective = .ok root)
    (h : sealSecretPayload sealing effective context value random = .ok payload) :
    Seals sealing root context value random payload := by
  simp only [sealSecretPayload, hroot, bind_eq_ok, mapError_eq_ok] at h
  obtain ⟨_, hsame, slots, hslots, ciphertext, hciphertext, h⟩ := h
  obtain rfl := Except.ok.inj hsame
  obtain rfl := Except.ok.inj h
  refine ⟨rfl, fun slot hslot => ?_, hciphertext⟩
  obtain ⟨reader, -, hsealed⟩ := (mem_of_mapM hslots).2 slot hslot
  unfold sealSlot at hsealed
  split at hsealed
  · cases hsealed
  · obtain ⟨wrapped, hwrapped, hsealed⟩ := bind_eq_ok.mp hsealed
    obtain rfl := Except.ok.inj hsealed
    exact ⟨_, wrapped, mapError_eq_ok.mp hwrapped, rfl, rfl⟩

/-- New values carry the magic. -/
lemma decodeSecretValue_magic (bytes : Bytes) :
    decodeSecretValue sealing (sealedValueV1Magic ++ bytes) =
      match sealing.deserializeValue bytes with
      | .ok value => .ok value
      | .error _ => .error .invalidSecretPlaintext := by
  have hmagic : sealedValueV1Magic.isPrefixOf (sealedValueV1Magic ++ bytes) = true := by
    rw [List.isPrefixOf_iff_prefix]
    exact List.prefix_append _ _
  cases hread : sealing.deserializeValue bytes with
  | ok value => simp only [decodeSecretValue, if_pos hmagic, List.drop_left, hread]
  | error e => simp only [decodeSecretValue, if_pos hmagic, List.drop_left, hread]

/-- Whoever opens a sealed record finds the parts of the value that was sealed. -/
lemma Seals.parts_of_decrypt {identity : UnlockedIdentity} {signed : VaultRecordV1}
    {record : SecretRecordV1} {plaintext : SecretPlaintext} (htrips : sealing.RoundTrips)
    (hunwraps : identity.Unwraps sealing)
    (h : Seals sealing root ⟨.secret record.id, signed.signingPublicKey, record.counter, record.id,
      record.selector⟩ value random record.sealed)
    (hread : decryptSecretRecord sealing identity signed record root = .ok plaintext) :
    plaintext.toValue.parts = value.parts := by
  unfold decryptSecretRecord at hread
  split at hread
  · cases hread
  · next slot hfind =>
    obtain ⟨recipient, wrapped, hwrapped, hencapsulated, hciphertext⟩ :=
      h.slots slot (List.mem_of_find?_eq_some hfind)
    simp only [bind_eq_ok, mapError_eq_ok] at hread
    obtain ⟨unwrapped, hunwrapped, contentKey, hkey, nonce, hnonce, opened, hopened, decoded,
      hdecoded, hplaintext⟩ := hread
    have hfixed : ∀ {length : ℕ} {name : String} {bytes result : Bytes},
        fixedArray length name bytes = .ok result → result = bytes := by
      intro length name bytes result hfixed
      unfold fixedArray at hfixed
      split_ifs at hfixed
      exact (Except.ok.inj hfixed).symm
    rw [hencapsulated, hciphertext] at hunwrapped
    rw [hfixed hkey, hunwraps _ _ _ _ _ hwrapped hunwrapped, hfixed hnonce, h.nonce,
      htrips.opens _ _ _ _ _ h.content] at hopened
    obtain rfl := Except.ok.inj hopened
    obtain ⟨read, hreads, hprimary, hfields⟩ := htrips.reads value
    rw [decodeSecretValue_magic, hreads] at hdecoded
    obtain rfl := Except.ok.inj hdecoded
    obtain rfl := Except.ok.inj hplaintext
    refine SecretValueV1.parts_congr hprimary fun entry => ?_
    rw [← hfields]
    exact mem_sortBy _

end Sealed

end Thorax
