import Thorax.Crypto
import Thorax.Library.Durable
import Thorax.Store.Disk

/-!
# Reading and writing files

The payload serializer is code outside the repository. It is a parameter, together with what the
program relies on: what is serialized is read back, and a serialized set is read back as a set
without repetition. Every writer checks its bytes before it writes and reads them back after.
-/

namespace Thorax

open Collections Durable

/-! ### File contents -/

inductive FilePreconditionV1 where
  | missing
  | hash (hash : HashValue)
  deriving DecidableEq

/-- The journal of a mutation: where it comes from, what it expects and what it leaves. -/
structure TransactionV1 where
  transactionId : Bytes
  trustedRoot : HashValue
  originVaultPath : NativePathV1
  operation : String
  vaultBefore : FilePreconditionV1
  ratchetBefore : FilePreconditionV1
  nextVaultBytes : Bytes
  nextRatchetBytes : Bytes
  deriving DecidableEq

/-- The journal of an enrollment, written by earlier versions of the program. -/
structure JoinCommitJournalV1 where
  trustedRoot : HashValue
  expectedVaultHash : HashValue
  expectedRatchetHash : HashValue
  nextVaultBytes : Bytes
  nextRatchetBytes : Bytes
  deriving DecidableEq

/-- The envelopes whose signatures one identity has seen verify. -/
structure VerificationCacheV1 where
  trustedRoot : HashValue
  formatVersion : ℕ
  verifiedRecordHashes : BTreeSet HashValue
  signingPublicKey : Bytes
  signature : Bytes
  deriving DecidableEq

/-! ### The serializer -/

/-- A serializer of plain values. -/
structure Codec (α : Type) where
  serialize : α → Except CordError Bytes
  deserialize : Bytes → Except CordError α
  roundTrip : ∀ {value bytes}, serialize value = .ok bytes → deserialize bytes = .ok value

/-- A serializer of values that hold a set, which a reader visits in some order. -/
structure SetCodec (α β : Type) (elements : α → List β) where
  serialize : α → Except CordError Bytes
  deserialize : Bytes → Except CordError α
  distinct : ∀ {value bytes}, deserialize bytes = .ok value → (elements value).Nodup
  roundTrip : ∀ {value bytes}, serialize value = .ok bytes →
    ∃ value', deserialize bytes = .ok value' ∧
      ∀ element, element ∈ elements value' ↔ element ∈ elements value

structure StoreProvider extends CryptoProvider where
  vaultCodec : SetCodec VaultStore VaultRecordV1 VaultStore.records
  ratchetCodec : SetCodec (List (Evolving RatchetRecordV1)) (Evolving RatchetRecordV1) id
  transactionCodec : Codec TransactionV1
  joinCommitCodec : Codec JoinCommitJournalV1
  cacheCodec : Codec VerificationCacheV1
  /-- The bytes a cache signature covers: root, format version and hashes. -/
  verificationCacheMessage : HashValue → ℕ → BTreeSet HashValue → Bytes
  /-- Public key, message, signature; the domain is always `thorax.verification-cache.v1`. -/
  verifyCacheSignature : Bytes → Bytes → Bytes → Bool

/-- The bytes of an ASCII text. -/
def asciiBytes (text : String) : Bytes := text.toList.map fun c => UInt8.ofNat c.toNat

def vaultMagic : Bytes := asciiBytes "thorax-vault" ++ [0]
def ratchetMagic : Bytes := asciiBytes "thorax-ratchet" ++ [0]
def transactionMagic : Bytes := asciiBytes "thorax-transaction" ++ [0]
def joinCommitMagic : Bytes := asciiBytes "thorax-join-commit" ++ [0]
def cacheMagic : Bytes := asciiBytes "thorax-cache" ++ [0]

/-- The payload behind a magic. -/
def afterMagic (magic bytes : Bytes) : Option Bytes :=
  if magic.isPrefixOf bytes then some (bytes.drop magic.length) else none

@[simp] lemma afterMagic_append (magic payload : Bytes) :
    afterMagic magic (magic ++ payload) = some payload := by
  simp [afterMagic]

lemma eq_append_of_afterMagic {magic payload bytes : Bytes}
    (h : afterMagic magic bytes = some payload) : bytes = magic ++ payload := by
  rw [afterMagic] at h
  split_ifs at h with hmagic
  obtain ⟨rest, rfl⟩ := List.isPrefixOf_iff_prefix.mp hmagic
  simpa using h

section Encodings

variable (provider : StoreProvider)

/-! ### Vaults -/

def encodeVault (vault : VaultStore) : Except CoreError Bytes :=
  if maxVaultRecords < vault.records.length then
    .error (.validation (s!"vault carries {vault.records.length} records, above the supported " ++
      s!"maximum of {maxVaultRecords}"))
  else
    match provider.vaultCodec.serialize vault with
    | .error source => .error (.cord source)
    | .ok payload =>
      let encodedLen := vaultMagic.length + payload.length
      if maxVaultBytes < encodedLen then
        .error (.validation
          s!"vault is {encodedLen} bytes, above the supported maximum of {maxVaultBytes}")
      else .ok (vaultMagic ++ payload)

def decodeVault (bytes : Bytes) : Except CoreError VaultStore :=
  match afterMagic vaultMagic bytes with
  | none => .error (.validation "not a thorax vault file (missing magic prefix)")
  | some payload =>
    if maxVaultBytes < bytes.length then
      .error (.validation
        s!"vault is {bytes.length} bytes, above the supported maximum of {maxVaultBytes}")
    else
      match provider.vaultCodec.deserialize payload with
      | .error source => .error (.cord source)
      | .ok vault =>
        if maxVaultRecords < vault.records.length then
          .error (.validation (s!"vault carries {vault.records.length} records, above the " ++
            s!"supported maximum of {maxVaultRecords}"))
        else .ok vault

/-! ### Ratchets -/

/-- The record set of a ratchet file. -/
def ratchetStore (ratchet : Ratchet) : List (Evolving RatchetRecordV1) :=
  ratchet.toRecords.map .known ++ ratchet.unknownRecords.map fun unknown => .unknown unknown.raw

/-- The root that a record names. -/
def namedRoot : Evolving RatchetRecordV1 → Option HashValue
  | .known (.trustedRoot trustedRoot) => some trustedRoot
  | _ => none

/-- The fact that a record adds. -/
def knownFact : Evolving RatchetRecordV1 → Option RatchetRecordV1
  | .known (.trustedRoot _) => none
  | .known record => some record
  | .unknown _ => none

def unknownFact : Evolving RatchetRecordV1 → Option UnknownRatchetRecord
  | .unknown raw => some ⟨raw⟩
  | .known _ => none

/-- The ratchet of a record set, if it names its root. -/
def intoRatchet (records : List (Evolving RatchetRecordV1)) : Option Ratchet :=
  (records.filterMap namedRoot).getLast?.map fun trustedRoot =>
    { (records.filterMap knownFact).foldl Ratchet.absorbRecord (.new trustedRoot) with
      unknownRecords := records.filterMap unknownFact }

def encodeRatchet (ratchet : Ratchet) : Except StoreError Bytes :=
  match provider.ratchetCodec.serialize (ratchetStore ratchet) with
  | .error source => .error (.cord source)
  | .ok payload => .ok (ratchetMagic ++ payload)

def decodeRatchet (path : StorePath) (bytes : Bytes) : Except StoreError Ratchet :=
  match afterMagic ratchetMagic bytes with
  | none => .error (.invalidRatchet path
      (.validationError "not a thorax state file (missing magic prefix)"))
  | some payload =>
    match provider.ratchetCodec.deserialize payload with
    | .error source => .error (.invalidRatchet path source)
    | .ok records =>
      match intoRatchet records with
      | none => .error (.invalidRatchet path
          (.validationError "ratchet file missing its trusted-root record"))
      | some ratchet => .ok ratchet

/-! ### Transactions -/

def transactionIdBytes : ℕ := 32

def maxTransactionOperationBytes : ℕ := 128

def validateHash (path : StorePath) : FilePreconditionV1 → Except StoreError Unit
  | .missing => .ok ()
  | .hash hash =>
    if hash.bytes.length = 32 then .ok ()
    else .error (.invalidTransaction path "transaction file hash must be 32 bytes")

def validateShape (path : StorePath) (transaction : TransactionV1) : Except StoreError Unit := do
  if transaction.transactionId.length ≠ transactionIdBytes then
    .error (.invalidTransaction path "transaction ID must be exactly 32 bytes")
  else if transaction.operation.isEmpty ||
      maxTransactionOperationBytes < transaction.operation.utf8ByteSize then
    .error (.invalidTransaction path "transaction operation label is empty or too long")
  else
    validateHash path transaction.vaultBefore
    validateHash path transaction.ratchetBefore
    if maxVaultBytes < transaction.nextVaultBytes.length then
      .error (.invalidTransaction path "transaction vault after-image is too large")
    else if maxRatchetBytes < transaction.nextRatchetBytes.length then
      .error (.invalidTransaction path "transaction ratchet after-image is too large")
    else
      match transaction.originVaultPath with
      | .unix _ => .ok ()
      | .windowsUtf16Le bytes =>
        if bytes.length % 2 ≠ 0 then
          .error (.invalidTransaction path "transaction Windows path has odd byte length")
        else .ok ()

def encodeTransaction (transaction : TransactionV1) : Except StoreError Bytes := do
  validateShape .transactionFile transaction
  match provider.transactionCodec.serialize transaction with
  | .error source => .error (.cord source)
  | .ok payload =>
    let bytes := transactionMagic ++ payload
    if maxTransactionBytes < bytes.length then
      .error (.invalidTransaction .transactionFile
        (s!"transaction is {bytes.length} bytes, above the supported maximum of " ++
          s!"{maxTransactionBytes}"))
    else .ok bytes

def decodeTransaction (path : StorePath) (bytes : Bytes) : Except StoreError TransactionV1 :=
  if maxTransactionBytes < bytes.length then
    .error (.invalidTransaction path (s!"transaction is {bytes.length} bytes, above the " ++
      s!"supported maximum of {maxTransactionBytes}"))
  else
    match afterMagic transactionMagic bytes with
    | none => .error (.invalidTransaction path "missing thorax transaction magic")
    | some payload =>
      match provider.transactionCodec.deserialize payload with
      | .error source => .error (.invalidTransaction path
          ("transaction Cord payload is invalid: " ++ source.text))
      | .ok transaction =>
        match validateShape path transaction with
        | .error source => .error source
        | .ok () => .ok transaction

end Encodings

/-! ### What is encoded is read back -/

section RoundTrips

variable {provider : StoreProvider} {vault : VaultStore} {ratchet : Ratchet}
  {transaction : TransactionV1} {bytes : Bytes}

lemma decodeVault_encodeVault (h : encodeVault provider vault = .ok bytes) :
    bytes.length ≤ maxVaultBytes ∧ ∃ vault', decodeVault provider bytes = .ok vault' ∧
      vault'.records.Nodup ∧ ∀ signed, signed ∈ vault'.records ↔ signed ∈ vault.records := by
  unfold encodeVault at h
  split_ifs at h with hcount
  cases hpayload : provider.vaultCodec.serialize vault with
  | error source => simp [hpayload] at h
  | ok payload =>
    simp only [hpayload] at h
    split_ifs at h with hlen
    obtain rfl := Except.ok.inj h
    obtain ⟨vault', hread, hmem⟩ := provider.vaultCodec.roundTrip hpayload
    have hdistinct := provider.vaultCodec.distinct hread
    -- a set read back has no more elements than the list it was written from
    have hle : vault'.records.length ≤ vault.records.length :=
      (hdistinct.subperm fun signed hs => (hmem signed).mp hs).length_le
    have hbytes : ¬ maxVaultBytes < (vaultMagic ++ payload).length := by
      rwa [List.length_append]
    have hrecords : ¬ maxVaultRecords < vault'.records.length := by omega
    refine ⟨not_lt.mp hbytes, vault', ?_, hdistinct, hmem⟩
    simp only [decodeVault, afterMagic_append, if_neg hbytes, hread, if_neg hrecords]

lemma length_of_decodeVault (h : decodeVault provider bytes = .ok vault) :
    bytes.length ≤ maxVaultBytes := by
  unfold decodeVault at h
  split at h
  · simp at h
  · split_ifs at h with hlen
    exact not_lt.mp hlen

lemma nodup_of_decodeVault (h : decodeVault provider bytes = .ok vault) :
    vault.records.Nodup := by
  unfold decodeVault at h
  split at h
  · simp at h
  · next payload hpayload =>
    split_ifs at h with hlen
    cases hread : provider.vaultCodec.deserialize payload with
    | error source => simp [hread] at h
    | ok read =>
      simp only [hread] at h
      split_ifs at h
      obtain rfl := Except.ok.inj h
      exact provider.vaultCodec.distinct hread

/-- A precondition is absent or a hash of 32 bytes. -/
def FilePreconditionV1.WellShaped : FilePreconditionV1 → Prop
  | .missing => True
  | .hash digest => digest.bytes.length = 32

/-- The bounds on the parts of a transaction. -/
structure TransactionV1.WellShaped (transaction : TransactionV1) : Prop where
  transactionId : transaction.transactionId.length = transactionIdBytes
  operation : transaction.operation.isEmpty = false ∧
    transaction.operation.utf8ByteSize ≤ maxTransactionOperationBytes
  vaultBefore : transaction.vaultBefore.WellShaped
  ratchetBefore : transaction.ratchetBefore.WellShaped
  nextVaultBytes : transaction.nextVaultBytes.length ≤ maxVaultBytes
  nextRatchetBytes : transaction.nextRatchetBytes.length ≤ maxRatchetBytes
  originVaultPath : ∀ bytes, transaction.originVaultPath = .windowsUtf16Le bytes →
    bytes.length % 2 = 0

lemma validateHash_eq_ok {path : StorePath} {precondition : FilePreconditionV1} :
    validateHash path precondition = .ok () ↔ precondition.WellShaped := by
  cases precondition with
  | missing => simp [validateHash, FilePreconditionV1.WellShaped]
  | hash hash => simp [validateHash, FilePreconditionV1.WellShaped]

lemma validateShape_eq_ok {path : StorePath} :
    validateShape path transaction = .ok () ↔ transaction.WellShaped := by
  have hwindows : (match transaction.originVaultPath with
      | .unix _ => Except.ok ()
      | .windowsUtf16Le bytes =>
        if bytes.length % 2 ≠ 0 then
          .error (.invalidTransaction path "transaction Windows path has odd byte length")
        else .ok ()) = (.ok () : Except StoreError Unit) ↔
      ∀ bytes, transaction.originVaultPath = .windowsUtf16Le bytes → bytes.length % 2 = 0 := by
    cases transaction.originVaultPath <;> simp
  constructor
  · intro h
    simp only [validateShape] at h
    by_cases hid : transaction.transactionId.length ≠ transactionIdBytes
    · simp [hid] at h
    rw [if_neg hid] at h
    by_cases hop : (transaction.operation.isEmpty ||
        decide (maxTransactionOperationBytes < transaction.operation.utf8ByteSize)) = true
    · simp [hop] at h
    rw [if_neg hop] at h
    obtain ⟨⟨⟩, hvault, h⟩ := bind_eq_ok.mp h
    obtain ⟨⟨⟩, hratchet, h⟩ := bind_eq_ok.mp h
    split_ifs at h with hv hr
    simp only [Bool.or_eq_true, decide_eq_true_eq, not_or, not_lt, Bool.not_eq_true] at hop
    exact ⟨not_not.mp hid, hop, validateHash_eq_ok.mp hvault, validateHash_eq_ok.mp hratchet,
      not_lt.mp hv, not_lt.mp hr, hwindows.mp h⟩
  · rintro ⟨hid, hop, hvault, hratchet, hv, hr, horigin⟩
    have hop' : ¬ (transaction.operation.isEmpty ||
        decide (maxTransactionOperationBytes < transaction.operation.utf8ByteSize)) = true := by
      simp [hop.1, hop.2]
    simp only [validateShape, hid, ne_eq, not_true_eq_false, if_false, if_neg hop']
    refine bind_eq_ok.mpr ⟨(), validateHash_eq_ok.mpr hvault, ?_⟩
    refine bind_eq_ok.mpr ⟨(), validateHash_eq_ok.mpr hratchet, ?_⟩
    rw [if_neg (not_lt.mpr hv), if_neg (not_lt.mpr hr)]
    exact hwindows.mpr horigin

lemma decodeTransaction_encodeTransaction (path : StorePath)
    (h : encodeTransaction provider transaction = .ok bytes) :
    bytes.length ≤ maxTransactionBytes ∧ transaction.WellShaped ∧
      decodeTransaction provider path bytes = .ok transaction := by
  obtain ⟨⟨⟩, hshape, h⟩ := bind_eq_ok.mp h
  have hshaped := validateShape_eq_ok.mp hshape
  cases hpayload : provider.transactionCodec.serialize transaction with
  | error source => simp [hpayload] at h
  | ok payload =>
    simp only [hpayload] at h
    split_ifs at h with hlen
    obtain rfl := Except.ok.inj h
    refine ⟨not_lt.mp hlen, hshaped, ?_⟩
    simp only [decodeTransaction, if_neg hlen, afterMagic_append,
      provider.transactionCodec.roundTrip hpayload, validateShape_eq_ok.mpr hshaped]

/-- A decoded transaction is within its bounds. -/
lemma wellShaped_of_decodeTransaction {path : StorePath}
    (h : decodeTransaction provider path bytes = .ok transaction) : transaction.WellShaped := by
  unfold decodeTransaction at h
  split_ifs at h with hlen
  split at h
  · simp at h
  · next payload hpayload =>
    cases hread : provider.transactionCodec.deserialize payload with
    | error source => simp [hread] at h
    | ok read =>
      simp only [hread] at h
      cases hshape : validateShape path read with
      | error source => simp [hshape] at h
      | ok _ =>
        simp only [hshape, Except.ok.injEq] at h
        exact h ▸ validateShape_eq_ok.mp hshape

/-- A ratchet read from records has no counter at the vault root. -/
lemma vaultRoot_of_intoRatchet {records : List (Evolving RatchetRecordV1)}
    (h : intoRatchet records = some ratchet) : ratchet.watermarks[RecordKey.vaultRoot]? = none := by
  obtain ⟨trustedRoot, -, rfl⟩ := Option.map_eq_some_iff.mp h
  exact Ratchet.vaultRoot_absorbRecords (by simp [Ratchet.new])

lemma mem_ratchetStore {record : Evolving RatchetRecordV1} : record ∈ ratchetStore ratchet ↔
    match record with
    | .known fact => fact ∈ ratchet.toRecords
    | .unknown raw => ⟨raw⟩ ∈ ratchet.unknownRecords := by
  cases record with
  | known fact => simp [ratchetStore]
  | unknown raw =>
    simp only [ratchetStore, List.mem_append, List.mem_map, reduceCtorEq, and_false, exists_false,
      Evolving.unknown.injEq, false_or]
    constructor
    · rintro ⟨unknown, hmem, rfl⟩
      exact hmem
    · exact fun hmem => ⟨⟨raw⟩, hmem, rfl⟩

/-- What a record set tells about the ratchet it was written from. -/
lemma intoRatchet_ratchetStore {records : List (Evolving RatchetRecordV1)}
    (h : ∀ record, record ∈ records ↔ record ∈ ratchetStore ratchet) :
    ∃ ratchet', intoRatchet records = some ratchet' ∧
      ratchet'.trustedRoot = ratchet.trustedRoot ∧ ratchet'.memory = ratchet.storedMemory ∧
      ∀ unknown, unknown ∈ ratchet'.unknownRecords ↔ unknown ∈ ratchet.unknownRecords := by
  have hknown : ∀ fact, Evolving.known fact ∈ records ↔ fact ∈ ratchet.toRecords := fun fact => by
    rw [h, mem_ratchetStore]
  -- the only root among the records is the ratchet's
  have hroots : ∀ root, root ∈ records.filterMap namedRoot ↔ root = ratchet.trustedRoot := by
    intro root
    have hfact : ∀ record, namedRoot record = some root ↔ record = .known (.trustedRoot root) := by
      rintro (fact | raw)
      · cases fact <;> simp [namedRoot]
      · simp [namedRoot]
    simp [List.mem_filterMap, hfact, hknown, Ratchet.mem_toRecords, RatchetRecordV1.forKey_ne_trustedRoot]
  have hroot : (records.filterMap namedRoot).getLast? = some ratchet.trustedRoot := by
    cases hlast : (records.filterMap namedRoot).getLast? with
    | none =>
      have hnil := List.getLast?_eq_none_iff.mp hlast
      have hmem := (hroots _).mpr rfl
      simp [hnil] at hmem
    | some root => rw [(hroots root).mp (List.mem_of_getLast? hlast)]
  refine ⟨_, by rw [intoRatchet, hroot]; rfl, ?_, ?_, ?_⟩
  · exact (Ratchet.scope_absorbRecords (.new ratchet.trustedRoot) _).1
  · apply eq_of_forall_ge_iff
    intro bound
    refine Ratchet.memory_absorbRecords_le_iff.trans ?_
    rw [Ratchet.storedMemory_le_iff, Ratchet.memory_new]
    constructor
    · rintro ⟨-, hle⟩ fact hfact
      have hadded : knownFact (.known fact) = some fact ∨ fact.memory = ⊥ := by
        cases fact with
        | trustedRoot root => exact Or.inr (RatchetRecordV1.memory_trustedRoot root)
        | _ => exact Or.inl rfl
      rcases hadded with hadded | hbot
      · exact hle fact (List.mem_filterMap.mpr ⟨_, (hknown fact).mpr hfact, hadded⟩)
      · exact hbot ▸ bot_le
    · intro hle
      refine ⟨bot_le, fun fact hfact => ?_⟩
      obtain ⟨record, hmem, hadded⟩ := List.mem_filterMap.mp hfact
      have hrecord : record = .known fact := by
        rcases record with fact' | raw
        · cases fact' <;> simp_all [knownFact]
        · simp [knownFact] at hadded
      exact hle fact ((hknown fact).mp (hrecord ▸ hmem))
  · rintro ⟨raw⟩
    have hfact : ∀ record, unknownFact record = some ⟨raw⟩ ↔ record = .unknown raw := by
      rintro (fact | raw') <;> simp [unknownFact]
    simp [List.mem_filterMap, hfact, h, mem_ratchetStore]

lemma decodeRatchet_eq_ok {path : StorePath} : decodeRatchet provider path bytes = .ok ratchet ↔
    ∃ payload records, afterMagic ratchetMagic bytes = some payload ∧
      provider.ratchetCodec.deserialize payload = .ok records ∧
      intoRatchet records = some ratchet := by
  unfold decodeRatchet
  cases afterMagic ratchetMagic bytes with
  | none => simp
  | some payload =>
    cases hread : provider.ratchetCodec.deserialize payload with
    | error source => simp [hread]
    | ok records => cases hinto : intoRatchet records <;> simp [hread, hinto]

/-- A ratchet file has no counter at the vault root. -/
lemma vaultRoot_of_decodeRatchet {path : StorePath}
    (h : decodeRatchet provider path bytes = .ok ratchet) :
    ratchet.watermarks[RecordKey.vaultRoot]? = none := by
  obtain ⟨_, _, _, _, hinto⟩ := decodeRatchet_eq_ok.mp h
  exact vaultRoot_of_intoRatchet hinto

lemma decodeRatchet_encodeRatchet (path : StorePath)
    (h : encodeRatchet provider ratchet = .ok bytes) :
    ∃ ratchet', decodeRatchet provider path bytes = .ok ratchet' ∧
      ratchet'.trustedRoot = ratchet.trustedRoot ∧ ratchet'.memory = ratchet.storedMemory ∧
      ∀ unknown, unknown ∈ ratchet'.unknownRecords ↔ unknown ∈ ratchet.unknownRecords := by
  unfold encodeRatchet at h
  cases hpayload : provider.ratchetCodec.serialize (ratchetStore ratchet) with
  | error source => simp [hpayload] at h
  | ok payload =>
    simp only [hpayload, Except.ok.injEq] at h
    subst h
    obtain ⟨records, hread, hmem⟩ := provider.ratchetCodec.roundTrip hpayload
    obtain ⟨ratchet', hinto, hfacts⟩ := intoRatchet_ratchetStore hmem
    exact ⟨ratchet', decodeRatchet_eq_ok.mpr ⟨payload, records, afterMagic_append _ _, hread, hinto⟩,
      hfacts⟩

/-- A fact of a record set is one of its known records. -/
lemma mem_filterMap_knownFact {records : List (Evolving RatchetRecordV1)} {fact : RatchetRecordV1}
    (hkeyed : fact.key ≠ none) :
    fact ∈ records.filterMap knownFact ↔ .known fact ∈ records := by
  rw [List.mem_filterMap]
  constructor
  · rintro ⟨record, hmem, hadded⟩
    have hrecord : record = .known fact := by
      rcases record with fact' | raw
      · cases fact' <;> simp_all [knownFact]
      · simp [knownFact] at hadded
    exact hrecord ▸ hmem
  · intro hmem
    refine ⟨_, hmem, ?_⟩
    cases fact <;> simp_all [knownFact, RatchetRecordV1.key]

lemma originsLegible_of_decodeRatchet {path : StorePath}
    (h : decodeRatchet provider path bytes = .ok ratchet) : ratchet.OriginsLegible := by
  obtain ⟨_, records, _, _, hinto⟩ := decodeRatchet_eq_ok.mp h
  obtain ⟨root, -, rfl⟩ := Option.map_eq_some_iff.mp hinto
  exact (Ratchet.originsLegible_new root).absorbRecords (records.filterMap knownFact)

/-- Legible origins are read back. -/
lemma origins_of_encodeRatchet {path : StorePath} {stored : Ratchet}
    (h : encodeRatchet provider ratchet = .ok bytes)
    (hread : decodeRatchet provider path bytes = .ok stored) (hlegible : ratchet.OriginsLegible)
    (hroot : ratchet.watermarks[RecordKey.vaultRoot]? = none) :
    stored.origins = ratchet.origins := by
  unfold encodeRatchet at h
  cases hpayload : provider.ratchetCodec.serialize (ratchetStore ratchet) with
  | error source => simp [hpayload] at h
  | ok payload =>
    simp only [hpayload, Except.ok.injEq] at h
    subst h
    obtain ⟨records, hrecords, hmem⟩ := provider.ratchetCodec.roundTrip hpayload
    obtain ⟨payload', records', hmagic, hrecords', hinto⟩ := decodeRatchet_eq_ok.mp hread
    obtain rfl : payload = payload' := by simpa [afterMagic_append] using hmagic
    obtain rfl : records = records' := Except.ok.inj (hrecords.symm.trans hrecords')
    obtain ⟨root, -, rfl⟩ := Option.map_eq_some_iff.mp hinto
    refine Std.ExtTreeMap.ext_getElem? fun key => ?_
    refine Ratchet.origins_absorb_toRecords hlegible hroot (fun fact hkeyed => ?_) root key
    exact (mem_filterMap_knownFact hkeyed).trans ((hmem _).trans mem_ratchetStore)

end RoundTrips

end Thorax
