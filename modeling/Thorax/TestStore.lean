import Thorax.Ops.Transaction
import Thorax.TestSupport

/-!
# A store that can be evaluated

A serializer that writes the position of a value in a table, file hashes cut to 32 bytes, and
small disks. On the values of its tables the serializer does what the program relies on.
-/

namespace Thorax.TestSupport

open Collections

/-! ### The table serializer -/

def tablePosition {α : Type} [DecidableEq α] (table : List α) (value : α) : Except CordError Bytes :=
  match table.findIdx? (· = value) with
  | some position =>
    if position < 256 then .ok [UInt8.ofNat position] else .error (.malformed "table is full")
  | none => .error (.malformed "value is not in the table")

def tableValue {α : Type} (table : List α) (bytes : Bytes) : Except CordError α :=
  match bytes with
  | [position] =>
    match table[position.toNat]? with
    | some value => .ok value
    | none => .error (.malformed "no such position")
  | _ => .error (.malformed "not a position")

lemma tableValue_tablePosition {α : Type} [DecidableEq α] {table : List α} {value : α}
    {bytes : Bytes} (h : tablePosition table value = .ok bytes) :
    tableValue table bytes = .ok value := by
  unfold tablePosition at h
  cases hfind : table.findIdx? (· = value) with
  | none => simp [hfind] at h
  | some position =>
    simp only [hfind] at h
    split_ifs at h with hlt
    obtain rfl := Except.ok.inj h
    obtain ⟨hlength, hvalue, -⟩ := List.findIdx?_eq_some_iff_getElem.mp hfind
    have hget : table[position]? = some value := by
      rw [List.getElem?_eq_getElem hlength, of_decide_eq_true hvalue]
    simp [tableValue, Nat.mod_eq_of_lt hlt, hget]

lemma tablePosition_injective {α : Type} [DecidableEq α] {table : List α} {value value' : α}
    {bytes : Bytes} (h : tablePosition table value = .ok bytes)
    (h' : tablePosition table value' = .ok bytes) : value = value' :=
  Except.ok.inj ((tableValue_tablePosition h).symm.trans (tableValue_tablePosition h'))

lemma mem_of_tableValue {α : Type} {table : List α} {value : α} {bytes : Bytes}
    (h : tableValue table bytes = .ok value) : value ∈ table := by
  unfold tableValue at h
  split at h
  · next position =>
    cases hget : table[position.toNat]? with
    | none => simp [hget] at h
    | some found =>
      simp only [hget, Except.ok.injEq] at h
      exact h ▸ List.mem_of_getElem? hget
  · cases h

def tableCodec {α : Type} [DecidableEq α] (table : List α) : Codec α where
  serialize := tablePosition table
  deserialize := tableValue table
  roundTrip := tableValue_tablePosition

/-- A table of values whose elements are distinct. -/
def tableSetCodec {α β : Type} [DecidableEq α] [DecidableEq β] (elements : α → List β)
    (table : List α) : SetCodec α β elements where
  serialize := tablePosition (table.filter fun value => (elements value).Nodup)
  deserialize := tableValue (table.filter fun value => (elements value).Nodup)
  distinct := by
    intro value bytes h
    simpa using (List.mem_filter.mp (mem_of_tableValue h)).2
  roundTrip := fun h => ⟨_, tableValue_tablePosition h, fun _ => Iff.rfl⟩

/-! ### The provider -/

/-- Hashes of files are their last bytes, padded to 32. -/
def fileDigest (bytes : Bytes) : HashValue := ⟨(bytes.reverse ++ List.replicate 32 0).take 32⟩

/-- The values a test writes. -/
structure Tables where
  vaults : List VaultStore
  ratchets : List (List (Evolving RatchetRecordV1))
  transactions : List TransactionV1
  caches : List VerificationCacheV1

def cacheMessage (trustedRoot : HashValue) (formatVersion : ℕ) (hashes : BTreeSet HashValue) :
    Bytes :=
  hashBytes trustedRoot ++ counterBytes formatVersion ++ listBytes hashBytes hashes.toList

def tableProvider (tables : Tables) : StoreProvider where
  hash domain bytes := match domain with
    | .transactionFile | .joinCommit => fileDigest bytes
    | other => transparentCrypto.hash other bytes
  verifySignature := transparentCrypto.verifySignature
  serialize := transparentCrypto.serialize
  vaultCodec := tableSetCodec VaultStore.records tables.vaults
  ratchetCodec := tableSetCodec id tables.ratchets
  transactionCodec := tableCodec tables.transactions
  joinCommitCodec := tableCodec []
  cacheCodec := tableCodec tables.caches
  verificationCacheMessage := cacheMessage
  verifyCacheSignature key message signature := key ++ message == signature

/-! ### Disks -/

def testPaths : WorkspacePaths := ⟨.unix (asciiBytes "/repo/.thorax/vault.cord")⟩

def testRoot : HashValue := keyHash transparentCrypto rootUser.signingPublicKey

/-- The bytes of a file whose value is at a position of its table. -/
def vaultFile (position : UInt8) : Bytes := vaultMagic ++ [position]

def ratchetFile (position : UInt8) : Bytes := ratchetMagic ++ [position]

def transactionFile (position : UInt8) : Bytes := transactionMagic ++ [position]

/-- A disk with one workspace and the state of its root. -/
def testDisk (vault ratchet transaction : Option Bytes) : Disk where
  vaults path := if path = testPaths.vaultPath then vault else none
  roots root :=
    if root = testRoot then ⟨ratchet, transaction, none, fun _ => none, none⟩
    else ⟨none, none, none, fun _ => none, none⟩

/-! ### A first secret -/

/-- The journal of a commit that appends a secret to a vault that holds only its root. -/
def firstSecret : TransactionV1 where
  transactionId := List.replicate 32 7
  trustedRoot := testRoot
  originVaultPath := .fromPath testPaths.vaultPath
  operation := "vault mutation"
  vaultBefore := .hash (fileDigest (vaultFile 0))
  ratchetBefore := .hash (fileDigest (ratchetFile 0))
  nextVaultBytes := vaultFile 1
  nextRatchetBytes := ratchetFile 1

def firstSecretRatchet : Ratchet := ratchetWith [(.secret testSecretId, 1)]

lemma keeps_firstSecretRatchet : freshRatchet.Keeps firstSecretRatchet :=
  Ratchet.keeps_of_memory rfl (by rw [freshRatchet, Ratchet.memory_new]; exact bot_le)
    (by simp [freshRatchet, Ratchet.new])

def firstSecretTables : Tables where
  vaults := [.v1 ⟨[vaultRootRecord]⟩, .v1 ⟨[vaultRootRecord, secretRecord rootUser [rootUser] 1]⟩]
  ratchets := [ratchetStore freshRatchet, ratchetStore firstSecretRatchet]
  transactions := [firstSecret]
  caches := []

end Thorax.TestSupport
