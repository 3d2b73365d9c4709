import Thorax.Store.Access
import Thorax.Validate.Pipeline

/-!
# The mutation journal

A mutation of a vault replaces two files, the vault and the ratchet of its root. Both after-images
are first written to a journal; while the journal exists it counts as part of the rollback memory,
and whoever loads the vault it came from completes it. Everything here runs while the caller holds
the lock of the root, and that of the workspace where the vault file is written.
-/

namespace Thorax

open Collections Durable

/-! ### The root of a vault -/

/-- The self-signed root records of a vault, by the hash of their key. -/
def trustedRootCandidates (crypto : CryptoProvider) (records : List VaultRecordV1) :
    BTreeSet HashValue :=
  collectSet (fun signed =>
    match signed.body with
    | .known (.vaultRoot root) =>
      if root.id = deriveUserId crypto signed.signingPublicKey root.hpkePublicKey ∧
          verifiesEnvelope crypto signed = true then
        some (keyHash crypto signed.signingPublicKey)
      else none
    | _ => none) records ∅

def trustedRootCandidate (crypto : CryptoProvider) (vault : VaultStore) : Except OpsError HashValue :=
  match (trustedRootCandidates crypto vault.records).toList with
  | [] => .error .missingTrustedRootCandidate
  | [candidate] => .ok candidate
  | candidates => .error (.ambiguousTrustedRootCandidates candidates)

/-- The root depends on the records as a set. -/
lemma trustedRootCandidate_congr {crypto : CryptoProvider} {vault vault' : VaultStore}
    (h : ∀ signed, signed ∈ vault.records ↔ signed ∈ vault'.records) :
    trustedRootCandidate crypto vault = trustedRootCandidate crypto vault' := by
  have hset : trustedRootCandidates crypto vault.records =
      trustedRootCandidates crypto vault'.records := by
    apply set_ext
    intro candidate
    simp only [trustedRootCandidates, mem_collectSet, h]
  rw [trustedRootCandidate, trustedRootCandidate, hset]

/-! ### Merging ratchets -/

def mergeRatchet (current after : Ratchet) : Except OpsError Ratchet :=
  if current.trustedRoot ≠ after.trustedRoot then .error .transactionRecoveryConflict
  else
    let absorbed := after.toRecords.foldl Ratchet.absorbRecord current
    .ok { absorbed with
      unknownRecords := after.unknownRecords.foldl (fun records unknown =>
        if unknown ∈ records then records else records ++ [unknown]) absorbed.unknownRecords }

/-! ### The journal -/

structure PendingTransaction where
  transactionId : Bytes
  operation : String
  origin : NativePathV1
  recoverableHere : Bool
  deriving DecidableEq

inductive RecoveryDisposition where
  | none
  | recovered
  | pendingElsewhere
  deriving DecidableEq

/-- Store operations within operations. -/
def liftStore {α : Type} (program : Program Disk StoreError α) : Program Disk OpsError α :=
  program.zoom id (fun disk _ => disk) .store

def readStore {α : Type} (reader : Disk → Except StoreError α) : Program Disk OpsError α :=
  .read fun disk => (reader disk).mapError .store

def check {α : Type} (result : Except OpsError α) : Program Disk OpsError α := .read fun _ => result

section Lifts

variable {α : Type} {disk : Disk} {crash : Disk → Prop} {post : Except OpsError α → Disk → Prop}

@[simp] lemma meets_liftStore {program : Program Disk StoreError α} :
    (liftStore program).Meets disk crash post ↔
      program.Meets disk crash fun result disk' => post (result.mapError .store) disk' := by
  simp [liftStore]

@[simp] lemma meets_readStore {reader : Disk → Except StoreError α} :
    (readStore reader).Meets disk crash post ↔ post ((reader disk).mapError .store) disk := by
  simp [readStore]

@[simp] lemma meets_check {result : Except OpsError α} :
    (check result).Meets disk crash post ↔ post result disk := by
  simp [check]

/-- A reader that succeeds hands its value on. -/
lemma meets_readStore_bind {β : Type} {reader : Disk → Except StoreError β} {value : β}
    {next : β → Program Disk OpsError α} (h : reader disk = .ok value) :
    (readStore reader >>= next).Meets disk crash post ↔ (next value).Meets disk crash post := by
  simp [h]

lemma meets_check_bind {β : Type} {result : Except OpsError β} {value : β}
    {next : β → Program Disk OpsError α} (h : result = .ok value) :
    (check result >>= next).Meets disk crash post ↔ (next value).Meets disk crash post := by
  simp [h]

variable {disk' : Disk} {a : α}

@[simp] lemma ends_liftStore {program : Program Disk StoreError α} :
    (liftStore program).Ends disk a disk' ↔ program.Ends disk a disk' := by
  simp [liftStore]

@[simp] lemma ends_readStore {reader : Disk → Except StoreError α} :
    (readStore reader).Ends disk a disk' ↔ reader disk = .ok a ∧ disk = disk' := by
  simp [readStore]

@[simp] lemma ends_check {result : Except OpsError α} :
    (check result).Ends disk a disk' ↔ result = .ok a ∧ disk = disk' := by
  simp [check]

variable {P : Disk → Prop}

lemma stays_liftStore {program : Program Disk StoreError α} (h : program.Stays P disk) :
    (liftStore program).Stays P disk := meets_liftStore.mpr h

lemma stays_readStore_bind {β : Type} {reader : Disk → Except StoreError β}
    {next : β → Program Disk OpsError α} (hs : P disk)
    (hnext : ∀ value, reader disk = .ok value → (next value).Stays P disk) :
    (readStore reader >>= next).Stays P disk :=
  Program.stays_read_bind hs fun value hvalue => hnext value (mapError_eq_ok.mp hvalue)

lemma stays_check_bind {β : Type} {result : Except OpsError β}
    {next : β → Program Disk OpsError α} (hs : P disk)
    (hnext : ∀ value, result = .ok value → (next value).Stays P disk) :
    (check result >>= next).Stays P disk :=
  Program.stays_read_bind hs hnext

end Lifts

section Journal

variable (provider : StoreProvider)

def fileHash (bytes : Bytes) : HashValue := provider.hash .transactionFile bytes

def pendingError (transaction : TransactionV1) : OpsError :=
  .pendingTransaction transaction.transactionId transaction.originVaultPath

/-- The ratchet after the transaction, if both after-images belong to its root. -/
def validateTransaction (transaction : TransactionV1) : Except OpsError Ratchet := do
  let vault ← (decodeVaultAt provider (.transaction transaction.trustedRoot)
    transaction.nextVaultBytes).mapError .store
  let vaultRoot ← trustedRootCandidate provider.toCryptoProvider vault
  if vaultRoot ≠ transaction.trustedRoot then .error .transactionRecoveryConflict
  else
    let ratchet ← (decodeRatchet provider (.transaction transaction.trustedRoot)
      transaction.nextRatchetBytes).mapError .store
    if ratchet.trustedRoot ≠ transaction.trustedRoot then .error .transactionRecoveryConflict
    else .ok ratchet

/-- Whether a file is the after-image; it must be that or the before-image. -/
def classifyFile (current : Option Bytes) (before : FilePreconditionV1) (after : Bytes) :
    Except OpsError Bool :=
  let isBefore := match current, before with
    | none, .missing => true
    | some bytes, .hash expected => decide (fileHash provider bytes = expected)
    | _, _ => false
  let isAfter := match current with
    | some bytes => decide (fileHash provider bytes = fileHash provider after)
    | none => false
  if !isBefore && !isAfter then .error .transactionRecoveryConflict else .ok isAfter

variable (paths : WorkspacePaths) (root : HashValue)

/-- A vault or ratchet file as the journal sees it. -/
def readCurrentVault (disk : Disk) : Except StoreError (Option Bytes) :=
  readOptionalFile (.vault paths.vaultPath) (disk.vaults paths.vaultPath) maxVaultBytes

def readCurrentRatchet (disk : Disk) : Except StoreError (Option Bytes) :=
  readOptionalFile (.ratchet root) (disk.roots root).ratchet maxRatchetBytes

/-- The ratchet of the file joined with that of a pending journal, and the journal. -/
def readStrongestRatchetOptionalWithPending (disk : Disk) :
    Except OpsError (Option Ratchet × Option PendingTransaction) := do
  let ratchet ← (readRatchetForRoot provider root disk).mapError .store
  match ← (readTransaction provider root disk).mapError .store with
  | none => .ok (ratchet, none)
  | some transaction =>
    let nextRatchet ← validateTransaction provider transaction
    let current ← mergeRatchet (ratchet.getD (.new root)) nextRatchet
    let recoverableHere ← (transaction.originVaultPath.matchesCanonical paths disk).mapError .store
    .ok (some current, some ⟨transaction.transactionId, transaction.operation,
      transaction.originVaultPath, recoverableHere⟩)

def readStrongestRatchet (disk : Disk) : Except OpsError (Ratchet × Option PendingTransaction) := do
  match ← readStrongestRatchetOptionalWithPending provider paths root disk with
  | (none, _) => .error (.missingRatchet (.ratchet root))
  | (some ratchet, pending) => .ok (ratchet, pending)

/-- Bring both files to their after-images and drop the journal. -/
def completeTransaction (transaction : TransactionV1) : Program Disk OpsError Unit := do
  let currentVault ← readStore (readCurrentVault paths)
  let currentRatchet ← readStore (readCurrentRatchet transaction.trustedRoot)
  let vaultIsAfter ← check (classifyFile provider currentVault transaction.vaultBefore
    transaction.nextVaultBytes)
  let ratchetIsAfter ← check (classifyFile provider currentRatchet transaction.ratchetBefore
    transaction.nextRatchetBytes)
  .skipWhen ratchetIsAfter (liftStore
    (writeRatchetBytesAtomic provider transaction.trustedRoot transaction.nextRatchetBytes))
  .skipWhen vaultIsAfter (liftStore
    (writeVaultBytesAtomic provider paths transaction.nextVaultBytes))
  let reopenedRatchet ← readStore (readCurrentRatchet transaction.trustedRoot)
  let reopenedVault ← readStore (readCurrentVault paths)
  .ensure (reopenedRatchet = some transaction.nextRatchetBytes &&
    reopenedVault = some transaction.nextVaultBytes) .transactionRecoveryConflict
  liftStore (removeTransaction transaction.trustedRoot)

/-- Journal a prepared mutation and complete it. The caller has validated the after-images against
the expected before-images. -/
def commitAfterImages (transactionId : Bytes) (operation : String)
    (expectedVaultBytes expectedRatchetBytes nextVaultBytes nextRatchetBytes : Bytes) :
    Program Disk OpsError Unit := do
  let legacy ← readStore (joinCommitPresent root)
  .ensure (!legacy) .multipleRecoveryTransactions
  match ← readStore (readTransaction provider root) with
  | some pending => .fail (pendingError pending)
  | none =>
    let vaultBytes ← readStore (readVaultBytes paths)
    .ensure (vaultBytes = expectedVaultBytes) (.transactionPreconditionChanged "vault")
    let currentRatchet ← readStore (readCurrentRatchet root)
    .ensure (currentRatchet = some expectedRatchetBytes)
      (.transactionPreconditionChanged "ratchet")
    let originVaultPath ← readStore (NativePathV1.canonical paths)
    let transaction : TransactionV1 :=
      { transactionId := transactionId
        trustedRoot := root
        originVaultPath := originVaultPath
        operation := operation
        vaultBefore := .hash (fileHash provider expectedVaultBytes)
        ratchetBefore := .hash (fileHash provider expectedRatchetBytes)
        nextVaultBytes := nextVaultBytes
        nextRatchetBytes := nextRatchetBytes }
    let _ ← check (validateTransaction provider transaction)
    liftStore (writeTransactionAtomic provider transaction)
    completeTransaction provider paths transaction

def ensureNoPendingTransaction : Program Disk OpsError Unit := do
  let legacy ← readStore (joinCommitPresent root)
  .ensure (!legacy) .multipleRecoveryTransactions
  match ← readStore (readTransaction provider root) with
  | some transaction =>
    let _ ← check (validateTransaction provider transaction)
    .fail (pendingError transaction)
  | none => pure ()

/-- Give up a pending mutation; what its ratchet remembers is kept. -/
def abandonTransaction : Program Disk OpsError PendingTransaction := do
  match ← readStore (readTransaction provider root) with
  | none => .fail .noPendingTransaction
  | some transaction =>
    let after ← check (validateTransaction provider transaction)
    match ← readStore (readRatchetForRoot provider root) with
    | none => .fail (.missingRatchet (.ratchet root))
    | some persisted =>
      let merged ← check (mergeRatchet persisted after)
      liftStore (writeRatchetAtomic provider merged)
      liftStore (removeTransaction root)
      pure ⟨transaction.transactionId, transaction.operation, transaction.originVaultPath, false⟩

/-! ### Recovery -/

/-- The part of recovery under the shared lock: whether there is a journal that came from here. -/
def recoveryCheck (disk : Disk) : Except OpsError RecoveryDisposition := do
  match ← (readTransaction provider root disk).mapError .store with
  | none => .ok .none
  | some transaction =>
    let _ ← validateTransaction provider transaction
    let isOrigin ← (transaction.originVaultPath.matchesCanonical paths disk).mapError .store
    if isOrigin then .ok .recovered else .ok .pendingElsewhere

/-- The part of recovery under the exclusive locks, which looks again. -/
def recoverLocked : Program Disk OpsError RecoveryDisposition := do
  match ← readStore (readTransaction provider root) with
  | none => pure .recovered
  | some transaction =>
    let _ ← check (validateTransaction provider transaction)
    let isOrigin ← readStore (transaction.originVaultPath.matchesCanonical paths)
    if isOrigin then
      completeTransaction provider paths transaction
      pure .recovered
    else pure .pendingElsewhere

def recoverTransactionIfOrigin : Program Disk OpsError RecoveryDisposition := do
  match ← .read (recoveryCheck provider paths root) with
  | .recovered => recoverLocked provider paths root
  | disposition => pure disposition

def joinCommitHash (bytes : Bytes) : HashValue := provider.hash .joinCommit bytes

/-- The journal of an enrollment, read before the locks are taken. -/
def readJoinCommit (disk : Disk) : Except OpsError (Option JoinCommitJournalV1) := do
  match ← (readOptionalFile (.joinCommit root) (disk.roots root).joinCommit
      maxJoinCommitBytes).mapError .store with
  | none => .ok none
  | some bytes =>
    match afterMagic joinCommitMagic bytes with
    | none => .error .joinRecoveryConflict
    | some payload =>
      let journal ← (provider.joinCommitCodec.deserialize payload).mapError .cord
      if journal.trustedRoot ≠ root then .error .joinRecoveryConflict else .ok (some journal)

def completeJoinCommit (journal : JoinCommitJournalV1) : Program Disk OpsError Unit := do
  let currentVault ← readStore (readVaultBytes paths)
  .ensure (joinCommitHash provider currentVault = journal.expectedVaultHash ||
    joinCommitHash provider currentVault = joinCommitHash provider journal.nextVaultBytes)
    .joinRecoveryConflict
  match ← readStore (readRatchetForRoot provider journal.trustedRoot) with
  | none => .fail (.missingRatchet (.ratchet journal.trustedRoot))
  | some currentRatchet =>
    let currentBytes ← check ((encodeRatchet provider currentRatchet).mapError .store)
    .ensure (joinCommitHash provider currentBytes = journal.expectedRatchetHash ||
      joinCommitHash provider currentBytes = joinCommitHash provider journal.nextRatchetBytes)
      .joinRecoveryConflict
    let nextRatchet ← check ((decodeRatchet provider (.joinCommit journal.trustedRoot)
      journal.nextRatchetBytes).mapError .store)
    liftStore (writeRatchetAtomic provider nextRatchet)
    liftStore (writeVaultBytesAtomic provider paths journal.nextVaultBytes)
    match ← readStore (readRatchetForRoot provider journal.trustedRoot) with
    | none => .fail (.missingRatchet (.ratchet journal.trustedRoot))
    | some reopenedRatchet =>
      let reopenedVault ← readStore (readVaultBytes paths)
      let reopenedBytes ← check ((encodeRatchet provider reopenedRatchet).mapError .store)
      .ensure (reopenedVault = journal.nextVaultBytes &&
        reopenedBytes = journal.nextRatchetBytes) .joinRecoveryConflict
      liftStore (removeJoinCommit journal.trustedRoot)

def recoverJoinCommit : Program Disk OpsError Bool := do
  match ← .read (readJoinCommit provider root) with
  | none => pure false
  | some journal =>
    completeJoinCommit provider paths journal
    pure true

def recoverForRoot : Program Disk OpsError RecoveryDisposition := do
  let transaction ← readStore (readTransaction provider root)
  let legacy ← readStore (joinCommitPresent root)
  .ensure (!(transaction.isSome && legacy)) .multipleRecoveryTransactions
  match ← recoverTransactionIfOrigin provider paths root with
  | .none =>
    let recovered ← recoverJoinCommit provider paths root
    pure (if recovered then .recovered else .none)
  | disposition => pure disposition

/-- Recovery as the first part of a load: for the root of the vault that is there. -/
def recoverCurrentWorkspace : Program Disk OpsError RecoveryDisposition := do
  let vaultBytes ← readStore (readVaultBytes paths)
  let vault ← check ((decodeVaultAt provider (.vault paths.vaultPath) vaultBytes).mapError .store)
  let trustedRoot ← check (trustedRootCandidate provider.toCryptoProvider vault)
  recoverForRoot provider paths trustedRoot

end Journal

/-! ### Merging -/

section Merging

variable {current after : Ratchet}

/-- A merge joins the two memories and keeps the unknown records of both. -/
lemma mergeRatchet_spec (h : current.trustedRoot = after.trustedRoot) :
    ∃ merged, mergeRatchet current after = .ok merged ∧
      merged.trustedRoot = current.trustedRoot ∧
      merged.memory = current.memory ⊔ after.storedMemory ∧
      ∀ unknown, unknown ∈ merged.unknownRecords ↔
        unknown ∈ current.unknownRecords ∨ unknown ∈ after.unknownRecords := by
  have hscope := Ratchet.scope_absorbRecords current after.toRecords
  refine ⟨_, if_neg (not_not.mpr h), hscope.1, Ratchet.memory_absorb_toRecords current after, ?_⟩
  have hfold : ∀ (added records : List UnknownRatchetRecord) (unknown : UnknownRatchetRecord),
      unknown ∈ added.foldl (fun records unknown =>
          if unknown ∈ records then records else records ++ [unknown]) records ↔
        unknown ∈ records ∨ unknown ∈ added := by
    intro added
    induction added with
    | nil => simp
    | cons first added ih =>
      intro records unknown
      rw [List.foldl_cons, ih]
      split_ifs with hmem
      · simp only [List.mem_cons]
        constructor
        · tauto
        · rintro (h | rfl | h)
          · exact Or.inl h
          · exact Or.inl hmem
          · exact Or.inr h
      · simp only [List.mem_append, List.mem_cons, List.not_mem_nil, or_false]
        tauto
  intro unknown
  rw [← hscope.2]
  exact hfold _ _ unknown

/-- A merge with a ratchet read from disk keeps both. -/
lemma mergeRatchet_keeps (h : current.trustedRoot = after.trustedRoot)
    (hafter : after.watermarks[RecordKey.vaultRoot]? = none) :
    ∃ merged, mergeRatchet current after = .ok merged ∧ current.Keeps merged ∧
      after.Keeps merged := by
  obtain ⟨merged, hmerge, hroot, hmemory, hunknown⟩ := mergeRatchet_spec h
  rw [Ratchet.storedMemory_eq_memory hafter] at hmemory
  refine ⟨merged, hmerge, ?_, ?_⟩
  · exact Ratchet.keeps_of_memory hroot (hmemory ▸ le_sup_left) fun unknown hu =>
      (hunknown unknown).mpr (Or.inl hu)
  · exact Ratchet.keeps_of_memory (hroot.trans h) (hmemory ▸ le_sup_right) fun unknown hu =>
      (hunknown unknown).mpr (Or.inr hu)

/-- A merge with a ratchet that keeps the current one remembers the same as that ratchet. -/
lemma mergeRatchet_of_keeps (h : current.Keeps after)
    (hafter : after.watermarks[RecordKey.vaultRoot]? = none) :
    ∃ merged, mergeRatchet current after = .ok merged ∧ after.Keeps merged ∧
      merged.Keeps after := by
  obtain ⟨merged, hmerge, hroot, hmemory, hunknown⟩ := mergeRatchet_spec h.trustedRoot.symm
  rw [Ratchet.storedMemory_eq_memory hafter, sup_eq_right.mpr h.memory_le] at hmemory
  refine ⟨merged, hmerge, ?_, ?_⟩
  · refine Ratchet.keeps_of_memory (hroot.trans h.trustedRoot.symm) hmemory.ge fun unknown hu => ?_
    exact (hunknown unknown).mpr (Or.inr hu)
  · refine Ratchet.keeps_of_memory (h.trustedRoot.trans hroot.symm) hmemory.le fun unknown hu => ?_
    exact ((hunknown unknown).mp hu).elim (h.unknownRecords unknown) fun hu => hu

end Merging

/-! ### Validity -/

section Validity

variable {provider : StoreProvider} {transaction : TransactionV1} {ratchet : Ratchet}

/-- A valid transaction leaves a vault and a ratchet of its own root. -/
lemma validateTransaction_eq_ok : validateTransaction provider transaction = .ok ratchet ↔
    (∃ vault, decodeVault provider transaction.nextVaultBytes = .ok vault ∧
      trustedRootCandidate provider.toCryptoProvider vault = .ok transaction.trustedRoot) ∧
    decodeRatchet provider (.ratchet transaction.trustedRoot) transaction.nextRatchetBytes =
      .ok ratchet ∧ ratchet.trustedRoot = transaction.trustedRoot := by
  simp only [validateTransaction, bind_eq_ok, mapError_eq_ok, decodeVaultAt_eq_ok]
  constructor
  · rintro ⟨vault, hvault, vaultRoot, hcandidate, h⟩
    split_ifs at h with hroot
    obtain ⟨read, hread, h⟩ := bind_eq_ok.mp h
    split_ifs at h with hroot'
    obtain rfl : read = ratchet := by simpa using h
    rw [not_not] at hroot hroot'
    exact ⟨⟨vault, hvault, hroot ▸ hcandidate⟩, decodeRatchet_path (mapError_eq_ok.mp hread), hroot'⟩
  · rintro ⟨⟨vault, hvault, hcandidate⟩, hread, hroot⟩
    refine ⟨vault, hvault, _, hcandidate, ?_⟩
    rw [if_neg (not_not.mpr rfl)]
    refine bind_eq_ok.mpr ⟨ratchet, mapError_eq_ok.mpr (decodeRatchet_path hread), ?_⟩
    rw [if_neg (not_not.mpr hroot)]

/-- The after-image of a valid transaction is a ratchet file of its root. -/
lemma holdsRatchet_of_valid (hshaped : transaction.WellShaped)
    (h : validateTransaction provider transaction = .ok ratchet) :
    HoldsRatchet provider transaction.trustedRoot transaction.nextRatchetBytes ratchet := by
  obtain ⟨-, hread, hroot⟩ := validateTransaction_eq_ok.mp h
  exact ⟨hshaped.nextRatchetBytes, hread, hroot⟩

end Validity

/-! ### No journal -/

section NoJournal

variable {provider : StoreProvider} {root : HashValue} {disk : Disk} {crash : Disk → Prop}
  {post : Except OpsError Unit → Disk → Prop}

/-- The check for journals passes only where there is none, and changes nothing. -/
lemma meets_ensureNoPendingTransaction (herror : ∀ e, post (.error e) disk)
    (hok : (disk.roots root).joinCommit = none → (disk.roots root).transaction = none →
      post (.ok ()) disk) :
    (ensureNoPendingTransaction provider root).Meets disk crash post := by
  simp only [ensureNoPendingTransaction, Program.meets_bind, meets_readStore, Program.meets_ensure]
  cases hlegacy : joinCommitPresent root disk with
  | error e => exact herror _
  | ok legacy =>
    cases legacy with
    | true => exact herror _
    | false =>
      simp only [mapError_ok, Bool.not_false, if_true]
      cases hread : readTransaction provider root disk with
      | error e => exact herror _
      | ok pending =>
        cases pending with
        | none =>
          simp only [mapError_ok, Program.meets_pure]
          exact hok (joinCommitPresent_eq_false.mp hlegacy) (readTransaction_eq_none.mp hread)
        | some transaction =>
          simp only [mapError_ok, Program.meets_bind, meets_check]
          cases validateTransaction provider transaction with
          | error e => exact herror _
          | ok next => exact Program.meets_fail.mpr (herror _)

/-- Without a journal the check passes. -/
lemma meets_ensureNoPendingTransaction_of_none (hjoin : (disk.roots root).joinCommit = none)
    (hnone : (disk.roots root).transaction = none) :
    (ensureNoPendingTransaction provider root).Meets disk crash post ↔ post (.ok ()) disk := by
  simp [ensureNoPendingTransaction, joinCommitPresent_eq_false.mpr hjoin,
    readTransaction_eq_none.mpr hnone]

lemma stays_ensureNoPendingTransaction_bind {P : Disk → Prop} {α : Type}
    {next : Unit → Program Disk OpsError α} (hs : P disk)
    (hnext : (disk.roots root).joinCommit = none → (disk.roots root).transaction = none →
      (next ()).Stays P disk) :
    (ensureNoPendingTransaction provider root >>= next).Stays P disk := by
  refine Program.stays_bind_of (fun result disk' => disk' = disk ∧ (result = .ok () →
    (disk.roots root).joinCommit = none ∧ (disk.roots root).transaction = none))
    (meets_ensureNoPendingTransaction (fun _ => ⟨rfl, by simp⟩) fun hjoin hnone =>
      ⟨rfl, fun _ => ⟨hjoin, hnone⟩⟩) ?_ ?_
  · rintro e _ ⟨rfl, -⟩
    exact hs
  · rintro _ _ ⟨rfl, h⟩
    exact hnext (h rfl).1 (h rfl).2

end NoJournal

/-! ### Recovery at the origin -/

section Origin

variable {provider : StoreProvider} {paths : WorkspacePaths} {root : HashValue} {disk : Disk}
  {transaction : TransactionV1} {next : Ratchet} {crash : Disk → Prop}
  {post : Except OpsError RecoveryDisposition → Disk → Prop}

/-- With a valid journal from this workspace, and no other, recovery is its completion. -/
lemma meets_recoverForRoot_origin
    (hread : readTransaction provider root disk = .ok (some transaction))
    (hjoin : (disk.roots root).joinCommit = none)
    (hvalid : validateTransaction provider transaction = .ok next)
    (horigin : transaction.originVaultPath.matchesCanonical paths disk = .ok true) :
    (recoverForRoot provider paths root).Meets disk crash post ↔
      (completeTransaction provider paths transaction).Meets disk crash fun result disk' =>
        post (result.map fun _ => .recovered) disk' := by
  have hcheck : recoveryCheck provider paths root disk = .ok .recovered := by
    simp [recoveryCheck, hread, hvalid, horigin, bind, Except.bind]
  rw [recoverForRoot, meets_readStore_bind hread,
    meets_readStore_bind (joinCommitPresent_eq_false.mpr hjoin)]
  simp only [Option.isSome_some, Bool.and_false, Bool.not_false, Program.meets_bind,
    Program.meets_ensure, if_true, recoverTransactionIfOrigin, Program.meets_read, hcheck,
    recoverLocked, meets_readStore, hread, mapError_ok, meets_check, hvalid, horigin]
  constructor
  · intro h
    refine h.mono (fun _ hd => hd) fun result disk' hd => ?_
    cases result with
    | error e => exact hd
    | ok _ => simpa [Except.map] using hd
  · intro h
    refine h.mono (fun _ hd => hd) fun result disk' hd => ?_
    cases result with
    | error e => exact hd
    | ok _ => simpa [Except.map] using hd

end Origin

/-! ### What the journal touches -/

section Frame

variable {provider : StoreProvider} {paths : WorkspacePaths} {root : HashValue} {P : Disk → Prop}

/-- A condition that survives writes of the vault, the ratchet and the journal. -/
structure SurvivesCommits (paths : WorkspacePaths) (root : HashValue) (P : Disk → Prop) : Prop where
  vault : ∀ disk bytes, P disk → P (disk.setVault paths.vaultPath bytes)
  ratchet : ∀ disk bytes, P disk → P (disk.setRatchet root bytes)
  transaction : ∀ disk bytes, P disk → P (disk.setTransaction root bytes)

lemma SurvivesCommits.stays_completeTransaction {transaction : TransactionV1}
    (hP : SurvivesCommits paths transaction.trustedRoot P) {disk : Disk} (h : P disk) :
    (completeTransaction provider paths transaction).Stays P disk := by
  refine stays_readStore_bind h fun _ _ => stays_readStore_bind h fun _ _ => ?_
  refine stays_check_bind h fun _ _ => stays_check_bind h fun _ _ => ?_
  refine Program.stays_bind (Program.stays_skipWhen h (stays_liftStore
    (stays_writeRatchetBytes h fun _ _ => hP.ratchet _ _ h))) fun _ disk₁ h₁ => ?_
  refine Program.stays_bind (Program.stays_skipWhen h₁ (stays_liftStore
    (stays_writeVaultBytes h₁ (hP.vault _ _ h₁)))) fun _ disk₂ h₂ => ?_
  refine stays_readStore_bind h₂ fun _ _ => stays_readStore_bind h₂ fun _ _ => ?_
  refine Program.stays_ensure_bind h₂ fun _ => ?_
  exact stays_liftStore (Program.stays_write h₂ (hP.transaction _ _ h₂))

lemma SurvivesCommits.stays_commitAfterImages (hP : SurvivesCommits paths root P) {disk : Disk}
    (h : P disk) {transactionId : Bytes} {operation : String}
    {expectedVaultBytes expectedRatchetBytes nextVaultBytes nextRatchetBytes : Bytes} :
    (commitAfterImages provider paths root transactionId operation expectedVaultBytes
      expectedRatchetBytes nextVaultBytes nextRatchetBytes).Stays P disk := by
  refine stays_readStore_bind h fun _ _ => Program.stays_ensure_bind h fun _ => ?_
  refine stays_readStore_bind h fun pending _ => ?_
  cases pending with
  | some pending => exact Program.stays_fail h
  | none =>
    refine stays_readStore_bind h fun _ _ => Program.stays_ensure_bind h fun _ => ?_
    refine stays_readStore_bind h fun _ _ => Program.stays_ensure_bind h fun _ => ?_
    refine stays_readStore_bind h fun _ _ => stays_check_bind h fun _ _ => ?_
    refine Program.stays_bind (stays_liftStore ?_) fun _ disk₁ h₁ => ?_
    · exact meets_writeTransaction_of (fun bytes _ _ => ⟨h, hP.transaction _ _ h⟩) fun _ => h
    · exact hP.stays_completeTransaction h₁

end Frame

/-! ### The strongest ratchet -/

section Strongest

variable {provider : StoreProvider} {paths : WorkspacePaths} {root : HashValue} {disk : Disk}
  {file merged : Option Ratchet} {transaction : TransactionV1} {next ratchet : Ratchet}
  {pending : Option PendingTransaction}

/-- What a reader at a workspace learns about a pending transaction. -/
def PendingTransaction.of (transaction : TransactionV1) (paths : WorkspacePaths) :
    PendingTransaction where
  transactionId := transaction.transactionId
  operation := transaction.operation
  origin := transaction.originVaultPath
  recoverableHere := decide (transaction.originVaultPath = .fromPath paths.vaultPath)

/-- The strongest ratchet is that of the file, or the merge of it with that of the journal. -/
lemma readStrongestRatchetOptionalWithPending_eq_ok :
    readStrongestRatchetOptionalWithPending provider paths root disk = .ok (merged, pending) ↔
      ∃ file, readRatchetForRoot provider root disk = .ok file ∧
        ((readTransaction provider root disk = .ok none ∧ merged = file ∧ pending = none) ∨
          ∃ transaction next ratchet, readTransaction provider root disk = .ok (some transaction) ∧
            validateTransaction provider transaction = .ok next ∧
            mergeRatchet (file.getD (.new root)) next = .ok ratchet ∧
            disk.vaults paths.vaultPath ≠ none ∧ merged = some ratchet ∧
            pending = some (.of transaction paths)) := by
  simp only [readStrongestRatchetOptionalWithPending, bind_eq_ok, mapError_eq_ok]
  refine exists_congr fun file => and_congr_right fun hfile => ?_
  constructor
  · rintro ⟨journal, hjournal, h⟩
    cases journal with
    | none =>
      simp only [Except.ok.injEq, Prod.mk.injEq] at h
      exact Or.inl ⟨hjournal, h.1.symm, h.2.symm⟩
    | some transaction =>
      obtain ⟨next, hvalid, h⟩ := bind_eq_ok.mp h
      obtain ⟨ratchet, hmerge, h⟩ := bind_eq_ok.mp h
      obtain ⟨here, hhere, h⟩ := bind_eq_ok.mp h
      obtain ⟨hexists, rfl⟩ := matchesCanonical_eq_ok.mp (mapError_eq_ok.mp hhere)
      simp only [Except.ok.injEq, Prod.mk.injEq] at h
      exact Or.inr ⟨transaction, next, ratchet, hjournal, hvalid, hmerge, hexists, h.1.symm,
        h.2.symm⟩
  · rintro (⟨hjournal, rfl, rfl⟩ | ⟨transaction, next, ratchet, hjournal, hvalid, hmerge, hexists,
      rfl, rfl⟩)
    · exact ⟨none, hjournal, rfl⟩
    · refine ⟨some transaction, hjournal, bind_eq_ok.mpr ⟨next, hvalid, ?_⟩⟩
      refine bind_eq_ok.mpr ⟨ratchet, hmerge, bind_eq_ok.mpr ⟨_, ?_, rfl⟩⟩
      exact mapError_eq_ok.mpr (matchesCanonical_eq_ok.mpr ⟨hexists, rfl⟩)

lemma readStrongestRatchet_eq_ok :
    readStrongestRatchet provider paths root disk = .ok (ratchet, pending) ↔
      readStrongestRatchetOptionalWithPending provider paths root disk =
        .ok (some ratchet, pending) := by
  simp only [readStrongestRatchet, bind_eq_ok]
  constructor
  · rintro ⟨⟨found, pending'⟩, hread, h⟩
    cases found with
    | none => simp at h
    | some found =>
      simp only [Except.ok.injEq, Prod.mk.injEq] at h
      rw [hread, h.1, h.2]
  · exact fun h => ⟨_, h, rfl⟩

/-- The strongest ratchet is one of its root. -/
lemma trustedRoot_of_readStrongestRatchet
    (h : readStrongestRatchet provider paths root disk = .ok (ratchet, pending)) :
    ratchet.trustedRoot = root := by
  obtain ⟨file, hfile, hmerged⟩ :=
    readStrongestRatchetOptionalWithPending_eq_ok.mp (readStrongestRatchet_eq_ok.mp h)
  have hroot : (file.getD (.new root)).trustedRoot = root := by
    cases file with
    | none => rfl
    | some file => exact (readRatchetForRoot_eq_some.mp hfile).choose_spec.2.2.2
  rcases hmerged with ⟨-, rfl, -⟩ | ⟨transaction, next, merged, -, -, hmerge, -, hsome, -⟩
  · exact hroot
  · obtain rfl := Option.some.inj hsome
    have hsame : (file.getD (.new root)).trustedRoot = next.trustedRoot := by
      by_contra hne
      simp [mergeRatchet, hne] at hmerge
    obtain ⟨merged, hmerge', hmergedRoot, -⟩ := mergeRatchet_spec hsame
    obtain rfl : ratchet = merged := by simpa [hmerge] using hmerge'
    exact hmergedRoot.trans hroot

/-- The strongest ratchet has no counter at the vault root. -/
lemma vaultRoot_of_readStrongestRatchet
    (h : readStrongestRatchet provider paths root disk = .ok (ratchet, pending)) :
    ratchet.watermarks[RecordKey.vaultRoot]? = none := by
  obtain ⟨file, hfile, hmerged⟩ :=
    readStrongestRatchetOptionalWithPending_eq_ok.mp (readStrongestRatchet_eq_ok.mp h)
  have hroot : (file.getD (.new root)).watermarks[RecordKey.vaultRoot]? = none := by
    cases file with
    | none => rfl
    | some file =>
      obtain ⟨_, _, _, hdecode, _⟩ := readRatchetForRoot_eq_some.mp hfile
      exact vaultRoot_of_decodeRatchet hdecode
  rcases hmerged with ⟨-, rfl, -⟩ | ⟨transaction, next, merged, -, -, hmerge, -, hsome, -⟩
  · exact hroot
  · obtain rfl := Option.some.inj hsome
    unfold mergeRatchet at hmerge
    split_ifs at hmerge
    obtain rfl := Except.ok.inj hmerge
    exact Ratchet.vaultRoot_absorbRecords hroot

end Strongest

end Thorax
