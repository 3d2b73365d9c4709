import Thorax.Store.Files

/-!
# The store's readers and writers

Readers look at the disk; writers check, write one file and read it back. Each has one lemma
that says when it succeeds and what it leaves.
-/

namespace Thorax

open Collections Durable

section Readers

variable (provider : StoreProvider) (paths : WorkspacePaths) (root : HashValue)

def readVaultBytes (disk : Disk) : Except StoreError Bytes :=
  match readFileBounded (disk.vaults paths.vaultPath) maxVaultBytes with
  | .ok bytes => .ok bytes
  | .error .notFound => .error (.vaultMissing (.vault paths.vaultPath))
  | .error (.invalidData detail) =>
    .error (.invalidVault (.vault paths.vaultPath) (.validation detail))

/-- The vault of some bytes, with the path its errors name. -/
def decodeVaultAt (path : StorePath) (bytes : Bytes) : Except StoreError VaultStore :=
  (decodeVault provider bytes).mapError (.invalidVault path)

def readRatchetForRoot (disk : Disk) : Except StoreError (Option Ratchet) := do
  match ← readOptionalFile (.ratchet root) (disk.roots root).ratchet maxRatchetBytes with
  | none => .ok none
  | some bytes =>
    let ratchet ← decodeRatchet provider (.ratchet root) bytes
    if ratchet.trustedRoot = root then .ok (some ratchet)
    else .error (.trustRootMismatch ratchet.trustedRoot root)

def readTransaction (disk : Disk) : Except StoreError (Option TransactionV1) := do
  match ← readOptionalFile (.transaction root) (disk.roots root).transaction maxTransactionBytes with
  | none => .ok none
  | some bytes =>
    let transaction ← decodeTransaction provider (.transaction root) bytes
    if transaction.trustedRoot = root then .ok (some transaction)
    else .error (.invalidTransaction (.transaction root)
      "transaction trusted root does not match its state directory")

def joinCommitPresent (disk : Disk) : Except StoreError Bool :=
  (readOptionalFile (.joinCommit root) (disk.roots root).joinCommit maxJoinCommitBytes).map
    Option.isSome

/-- The native form of a path whose file exists. -/
def NativePathV1.canonical (disk : Disk) : Except StoreError NativePathV1 :=
  match disk.vaults paths.vaultPath with
  | none => .error (.io (.vault paths.vaultPath) .notFound)
  | some _ => .ok (.fromPath paths.vaultPath)

def NativePathV1.matchesCanonical (native : NativePathV1) (disk : Disk) : Except StoreError Bool :=
  (NativePathV1.canonical paths disk).map fun canonical => decide (native = canonical)

/-- Any fault of a cache file reads as no cache. -/
def readVerificationCache (user : UserId) (disk : Disk) : Option VerificationCacheV1 :=
  match readFileBounded ((disk.roots root).caches user) maxVerificationCacheBytes with
  | .error _ => none
  | .ok bytes =>
    (afterMagic cacheMagic bytes).bind fun payload =>
      (provider.cacheCodec.deserialize payload).toOption

end Readers

section Writers

variable (provider : StoreProvider) (paths : WorkspacePaths) (root : HashValue)

def writeVaultBytesAtomic (bytes : Bytes) : Program Disk StoreError Unit := do
  .ensure (bytes.length ≤ maxVaultBytes) (.invalidVault (.vault paths.vaultPath) (.validation
    s!"vault is {bytes.length} bytes, above the supported maximum of {maxVaultBytes}"))
  .write fun disk => disk.setVault paths.vaultPath bytes
  let reopened ← .read (readVaultBytes paths)
  .ensure (reopened = bytes) (.invalidVault (.vault paths.vaultPath)
    (.validation "vault bytes differed immediately after atomic write"))
  let _ ← .read fun _ => decodeVaultAt provider (.vault paths.vaultPath) reopened

/-- The bytes of a ratchet file that must exist. -/
def reopenRatchet (disk : Disk) : Except StoreError Bytes :=
  (readFileBounded (disk.roots root).ratchet maxRatchetBytes).mapError (.io (.ratchet root))

def writeRatchetBytesAtomic (bytes : Bytes) : Program Disk StoreError Unit := do
  .ensure (bytes.length ≤ maxRatchetBytes) (.io (.ratchet root) (.invalidData
    s!"ratchet is {bytes.length} bytes, above the supported maximum of {maxRatchetBytes}"))
  let decoded ← .read fun _ => decodeRatchet provider (.ratchet root) bytes
  .ensure (decoded.trustedRoot = root) (.trustRootMismatch decoded.trustedRoot root)
  .write fun disk => disk.setRatchet root bytes
  let reopened ← .read (reopenRatchet root)
  .ensure (reopened = bytes) (.io (.ratchet root)
    (.invalidData "ratchet bytes differed immediately after atomic write"))
  let _ ← .read fun _ => decodeRatchet provider (.ratchet root) reopened

def writeRatchetAtomic (ratchet : Ratchet) : Program Disk StoreError Unit := do
  let bytes ← .read fun _ => encodeRatchet provider ratchet
  writeRatchetBytesAtomic provider ratchet.trustedRoot bytes

def reopenTransaction (disk : Disk) : Except StoreError Bytes :=
  (readFileBounded (disk.roots root).transaction maxTransactionBytes).mapError
    (.io (.transaction root))

def writeTransactionAtomic (transaction : TransactionV1) : Program Disk StoreError Unit := do
  let bytes ← .read fun _ => encodeTransaction provider transaction
  .write fun disk => disk.setTransaction transaction.trustedRoot (some bytes)
  let reopened ← .read (reopenTransaction transaction.trustedRoot)
  .ensure (reopened = bytes) (.invalidTransaction (.transaction transaction.trustedRoot)
    "transaction bytes differed immediately after atomic write")
  let decoded ← .read fun _ =>
    decodeTransaction provider (.transaction transaction.trustedRoot) reopened
  .ensure (decoded = transaction) (.invalidTransaction (.transaction transaction.trustedRoot)
    "transaction value differed immediately after atomic write")

def removeTransaction : Program Disk StoreError Unit :=
  .write fun disk => disk.setTransaction root none

def removeJoinCommit : Program Disk StoreError Unit :=
  .write fun disk => disk.removeJoinCommit root

def reopenCache (user : UserId) (disk : Disk) : Except StoreError Bytes :=
  (readFileBounded ((disk.roots root).caches user) maxVerificationCacheBytes).mapError
    (.io (.cache root user))

def writeVerificationCacheAtomic (user : UserId) (cache : VerificationCacheV1) :
    Program Disk StoreError Unit := do
  let payload ← .read fun _ => (provider.cacheCodec.serialize cache).mapError .cord
  let bytes := cacheMagic ++ payload
  .ensure (bytes.length ≤ maxVerificationCacheBytes) (.io (.cache cache.trustedRoot user)
    (.invalidData (s!"verification cache is {bytes.length} bytes, above the supported " ++
      s!"maximum of {maxVerificationCacheBytes}")))
  .write fun disk => disk.setCache cache.trustedRoot user bytes
  let reopened ← .read (reopenCache cache.trustedRoot user)
  .ensure (reopened = bytes) (.io (.cache cache.trustedRoot user)
    (.invalidData "verification cache bytes differed immediately after atomic write"))
  let payload ← .read fun _ => match afterMagic cacheMagic reopened with
    | none => .error (.io (.cache cache.trustedRoot user)
        (.invalidData "verification cache lost its magic prefix"))
    | some payload => .ok payload
  let _ ← .read fun _ => (provider.cacheCodec.deserialize payload).mapError .cord

end Writers

/-! ### What the readers return -/

section ReaderLemmas

variable {provider : StoreProvider} {paths : WorkspacePaths} {root : HashValue} {disk : Disk}

lemma readFileBounded_of_le {bytes : Bytes} {maxBytes : ℕ} (h : bytes.length ≤ maxBytes) :
    readFileBounded (some bytes) maxBytes = .ok bytes := by
  simp [readFileBounded, h]

lemma readVaultBytes_eq_ok {bytes : Bytes} : readVaultBytes paths disk = .ok bytes ↔
    disk.vaults paths.vaultPath = some bytes ∧ bytes.length ≤ maxVaultBytes := by
  unfold readVaultBytes readFileBounded
  cases disk.vaults paths.vaultPath with
  | none => simp
  | some found =>
    by_cases hlen : maxVaultBytes < found.length
    · simp only [hlen, if_true, Option.some.injEq, false_iff, not_and, not_le, reduceCtorEq]
      rintro rfl
      exact hlen
    · simp only [hlen, if_false, Except.ok.injEq, Option.some.injEq]
      constructor
      · rintro rfl
        exact ⟨rfl, not_lt.mp hlen⟩
      · exact fun h => h.1

lemma decodeVaultAt_eq_ok {path : StorePath} {bytes : Bytes} {vault : VaultStore} :
    decodeVaultAt provider path bytes = .ok vault ↔ decodeVault provider bytes = .ok vault :=
  mapError_eq_ok

/-- The path of a ratchet's bytes only matters for errors. -/
lemma decodeRatchet_path {path path' : StorePath} {bytes : Bytes} {ratchet : Ratchet}
    (h : decodeRatchet provider path bytes = .ok ratchet) :
    decodeRatchet provider path' bytes = .ok ratchet :=
  decodeRatchet_eq_ok.mpr (decodeRatchet_eq_ok.mp h)

/-- A ratchet file holds the bytes of a ratchet for its root. -/
def HoldsRatchet (provider : StoreProvider) (root : HashValue) (bytes : Bytes)
    (ratchet : Ratchet) : Prop :=
  bytes.length ≤ maxRatchetBytes ∧ decodeRatchet provider (.ratchet root) bytes = .ok ratchet ∧
    ratchet.trustedRoot = root

lemma readRatchetForRoot_eq_some {ratchet : Ratchet} :
    readRatchetForRoot provider root disk = .ok (some ratchet) ↔
      ∃ bytes, (disk.roots root).ratchet = some bytes ∧
        HoldsRatchet provider root bytes ratchet := by
  simp only [readRatchetForRoot, bind_eq_ok, readOptionalFile_eq_ok, HoldsRatchet]
  constructor
  · rintro ⟨file, ⟨rfl, hlen⟩, h⟩
    cases hfile : (disk.roots root).ratchet with
    | none => simp [hfile] at h
    | some bytes =>
      simp only [hfile] at h
      obtain ⟨read, hread, h⟩ := bind_eq_ok.mp h
      split_ifs at h with hroot
      obtain rfl : read = ratchet := by simpa using h
      exact ⟨bytes, rfl, hlen bytes hfile, hread, hroot⟩
  · rintro ⟨bytes, hfile, hlen, hread, hroot⟩
    refine ⟨some bytes, ⟨hfile.symm, ?_⟩, ?_⟩
    · rintro bytes' hbytes'
      obtain rfl : bytes = bytes' := by simpa [hfile] using hbytes'
      exact hlen
    · exact bind_eq_ok.mpr ⟨ratchet, hread, by rw [if_pos hroot]⟩

/-- A journal file holds the bytes of a transaction for its root. -/
def HoldsTransaction (provider : StoreProvider) (root : HashValue) (bytes : Bytes)
    (transaction : TransactionV1) : Prop :=
  bytes.length ≤ maxTransactionBytes ∧
    decodeTransaction provider (.transaction root) bytes = .ok transaction ∧
    transaction.trustedRoot = root

lemma readTransaction_eq_some {transaction : TransactionV1} :
    readTransaction provider root disk = .ok (some transaction) ↔
      ∃ bytes, (disk.roots root).transaction = some bytes ∧
        HoldsTransaction provider root bytes transaction := by
  simp only [readTransaction, bind_eq_ok, readOptionalFile_eq_ok, HoldsTransaction]
  constructor
  · rintro ⟨file, ⟨rfl, hlen⟩, h⟩
    cases hfile : (disk.roots root).transaction with
    | none => simp [hfile] at h
    | some bytes =>
      simp only [hfile] at h
      obtain ⟨read, hread, h⟩ := bind_eq_ok.mp h
      split_ifs at h with hroot
      obtain rfl : read = transaction := by simpa using h
      exact ⟨bytes, rfl, hlen bytes hfile, hread, hroot⟩
  · rintro ⟨bytes, hfile, hlen, hread, hroot⟩
    refine ⟨some bytes, ⟨hfile.symm, ?_⟩, ?_⟩
    · rintro bytes' hbytes'
      obtain rfl : bytes = bytes' := by simpa [hfile] using hbytes'
      exact hlen
    · exact bind_eq_ok.mpr ⟨transaction, hread, by rw [if_pos hroot]⟩

lemma readTransaction_eq_none :
    readTransaction provider root disk = .ok none ↔ (disk.roots root).transaction = none := by
  simp only [readTransaction, bind_eq_ok, readOptionalFile_eq_ok]
  constructor
  · rintro ⟨file, ⟨rfl, -⟩, h⟩
    cases hfile : (disk.roots root).transaction with
    | none => rfl
    | some bytes =>
      simp only [hfile] at h
      obtain ⟨read, -, h⟩ := bind_eq_ok.mp h
      split_ifs at h
      simp at h
  · intro hfile
    exact ⟨none, ⟨hfile.symm, by simp [hfile]⟩, rfl⟩

lemma joinCommitPresent_eq_false :
    joinCommitPresent root disk = .ok false ↔ (disk.roots root).joinCommit = none := by
  unfold joinCommitPresent
  cases hfile : (disk.roots root).joinCommit with
  | none => simp [readOptionalFile, readFileBounded, Except.map]
  | some bytes =>
    by_cases hlen : maxJoinCommitBytes < bytes.length <;>
      simp [readOptionalFile, readFileBounded, hlen, Except.map]

lemma canonical_eq_ok {native : NativePathV1} : NativePathV1.canonical paths disk = .ok native ↔
    disk.vaults paths.vaultPath ≠ none ∧ native = .fromPath paths.vaultPath := by
  unfold NativePathV1.canonical
  cases disk.vaults paths.vaultPath <;> simp [eq_comm]

lemma matchesCanonical_eq_ok {native : NativePathV1} {is : Bool} :
    native.matchesCanonical paths disk = .ok is ↔
      disk.vaults paths.vaultPath ≠ none ∧ is = decide (native = .fromPath paths.vaultPath) := by
  unfold NativePathV1.matchesCanonical NativePathV1.canonical
  cases disk.vaults paths.vaultPath <;> simp [Except.map, eq_comm]

end ReaderLemmas

/-! ### What the writers leave -/

section WriterLemmas

variable {provider : StoreProvider} {paths : WorkspacePaths} {root : HashValue} {disk : Disk}
  {bytes : Bytes} {crash : Disk → Prop} {post : Except StoreError Unit → Disk → Prop}

/-- The bytes of a vault are written. -/
lemma meets_writeVaultBytes {vault : VaultStore} (hlen : bytes.length ≤ maxVaultBytes)
    (hvault : decodeVault provider bytes = .ok vault) :
    (writeVaultBytesAtomic provider paths bytes).Meets disk crash post ↔
      crash disk ∧ post (.ok ()) (disk.setVault paths.vaultPath bytes) := by
  have hread : readVaultBytes paths (disk.setVault paths.vaultPath bytes) = .ok bytes :=
    readVaultBytes_eq_ok.mpr ⟨Disk.vaults_setVault, hlen⟩
  simp [writeVaultBytesAtomic, hlen, hread, decodeVaultAt_eq_ok.mpr hvault]

/-- The bytes of a ratchet for the root are written. -/
lemma meets_writeRatchetBytes {ratchet : Ratchet} (h : HoldsRatchet provider root bytes ratchet) :
    (writeRatchetBytesAtomic provider root bytes).Meets disk crash post ↔
      crash disk ∧ post (.ok ()) (disk.setRatchet root bytes) := by
  obtain ⟨hlen, hread, hroot⟩ := h
  have hreopen : reopenRatchet root (disk.setRatchet root bytes) = .ok bytes := by
    simp [reopenRatchet, readFileBounded_of_le hlen]
  simp [writeRatchetBytesAtomic, hlen, hread, hroot, hreopen]

/-- Bytes that are not a ratchet for the root are refused. -/
lemma meets_writeRatchetBytes_of
    (hok : ∀ ratchet, HoldsRatchet provider root bytes ratchet →
      crash disk ∧ post (.ok ()) (disk.setRatchet root bytes))
    (herror : ∀ e, post (.error e) disk) :
    (writeRatchetBytesAtomic provider root bytes).Meets disk crash post := by
  by_cases hlen : bytes.length ≤ maxRatchetBytes
  · cases hread : decodeRatchet provider (.ratchet root) bytes with
    | error e => simp [writeRatchetBytesAtomic, hlen, hread, herror]
    | ok ratchet =>
      by_cases hroot : ratchet.trustedRoot = root
      · have hholds : HoldsRatchet provider root bytes ratchet := ⟨hlen, hread, hroot⟩
        exact (meets_writeRatchetBytes hholds).mpr (hok ratchet hholds)
      · simp [writeRatchetBytesAtomic, hlen, hread, hroot, herror]
  · simp [writeRatchetBytesAtomic, hlen, herror]

/-- What of a ratchet its file keeps. -/
structure Ratchet.StoredAs (ratchet stored : Ratchet) : Prop where
  trustedRoot : stored.trustedRoot = ratchet.trustedRoot
  memory : stored.memory = ratchet.storedMemory
  unknownRecords : ∀ unknown, unknown ∈ stored.unknownRecords ↔ unknown ∈ ratchet.unknownRecords

/-- A ratchet that keeps another is stored as one that keeps it. -/
lemma Ratchet.StoredAs.keeps {older newer olderStored newerStored : Ratchet}
    (holder : older.StoredAs olderStored) (hnewer : newer.StoredAs newerStored)
    (h : older.Keeps newer) : olderStored.Keeps newerStored := by
  apply Ratchet.keeps_of_memory
  · rw [hnewer.trustedRoot, holder.trustedRoot, h.trustedRoot]
  · rw [hnewer.memory, holder.memory]
    exact Ratchet.storedMemory_mono h.memory_le
  · intro unknown hunknown
    rw [holder.unknownRecords] at hunknown
    rw [hnewer.unknownRecords]
    exact h.unknownRecords unknown hunknown

/-- What a ratchet keeps of one that has been read, its file keeps. -/
lemma Ratchet.StoredAs.keeps_from {file ratchet stored : Ratchet} (h : ratchet.StoredAs stored)
    (hroot : file.watermarks[RecordKey.vaultRoot]? = none) (hkeeps : file.Keeps ratchet) :
    file.Keeps stored := by
  apply Ratchet.keeps_of_memory
  · rw [h.trustedRoot, hkeeps.trustedRoot]
  · rw [h.memory, ← Ratchet.storedMemory_eq_memory hroot]
    exact Ratchet.storedMemory_mono hkeeps.memory_le
  · exact fun unknown hu => (h.unknownRecords unknown).mpr (hkeeps.unknownRecords unknown hu)

/-- A ratchet that has been read is stored as one that remembers the same. -/
lemma Ratchet.StoredAs.keeps_of_decoded {ratchet stored : Ratchet} (h : ratchet.StoredAs stored)
    (hroot : ratchet.watermarks[RecordKey.vaultRoot]? = none) :
    ratchet.Keeps stored ∧ stored.Keeps ratchet := by
  refine ⟨h.keeps_from hroot (.refl ratchet), ?_⟩
  apply Ratchet.keeps_of_memory h.trustedRoot.symm
  · rw [h.memory]
    exact ratchet.storedMemory_le_memory
  · exact fun unknown => (h.unknownRecords unknown).mp

lemma storedAs_of_encodeRatchet {ratchet : Ratchet} (path : StorePath)
    (h : encodeRatchet provider ratchet = .ok bytes) :
    ∃ stored, decodeRatchet provider path bytes = .ok stored ∧ ratchet.StoredAs stored := by
  obtain ⟨stored, hread, hroot, hmemory, hunknown⟩ := decodeRatchet_encodeRatchet path h
  exact ⟨stored, hread, hroot, hmemory, hunknown⟩

/-- A ratchet whose bytes fit is written. -/
lemma meets_writeRatchet {ratchet : Ratchet} (h : encodeRatchet provider ratchet = .ok bytes)
    (hlen : bytes.length ≤ maxRatchetBytes) :
    (writeRatchetAtomic provider ratchet).Meets disk crash post ↔
      crash disk ∧ post (.ok ()) (disk.setRatchet ratchet.trustedRoot bytes) := by
  obtain ⟨stored, hread, hstored⟩ := storedAs_of_encodeRatchet (.ratchet ratchet.trustedRoot) h
  simp only [writeRatchetAtomic, Program.meets_bind, Program.meets_read, h]
  exact meets_writeRatchetBytes ⟨hlen, hread, hstored.trustedRoot⟩

/-- A ratchet is written to the file of its root, or nothing is. -/
lemma meets_writeRatchet_of {ratchet : Ratchet}
    (hok : ∀ bytes stored, HoldsRatchet provider ratchet.trustedRoot bytes stored →
      ratchet.StoredAs stored →
      crash disk ∧ post (.ok ()) (disk.setRatchet ratchet.trustedRoot bytes))
    (herror : ∀ e, post (.error e) disk) :
    (writeRatchetAtomic provider ratchet).Meets disk crash post := by
  cases hbytes : encodeRatchet provider ratchet with
  | error e => simp [writeRatchetAtomic, hbytes, herror]
  | ok bytes =>
    by_cases hlen : bytes.length ≤ maxRatchetBytes
    · obtain ⟨stored, hread, hstored⟩ := storedAs_of_encodeRatchet (.ratchet ratchet.trustedRoot) hbytes
      exact (meets_writeRatchet hbytes hlen).mpr
        (hok bytes stored ⟨hlen, hread, hstored.trustedRoot⟩ hstored)
    · simp [writeRatchetAtomic, writeRatchetBytesAtomic, hbytes, hlen, herror]

/-- A transaction that can be encoded is written and reads back. -/
lemma meets_writeTransaction {transaction : TransactionV1}
    (h : encodeTransaction provider transaction = .ok bytes) :
    (writeTransactionAtomic provider transaction).Meets disk crash post ↔
      crash disk ∧ post (.ok ()) (disk.setTransaction transaction.trustedRoot (some bytes)) := by
  obtain ⟨hlen, -, hread⟩ :=
    decodeTransaction_encodeTransaction (.transaction transaction.trustedRoot) h
  have hreopen : reopenTransaction transaction.trustedRoot
      (disk.setTransaction transaction.trustedRoot (some bytes)) = .ok bytes := by
    simp [reopenTransaction, readFileBounded_of_le hlen]
  simp [writeTransactionAtomic, h, hreopen, hread]

lemma meets_writeTransaction_of {transaction : TransactionV1}
    (hok : ∀ bytes, HoldsTransaction provider transaction.trustedRoot bytes transaction →
      transaction.WellShaped →
      crash disk ∧ post (.ok ()) (disk.setTransaction transaction.trustedRoot (some bytes)))
    (herror : ∀ e, post (.error e) disk) :
    (writeTransactionAtomic provider transaction).Meets disk crash post := by
  cases hbytes : encodeTransaction provider transaction with
  | error e => simp [writeTransactionAtomic, hbytes, herror]
  | ok bytes =>
    obtain ⟨hlen, hshaped, hread⟩ :=
      decodeTransaction_encodeTransaction (.transaction transaction.trustedRoot) hbytes
    exact (meets_writeTransaction hbytes).mpr (hok bytes ⟨hlen, hread, rfl⟩ hshaped)

/-- A cache is written and reads back, or nothing is. -/
lemma meets_writeVerificationCache_of {user : UserId} {cache : VerificationCacheV1}
    (hok : ∀ bytes, (∀ disk' : Disk, (disk'.roots cache.trustedRoot).caches user = some bytes →
        readVerificationCache provider cache.trustedRoot user disk' = some cache) →
      crash disk ∧ post (.ok ()) (disk.setCache cache.trustedRoot user bytes))
    (herror : ∀ e, post (.error e) disk) :
    (writeVerificationCacheAtomic provider user cache).Meets disk crash post := by
  simp only [writeVerificationCacheAtomic, Program.meets_bind, Program.meets_read]
  cases hpayload : provider.cacheCodec.serialize cache with
  | error e => exact herror _
  | ok payload =>
    simp only [mapError_ok, Program.meets_ensure]
    by_cases hlen : (cacheMagic ++ payload).length ≤ maxVerificationCacheBytes
    · have hreopen : reopenCache cache.trustedRoot user
          (disk.setCache cache.trustedRoot user (cacheMagic ++ payload)) =
          .ok (cacheMagic ++ payload) := by
        simp [reopenCache, readFileBounded_of_le hlen]
      have hread : ∀ disk' : Disk,
          (disk'.roots cache.trustedRoot).caches user = some (cacheMagic ++ payload) →
          readVerificationCache provider cache.trustedRoot user disk' = some cache := by
        intro disk' hfile
        simp [readVerificationCache, hfile, readFileBounded_of_le hlen, afterMagic_append,
          provider.cacheCodec.roundTrip hpayload, Except.toOption]
      simp only [hlen, decide_true, if_true, Program.meets_write, hreopen, afterMagic_append,
        provider.cacheCodec.roundTrip hpayload, mapError_ok, Program.meets_pure]
      exact hok _ hread
    · simp only [hlen, decide_false, Bool.false_eq_true, if_false]
      exact herror _

variable {P : Disk → Prop}

lemma stays_writeVaultBytes (h : P disk) (h' : P (disk.setVault paths.vaultPath bytes)) :
    (writeVaultBytesAtomic provider paths bytes).Stays P disk := by
  refine Program.stays_ensure_bind h fun _ => ?_
  refine Program.stays_bind_of (fun _ disk' => disk' = disk.setVault paths.vaultPath bytes)
    (Program.meets_write.mpr ⟨h, rfl⟩) ?_ ?_
  · rintro e _ rfl
    exact h'
  · rintro _ _ rfl
    refine Program.stays_read_bind h' fun reopened _ => ?_
    refine Program.stays_ensure_bind h' fun _ => ?_
    exact Program.stays_read_bind h' fun _ _ => Program.stays_pure h'

lemma stays_writeRatchetBytes (h : P disk)
    (h' : ∀ ratchet, HoldsRatchet provider root bytes ratchet → P (disk.setRatchet root bytes)) :
    (writeRatchetBytesAtomic provider root bytes).Stays P disk :=
  meets_writeRatchetBytes_of (fun ratchet hholds => ⟨h, h' ratchet hholds⟩) fun _ => h

lemma stays_writeRatchet {ratchet : Ratchet} (h : P disk)
    (h' : ∀ bytes stored, HoldsRatchet provider ratchet.trustedRoot bytes stored →
      ratchet.StoredAs stored → P (disk.setRatchet ratchet.trustedRoot bytes)) :
    (writeRatchetAtomic provider ratchet).Stays P disk :=
  meets_writeRatchet_of (fun bytes stored hholds hstored => ⟨h, h' bytes stored hholds hstored⟩)
    fun _ => h

end WriterLemmas

end Thorax
