import Thorax.Errors
import Thorax.RatchetRecords

/-!
# The disk

The files the program keeps: the vault of each workspace, and for each trusted root the files of
its state directory. A workspace is known by the canonical path of its vault file.
-/

namespace Thorax

/-! ### Paths -/

structure WorkspacePaths where
  vaultPath : Path
  deriving DecidableEq

/-- Unix paths are their bytes, Windows paths the little-endian bytes of their units. -/
def NativePathV1.fromPath : Path → NativePathV1
  | .unix bytes => .unix bytes
  | .windows units =>
    .windowsUtf16Le (units.flatMap fun unit : UInt16 => [unit.toUInt8, (unit >>> 8).toUInt8])

/-- A Windows path is stored in whole units. -/
lemma even_length_fromPath {path : Path} {bytes : Bytes}
    (h : NativePathV1.fromPath path = .windowsUtf16Le bytes) : bytes.length % 2 = 0 := by
  cases path with
  | unix => simp [NativePathV1.fromPath] at h
  | windows units =>
    simp only [NativePathV1.fromPath, NativePathV1.windowsUtf16Le.injEq] at h
    subst h
    induction units with
    | nil => rfl
    | cons unit units ih =>
      simp only [List.flatMap_cons, List.length_append, List.length_cons, List.length_nil]
      omega

/-- The two bytes of a unit tell which unit it is. -/
lemma wideBytes_injective {a b : UInt16} (hlow : a.toUInt8 = b.toUInt8)
    (hhigh : (a >>> 8).toUInt8 = (b >>> 8).toUInt8) : a = b := by
  have hlow' := congrArg UInt8.toNat hlow
  have hhigh' := congrArg UInt8.toNat hhigh
  simp only [UInt16.toNat_toUInt8, UInt16.toNat_shiftRight] at hlow' hhigh'
  have ha := a.toNat_lt
  have hb := b.toNat_lt
  have h8 : (8 : UInt16).toNat % 16 = 8 := rfl
  rw [h8, Nat.shiftRight_eq_div_pow, Nat.shiftRight_eq_div_pow] at hhigh'
  apply UInt16.toNat_inj.mp
  omega

/-- A native path names one path. -/
lemma fromPath_injective : Function.Injective NativePathV1.fromPath := by
  intro path path' h
  cases path <;> cases path' <;> simp only [NativePathV1.fromPath, NativePathV1.unix.injEq,
    NativePathV1.windowsUtf16Le.injEq, reduceCtorEq] at h
  · rw [h]
  · next units units' =>
    congr 1
    induction units generalizing units' with
    | nil =>
      cases units' with
      | nil => rfl
      | cons unit units' => simp at h
    | cons unit units ih =>
      cases units' with
      | nil => simp at h
      | cons unit' units' =>
        simp only [List.flatMap_cons, List.cons_append, List.nil_append, List.cons.injEq] at h
        rw [wideBytes_injective h.1 h.2.1, ih units' h.2.2]
/-! ### Files -/

/-- The state directory of one root, with the user selected for it in the keychain. -/
structure RootState where
  ratchet : Option Bytes
  transaction : Option Bytes
  joinCommit : Option Bytes
  caches : UserId → Option Bytes
  currentUser : Option UserId

structure Disk where
  vaults : Path → Option Bytes
  roots : HashValue → RootState

namespace Disk

variable (disk : Disk) (path path' : Path) (root root' : HashValue)

def setVault (bytes : Bytes) : Disk :=
  { disk with vaults := Function.update disk.vaults path (some bytes) }

/-- Change the state directory of one root. -/
def modifyRoot (change : RootState → RootState) : Disk :=
  { disk with roots := Function.update disk.roots root (change (disk.roots root)) }

def setRatchet (bytes : Bytes) : Disk :=
  disk.modifyRoot root fun state => { state with ratchet := some bytes }

def setTransaction (bytes : Option Bytes) : Disk :=
  disk.modifyRoot root fun state => { state with transaction := bytes }

def removeJoinCommit : Disk :=
  disk.modifyRoot root fun state => { state with joinCommit := none }

def setCache (user : UserId) (bytes : Bytes) : Disk :=
  disk.modifyRoot root fun state =>
    { state with caches := Function.update state.caches user (some bytes) }

variable {disk path path' root root'}

@[simp] lemma vaults_setVault {bytes : Bytes} :
    (disk.setVault path bytes).vaults path = some bytes := by
  simp [setVault]

@[simp] lemma roots_setVault {bytes : Bytes} : (disk.setVault path bytes).roots = disk.roots := rfl

@[simp] lemma vaults_modifyRoot {change : RootState → RootState} :
    (disk.modifyRoot root change).vaults = disk.vaults := rfl

@[simp] lemma roots_modifyRoot {change : RootState → RootState} :
    (disk.modifyRoot root change).roots root = change (disk.roots root) := by
  simp [modifyRoot]

lemma roots_modifyRoot_of_ne {change : RootState → RootState} (h : root' ≠ root) :
    (disk.modifyRoot root change).roots root' = disk.roots root' := by
  simp [modifyRoot, h]

@[simp] lemma vaults_setRatchet {bytes : Bytes} :
    (disk.setRatchet root bytes).vaults = disk.vaults := rfl

@[simp] lemma vaults_setTransaction {bytes : Option Bytes} :
    (disk.setTransaction root bytes).vaults = disk.vaults := rfl

@[simp] lemma vaults_removeJoinCommit : (disk.removeJoinCommit root).vaults = disk.vaults := rfl

@[simp] lemma vaults_setCache {user : UserId} {bytes : Bytes} :
    (disk.setCache root user bytes).vaults = disk.vaults := rfl

@[simp] lemma roots_setRatchet {bytes : Bytes} : (disk.setRatchet root bytes).roots root =
    { disk.roots root with ratchet := some bytes } := roots_modifyRoot

@[simp] lemma roots_setTransaction {bytes : Option Bytes} :
    (disk.setTransaction root bytes).roots root =
      { disk.roots root with transaction := bytes } := roots_modifyRoot

@[simp] lemma roots_removeJoinCommit : (disk.removeJoinCommit root).roots root =
    { disk.roots root with joinCommit := none } := roots_modifyRoot

@[simp] lemma roots_setCache {user : UserId} {bytes : Bytes} :
    (disk.setCache root user bytes).roots root =
      { disk.roots root with
        caches := Function.update (disk.roots root).caches user (some bytes) } := roots_modifyRoot

end Disk

/-! ### Bounded reads -/

def maxVaultBytes : ℕ := 256 * 1024 * 1024

def maxVaultRecords : ℕ := 2 ^ 18

def maxRatchetBytes : ℕ := maxVaultBytes

def maxTransactionBytes : ℕ := maxVaultBytes + maxRatchetBytes + 1024 * 1024

def maxJoinCommitBytes : ℕ := maxVaultBytes + 1024 * 1024

def maxVerificationCacheBytes : ℕ := 32 * 1024 * 1024

/-- Read a file that may have at most `maxBytes` bytes. -/
def readFileBounded (file : Option Bytes) (maxBytes : ℕ) : Except IoError Bytes :=
  match file with
  | none => .error .notFound
  | some bytes =>
    if maxBytes < bytes.length then
      .error (.invalidData
        s!"file is {bytes.length} bytes, above the supported maximum of {maxBytes}")
    else .ok bytes

/-- Read a file whose absence is not an error. -/
def readOptionalFile (path : StorePath) (file : Option Bytes) (maxBytes : ℕ) :
    Except StoreError (Option Bytes) :=
  match readFileBounded file maxBytes with
  | .ok bytes => .ok (some bytes)
  | .error .notFound => .ok none
  | .error source => .error (.io path source)

/-- A file is read as it is, unless it is too large. -/
lemma readOptionalFile_eq_ok {path : StorePath} {file result : Option Bytes} {maxBytes : ℕ} :
    readOptionalFile path file maxBytes = .ok result ↔
      result = file ∧ ∀ bytes, file = some bytes → bytes.length ≤ maxBytes := by
  cases file with
  | none => simp [readOptionalFile, readFileBounded, eq_comm]
  | some bytes =>
    by_cases h : maxBytes < bytes.length
    · simp [readOptionalFile, readFileBounded, h]
    · simp only [readOptionalFile, readFileBounded, h, if_false, Except.ok.injEq,
        Option.some.injEq, forall_eq']
      constructor
      · rintro rfl
        exact ⟨rfl, not_lt.mp h⟩
      · exact fun hr => hr.1.symm

/-- A file that is too large is an input error. -/
lemma readOptionalFile_of_lt (path : StorePath) {bytes : Bytes} {maxBytes : ℕ}
    (h : maxBytes < bytes.length) :
    ∃ source, readOptionalFile path (some bytes) maxBytes = .error (.io path source) :=
  ⟨_, by simp only [readOptionalFile, readFileBounded, if_pos h]; rfl⟩

end Thorax
