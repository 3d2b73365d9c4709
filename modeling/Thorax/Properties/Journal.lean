import Thorax.Ops.Transaction
import Thorax.TestStore

/-!
# Crash atomicity of the journal

A mutation replaces the vault and the ratchet of a root through the journal. However often the
commit and the recoveries after it are cut off, the files of the workspace are always the before-
or after-images, and a recovery that is not cut off leaves both of one kind and no journal. While
the journal exists the rollback memory is never below that of the after-image, nor below that of the
before-image as long as its file is there or the after-image keeps what it remembers. A file in a
third state stops recovery, which then changes nothing.
-/

namespace Thorax

open Durable

/-- A mutation that a caller hands to the journal: both before-images, and a transaction from this
workspace to valid after-images. The file hashes tell the images of one file apart. -/
structure Mutation (provider : StoreProvider) where
  paths : WorkspacePaths
  vaultBytes : Bytes
  ratchetBytes : Bytes
  ratchet : Ratchet
  transaction : TransactionV1
  nextRatchet : Ratchet
  vaultRoot : ∃ vault, decodeVault provider vaultBytes = .ok vault ∧
    trustedRootCandidate provider.toCryptoProvider vault = .ok transaction.trustedRoot
  holdsRatchet : HoldsRatchet provider transaction.trustedRoot ratchetBytes ratchet
  origin : transaction.originVaultPath = .fromPath paths.vaultPath
  vaultBefore : transaction.vaultBefore = .hash (fileHash provider vaultBytes)
  ratchetBefore : transaction.ratchetBefore = .hash (fileHash provider ratchetBytes)
  valid : validateTransaction provider transaction = .ok nextRatchet
  vaults_distinct : fileHash provider vaultBytes = fileHash provider transaction.nextVaultBytes →
    vaultBytes = transaction.nextVaultBytes
  ratchets_distinct :
    fileHash provider ratchetBytes = fileHash provider transaction.nextRatchetBytes →
      ratchetBytes = transaction.nextRatchetBytes

namespace Mutation

variable {provider : StoreProvider} (mutation : Mutation provider)

/-- The root whose state the mutation changes. -/
abbrev root : HashValue := mutation.transaction.trustedRoot

def commit : Program Disk OpsError Unit :=
  commitAfterImages provider mutation.paths mutation.root mutation.transaction.transactionId
    mutation.transaction.operation mutation.vaultBytes mutation.ratchetBytes mutation.transaction.nextVaultBytes
    mutation.transaction.nextRatchetBytes

/-- Recovery as a load at some workspace of the root runs it. -/
def recoverAt (paths : WorkspacePaths) : Program Disk OpsError RecoveryDisposition :=
  recoverForRoot provider paths mutation.root

/-! ### The states of a crash run -/

structure BothBefore (disk : Disk) : Prop where
  vault : disk.vaults mutation.paths.vaultPath = some mutation.vaultBytes
  ratchet : (disk.roots mutation.root).ratchet = some mutation.ratchetBytes

structure BothAfter (disk : Disk) : Prop where
  vault : disk.vaults mutation.paths.vaultPath = some mutation.transaction.nextVaultBytes
  ratchet : (disk.roots mutation.root).ratchet = some mutation.transaction.nextRatchetBytes

/-- No journal, and the files are of one kind. -/
structure Settled (disk : Disk) : Prop where
  transaction : (disk.roots mutation.root).transaction = none
  joinCommit : (disk.roots mutation.root).joinCommit = none
  files : mutation.BothBefore disk ∨ mutation.BothAfter disk

/-- The journal is there, and each file is one of its images. -/
structure Journaled (disk : Disk) : Prop where
  transaction : ∃ bytes, (disk.roots mutation.root).transaction = some bytes ∧
    HoldsTransaction provider mutation.root bytes mutation.transaction
  joinCommit : (disk.roots mutation.root).joinCommit = none
  vault : disk.vaults mutation.paths.vaultPath = some mutation.vaultBytes ∨
    disk.vaults mutation.paths.vaultPath = some mutation.transaction.nextVaultBytes
  ratchet : (disk.roots mutation.root).ratchet = some mutation.ratchetBytes ∨
    (disk.roots mutation.root).ratchet = some mutation.transaction.nextRatchetBytes

/-- The states between which the files of the workspace move. -/
def InFlight (disk : Disk) : Prop := mutation.Settled disk ∨ mutation.Journaled disk

/-- What the commit, cut off anywhere, and then any number of recoveries at workspaces of the
root, each cut off anywhere, can leave. -/
inductive Reachable (start : Disk) : Disk → Prop
  | start : Reachable start start
  | commit {disk : Disk} : mutation.commit.Leaves start disk → Reachable start disk
  | recover {disk disk' : Disk} (paths : WorkspacePaths) : Reachable start disk →
      (mutation.recoverAt paths).Leaves disk disk' → Reachable start disk'

end Mutation

/-! ### Images -/

section Images

variable {provider : StoreProvider} {mutation : Mutation provider} {disk : Disk}

lemma classifyFile_before {bytes after : Bytes} :
    classifyFile provider (some bytes) (.hash (fileHash provider bytes)) after =
      .ok (decide (fileHash provider bytes = fileHash provider after)) := by
  simp [classifyFile]

lemma classifyFile_after {after : Bytes} {before : FilePreconditionV1} :
    classifyFile provider (some after) before after = .ok true := by
  simp [classifyFile]

/-- A file that is neither image is a conflict. -/
lemma classifyFile_third {current : Option Bytes} {before after : Bytes}
    (hbefore : ∀ bytes, current = some bytes → fileHash provider bytes ≠ fileHash provider before)
    (hafter : ∀ bytes, current = some bytes → fileHash provider bytes ≠ fileHash provider after) :
    classifyFile provider current (.hash (fileHash provider before)) after =
      .error .transactionRecoveryConflict := by
  cases current with
  | none => simp [classifyFile]
  | some bytes => simp [classifyFile, hbefore bytes rfl, hafter bytes rfl]

lemma classifyFile_eq_error {current : Option Bytes} {before : FilePreconditionV1} {after : Bytes}
    {e : OpsError} (h : classifyFile provider current before after = .error e) :
    e = .transactionRecoveryConflict := by
  simp only [classifyFile] at h
  split_ifs at h
  simpa [eq_comm] using h

end Images

/-! ### One run -/

namespace Mutation

variable {provider : StoreProvider} {mutation : Mutation provider} {disk : Disk}

lemma Journaled.wellShaped (h : mutation.Journaled disk) : mutation.transaction.WellShaped := by
  obtain ⟨_, _, _, hread, _⟩ := h.transaction
  exact wellShaped_of_decodeTransaction hread

lemma Journaled.readTransaction (h : mutation.Journaled disk) :
    readTransaction provider mutation.root disk = .ok (some mutation.transaction) := by
  obtain ⟨bytes, hfile, hholds⟩ := h.transaction
  exact readTransaction_eq_some.mpr ⟨bytes, hfile, hholds⟩

lemma vaultBytes_le (mutation : Mutation provider) :
    mutation.vaultBytes.length ≤ maxVaultBytes := by
  obtain ⟨_, hvault, _⟩ := mutation.vaultRoot
  exact length_of_decodeVault hvault

lemma nextVaultBytes_le (mutation : Mutation provider) :
    mutation.transaction.nextVaultBytes.length ≤ maxVaultBytes := by
  obtain ⟨⟨_, hvault, _⟩, _⟩ := validateTransaction_eq_ok.mp mutation.valid
  exact length_of_decodeVault hvault

lemma Journaled.readCurrentVault (h : mutation.Journaled disk) :
    readCurrentVault mutation.paths disk = .ok (disk.vaults mutation.paths.vaultPath) := by
  refine readOptionalFile_eq_ok.mpr ⟨rfl, fun bytes hbytes => ?_⟩
  rcases h.vault with hvault | hvault
  · obtain rfl : mutation.vaultBytes = bytes := by simpa [hvault] using hbytes
    exact mutation.vaultBytes_le
  · obtain rfl : mutation.transaction.nextVaultBytes = bytes := by simpa [hvault] using hbytes
    exact mutation.nextVaultBytes_le

lemma Journaled.readCurrentRatchet (h : mutation.Journaled disk) :
    readCurrentRatchet mutation.root disk = .ok (disk.roots mutation.root).ratchet := by
  refine readOptionalFile_eq_ok.mpr ⟨rfl, fun bytes hbytes => ?_⟩
  rcases h.ratchet with hratchet | hratchet
  · obtain rfl : mutation.ratchetBytes = bytes := by simpa [hratchet] using hbytes
    exact mutation.holdsRatchet.1
  · obtain rfl : mutation.transaction.nextRatchetBytes = bytes := by simpa [hratchet] using hbytes
    exact h.wellShaped.nextRatchetBytes

/-- The vault is classified as what it is. -/
lemma Journaled.classify_vault (h : mutation.Journaled disk) :
    ∃ isAfter, classifyFile provider (disk.vaults mutation.paths.vaultPath)
        mutation.transaction.vaultBefore mutation.transaction.nextVaultBytes = .ok isAfter ∧
      (isAfter = true →
        disk.vaults mutation.paths.vaultPath = some mutation.transaction.nextVaultBytes) := by
  rcases h.vault with hvault | hvault
  · refine ⟨_, by rw [hvault, mutation.vaultBefore]; exact classifyFile_before, fun his => ?_⟩
    rw [hvault, mutation.vaults_distinct (of_decide_eq_true his)]
  · exact ⟨true, by rw [hvault]; exact classifyFile_after, fun _ => hvault⟩

lemma Journaled.classify_ratchet (h : mutation.Journaled disk) :
    ∃ isAfter, classifyFile provider (disk.roots mutation.root).ratchet
        mutation.transaction.ratchetBefore mutation.transaction.nextRatchetBytes = .ok isAfter ∧
      (isAfter = true →
        (disk.roots mutation.root).ratchet = some mutation.transaction.nextRatchetBytes) := by
  rcases h.ratchet with hratchet | hratchet
  · refine ⟨_, by rw [hratchet, mutation.ratchetBefore]; exact classifyFile_before, fun his => ?_⟩
    rw [hratchet, mutation.ratchets_distinct (of_decide_eq_true his)]
  · exact ⟨true, by rw [hratchet]; exact classifyFile_after, fun _ => hratchet⟩

/-- The journal stays valid while the files move to their after-images. -/
lemma Journaled.setRatchet (h : mutation.Journaled disk) :
    mutation.Journaled (disk.setRatchet mutation.root mutation.transaction.nextRatchetBytes) := by
  refine ⟨?_, ?_, h.vault, Or.inr ?_⟩
  · simpa using h.transaction
  · simpa using h.joinCommit
  · simp

lemma Journaled.setVault (h : mutation.Journaled disk) :
    mutation.Journaled
      (disk.setVault mutation.paths.vaultPath mutation.transaction.nextVaultBytes) :=
  ⟨h.transaction, h.joinCommit, Or.inr (by simp), h.ratchet⟩

/-- The last steps of completing the journal. -/
lemma Journaled.finish (h : mutation.Journaled disk) (hafter : mutation.BothAfter disk) :
    (do
      let reopenedRatchet ← readStore (Thorax.readCurrentRatchet mutation.root)
      let reopenedVault ← readStore (Thorax.readCurrentVault mutation.paths)
      .ensure (reopenedRatchet = some mutation.transaction.nextRatchetBytes &&
        reopenedVault = some mutation.transaction.nextVaultBytes) .transactionRecoveryConflict
      liftStore (removeTransaction mutation.root) : Program Disk OpsError Unit).Meets disk
        mutation.Journaled
        fun result disk' => result = .ok () ∧ mutation.BothAfter disk' ∧ mutation.Settled disk' := by
  have hsettled : mutation.BothAfter (disk.setTransaction mutation.root none) ∧
      mutation.Settled (disk.setTransaction mutation.root none) := by
    have hafter' : mutation.BothAfter (disk.setTransaction mutation.root none) :=
      ⟨hafter.vault, by simpa using hafter.ratchet⟩
    exact ⟨hafter', by simp, by simpa using h.joinCommit, Or.inr hafter'⟩
  simp [h.readCurrentRatchet, h.readCurrentVault, hafter.ratchet, hafter.vault, removeTransaction,
    h, hsettled]

/-- The ratchet is brought to its after-image. -/
lemma Journaled.meets_ratchetStep (h : mutation.Journaled disk) {isAfter : Bool}
    (hafter : isAfter = true →
      (disk.roots mutation.root).ratchet = some mutation.transaction.nextRatchetBytes) :
    (Program.skipWhen isAfter (liftStore (writeRatchetBytesAtomic provider mutation.root
      mutation.transaction.nextRatchetBytes))).Meets disk mutation.Journaled
        fun result disk' => result = .ok () ∧ mutation.Journaled disk' ∧
          disk'.vaults = disk.vaults ∧
          (disk'.roots mutation.root).ratchet = some mutation.transaction.nextRatchetBytes := by
  have hholds := holdsRatchet_of_valid h.wellShaped mutation.valid
  cases isAfter with
  | true => simp [h, hafter rfl]
  | false =>
    simp only [Program.meets_skipWhen, Bool.false_eq_true, if_false, meets_liftStore]
    exact (meets_writeRatchetBytes hholds).mpr ⟨h, rfl, h.setRatchet, rfl, by simp⟩

/-- The vault is brought to its after-image. -/
lemma Journaled.meets_vaultStep (h : mutation.Journaled disk) {isAfter : Bool}
    (hafter : isAfter = true →
      disk.vaults mutation.paths.vaultPath = some mutation.transaction.nextVaultBytes)
    (hratchet : (disk.roots mutation.root).ratchet = some mutation.transaction.nextRatchetBytes) :
    (Program.skipWhen isAfter (liftStore (writeVaultBytesAtomic provider mutation.paths
      mutation.transaction.nextVaultBytes))).Meets disk mutation.Journaled
        fun result disk' => result = .ok () ∧ mutation.Journaled disk' ∧
          mutation.BothAfter disk' := by
  obtain ⟨⟨_, hvault, _⟩, _⟩ := validateTransaction_eq_ok.mp mutation.valid
  cases isAfter with
  | true => simpa [h] using ⟨hafter rfl, hratchet⟩
  | false =>
    simp only [Program.meets_skipWhen, Bool.false_eq_true, if_false, meets_liftStore]
    rw [meets_writeVaultBytes mutation.nextVaultBytes_le hvault]
    exact ⟨h, rfl, h.setVault, by simp, hratchet⟩

/-- Completing the journal, cut off anywhere, leaves the journal and images; not cut off, it
leaves both after-images and no journal. -/
lemma Journaled.meets_completeTransaction (h : mutation.Journaled disk) :
    (completeTransaction provider mutation.paths mutation.transaction).Meets disk
      mutation.Journaled
      fun result disk' => result = .ok () ∧ mutation.BothAfter disk' ∧ mutation.Settled disk' := by
  obtain ⟨vaultIsAfter, hvault, hvaultAfter⟩ := h.classify_vault
  obtain ⟨ratchetIsAfter, hratchet, hratchetAfter⟩ := h.classify_ratchet
  rw [completeTransaction, meets_readStore_bind h.readCurrentVault,
    meets_readStore_bind h.readCurrentRatchet, meets_check_bind hvault, meets_check_bind hratchet,
    Program.meets_bind]
  refine (h.meets_ratchetStep hratchetAfter).mono (fun _ hd => hd) ?_
  rintro _ disk₁ ⟨rfl, h₁, hvaults, hratchet₁⟩
  rw [Program.meets_bind]
  refine (h₁.meets_vaultStep (fun his => hvaults ▸ hvaultAfter his) hratchet₁).mono
    (fun _ hd => hd) ?_
  rintro _ disk₂ ⟨rfl, h₂, hafter⟩
  exact h₂.finish hafter

/-- Without journals recovery does nothing. -/
lemma Settled.meets_recoverAt (h : mutation.Settled disk) (paths : WorkspacePaths)
    {crash : Disk → Prop} {post : Except OpsError RecoveryDisposition → Disk → Prop} :
    (mutation.recoverAt paths).Meets disk crash post ↔ post (.ok .none) disk := by
  have hread : readTransaction provider mutation.root disk = .ok none :=
    readTransaction_eq_none.mpr h.transaction
  have hcheck : recoveryCheck provider paths mutation.root disk = .ok .none := by
    simp [recoveryCheck, hread, bind, Except.bind]
  have hjoin : readJoinCommit provider mutation.root disk = .ok none := by
    simp [readJoinCommit, readOptionalFile, readFileBounded, h.joinCommit, bind, Except.bind]
  rw [recoverAt, recoverForRoot, meets_readStore_bind hread,
    meets_readStore_bind (joinCommitPresent_eq_false.mpr h.joinCommit)]
  simp [recoverTransactionIfOrigin, hcheck, recoverJoinCommit, hjoin]

/-- At the origin recovery completes the journal; elsewhere it leaves it alone. -/
lemma Journaled.meets_recoverAt (h : mutation.Journaled disk) (paths : WorkspacePaths) :
    (mutation.recoverAt paths).Meets disk mutation.Journaled fun result disk' =>
      (paths ≠ mutation.paths ∧ disk' = disk) ∨
        (paths = mutation.paths ∧ result = .ok .recovered ∧ mutation.Settled disk') := by
  by_cases hpaths : paths = mutation.paths
  · subst hpaths
    have hexists : disk.vaults mutation.paths.vaultPath ≠ none := by
      rcases h.vault with hvault | hvault <;> simp [hvault]
    have horigin : mutation.transaction.originVaultPath.matchesCanonical mutation.paths disk =
        .ok true :=
      matchesCanonical_eq_ok.mpr ⟨hexists, by simp [mutation.origin]⟩
    refine (meets_recoverForRoot_origin h.readTransaction h.joinCommit mutation.valid horigin).mpr ?_
    refine h.meets_completeTransaction.mono (fun _ hd => hd) ?_
    rintro _ disk' ⟨rfl, -, hsettled⟩
    exact Or.inr ⟨rfl, rfl, hsettled⟩
  · -- whatever the check finds at another workspace, nothing is written
    have hunchanged : (recoveryCheck provider paths mutation.root disk = .ok .pendingElsewhere) ∨
        ∃ e, recoveryCheck provider paths mutation.root disk = .error e := by
      cases hmatches : mutation.transaction.originVaultPath.matchesCanonical paths disk with
      | error e =>
        right
        exact ⟨_, by simp [recoveryCheck, h.readTransaction, mutation.valid, hmatches, bind,
          Except.bind]; rfl⟩
      | ok isOrigin =>
        left
        obtain ⟨-, rfl⟩ := matchesCanonical_eq_ok.mp hmatches
        have hother : ¬ mutation.transaction.originVaultPath = .fromPath paths.vaultPath := by
          rw [mutation.origin, fromPath_injective.eq_iff]
          intro heq
          apply hpaths
          cases paths
          cases hm : mutation.paths
          simp_all
        simp [recoveryCheck, h.readTransaction, mutation.valid, hmatches, bind, Except.bind, hother]
    rw [recoverAt, recoverForRoot, meets_readStore_bind h.readTransaction,
      meets_readStore_bind (joinCommitPresent_eq_false.mpr h.joinCommit)]
    rcases hunchanged with hcheck | ⟨e, hcheck⟩ <;>
      simp [recoverTransactionIfOrigin, hcheck, hpaths]

/-- A commit that finds both before-images writes the journal and completes it. -/
lemma Settled.meets_commit_iff (h : mutation.Settled disk) (hbefore : mutation.BothBefore disk)
    {crash : Disk → Prop} {post : Except OpsError Unit → Disk → Prop} :
    mutation.commit.Meets disk crash post ↔
      (liftStore (writeTransactionAtomic provider mutation.transaction) >>= fun _ =>
        completeTransaction provider mutation.paths mutation.transaction).Meets disk crash post := by
  have hread : readTransaction provider mutation.root disk = .ok none :=
    readTransaction_eq_none.mpr h.transaction
  have hvault : readVaultBytes mutation.paths disk = .ok mutation.vaultBytes :=
    readVaultBytes_eq_ok.mpr ⟨hbefore.vault, mutation.vaultBytes_le⟩
  have hratchet : readCurrentRatchet mutation.root disk = .ok (some mutation.ratchetBytes) := by
    refine readOptionalFile_eq_ok.mpr ⟨hbefore.ratchet.symm, fun bytes hbytes => ?_⟩
    obtain rfl : mutation.ratchetBytes = bytes := by simpa [hbefore.ratchet] using hbytes
    exact mutation.holdsRatchet.1
  have hcanonical : NativePathV1.canonical mutation.paths disk =
      .ok mutation.transaction.originVaultPath :=
    canonical_eq_ok.mpr ⟨by simp [hbefore.vault], mutation.origin⟩
  rw [commit, commitAfterImages,
    meets_readStore_bind (joinCommitPresent_eq_false.mpr h.joinCommit)]
  simp only [Bool.not_false, Program.meets_bind, Program.meets_ensure, if_true, meets_readStore,
    hread, hvault, hratchet, hcanonical, mapError_ok, decide_true, ← mutation.vaultBefore,
    ← mutation.ratchetBefore, meets_check, mutation.valid]

/-- Once the journal is written, the commit is the completion of the journal. -/
lemma Settled.journaled (h : mutation.Settled disk) (hbefore : mutation.BothBefore disk)
    {bytes : Bytes} (hholds : HoldsTransaction provider mutation.root bytes mutation.transaction) :
    mutation.Journaled (disk.setTransaction mutation.root (some bytes)) :=
  ⟨⟨bytes, by simp, hholds⟩, by simpa using h.joinCommit, Or.inl hbefore.vault,
    Or.inl (by simpa using hbefore.ratchet)⟩

/-- The commit, cut off anywhere, leaves the before-images or the journal; not cut off, it leaves
both after-images, or nothing has changed. -/
lemma Settled.meets_commit (h : mutation.Settled disk) (hbefore : mutation.BothBefore disk) :
    mutation.commit.Meets disk mutation.InFlight fun result disk' =>
      mutation.Settled disk' ∧
        (result = .ok () ∧ mutation.BothAfter disk' ∨ (∃ e, result = .error e) ∧ disk' = disk) := by
  rw [h.meets_commit_iff hbefore, Program.meets_bind, meets_liftStore]
  apply meets_writeTransaction_of
  · intro bytes hholds hshaped
    refine ⟨Or.inl h, ?_⟩
    refine (h.journaled hbefore hholds).meets_completeTransaction.mono (fun _ hd => Or.inr hd) ?_
    rintro _ disk' ⟨rfl, hafter, hsettled⟩
    exact ⟨hsettled, Or.inl ⟨rfl, hafter⟩⟩
  · intro e
    exact ⟨h, Or.inr ⟨⟨_, rfl⟩, rfl⟩⟩

/-- A commit whose journal fits gets through. -/
lemma Settled.meets_commit_of_encodes (h : mutation.Settled disk)
    (hbefore : mutation.BothBefore disk) {bytes : Bytes}
    (hbytes : encodeTransaction provider mutation.transaction = .ok bytes) :
    mutation.commit.Meets disk mutation.InFlight fun result disk' =>
      result = .ok () ∧ mutation.BothAfter disk' ∧ mutation.Settled disk' := by
  obtain ⟨hlen, -, hread⟩ :=
    decodeTransaction_encodeTransaction (.transaction mutation.transaction.trustedRoot) hbytes
  rw [h.meets_commit_iff hbefore, Program.meets_bind, meets_liftStore,
    meets_writeTransaction hbytes]
  refine ⟨Or.inl h, ?_⟩
  exact (h.journaled hbefore ⟨hlen, hread, rfl⟩).meets_completeTransaction.mono
    (fun _ hd => Or.inr hd) fun _ _ hd => hd

/-- Every state of a crash run is one of those between which the files move. -/
lemma Reachable.inFlight {start : Disk} (hstart : mutation.Settled start)
    (hbefore : mutation.BothBefore start) (h : mutation.Reachable start disk) :
    mutation.InFlight disk := by
  induction h with
  | start => exact Or.inl hstart
  | commit hleaves =>
    refine Program.Meets.leaves ((hstart.meets_commit hbefore).mono (fun _ hd => hd) ?_) hleaves
    exact fun _ _ hd => Or.inl hd.1
  | @recover disk disk' paths hreach hleaves ih =>
    rcases ih with hsettled | hjournaled
    · refine Program.Meets.leaves ?_ hleaves
      exact (hsettled.meets_recoverAt paths).mpr (Or.inl hsettled)
    · refine Program.Meets.leaves ((hjournaled.meets_recoverAt paths).mono
        (fun _ hd => Or.inr hd) ?_) hleaves
      rintro result last (⟨-, rfl⟩ | ⟨-, -, hsettled⟩)
      · exact Or.inr hjournaled
      · exact Or.inl hsettled

/-- The vault of the workspace is always one of the mutation's root. -/
lemma InFlight.vault (h : mutation.InFlight disk) : ∃ bytes vault,
    disk.vaults mutation.paths.vaultPath = some bytes ∧ decodeVault provider bytes = .ok vault ∧
      trustedRootCandidate provider.toCryptoProvider vault = .ok mutation.root := by
  have hfile : disk.vaults mutation.paths.vaultPath = some mutation.vaultBytes ∨
      disk.vaults mutation.paths.vaultPath = some mutation.transaction.nextVaultBytes := by
    rcases h with hsettled | hjournaled
    · exact hsettled.files.imp BothBefore.vault BothAfter.vault
    · exact hjournaled.vault
  rcases hfile with hfile | hfile
  · obtain ⟨vault, hvault, hroot⟩ := mutation.vaultRoot
    exact ⟨_, vault, hfile, hvault, hroot⟩
  · obtain ⟨⟨vault, hvault, hroot⟩, -⟩ := validateTransaction_eq_ok.mp mutation.valid
    exact ⟨_, vault, hfile, hvault, hroot⟩

/-- A load at the origin that is not cut off completes its recovery and leaves no journal. -/
lemma InFlight.meets_recoverCurrentWorkspace (h : mutation.InFlight disk) :
    (recoverCurrentWorkspace provider mutation.paths).Meets disk mutation.InFlight
      fun result disk' => (∃ disposition, result = .ok disposition) ∧ mutation.Settled disk' := by
  obtain ⟨bytes, vault, hfile, hvault, hroot⟩ := h.vault
  have hread : readVaultBytes mutation.paths disk = .ok bytes :=
    readVaultBytes_eq_ok.mpr ⟨hfile, length_of_decodeVault hvault⟩
  rw [recoverCurrentWorkspace, meets_readStore_bind hread,
    meets_check_bind (mapError_eq_ok.mpr (decodeVaultAt_eq_ok.mpr hvault)),
    meets_check_bind hroot]
  rcases h with hsettled | hjournaled
  · exact (hsettled.meets_recoverAt mutation.paths).mpr ⟨⟨_, rfl⟩, hsettled⟩
  · refine (hjournaled.meets_recoverAt mutation.paths).mono (fun _ hd => Or.inr hd) ?_
    rintro result disk' (⟨hne, -⟩ | ⟨-, rfl, hsettled⟩)
    · exact absurd rfl hne
    · exact ⟨⟨_, rfl⟩, hsettled⟩

/-- While the journal exists, every reader of the root sees at least the ratchet after the mutation,
and the one before it as long as its file is there or the ratchet after it keeps it. -/
lemma Journaled.readStrongestRatchet (h : mutation.Journaled disk) {paths : WorkspacePaths}
    (hexists : disk.vaults paths.vaultPath ≠ none) :
    ∃ ratchet pending, readStrongestRatchet provider paths mutation.root disk =
        .ok (ratchet, some pending) ∧
      mutation.nextRatchet.Keeps ratchet ∧
      ((disk.roots mutation.root).ratchet = some mutation.ratchetBytes ∨
        mutation.ratchet.Keeps mutation.nextRatchet → mutation.ratchet.Keeps ratchet) := by
  have hnext := holdsRatchet_of_valid h.wellShaped mutation.valid
  obtain ⟨current, hcurrent, hkeeps⟩ : ∃ current,
      readRatchetForRoot provider mutation.root disk = .ok (some current) ∧
        ((disk.roots mutation.root).ratchet = some mutation.ratchetBytes ∧
            current = mutation.ratchet ∨
          (disk.roots mutation.root).ratchet ≠ some mutation.ratchetBytes ∧
            current = mutation.nextRatchet) := by
    by_cases hfile : (disk.roots mutation.root).ratchet = some mutation.ratchetBytes
    · exact ⟨_, readRatchetForRoot_eq_some.mpr ⟨_, hfile, mutation.holdsRatchet⟩,
        Or.inl ⟨hfile, rfl⟩⟩
    · exact ⟨_, readRatchetForRoot_eq_some.mpr ⟨_, h.ratchet.resolve_left hfile, hnext⟩,
        Or.inr ⟨hfile, rfl⟩⟩
  have hroot : current.trustedRoot = mutation.nextRatchet.trustedRoot := by
    rcases hkeeps with ⟨-, rfl⟩ | ⟨-, rfl⟩
    · exact mutation.holdsRatchet.2.2.trans hnext.2.2.symm
    · rfl
  obtain ⟨merged, hmerge, hfile, hafter⟩ :=
    mergeRatchet_keeps hroot (vaultRoot_of_decodeRatchet hnext.2.1)
  refine ⟨merged, .of mutation.transaction paths, ?_, hafter, ?_⟩
  · refine readStrongestRatchet_eq_ok.mpr (readStrongestRatchetOptionalWithPending_eq_ok.mpr ?_)
    exact ⟨some current, hcurrent, Or.inr ⟨_, _, merged, h.readTransaction, mutation.valid, hmerge,
      hexists, rfl, rfl⟩⟩
  · rintro (hbefore | hraises)
    · rcases hkeeps with ⟨-, rfl⟩ | ⟨hne, -⟩
      · exact hfile
      · exact absurd hbefore hne
    · exact hraises.trans hafter

/-! ### A third state -/

/-- The journal is there, but a file is neither of its images, as its hash tells. -/
structure ThirdState (mutation : Mutation provider) (disk : Disk) : Prop where
  transaction : ∃ bytes, (disk.roots mutation.root).transaction = some bytes ∧
    HoldsTransaction provider mutation.root bytes mutation.transaction
  joinCommit : (disk.roots mutation.root).joinCommit = none
  third : (disk.vaults mutation.paths.vaultPath ≠ some mutation.vaultBytes ∧
      disk.vaults mutation.paths.vaultPath ≠ some mutation.transaction.nextVaultBytes) ∨
    ((disk.roots mutation.root).ratchet ≠ some mutation.ratchetBytes ∧
      (disk.roots mutation.root).ratchet ≠ some mutation.transaction.nextRatchetBytes)
  vault_distinct : ∀ bytes, disk.vaults mutation.paths.vaultPath = some bytes →
    ∀ image ∈ [mutation.vaultBytes, mutation.transaction.nextVaultBytes],
      fileHash provider bytes = fileHash provider image → bytes = image
  ratchet_distinct : ∀ bytes, (disk.roots mutation.root).ratchet = some bytes →
    ∀ image ∈ [mutation.ratchetBytes, mutation.transaction.nextRatchetBytes],
      fileHash provider bytes = fileHash provider image → bytes = image

/-- The vault file exists, and both files are within their limits. -/
def Readable (mutation : Mutation provider) (disk : Disk) : Prop :=
  (∃ bytes, disk.vaults mutation.paths.vaultPath = some bytes ∧ bytes.length ≤ maxVaultBytes) ∧
    ∀ bytes, (disk.roots mutation.root).ratchet = some bytes → bytes.length ≤ maxRatchetBytes

/-- Both files are read and one of them is found to be neither image. -/
lemma ThirdState.meets_completeTransaction (h : mutation.ThirdState disk)
    (hreadable : mutation.Readable disk) :
    (completeTransaction provider mutation.paths mutation.transaction).Meets disk (fun _ => False)
      fun result disk' => disk' = disk ∧ result = .error .transactionRecoveryConflict := by
  obtain ⟨⟨bytes, hfile, hlen⟩, hratchetLen⟩ := hreadable
  have hvault : readCurrentVault mutation.paths disk = .ok (some bytes) := by
    refine readOptionalFile_eq_ok.mpr ⟨hfile.symm, fun bytes' hbytes' => ?_⟩
    obtain rfl : bytes = bytes' := by simpa [hfile] using hbytes'
    exact hlen
  have hratchet : readCurrentRatchet mutation.root disk = .ok (disk.roots mutation.root).ratchet :=
    readOptionalFile_eq_ok.mpr ⟨rfl, hratchetLen⟩
  rw [completeTransaction, meets_readStore_bind hvault, meets_readStore_bind hratchet,
    Program.meets_bind, meets_check]
  cases hclassify : classifyFile provider (some bytes) mutation.transaction.vaultBefore
      mutation.transaction.nextVaultBytes with
  | error e => exact ⟨rfl, by rw [classifyFile_eq_error hclassify]⟩
  | ok isAfter =>
    -- the vault is an image, so the ratchet is the file that is not
    rcases h.third with ⟨hbefore, hafter⟩ | ⟨hbefore, hafter⟩
    · rw [mutation.vaultBefore, ← hfile, classifyFile_third] at hclassify
      · simp at hclassify
      · intro bytes' hbytes' hhash
        exact hbefore (hbytes'.trans
          (congrArg some (h.vault_distinct bytes' hbytes' _ (by simp) hhash)))
      · intro bytes' hbytes' hhash
        exact hafter (hbytes'.trans
          (congrArg some (h.vault_distinct bytes' hbytes' _ (by simp) hhash)))
    · have hconflict : classifyFile provider (disk.roots mutation.root).ratchet
          mutation.transaction.ratchetBefore mutation.transaction.nextRatchetBytes =
          .error .transactionRecoveryConflict := by
        rw [mutation.ratchetBefore]
        apply classifyFile_third
        · intro bytes' hbytes' hhash
          exact hbefore (hbytes'.trans
            (congrArg some (h.ratchet_distinct bytes' hbytes' _ (by simp) hhash)))
        · intro bytes' hbytes' hhash
          exact hafter (hbytes'.trans
            (congrArg some (h.ratchet_distinct bytes' hbytes' _ (by simp) hhash)))
      simp [hconflict]

/-- A file that cannot be read ends the completion before it looks at the images. -/
lemma meets_completeTransaction_unreadable (hexists : disk.vaults mutation.paths.vaultPath ≠ none)
    (h : ¬ mutation.Readable disk) :
    (completeTransaction provider mutation.paths mutation.transaction).Meets disk (fun _ => False)
      fun result disk' => disk' = disk ∧
        ∃ path source, result = .error (.store (.io path source)) := by
  obtain ⟨bytes, hfile⟩ := Option.ne_none_iff_exists'.mp hexists
  rw [completeTransaction, Program.meets_bind, meets_readStore]
  by_cases hlen : bytes.length ≤ maxVaultBytes
  · have hvault : readCurrentVault mutation.paths disk = .ok (some bytes) := by
      refine readOptionalFile_eq_ok.mpr ⟨hfile.symm, fun bytes' hbytes' => ?_⟩
      obtain rfl : bytes = bytes' := by simpa [hfile] using hbytes'
      exact hlen
    obtain ⟨ratchet, hratchet, hratchetLen⟩ : ∃ ratchet,
        (disk.roots mutation.root).ratchet = some ratchet ∧ maxRatchetBytes < ratchet.length := by
      by_contra hall
      push Not at hall
      exact h ⟨⟨bytes, hfile, hlen⟩, hall⟩
    obtain ⟨source, hsource⟩ := readOptionalFile_of_lt (.ratchet mutation.root) hratchetLen
    have hread : readCurrentRatchet mutation.root disk = .error (.io (.ratchet mutation.root) source) := by
      rw [Thorax.readCurrentRatchet, hratchet, hsource]
    simp only [hvault, mapError_ok, Program.meets_bind, meets_readStore, hread, mapError_error]
    exact ⟨trivial, _, _, rfl⟩
  · obtain ⟨source, hsource⟩ :=
      readOptionalFile_of_lt (.vault mutation.paths.vaultPath) (not_le.mp hlen)
    have hread : readCurrentVault mutation.paths disk =
        .error (.io (.vault mutation.paths.vaultPath) source) := by
      rw [Thorax.readCurrentVault, hfile, hsource]
    simp only [hread, mapError_error]
    exact ⟨trivial, _, _, rfl⟩

/-- A third state stops the recovery, which changes nothing. -/
lemma ThirdState.meets_recoverAt (h : mutation.ThirdState disk) :
    (mutation.recoverAt mutation.paths).Meets disk (fun _ => False) fun result disk' =>
      disk' = disk ∧
        (mutation.Readable disk → result = .error .transactionRecoveryConflict) ∧
        (¬ mutation.Readable disk → ∃ path source, result = .error (.store (.io path source))) := by
  have hread : Thorax.readTransaction provider mutation.root disk = .ok (some mutation.transaction) :=
    readTransaction_eq_some.mpr h.transaction
  by_cases hexists : disk.vaults mutation.paths.vaultPath = none
  · have hcheck : recoveryCheck provider mutation.paths mutation.root disk =
        .error (.store (.io (.vault mutation.paths.vaultPath) .notFound)) := by
      simp [recoveryCheck, hread, mutation.valid, NativePathV1.matchesCanonical,
        NativePathV1.canonical, hexists, bind, Except.bind, Except.map]
    have hunreadable : ¬ mutation.Readable disk := by
      rintro ⟨⟨bytes, hfile, -⟩, -⟩
      simp [hexists] at hfile
    rw [recoverAt, recoverForRoot, meets_readStore_bind hread,
      meets_readStore_bind (joinCommitPresent_eq_false.mpr h.joinCommit)]
    simp [recoverTransactionIfOrigin, hcheck, hunreadable]
  · have horigin : mutation.transaction.originVaultPath.matchesCanonical mutation.paths disk =
        .ok true :=
      matchesCanonical_eq_ok.mpr ⟨hexists, by simp [mutation.origin]⟩
    refine (meets_recoverForRoot_origin hread h.joinCommit mutation.valid horigin).mpr ?_
    by_cases hreadable : mutation.Readable disk
    · refine (h.meets_completeTransaction hreadable).mono (fun _ hd => hd) ?_
      rintro _ disk' ⟨rfl, rfl⟩
      exact ⟨rfl, fun _ => rfl, fun hnot => absurd hreadable hnot⟩
    · refine (meets_completeTransaction_unreadable hexists hreadable).mono (fun _ hd => hd) ?_
      rintro _ disk' ⟨rfl, path, source, rfl⟩
      exact ⟨rfl, fun hyes => absurd hyes hreadable, fun _ => ⟨path, source, rfl⟩⟩

/-! ### Atomicity -/

/-- What the journal promises about a mutation that starts from a disk. -/
structure CrashAtomic (mutation : Mutation provider) (start : Disk) : Prop where
  /-- However the run was cut off before, a load at the origin completes its recovery. -/
  recovers : ∀ disk, mutation.Reachable start disk →
    ∃ disposition,
      (recoverCurrentWorkspace provider mutation.paths disk).result = .ok disposition ∧
      mutation.Settled (recoverCurrentWorkspace provider mutation.paths disk).last
  /-- In between, the strongest ratchet is above the after-image, and above the before-image as
  long as that is the file, or at all times if the after-image keeps it. -/
  strongest : ∀ disk, mutation.Reachable start disk →
    (disk.roots mutation.root).transaction ≠ none →
    ∀ paths : WorkspacePaths, disk.vaults paths.vaultPath ≠ none →
      ∃ ratchet pending, readStrongestRatchet provider paths mutation.root disk =
          .ok (ratchet, pending) ∧
        mutation.nextRatchet.Keeps ratchet ∧
        ((disk.roots mutation.root).ratchet = some mutation.ratchetBytes ∨
          mutation.ratchet.Keeps mutation.nextRatchet → mutation.ratchet.Keeps ratchet)
  /-- A file in a third state stops the recovery, which writes nothing. -/
  third : ∀ disk, mutation.ThirdState disk →
    (mutation.recoverAt mutation.paths disk).passed = [] ∧
      (mutation.recoverAt mutation.paths disk).last = disk ∧
      (mutation.Readable disk → (mutation.recoverAt mutation.paths disk).result =
        .error .transactionRecoveryConflict) ∧
      (¬ mutation.Readable disk → ∃ path source,
        (mutation.recoverAt mutation.paths disk).result = .error (.store (.io path source)))

/-- The journal is crash-atomic for every mutation from every disk that holds its before-images
and no journal. -/
theorem crashAtomic (mutation : Mutation provider) {start : Disk} (hclean : mutation.Settled start)
    (hbefore : mutation.BothBefore start) : mutation.CrashAtomic start where
  recovers := by
    intro disk hreach
    have hrecover := (hreach.inFlight hclean hbefore).meets_recoverCurrentWorkspace
    exact ⟨hrecover.2.1.choose, hrecover.2.1.choose_spec, hrecover.2.2⟩
  strongest := by
    intro disk hreach hjournal paths hexists
    rcases hreach.inFlight hclean hbefore with hsettled | hjournaled
    · exact absurd hsettled.transaction hjournal
    · obtain ⟨ratchet, pending, hread, hkeeps⟩ := hjournaled.readStrongestRatchet hexists
      exact ⟨ratchet, some pending, hread, hkeeps⟩
  third := by
    intro disk hthird
    obtain ⟨hpassed, hlast, hresult⟩ := hthird.meets_recoverAt
    exact ⟨List.eq_nil_iff_forall_not_mem.mpr hpassed, hlast, hresult⟩

end Mutation

/-! ### A first secret -/

open TestSupport

def firstSecretMutation : Mutation (tableProvider firstSecretTables) where
  paths := testPaths
  vaultBytes := vaultFile 0
  ratchetBytes := ratchetFile 0
  ratchet := freshRatchet
  transaction := firstSecret
  nextRatchet := firstSecretRatchet
  vaultRoot := ⟨.v1 ⟨[vaultRootRecord]⟩, by decide, by decide⟩
  holdsRatchet := ⟨by decide, by decide, by decide⟩
  origin := rfl
  vaultBefore := rfl
  ratchetBefore := rfl
  valid := by decide
  vaults_distinct := by decide
  ratchets_distinct := by decide

def firstSecretStart : Disk := testDisk (some (vaultFile 0)) (some (ratchetFile 0)) none

theorem crashAtomic_firstSecret :
    firstSecretMutation.Settled firstSecretStart ∧
      firstSecretMutation.BothBefore firstSecretStart ∧
      firstSecretMutation.CrashAtomic firstSecretStart := by
  have hbefore : firstSecretMutation.BothBefore firstSecretStart := ⟨by decide, by decide⟩
  have hclean : firstSecretMutation.Settled firstSecretStart :=
    ⟨by decide, by decide, Or.inl hbefore⟩
  exact ⟨hclean, hbefore, firstSecretMutation.crashAtomic hclean hbefore⟩

/-- The journal is pending and the ratchet file has been replaced by one above its limit. -/
def oversizedRatchet : Disk :=
  testDisk (some (vaultFile 0)) (some (List.replicate (maxRatchetBytes + 1) 0))
    (some (transactionFile 0))

lemma fileDigest_replicate {n : ℕ} (h : 32 ≤ n) :
    fileDigest (List.replicate n 0) = ⟨List.replicate 32 0⟩ := by
  simp [fileDigest, List.take_append_of_le_length, h]

lemma thirdState_oversizedRatchet : firstSecretMutation.ThirdState oversizedRatchet := by
  have hratchet : (oversizedRatchet.roots firstSecretMutation.root).ratchet =
      some (List.replicate (maxRatchetBytes + 1) 0) := rfl
  have hdigest : fileHash (tableProvider firstSecretTables)
      (List.replicate (maxRatchetBytes + 1) 0) = ⟨List.replicate 32 0⟩ :=
    fileDigest_replicate (by decide)
  have himages : ∀ image ∈ [ratchetFile 0, ratchetFile 1],
      fileHash (tableProvider firstSecretTables) (List.replicate (maxRatchetBytes + 1) 0) ≠
        fileHash (tableProvider firstSecretTables) image := by
    rw [hdigest]
    decide
  refine ⟨⟨transactionFile 0, rfl, by decide, by decide, rfl⟩, rfl, Or.inr ⟨?_, ?_⟩, ?_, ?_⟩
  · intro heq
    exact himages (ratchetFile 0) (by simp)
      (congrArg _ (Option.some.inj (hratchet.symm.trans heq)))
  · intro heq
    exact himages (ratchetFile 1) (by simp)
      (congrArg _ (Option.some.inj (hratchet.symm.trans heq)))
  · intro bytes hbytes
    obtain rfl : vaultFile 0 = bytes := Option.some.inj hbytes
    decide
  · intro bytes hbytes image himage hhash
    obtain rfl := Option.some.inj (hratchet.symm.trans hbytes)
    exact absurd hhash (himages image himage)

/-- A mutation that forgets the secret of the vault, which no caller of the journal asks for. -/
def forgetting : TransactionV1 where
  transactionId := List.replicate 32 7
  trustedRoot := testRoot
  originVaultPath := .fromPath testPaths.vaultPath
  operation := "vault mutation"
  vaultBefore := .hash (fileDigest (vaultFile 1))
  ratchetBefore := .hash (fileDigest (ratchetFile 1))
  nextVaultBytes := vaultFile 1
  nextRatchetBytes := ratchetFile 0

def forgettingTables : Tables := { firstSecretTables with transactions := [forgetting] }

def forgettingMutation : Mutation (tableProvider forgettingTables) where
  paths := testPaths
  vaultBytes := vaultFile 1
  ratchetBytes := ratchetFile 1
  ratchet := firstSecretRatchet
  transaction := forgetting
  nextRatchet := freshRatchet
  vaultRoot := ⟨.v1 ⟨[vaultRootRecord, secretRecord rootUser [rootUser] 1]⟩, by decide, by decide⟩
  holdsRatchet := ⟨by decide, by decide +kernel, by decide⟩
  origin := rfl
  vaultBefore := rfl
  ratchetBefore := rfl
  valid := by decide +kernel
  vaults_distinct := by decide
  ratchets_distinct := by decide

def forgettingStart : Disk := testDisk (some (vaultFile 1)) (some (ratchetFile 1)) none

/-- The journal is there, and its readers find nothing remembered of the secret. -/
def forgotten (disk : Disk) : Bool :=
  (disk.roots forgettingMutation.root).transaction.isSome &&
    ((readStrongestRatchet (tableProvider forgettingTables) testPaths forgettingMutation.root
      disk).toOption.map fun read => read.1.watermarks[RecordKey.secret testSecretId]?) = some none

/-- A ratchet that cannot be read is a third state that is not reported as a conflict, and once the
ratchet file of a mutation that forgets has been replaced, what was remembered before is gone. -/
theorem oversizedRatchet_not_conflict :
    (¬ ∀ disk, firstSecretMutation.ThirdState disk →
      (firstSecretMutation.recoverAt firstSecretMutation.paths disk).result =
        .error .transactionRecoveryConflict) ∧
    forgettingMutation.Settled forgettingStart ∧ forgettingMutation.BothBefore forgettingStart ∧
    forgettingMutation.ratchet.watermarks[RecordKey.secret testSecretId]? = some 1 ∧
    ∃ disk, forgettingMutation.Reachable forgettingStart disk ∧ forgotten disk = true := by
  have hbefore : forgettingMutation.BothBefore forgettingStart := ⟨by decide, by decide⟩
  refine ⟨fun h => ?_, ⟨by decide, by decide, Or.inl hbefore⟩, hbefore, by decide +kernel, ?_⟩
  · have hthird := thirdState_oversizedRatchet
    have hunreadable : ¬ firstSecretMutation.Readable oversizedRatchet := by
      rintro ⟨-, hlen⟩
      have := hlen _ rfl
      simp at this
    obtain ⟨path, source, hresult⟩ := hthird.meets_recoverAt.2.2.2 hunreadable
    rw [h _ hthird] at hresult
    simp at hresult
  · have hpassed : (forgettingMutation.commit forgettingStart).passed.any forgotten = true := by
      decide +kernel
    obtain ⟨disk, hdisk, hforgotten⟩ := List.any_eq_true.mp hpassed
    exact ⟨disk, .commit (Or.inl hdisk), hforgotten⟩

end Thorax
