import Thorax.Ops.Records
import Thorax.Properties.Journal

/-!
# Commits that nothing interleaves with

A commit whose projection succeeds gets through if the disk is where the session left it, the locks
are free, and the images fit: it leaves the session at the projection, and both files at its images.
-/

namespace Thorax

open Durable

/-! ### Commits that succeed -/

section Ends

variable {disk disk' : Disk}
variable {provider : StoreProvider} {paths : WorkspacePaths} {root : HashValue}

/-- A journal that is completed leaves both after-images, and itself removed. -/
lemma ends_completeTransaction {transaction : TransactionV1} {done : Unit}
    (h : (completeTransaction provider paths transaction).Ends disk done disk') :
    readCurrentVault paths disk' = .ok (some transaction.nextVaultBytes) ∧
      readCurrentRatchet transaction.trustedRoot disk' = .ok (some transaction.nextRatchetBytes) ∧
      (disk'.roots transaction.trustedRoot).transaction = none := by
  simp only [completeTransaction, Program.ends_bind, ends_readStore, ends_check,
    Program.ends_ensure, ends_liftStore, removeTransaction, Program.ends_write, Bool.and_eq_true,
    decide_eq_true_eq] at h
  obtain ⟨_, _, -, _, _, -, _, _, -, _, _, -, _, _, -, _, last, -, _, _, ⟨hratchet, rfl⟩, _, _,
    ⟨hvault, rfl⟩, _, _, ⟨⟨rfl, rfl⟩, rfl⟩, rfl⟩ := h
  simp only [readCurrentVault, readCurrentRatchet, Disk.vaults_setTransaction,
    Disk.roots_setTransaction, and_true] at hvault hratchet ⊢
  exact ⟨hvault, hratchet⟩

/-- A commit that succeeds has journaled valid after-images and completed the journal. -/
lemma ends_commitAfterImages {transactionId : Bytes} {operation : String} {done : Unit}
    {expectedVaultBytes expectedRatchetBytes nextVaultBytes nextRatchetBytes : Bytes}
    (h : (commitAfterImages provider paths root transactionId operation expectedVaultBytes
      expectedRatchetBytes nextVaultBytes nextRatchetBytes).Ends disk done disk') :
    (∃ vault, decodeVault provider nextVaultBytes = .ok vault ∧
      trustedRootCandidate provider.toCryptoProvider vault = .ok root) ∧
    (∃ ratchet, decodeRatchet provider (.ratchet root) nextRatchetBytes = .ok ratchet ∧
      ratchet.trustedRoot = root) ∧
    disk'.vaults paths.vaultPath = some nextVaultBytes ∧ nextVaultBytes.length ≤ maxVaultBytes ∧
    (disk'.roots root).ratchet = some nextRatchetBytes ∧
    nextRatchetBytes.length ≤ maxRatchetBytes ∧ (disk'.roots root).transaction = none := by
  simp only [commitAfterImages, Program.ends_bind, ends_readStore, Program.ends_ensure] at h
  obtain ⟨_, _, -, _, _, -, pending, _, -, h⟩ := h
  cases pending with
  | some pending => exact absurd h Program.not_ends_fail
  | none =>
    simp only [Program.ends_bind, ends_readStore, Program.ends_ensure, ends_check, ends_liftStore] at h
    obtain ⟨_, _, -, _, _, -, _, _, -, _, _, -, _, _, -, _, _, ⟨hvalid, -⟩, _, _, -, h⟩ := h
    obtain ⟨hvault, hratchet, htransaction⟩ := ends_completeTransaction h
    obtain ⟨hnextVault, hnextRatchet, hroot⟩ := validateTransaction_eq_ok.mp hvalid
    obtain ⟨hvault, hvaultLength⟩ := readOptionalFile_eq_ok.mp hvault
    obtain ⟨hratchet, hratchetLength⟩ := readOptionalFile_eq_ok.mp hratchet
    exact ⟨hnextVault, ⟨_, hnextRatchet, hroot⟩, hvault.symm, hvaultLength _ hvault.symm,
      hratchet.symm, hratchetLength _ hratchet.symm, htransaction⟩

/-- It has found the bytes that it expected of the ratchet. -/
lemma expected_of_ends_commitAfterImages {transactionId : Bytes} {operation : String} {done : Unit}
    {expectedVaultBytes expectedRatchetBytes nextVaultBytes nextRatchetBytes : Bytes}
    (h : (commitAfterImages provider paths root transactionId operation expectedVaultBytes
      expectedRatchetBytes nextVaultBytes nextRatchetBytes).Ends disk done disk') :
    (disk.roots root).ratchet = some expectedRatchetBytes := by
  simp only [commitAfterImages, Program.ends_bind, ends_readStore, Program.ends_ensure] at h
  obtain ⟨_, _, ⟨-, rfl⟩, _, _, ⟨-, rfl⟩, pending, _, ⟨-, rfl⟩, h⟩ := h
  cases pending with
  | some pending => exact absurd h Program.not_ends_fail
  | none =>
    simp only [Program.ends_bind, ends_readStore, Program.ends_ensure, decide_eq_true_eq] at h
    obtain ⟨_, _, ⟨-, rfl⟩, _, _, ⟨-, rfl⟩, current, _, ⟨hcurrent, rfl⟩, _, _, ⟨rfl, rfl⟩, -⟩ := h
    exact (readOptionalFile_eq_ok.mp hcurrent).1.symm

variable {session : LockedSession} {α : Type} {contended : Bool} {transactionId : Bytes}
variable {change : Change α} {output : α} {state : Disk × LockedSession}

/-- A commit of a live session that succeeds has refreshed it, projected the change, and journaled
both images. -/
lemma ends_commit (hlive : session.persistence = .live)
    (h : (commit provider contended transactionId change).Ends (disk, session) output state) :
    ∃ session' next expectedRatchetBytes nextRatchetBytes, Refreshes provider disk session session' ∧
      encodeRatchet provider session'.ratchet = .ok expectedRatchetBytes ∧
      project provider session' change = .ok next ∧ next.output = output ∧
      encodeRatchet provider next.ratchet = .ok nextRatchetBytes ∧
      (commitAfterImages provider session'.paths session.ratchet.trustedRoot transactionId
        "vault mutation" session'.vaultBytes expectedRatchetBytes next.vaultBytes
        nextRatchetBytes).Ends disk () state.1 ∧
      state.2 = { session'.advance next with pendingTransaction := none } := by
  have hmeets : (commit provider contended transactionId change).Meets (disk, session)
      (fun _ => True) fun result state => ∀ output, result = .ok output →
        ∃ session' next expectedRatchetBytes nextRatchetBytes,
          Refreshes provider disk session session' ∧
          encodeRatchet provider session'.ratchet = .ok expectedRatchetBytes ∧
          project provider session' change = .ok next ∧ next.output = output ∧
          encodeRatchet provider next.ratchet = .ok nextRatchetBytes ∧
          (commitAfterImages provider session'.paths session.ratchet.trustedRoot transactionId
            "vault mutation" session'.vaultBytes expectedRatchetBytes next.vaultBytes
            nextRatchetBytes).Ends disk () state.1 ∧
          state.2 = { session'.advance next with pendingTransaction := none } := by
    refine meets_commit hlive (by simp) (by simp) ?_
    intro session' next expectedRatchetBytes nextRatchetBytes _ _ _ hfresh hexpected hproject hnext
    refine (Program.meets_leaves _ _).mono (by simp) ?_
    rintro result disk' ⟨hresult, rfl⟩
    cases result with
    | error e => simp
    | ok done =>
      intro output houtput
      exact ⟨session', next, _, _, hfresh, hexpected, hproject, Except.ok.inj houtput, hnext,
        ⟨hresult.symm, rfl⟩, rfl⟩
  exact hmeets.ends h output rfl

end Ends

/-! ### Commits that nothing interleaves with -/

section Unraced

variable (provider : StoreProvider) (disk : Disk) (session : LockedSession)

/-- The disk is where the session is, and no journal is pending. -/
structure LockedSession.AtDisk : Prop where
  vault : disk.vaults session.paths.vaultPath = some session.vaultBytes
  length : session.vaultBytes.length ≤ maxVaultBytes
  decodes : ∃ vault, decodeVault provider session.vaultBytes = .ok vault ∧
    ∀ signed, signed ∈ vault.records ↔ signed ∈ session.vault.records
  root : trustedRootCandidate provider.toCryptoProvider session.vault =
    .ok session.ratchet.trustedRoot
  ratchet : ∃ bytes, (disk.roots session.ratchet.trustedRoot).ratchet = some bytes ∧
    HoldsRatchet provider session.ratchet.trustedRoot bytes session.ratchet
  transaction : (disk.roots session.ratchet.trustedRoot).transaction = none
  joinCommit : (disk.roots session.ratchet.trustedRoot).joinCommit = none

/-- The ratchet file of a root is what encoding the ratchet in it gives. A file that names the origin
of a selector without a path is not: decoding drops that name. -/
def Disk.KeepsRatchet (root : HashValue) : Prop :=
  ∀ bytes ratchet, (disk.roots root).ratchet = some bytes → HoldsRatchet provider root bytes ratchet →
    encodeRatchet provider ratchet = .ok bytes

/-- The journal of a commit. -/
def LockedSession.journal (transactionId ratchetBytes nextVaultBytes nextRatchetBytes : Bytes) :
    TransactionV1 where
  transactionId := transactionId
  trustedRoot := session.ratchet.trustedRoot
  originVaultPath := .fromPath session.paths.vaultPath
  operation := "vault mutation"
  vaultBefore := .hash (fileHash provider session.vaultBytes)
  ratchetBefore := .hash (fileHash provider ratchetBytes)
  nextVaultBytes := nextVaultBytes
  nextRatchetBytes := nextRatchetBytes

variable {α : Type}

/-- The images of a commit fit into their files, and the file hashes tell those of one file
apart. -/
structure LockedSession.HasRoom (transactionId : Bytes) (next : Projection α) : Prop where
  images : ∃ ratchetBytes nextRatchetBytes journalBytes,
    encodeRatchet provider session.ratchet = .ok ratchetBytes ∧
    encodeRatchet provider next.ratchet = .ok nextRatchetBytes ∧
    encodeTransaction provider (session.journal provider transactionId ratchetBytes
      next.vaultBytes nextRatchetBytes) = .ok journalBytes ∧
    (fileHash provider ratchetBytes = fileHash provider nextRatchetBytes →
      ratchetBytes = nextRatchetBytes)
  vaults : fileHash provider session.vaultBytes = fileHash provider next.vaultBytes →
    session.vaultBytes = next.vaultBytes

/-- A commit works in memory, or on a disk that nothing else has touched. -/
inductive LockedSession.Unhindered (contended : Bool) (transactionId : Bytes)
    (next : Projection α) : Prop
  | prepared : session.persistence = .prepared → Unhindered contended transactionId next
  | live : session.persistence = .live → contended = false → session.AtDisk provider disk →
      session.HasRoom provider transactionId next → Unhindered contended transactionId next

variable {provider disk session}

/-- A reload of a session that the disk agrees with changes nothing. -/
lemma LockedSession.AtDisk.refreshes (h : session.AtDisk provider disk) :
    Refreshes provider disk session { session with pendingTransaction := none } := by
  obtain ⟨bytes, hfile, hholds⟩ := h.ratchet
  refine .same (readVaultBytes_eq_ok.mpr ⟨h.vault, h.length⟩) ?_
  refine readStrongestRatchet_eq_ok.mpr (readStrongestRatchetOptionalWithPending_eq_ok.mpr
    ⟨some session.ratchet, ?_, Or.inl ⟨readTransaction_eq_none.mpr h.transaction, rfl, rfl⟩⟩)
  exact readRatchetForRoot_eq_some.mpr ⟨bytes, hfile, hholds⟩

/-- A commit whose steps under the locks succeed hands the journal its images. -/
lemma Refreshes.meets_commit {session' : LockedSession} {transactionId : Bytes} {change : Change α}
    {next : Projection α} {expectedRatchetBytes nextRatchetBytes : Bytes}
    {crash : Disk × LockedSession → Prop} {post : Except OpsError α → Disk × LockedSession → Prop}
    (h : Refreshes provider disk session session') (hlive : session.persistence = .live)
    (hjoin : (disk.roots session.ratchet.trustedRoot).joinCommit = none)
    (hnone : (disk.roots session.ratchet.trustedRoot).transaction = none)
    (hexpected : encodeRatchet provider session'.ratchet = .ok expectedRatchetBytes)
    (hproject : project provider session' change = .ok next)
    (hnext : encodeRatchet provider next.ratchet = .ok nextRatchetBytes)
    (hcommit : (commitAfterImages provider session'.paths session.ratchet.trustedRoot transactionId
      "vault mutation" session'.vaultBytes expectedRatchetBytes next.vaultBytes
        nextRatchetBytes).Meets disk (fun disk' => crash (disk', session')) fun result disk' =>
      result = .ok () ∧
        post (.ok next.output) (disk', { session'.advance next with pendingTransaction := none })) :
    (commit provider false transactionId change).Meets (disk, session) crash post := by
  have hclean : ensureNoIssues session'.report = .ok () :=
    ensureNoIssues_eq_ok.mpr (project_eq_ok.mp hproject).1
  simp only [commit, current, Program.meets_bind, Program.meets_read, hlive, reduceCtorEq, if_false,
    onDisk, Program.meets_zoom, acquireRootStateLock, Program.meets_ensure, Bool.not_false, if_true,
    mapError_ok]
  rw [meets_ensureNoPendingTransaction_of_none hjoin hnone]
  simp only [mapError_ok]
  refine h.meets_reloadIfStale fun stale => ?_
  simp only [meets_check, hclean, mapError_ok, hexpected, hproject, hnext]
  refine hcommit.mono (fun _ hd => hd) ?_
  rintro _ disk' ⟨rfl, hd⟩
  simp only [mapError_ok, update, Program.meets_modify, Program.meets_pure]
  exact hd

/-- The mutation that a commit hands to the journal. -/
lemma LockedSession.AtDisk.exists_mutation {transactionId : Bytes} {change : Change α}
    {next : Projection α} (h : session.AtDisk provider disk)
    (hkept : disk.KeepsRatchet provider session.ratchet.trustedRoot)
    (hproject : project provider session change = .ok next)
    (hroot : trustedRootCandidate provider.toCryptoProvider next.vault =
      .ok session.ratchet.trustedRoot)
    (hroom : session.HasRoom provider transactionId next) :
    ∃ (mutation : Mutation provider) (ratchetBytes nextRatchetBytes journalBytes : Bytes),
      encodeRatchet provider session.ratchet = .ok ratchetBytes ∧
      encodeRatchet provider next.ratchet = .ok nextRatchetBytes ∧
      mutation.paths = session.paths ∧ mutation.vaultBytes = session.vaultBytes ∧
      mutation.ratchetBytes = ratchetBytes ∧
      mutation.transaction =
        session.journal provider transactionId ratchetBytes next.vaultBytes nextRatchetBytes ∧
      encodeTransaction provider mutation.transaction = .ok journalBytes ∧
      mutation.BothBefore disk := by
  obtain ⟨ratchetBytes, nextRatchetBytes, journalBytes, hratchet, hnext, hjournal, hdistinct⟩ :=
    hroom.images
  have hvaultRoot : ∃ vault, decodeVault provider session.vaultBytes = .ok vault ∧
      trustedRootCandidate provider.toCryptoProvider vault = .ok session.ratchet.trustedRoot := by
    obtain ⟨vault, hvault, hsame⟩ := h.decodes
    exact ⟨vault, hvault, (trustedRootCandidate_congr hsame).trans h.root⟩
  obtain ⟨bytes, hfile, hholds⟩ := h.ratchet
  obtain rfl : bytes = ratchetBytes :=
    Except.ok.inj ((hkept bytes _ hfile hholds).symm.trans hratchet)
  obtain ⟨stored, hread, hstored⟩ :=
    storedAs_of_encodeRatchet (.ratchet session.ratchet.trustedRoot) hnext
  obtain ⟨-, vault, -, -, rfl, -, -, -, -, hvaultBytes, -⟩ := project_eq_ok.mp hproject
  obtain ⟨-, written, hwritten, -, hsame⟩ := decodeVault_encodeVault hvaultBytes
  have hkeeps := keeps_of_project hproject
  have hvalid : validateTransaction provider (session.journal provider transactionId bytes
      next.vaultBytes nextRatchetBytes) = .ok stored := by
    refine validateTransaction_eq_ok.mpr ⟨⟨written, hwritten, ?_⟩, hread, ?_⟩
    · rw [trustedRootCandidate_congr hsame]
      exact hroot
    · rw [hstored.trustedRoot, hkeeps.trustedRoot]
      rfl
  exact ⟨{ paths := session.paths
           vaultBytes := session.vaultBytes
           ratchetBytes := bytes
           ratchet := session.ratchet
           transaction := session.journal provider transactionId bytes next.vaultBytes
             nextRatchetBytes
           nextRatchet := stored
           vaultRoot := hvaultRoot
           holdsRatchet := hholds
           origin := rfl
           vaultBefore := rfl
           ratchetBefore := rfl
           valid := hvalid
           vaults_distinct := hroom.vaults
           ratchets_distinct := hdistinct },
    bytes, nextRatchetBytes, journalBytes, hratchet, hnext, rfl, rfl, rfl, rfl, hjournal, h.vault,
    hfile⟩

/-- The session is at a projection and, where it is live, so is its vault file. -/
structure LockedSession.Reaches (session : LockedSession) (next : Projection α)
    (state : Disk × LockedSession) : Prop where
  vault : state.2.vault = next.vault
  ratchet : state.2.ratchet = next.ratchet
  report : state.2.report = next.report
  file : session.persistence = .live →
    state.1.vaults session.paths.vaultPath = some next.vaultBytes

/-- A commit that nothing hinders gets to the projection of what it starts from, if the ratchet file
is kept as it is encoded. -/
lemma LockedSession.Unhindered.meets_commit {start : LockedSession} {contended : Bool}
    {transactionId : Bytes} {change : Change α} {next : Projection α}
    (h : start.Unhindered provider disk contended transactionId next)
    (hstarts : StartsFrom provider disk session start)
    (hkept : start.persistence = .live → disk.KeepsRatchet provider start.ratchet.trustedRoot)
    (hproject : project provider start change = .ok next)
    (hroot : start.persistence = .live →
      trustedRootCandidate provider.toCryptoProvider next.vault = .ok start.ratchet.trustedRoot) :
    (commit provider contended transactionId change).Meets (disk, session) (fun _ => True)
      fun result state => result = .ok next.output ∧ start.Reaches next state := by
  cases hstarts with
  | prepared hprepared =>
    simp only [commit, applyPreparedMutation, current, Program.meets_bind, Program.meets_read,
      hprepared, if_true, onDisk, Program.meets_zoom, meets_check, hproject, mapError_ok, update,
      Program.meets_modify, Program.meets_pure]
    exact ⟨trivial, rfl, rfl, rfl, by simp [hprepared]⟩
  | locked hlive hrefreshes =>
    have hlive' : start.persistence = .live := hrefreshes.persistence.trans hlive
    cases h with
    | prepared hprepared => simp [hlive'] at hprepared
    | live _ hlocks hdisk hroom =>
      subst hlocks
      obtain ⟨mutation, ratchetBytes, nextRatchetBytes, journalBytes, hratchet, hnext, hpaths, hbytes,
        hratchetBytes, htransaction, hjournal, hbefore⟩ :=
        hdisk.exists_mutation (hkept hlive') hproject (hroot hlive') hroom
      have hrootEq : mutation.root = start.ratchet.trustedRoot := by
        rw [Mutation.root, htransaction]
        rfl
      have hsettled : mutation.Settled disk :=
        ⟨hrootEq ▸ hdisk.transaction, hrootEq ▸ hdisk.joinCommit, Or.inl hbefore⟩
      have hcommit := hsettled.meets_commit_of_encodes hbefore hjournal
      rw [Mutation.commit, hpaths, hrootEq, hbytes, hratchetBytes, htransaction] at hcommit
      refine hrefreshes.meets_commit hlive (hrefreshes.trustedRoot ▸ hdisk.joinCommit)
        (hrefreshes.trustedRoot ▸ hdisk.transaction) hratchet hproject hnext ?_
      rw [← hrefreshes.trustedRoot]
      refine hcommit.mono (fun _ _ => trivial) ?_
      rintro result disk' ⟨hresult, hafter, -⟩
      refine ⟨hresult, rfl, rfl, rfl, rfl, fun _ => ?_⟩
      have hvault := hafter.vault
      rw [hpaths, htransaction] at hvault
      exact hvault

/-- A commit that succeeds finds the ratchet file as it is encoded. -/
lemma keepsRatchet_of_commit {start : LockedSession} {contended : Bool} {transactionId : Bytes}
    {change : Change α} {output : α} (hstarts : StartsFrom provider disk session start)
    (hlive : start.persistence = .live) (hdisk : start.AtDisk provider disk)
    (h : (commit provider contended transactionId change (disk, session)).result = .ok output) :
    disk.KeepsRatchet provider start.ratchet.trustedRoot := by
  cases hstarts with
  | prepared hprepared => simp [hprepared] at hlive
  | locked hlive hrefreshes =>
    obtain ⟨_, _, expected, _, hfresh, hexpected, -, -, -, himages, -⟩ := ends_commit hlive ⟨h, rfl⟩
    obtain rfl := hrefreshes.unique hfresh
    have hfile := expected_of_ends_commitAfterImages himages
    rw [← hrefreshes.trustedRoot] at hfile
    intro bytes ratchet hbytes hholds
    obtain ⟨_, hbytes', hholds'⟩ := hdisk.ratchet
    obtain rfl := Option.some.inj (hbytes.symm.trans hbytes')
    obtain rfl := Option.some.inj (hbytes.symm.trans hfile)
    obtain rfl := Except.ok.inj (hholds.2.1.symm.trans hholds'.2.1)
    exact hexpected

end Unraced

end Thorax
