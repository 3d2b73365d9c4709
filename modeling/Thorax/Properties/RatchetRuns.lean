import Thorax.Ops.Invite
import Thorax.TestStore

/-!
# The ratchet over runs

Loads, commits, recoveries, abandoned transactions and claimed invitations write the ratchet of a
root, each under the lock of the root, and each of them can be cut off at every durable step. In
every run of such steps what a reader of the root is told (the ratchet file joined with a pending
journal) never forgets anything. The three ways in which a ratchet takes over facts form a join, so
their order and repetition do not matter.
-/

namespace Thorax

open Collections Durable

section Runs

variable (provider : StoreProvider) (root : HashValue)

/-! ### What a root remembers -/

/-- What the files of a root remember: the ratchet of the journal where one is pending, and
otherwise that of the ratchet file. -/
def Remembers (disk : Disk) (ratchet : Ratchet) : Prop :=
  ∃ file, readRatchetForRoot provider root disk = .ok (some file) ∧
    (((disk.roots root).transaction = none ∧ ratchet = file) ∨
      ∃ transaction, readTransaction provider root disk = .ok (some transaction) ∧
        validateTransaction provider transaction = .ok ratchet)

/-- A journal that older releases left is one of a mutation that keeps what the ratchet before it
remembers, and its hashes identify the ratchets. -/
def LegacySound (start : Disk) : Prop :=
  ∀ journal next, readJoinCommit provider root start = .ok (some journal) →
    decodeRatchet provider (.ratchet root) journal.nextRatchetBytes = .ok next →
    next.trustedRoot = root ∧
      ∀ file ratchet bytes, HoldsRatchet provider root file ratchet →
        encodeRatchet provider ratchet = .ok bytes →
        (joinCommitHash provider bytes = journal.expectedRatchetHash ∨
          joinCommitHash provider bytes = joinCommitHash provider journal.nextRatchetBytes) →
        ratchet.Keeps next

/-- The invariant of runs from a starting disk: a pending journal keeps what the ratchet file
remembers, and an older journal that is gone has been carried out. -/
structure RootSound (start disk : Disk) : Prop where
  journal : (disk.roots root).transaction ≠ none →
    (disk.roots root).joinCommit = none ∧
      ∃ transaction next file, readTransaction provider root disk = .ok (some transaction) ∧
        validateTransaction provider transaction = .ok next ∧
        readRatchetForRoot provider root disk = .ok (some file) ∧ file.Keeps next
  legacy : (disk.roots root).joinCommit = (start.roots root).joinCommit ∨
    (disk.roots root).joinCommit = none ∧
      ∀ journal next, readJoinCommit provider root start = .ok (some journal) →
        decodeRatchet provider (.ratchet root) journal.nextRatchetBytes = .ok next →
        ∃ file, readRatchetForRoot provider root disk = .ok (some file) ∧ next.Keeps file

/-- From one disk to another the invariant holds and nothing is forgotten. -/
structure Advances (start disk disk' : Disk) : Prop where
  sound : RootSound provider root start disk'
  keeps : ∀ ratchet, Remembers provider root disk ratchet →
    ∃ ratchet', Remembers provider root disk' ratchet' ∧ ratchet.Keeps ratchet'

end Runs

/-! ### Changes of the files -/

section Changes

variable {provider : StoreProvider} {root : HashValue} {start disk disk' disk'' : Disk}
  {bytes : Bytes} {ratchet next : Ratchet} {transaction : TransactionV1}

lemma RootSound.advances (h : RootSound provider root start disk) :
    Advances provider root start disk disk :=
  ⟨h, fun ratchet hr => ⟨ratchet, hr, .refl ratchet⟩⟩

lemma Advances.trans (h : Advances provider root start disk disk')
    (h' : Advances provider root start disk' disk'') : Advances provider root start disk disk'' := by
  refine ⟨h'.sound, fun ratchet hr => ?_⟩
  obtain ⟨ratchet', hr', hkeeps⟩ := h.keeps ratchet hr
  obtain ⟨ratchet'', hr'', hkeeps'⟩ := h'.keeps ratchet' hr'
  exact ⟨ratchet'', hr'', hkeeps.trans hkeeps'⟩

/-- The readers of a root look only at its own files. -/
lemma readRatchetForRoot_congr (provider : StoreProvider)
    (h : (disk'.roots root).ratchet = (disk.roots root).ratchet) :
    readRatchetForRoot provider root disk' = readRatchetForRoot provider root disk := by
  rw [readRatchetForRoot, readRatchetForRoot, h]

lemma readTransaction_congr (provider : StoreProvider)
    (h : (disk'.roots root).transaction = (disk.roots root).transaction) :
    readTransaction provider root disk' = readTransaction provider root disk := by
  rw [readTransaction, readTransaction, h]

/-- Other files do not matter. -/
lemma RootSound.advances_of_same (h : RootSound provider root start disk)
    (hratchet : (disk'.roots root).ratchet = (disk.roots root).ratchet)
    (htransaction : (disk'.roots root).transaction = (disk.roots root).transaction)
    (hjoin : (disk'.roots root).joinCommit = (disk.roots root).joinCommit) :
    Advances provider root start disk disk' := by
  have hread := readRatchetForRoot_congr provider hratchet
  have hpending := readTransaction_congr provider htransaction
  refine ⟨⟨?_, ?_⟩, ?_⟩
  · rw [htransaction, hjoin, hread, hpending]
    exact h.journal
  · rw [hjoin, hread]
    exact h.legacy
  · intro ratchet hr
    refine ⟨ratchet, ?_, .refl ratchet⟩
    rw [Remembers, htransaction, hread, hpending]
    exact hr

/-- The ratchet file is replaced by one that keeps it, and that a pending journal keeps. -/
lemma RootSound.advances_setRatchet (h : RootSound provider root start disk)
    (hholds : HoldsRatchet provider root bytes ratchet)
    (hfile : ∀ file, readRatchetForRoot provider root disk = .ok (some file) → file.Keeps ratchet)
    (hpending : ∀ transaction next, readTransaction provider root disk = .ok (some transaction) →
      validateTransaction provider transaction = .ok next → ratchet.Keeps next) :
    Advances provider root start disk (disk.setRatchet root bytes) := by
  have hread : readRatchetForRoot provider root (disk.setRatchet root bytes) = .ok (some ratchet) :=
    readRatchetForRoot_eq_some.mpr ⟨bytes, by simp, hholds⟩
  have hjournal : readTransaction provider root (disk.setRatchet root bytes) =
      readTransaction provider root disk := readTransaction_congr provider (by simp)
  refine ⟨⟨?_, ?_⟩, ?_⟩
  · intro htransaction
    obtain ⟨hjoin, transaction, next, file, htransaction, hvalid, -, -⟩ :=
      h.journal (by simpa using htransaction)
    exact ⟨by simpa using hjoin, transaction, next, ratchet, hjournal ▸ htransaction, hvalid, hread,
      hpending transaction next htransaction hvalid⟩
  · rcases h.legacy with hsame | ⟨hgone, hcarried⟩
    · exact Or.inl (by simpa using hsame)
    · refine Or.inr ⟨by simpa using hgone, fun journal next hjoin hnext => ?_⟩
      obtain ⟨file, hold, hkeeps⟩ := hcarried journal next hjoin hnext
      exact ⟨ratchet, hread, hkeeps.trans (hfile file hold)⟩
  · rintro remembered ⟨file, hold, ⟨hnone, rfl⟩ | ⟨transaction, htransaction, hvalid⟩⟩
    · exact ⟨ratchet, ⟨ratchet, hread, Or.inl ⟨by simpa using hnone, rfl⟩⟩, hfile _ hold⟩
    · exact ⟨remembered, ⟨ratchet, hread, Or.inr ⟨transaction, hjournal ▸ htransaction, hvalid⟩⟩,
        .refl _⟩

/-- A journal whose ratchet keeps that of the file is written. -/
lemma RootSound.advances_journal (h : RootSound provider root start disk)
    (hjoin : (disk.roots root).joinCommit = none)
    (hnone : (disk.roots root).transaction = none)
    (hholds : HoldsTransaction provider root bytes transaction)
    (hvalid : validateTransaction provider transaction = .ok next)
    (hfile : readRatchetForRoot provider root disk = .ok (some ratchet))
    (hkeeps : ratchet.Keeps next) :
    Advances provider root start disk (disk.setTransaction root (some bytes)) := by
  have hread : readRatchetForRoot provider root (disk.setTransaction root (some bytes)) =
      readRatchetForRoot provider root disk := readRatchetForRoot_congr provider (by simp)
  have hjournal : readTransaction provider root (disk.setTransaction root (some bytes)) =
      .ok (some transaction) := readTransaction_eq_some.mpr ⟨bytes, by simp, hholds⟩
  refine ⟨⟨?_, ?_⟩, ?_⟩
  · exact fun _ => ⟨by simpa using hjoin, transaction, next, ratchet, hjournal, hvalid,
      hread.trans hfile, hkeeps⟩
  · rw [hread]
    simpa using h.legacy
  · rintro remembered ⟨file, hold, ⟨-, rfl⟩ | ⟨pending, hpending, -⟩⟩
    · obtain rfl : ratchet = remembered := by simpa [hfile] using hold
      exact ⟨next, ⟨ratchet, hread.trans hfile, Or.inr ⟨transaction, hjournal, hvalid⟩⟩, hkeeps⟩
    · rw [readTransaction_eq_none.mpr hnone] at hpending
      simp at hpending

/-- A journal is removed once the ratchet file keeps what it adds. -/
lemma RootSound.advances_remove (h : RootSound provider root start disk)
    (hread : readTransaction provider root disk = .ok (some transaction))
    (hvalid : validateTransaction provider transaction = .ok next)
    (hfile : readRatchetForRoot provider root disk = .ok (some ratchet))
    (hkeeps : next.Keeps ratchet) :
    Advances provider root start disk (disk.setTransaction root none) := by
  have hsame : readRatchetForRoot provider root (disk.setTransaction root none) =
      readRatchetForRoot provider root disk := readRatchetForRoot_congr provider (by simp)
  refine ⟨⟨fun hsome => absurd (by simp) hsome, ?_⟩, ?_⟩
  · rw [hsame]
    simpa using h.legacy
  · rintro remembered ⟨file, -, ⟨hnone, -⟩ | ⟨pending, hpending, hvalid'⟩⟩
    · rw [readTransaction_eq_none.mpr hnone] at hread
      simp at hread
    · obtain rfl : transaction = pending := by simpa [hread] using hpending
      obtain rfl : next = remembered := by simpa [hvalid] using hvalid'
      exact ⟨ratchet, ⟨ratchet, hsame.trans hfile, Or.inl ⟨by simp, rfl⟩⟩, hkeeps⟩

/-- An older journal is removed once the ratchet file keeps what it adds. -/
lemma RootSound.advances_removeJoinCommit (h : RootSound provider root start disk)
    (hcarried : ∀ journal next, readJoinCommit provider root start = .ok (some journal) →
      decodeRatchet provider (.ratchet root) journal.nextRatchetBytes = .ok next →
      ∃ file, readRatchetForRoot provider root disk = .ok (some file) ∧ next.Keeps file) :
    Advances provider root start disk (disk.removeJoinCommit root) := by
  have hread : readRatchetForRoot provider root (disk.removeJoinCommit root) =
      readRatchetForRoot provider root disk := readRatchetForRoot_congr provider (by simp)
  have hjournal : readTransaction provider root (disk.removeJoinCommit root) =
      readTransaction provider root disk := readTransaction_congr provider (by simp)
  refine ⟨⟨?_, Or.inr ⟨by simp, ?_⟩⟩, ?_⟩
  · intro hsome
    rw [hread, hjournal]
    exact ⟨by simp, (h.journal (by simpa using hsome)).2⟩
  · rw [hread]
    exact hcarried
  · intro ratchet hr
    refine ⟨ratchet, ?_, .refl ratchet⟩
    rw [Remembers, hread, hjournal]
    simpa [Remembers] using hr

/-- A pending journal keeps the ratchet file. -/
lemma RootSound.keeps_pending (h : RootSound provider root start disk)
    (hread : readTransaction provider root disk = .ok (some transaction))
    (hvalid : validateTransaction provider transaction = .ok next) :
    ∃ file, readRatchetForRoot provider root disk = .ok (some file) ∧ file.Keeps next := by
  have hsome : (disk.roots root).transaction ≠ none := by
    intro hnone
    rw [readTransaction_eq_none.mpr hnone] at hread
    simp at hread
  obtain ⟨-, transaction', next', file, hread', hvalid', hfile, hkeeps⟩ := h.journal hsome
  obtain rfl : transaction = transaction' := by simpa [hread] using hread'
  obtain rfl : next = next' := by simpa [hvalid] using hvalid'
  exact ⟨file, hfile, hkeeps⟩

end Changes

/-! ### The journal -/

section JournalSteps

variable {provider : StoreProvider} {root : HashValue} {start disk disk' : Disk}
  {paths : WorkspacePaths} {ratchet next : Ratchet} {transaction : TransactionV1} {α : Type}

/-- A program that starts where another has led. -/
lemma Advances.stays {program : Program Disk OpsError α}
    (h : Advances provider root start disk disk')
    (hp : program.Stays (Advances provider root start disk') disk') :
    program.Stays (Advances provider root start disk) disk' :=
  hp.mono (fun _ hd => h.trans hd) fun _ _ hd => h.trans hd

/-- On the way to its completion the journal stays as it is. -/
structure Completing (provider : StoreProvider) (start : Disk) (transaction : TransactionV1)
    (disk disk' : Disk) : Prop where
  advances : Advances provider transaction.trustedRoot start disk disk'
  pending : readTransaction provider transaction.trustedRoot disk' = .ok (some transaction)

lemma Completing.of_trans (h : Completing provider start transaction disk disk')
    {disk'' : Disk} (h' : Advances provider transaction.trustedRoot start disk' disk'')
    (hsame : (disk''.roots transaction.trustedRoot).transaction =
      (disk'.roots transaction.trustedRoot).transaction) :
    Completing provider start transaction disk disk'' :=
  ⟨h.advances.trans h', (readTransaction_congr provider hsame).trans h.pending⟩

/-- The ratchet is brought to its after-image. -/
lemma Completing.stays_ratchetStep (h : Completing provider start transaction disk disk')
    (hvalid : validateTransaction provider transaction = .ok next) {isAfter : Bool} :
    (Program.skipWhen isAfter (liftStore (writeRatchetBytesAtomic provider transaction.trustedRoot
      transaction.nextRatchetBytes))).Stays (Completing provider start transaction disk) disk' := by
  obtain ⟨file, hfile, hkeeps⟩ := h.advances.sound.keeps_pending h.pending hvalid
  refine Program.stays_skipWhen h (stays_liftStore (stays_writeRatchetBytes h ?_))
  intro ratchet hholds
  obtain rfl : next = ratchet := by
    simpa [(validateTransaction_eq_ok.mp hvalid).2.1] using hholds.2.1
  refine h.of_trans (h.advances.sound.advances_setRatchet hholds ?_ ?_) (by simp)
  · intro file' hfile'
    obtain rfl : file = file' := by simpa [hfile] using hfile'
    exact hkeeps
  · intro transaction' next' hread' hvalid'
    obtain rfl : transaction = transaction' := by simpa [h.pending] using hread'
    obtain rfl : next = next' := by simpa [hvalid] using hvalid'
    exact .refl next

/-- The vault is brought to its after-image. -/
lemma Completing.stays_vaultStep (h : Completing provider start transaction disk disk')
    {isAfter : Bool} :
    (Program.skipWhen isAfter (liftStore (writeVaultBytesAtomic provider paths
      transaction.nextVaultBytes))).Stays (Completing provider start transaction disk) disk' := by
  refine Program.stays_skipWhen h (stays_liftStore (stays_writeVaultBytes h ?_))
  exact h.of_trans (h.advances.sound.advances_of_same rfl rfl rfl) rfl

/-- The journal goes only once the ratchet file is its after-image. -/
lemma Completing.stays_finish (h : Completing provider start transaction disk disk')
    (hvalid : validateTransaction provider transaction = .ok next) :
    (do
      let reopenedRatchet ← readStore (readCurrentRatchet transaction.trustedRoot)
      let reopenedVault ← readStore (readCurrentVault paths)
      .ensure (reopenedRatchet = some transaction.nextRatchetBytes &&
        reopenedVault = some transaction.nextVaultBytes) .transactionRecoveryConflict
      liftStore (removeTransaction transaction.trustedRoot) : Program Disk OpsError Unit).Stays
        (Advances provider transaction.trustedRoot start disk) disk' := by
  refine stays_readStore_bind h.advances fun reopenedRatchet hreopened => ?_
  refine stays_readStore_bind h.advances fun reopenedVault _ => ?_
  refine Program.stays_ensure_bind h.advances fun hsame => ?_
  obtain ⟨rfl, -⟩ : reopenedRatchet = some transaction.nextRatchetBytes ∧ _ := by
    simpa using hsame
  obtain ⟨hfile, hlen⟩ := readOptionalFile_eq_ok.mp hreopened
  obtain ⟨-, hdecode, hroot⟩ := validateTransaction_eq_ok.mp hvalid
  have hread : readRatchetForRoot provider transaction.trustedRoot disk' = .ok (some next) :=
    readRatchetForRoot_eq_some.mpr ⟨_, hfile.symm, hlen _ hfile.symm, hdecode, hroot⟩
  refine stays_liftStore (Program.stays_write h.advances (h.advances.trans ?_))
  exact h.advances.sound.advances_remove h.pending hvalid hread (.refl next)

lemma stays_completeTransaction (h : RootSound provider root start disk)
    (hread : readTransaction provider root disk = .ok (some transaction))
    (hvalid : validateTransaction provider transaction = .ok next) :
    (completeTransaction provider paths transaction).Stays (Advances provider root start disk)
      disk := by
  obtain ⟨_, _, _, _, rfl⟩ := readTransaction_eq_some.mp hread
  have hstart : Completing provider start transaction disk disk := ⟨h.advances, hread⟩
  rw [completeTransaction]
  refine stays_readStore_bind h.advances fun _ _ => ?_
  refine stays_readStore_bind h.advances fun _ _ => ?_
  refine stays_check_bind h.advances fun vaultIsAfter _ => ?_
  refine stays_check_bind h.advances fun ratchetIsAfter _ => ?_
  refine Program.stays_bind_within (hstart.stays_ratchetStep hvalid) (fun _ hd => hd.advances) ?_
  intro _ disk₁ h₁
  refine Program.stays_bind_within h₁.stays_vaultStep (fun _ hd => hd.advances) ?_
  exact fun _ disk₂ h₂ => h₂.stays_finish hvalid

/-- A write that fails changes nothing. -/
def WrittenOr {α : Type} (disk : Disk) (written : α → Disk → Prop) :
    Except OpsError α → Disk → Prop
  | .error _, disk' => disk' = disk
  | .ok a, disk' => written a disk'

/-- A valid journal whose ratchet keeps that of the file is written and completed. -/
lemma stays_writeTransaction (h : RootSound provider transaction.trustedRoot start disk)
    (hjoin : (disk.roots transaction.trustedRoot).joinCommit = none)
    (hnone : (disk.roots transaction.trustedRoot).transaction = none)
    (hvalid : validateTransaction provider transaction = .ok next)
    (hfile : readRatchetForRoot provider transaction.trustedRoot disk = .ok (some ratchet))
    (hkeeps : ratchet.Keeps next) :
    (do
      liftStore (writeTransactionAtomic provider transaction)
      completeTransaction provider paths transaction : Program Disk OpsError Unit).Stays
        (Advances provider transaction.trustedRoot start disk) disk := by
  -- the journal is written, or nothing is
  refine Program.stays_bind_of (WrittenOr disk fun _ disk' =>
      ∃ bytes, HoldsTransaction provider transaction.trustedRoot bytes transaction ∧
        disk' = disk.setTransaction transaction.trustedRoot (some bytes))
    (meets_liftStore.mpr (meets_writeTransaction_of ?_ fun _ => rfl)) ?_ ?_
  · intro bytes hholds _
    exact ⟨h.advances, bytes, hholds, rfl⟩
  · rintro e _ rfl
    exact h.advances
  · rintro _ _ ⟨bytes, hholds, rfl⟩
    have hjournal := h.advances_journal hjoin hnone hholds hvalid hfile hkeeps
    refine hjournal.stays (stays_completeTransaction hjournal.sound ?_ hvalid)
    exact readTransaction_eq_some.mpr ⟨bytes, by simp, hholds⟩

/-- A mutation whose ratchet keeps the one it expects is journaled and completed. -/
lemma stays_commitAfterImages (h : RootSound provider root start disk) {transactionId : Bytes}
    {operation : String} {expectedVaultBytes expectedRatchetBytes nextVaultBytes : Bytes}
    {nextRatchetBytes : Bytes} {before after : Ratchet}
    (hbefore : decodeRatchet provider (.ratchet root) expectedRatchetBytes = .ok before)
    (hroot : before.trustedRoot = root)
    (hafter : decodeRatchet provider (.ratchet root) nextRatchetBytes = .ok after)
    (hkeeps : before.Keeps after) :
    (commitAfterImages provider paths root transactionId operation expectedVaultBytes
      expectedRatchetBytes nextVaultBytes nextRatchetBytes).Stays
        (Advances provider root start disk) disk := by
  rw [commitAfterImages]
  refine stays_readStore_bind h.advances fun legacy hlegacy => ?_
  refine Program.stays_ensure_bind h.advances fun hnot => ?_
  obtain rfl : legacy = false := by simpa using hnot
  refine stays_readStore_bind h.advances fun pending hpending => ?_
  cases pending with
  | some pending => exact Program.stays_fail h.advances
  | none =>
    refine stays_readStore_bind h.advances fun vaultBytes _ => ?_
    refine Program.stays_ensure_bind h.advances fun _ => ?_
    refine stays_readStore_bind h.advances fun currentRatchet hcurrent => ?_
    refine Program.stays_ensure_bind h.advances fun hsame => ?_
    obtain rfl : currentRatchet = some expectedRatchetBytes := by simpa using hsame
    refine stays_readStore_bind h.advances fun originVaultPath _ => ?_
    refine stays_check_bind h.advances fun next hvalid => ?_
    obtain ⟨hfile, hlen⟩ := readOptionalFile_eq_ok.mp hcurrent
    have hread : readRatchetForRoot provider root disk = .ok (some before) :=
      readRatchetForRoot_eq_some.mpr ⟨_, hfile.symm, hlen _ hfile.symm, hbefore, hroot⟩
    obtain rfl : after = next := by
      have hnext := (validateTransaction_eq_ok.mp hvalid).2.1
      simpa [hafter] using hnext
    exact stays_writeTransaction h (joinCommitPresent_eq_false.mp hlegacy)
      (readTransaction_eq_none.mp hpending) hvalid hread hkeeps

lemma stays_abandonTransaction (h : RootSound provider root start disk) :
    (abandonTransaction provider root).Stays (Advances provider root start disk) disk := by
  rw [abandonTransaction]
  refine stays_readStore_bind h.advances fun pending hread => ?_
  cases pending with
  | none => exact Program.stays_fail h.advances
  | some transaction =>
    refine stays_check_bind h.advances fun after hvalid => ?_
    refine stays_readStore_bind h.advances fun found hfile => ?_
    cases found with
    | none => exact Program.stays_fail h.advances
    | some persisted =>
      obtain ⟨_, hpersisted, hkeeps⟩ := h.keeps_pending hread hvalid
      obtain rfl := Option.some.inj (Except.ok.inj (hfile.symm.trans hpersisted))
      obtain ⟨-, hdecode, -⟩ := validateTransaction_eq_ok.mp hvalid
      have hafter := vaultRoot_of_decodeRatchet hdecode
      refine stays_check_bind h.advances fun merged hmerge => ?_
      obtain ⟨merged', hmerge', hkept, hnothing⟩ := mergeRatchet_of_keeps hkeeps hafter
      obtain rfl : merged = merged' := by simpa [hmerge] using hmerge'
      obtain rfl : merged.trustedRoot = root := by
        rw [hnothing.trustedRoot.symm, hkeeps.trustedRoot]
        exact (readRatchetForRoot_eq_some.mp hfile).choose_spec.2.2.2
      refine Program.stays_bind_of (fun result disk' => Advances provider merged.trustedRoot start
          disk disk' ∧ (result = .ok () →
            readTransaction provider merged.trustedRoot disk' = .ok (some transaction) ∧
            ∃ file, readRatchetForRoot provider merged.trustedRoot disk' = .ok (some file) ∧
              after.Keeps file))
        (meets_liftStore.mpr (meets_writeRatchet_of ?_ fun _ => ⟨h.advances, by simp⟩))
        (fun _ _ hd => hd.1) ?_
      · intro bytes stored hholds hstored
        obtain ⟨hsame, hsame'⟩ := hstored.keeps_of_decoded (hnothing.eq_none hafter)
        refine ⟨h.advances, h.advances_setRatchet hholds ?_ ?_, fun _ => ⟨?_, stored, ?_, ?_⟩⟩
        · intro file hfile'
          obtain rfl : persisted = file := by simpa [hfile] using hfile'
          exact hkeeps.trans (hkept.trans hsame)
        · intro transaction' next' hread' hvalid'
          obtain rfl : transaction = transaction' := by simpa [hread] using hread'
          obtain rfl : after = next' := by simpa [hvalid] using hvalid'
          exact hsame'.trans hnothing
        · exact (readTransaction_congr provider (by simp)).trans hread
        · exact readRatchetForRoot_eq_some.mpr ⟨bytes, by simp, hholds⟩
        · exact hkept.trans hsame
      · rintro _ disk' ⟨hadvances, hwritten⟩
        obtain ⟨hread', file, hfile', hkept'⟩ := hwritten rfl
        refine Program.stays_bind (stays_liftStore (Program.stays_write hadvances ?_)) ?_
        · exact hadvances.trans (hadvances.sound.advances_remove hread' hvalid hfile' hkept')
        · exact fun _ _ hd => Program.stays_pure hd

lemma stays_recoverLocked (h : RootSound provider root start disk) :
    (recoverLocked provider paths root).Stays (Advances provider root start disk) disk := by
  rw [recoverLocked]
  refine stays_readStore_bind h.advances fun pending hread => ?_
  cases pending with
  | none => exact Program.stays_pure h.advances
  | some transaction =>
    refine stays_check_bind h.advances fun next hvalid => ?_
    refine stays_readStore_bind h.advances fun isOrigin _ => ?_
    cases isOrigin with
    | false => exact Program.stays_pure h.advances
    | true =>
      refine Program.stays_bind (stays_completeTransaction h hread hvalid) ?_
      exact fun _ _ hd => Program.stays_pure hd

end JournalSteps

/-! ### Journals of older releases -/

section LegacySteps

variable {provider : StoreProvider} {root : HashValue} {start disk : Disk}
  {paths : WorkspacePaths} {journal : JoinCommitJournalV1}

lemma trustedRoot_of_readJoinCommit
    (h : readJoinCommit provider root start = .ok (some journal)) : journal.trustedRoot = root := by
  simp only [readJoinCommit, bind_eq_ok, mapError_eq_ok, readOptionalFile_eq_ok] at h
  obtain ⟨file, -, h⟩ := h
  cases file with
  | none => simp at h
  | some bytes =>
    cases hpayload : afterMagic joinCommitMagic bytes with
    | none => simp [hpayload] at h
    | some payload =>
      simp only [hpayload] at h
      obtain ⟨found, -, h⟩ := bind_eq_ok.mp h
      split_ifs at h with hroot
      obtain rfl : found = journal := by simpa using h
      exact not_not.mp hroot

lemma readJoinCommit_of_none (provider : StoreProvider)
    (h : (start.roots root).joinCommit = none) :
    readJoinCommit provider root start = .ok none := by
  simp [readJoinCommit, readOptionalFile, readFileBounded, h, bind, Except.bind]

/-- Where a journal is pending, an older one has been carried out. -/
lemma RootSound.carried (h : RootSound provider root start disk)
    (hjoin : readJoinCommit provider root start = .ok (some journal)) {next : Ratchet}
    (hnext : decodeRatchet provider (.ratchet root) journal.nextRatchetBytes = .ok next)
    (hpending : (disk.roots root).transaction ≠ none) :
    ∃ file, readRatchetForRoot provider root disk = .ok (some file) ∧ next.Keeps file := by
  rcases h.legacy with hsame | ⟨-, hcarried⟩
  · have hnone := readJoinCommit_of_none provider (hsame ▸ (h.journal hpending).1)
    simp [hjoin] at hnone
  · exact hcarried journal next hjoin hnext

/-- The ratchet file is brought to the after-image of an older journal. -/
lemma RootSound.advances_legacy (h : RootSound provider root start disk)
    (hlegacy : LegacySound provider root start)
    (hjoin : readJoinCommit provider root start = .ok (some journal)) {next : Ratchet}
    (hnext : decodeRatchet provider (.ratchet root) journal.nextRatchetBytes = .ok next)
    {current : Ratchet} {currentBytes : Bytes}
    (hcurrent : readRatchetForRoot provider root disk = .ok (some current))
    (hencode : encodeRatchet provider current = .ok currentBytes)
    (hhash : joinCommitHash provider currentBytes = journal.expectedRatchetHash ∨
      joinCommitHash provider currentBytes = joinCommitHash provider journal.nextRatchetBytes)
    {bytes : Bytes} {stored : Ratchet} (hholds : HoldsRatchet provider root bytes stored)
    (hstored : next.StoredAs stored) :
    Advances provider root start disk (disk.setRatchet root bytes) ∧ next.Keeps stored := by
  obtain ⟨hsame, hsame'⟩ := hstored.keeps_of_decoded (vaultRoot_of_decodeRatchet hnext)
  obtain ⟨file, -, hfile⟩ := readRatchetForRoot_eq_some.mp hcurrent
  have hkeeps : current.Keeps next :=
    (hlegacy journal next hjoin hnext).2 file current currentBytes hfile hencode hhash
  refine ⟨h.advances_setRatchet hholds ?_ ?_, hsame⟩
  · intro file' hfile'
    obtain rfl : current = file' := by simpa [hcurrent] using hfile'
    exact hkeeps.trans hsame
  · intro transaction pending hread hvalid
    have hsome : (disk.roots root).transaction ≠ none := by
      intro hnone
      rw [readTransaction_eq_none.mpr hnone] at hread
      simp at hread
    -- both the file and the journal keep what the older journal adds
    obtain ⟨file', hfile', hcarried⟩ := h.carried hjoin hnext hsome
    obtain ⟨file'', hfile'', hpending⟩ := h.keeps_pending hread hvalid
    obtain rfl : file' = file'' := by simpa [hfile'] using hfile''
    exact hsame'.trans (hcarried.trans hpending)

/-- From the first write on the ratchet file keeps what the older journal adds. -/
structure Carried (provider : StoreProvider) (start : Disk) (journal : JoinCommitJournalV1)
    (next : Ratchet) (disk disk' : Disk) : Prop where
  advances : Advances provider journal.trustedRoot start disk disk'
  file : ∃ file, readRatchetForRoot provider journal.trustedRoot disk' = .ok (some file) ∧
    next.Keeps file

variable {next : Ratchet} {disk' : Disk}

lemma Carried.stays_vaultStep (h : Carried provider start journal next disk disk') {bytes : Bytes} :
    (liftStore (writeVaultBytesAtomic provider paths bytes)).Stays
      (Carried provider start journal next disk) disk' := by
  refine stays_liftStore (stays_writeVaultBytes h ⟨h.advances.trans ?_, h.file⟩)
  exact h.advances.sound.advances_of_same rfl rfl rfl

/-- The older journal goes once both files have been read back. -/
lemma Carried.stays_removeJoinCommit (h : Carried provider start journal next disk disk')
    (hjoin : readJoinCommit provider journal.trustedRoot start = .ok (some journal))
    (hnext : decodeRatchet provider (.ratchet journal.trustedRoot) journal.nextRatchetBytes =
      .ok next) :
    (liftStore (removeJoinCommit journal.trustedRoot)).Stays
      (Advances provider journal.trustedRoot start disk) disk' := by
  refine stays_liftStore (Program.stays_write h.advances (h.advances.trans ?_))
  refine h.advances.sound.advances_removeJoinCommit fun journal' next' hjoin' hnext' => ?_
  obtain rfl : journal = journal' := by simpa [hjoin] using hjoin'
  obtain rfl : next = next' := by simpa [hnext] using hnext'
  exact h.file

lemma stays_completeJoinCommit (h : RootSound provider root start disk)
    (hlegacy : LegacySound provider root start)
    (hjoin : readJoinCommit provider root start = .ok (some journal)) :
    (completeJoinCommit provider paths journal).Stays (Advances provider root start disk) disk := by
  obtain rfl := trustedRoot_of_readJoinCommit hjoin
  rw [completeJoinCommit]
  refine stays_readStore_bind h.advances fun currentVault _ => ?_
  refine Program.stays_ensure_bind h.advances fun _ => ?_
  refine stays_readStore_bind h.advances fun found hcurrent => ?_
  cases found with
  | none => exact Program.stays_fail h.advances
  | some current =>
    refine stays_check_bind h.advances fun currentBytes hencode => ?_
    refine Program.stays_ensure_bind h.advances fun hhash => ?_
    refine stays_check_bind h.advances fun next hnext => ?_
    replace hnext : decodeRatchet provider (.ratchet journal.trustedRoot)
        journal.nextRatchetBytes = .ok next := decodeRatchet_path (mapError_eq_ok.mp hnext)
    have hroot := (hlegacy journal next hjoin hnext).1
    refine Program.stays_bind_of
      (WrittenOr disk fun _ disk' => Carried provider start journal next disk disk')
      (meets_liftStore.mpr (meets_writeRatchet_of ?_ fun _ => rfl)) ?_ ?_
    · intro bytes stored hholds hstored
      rw [hroot] at hholds ⊢
      obtain ⟨hadvances, hkeeps⟩ := h.advances_legacy hlegacy hjoin hnext hcurrent
        (mapError_eq_ok.mp hencode) (by simpa using hhash) hholds hstored
      exact ⟨h.advances, hadvances, stored,
        readRatchetForRoot_eq_some.mpr ⟨bytes, by simp, hholds⟩, hkeeps⟩
    · rintro e _ rfl
      exact h.advances
    · intro _ disk₁ h₁
      refine Program.stays_bind_within h₁.stays_vaultStep (fun _ hd => hd.advances) ?_
      intro _ disk₂ h₂
      refine stays_readStore_bind h₂.advances fun reopened _ => ?_
      cases reopened with
      | none => exact Program.stays_fail h₂.advances
      | some reopened =>
        refine stays_readStore_bind h₂.advances fun _ _ => ?_
        refine stays_check_bind h₂.advances fun _ _ => ?_
        refine Program.stays_ensure_bind h₂.advances fun _ => ?_
        exact h₂.stays_removeJoinCommit hjoin hnext

end LegacySteps

/-! ### Raising the ratchet -/

section RaisingSteps

variable {provider : StoreProvider} {root : HashValue} {start disk : Disk} {ratchet : Ratchet}

/-- Without a pending journal, a ratchet that keeps that of the file is written. -/
lemma RootSound.stays_writeRatchet (h : RootSound provider root start disk)
    (hnone : (disk.roots root).transaction = none) (hroot : ratchet.trustedRoot = root)
    (hfile : ∀ file, readRatchetForRoot provider root disk = .ok (some file) →
      file.Keeps ratchet) :
    (liftStore (writeRatchetAtomic provider ratchet)).Stays (Advances provider root start disk)
      disk := by
  subst hroot
  refine stays_liftStore (Thorax.stays_writeRatchet h.advances fun bytes stored hholds hstored => ?_)
  refine h.advances_setRatchet hholds ?_ ?_
  · intro file hread
    obtain ⟨_, _, _, hdecode, _⟩ := readRatchetForRoot_eq_some.mp hread
    exact hstored.keeps_from (vaultRoot_of_decodeRatchet hdecode) (hfile file hread)
  · intro transaction next hread
    rw [readTransaction_eq_none.mpr hnone] at hread
    simp at hread

variable {vault : VaultStore} {invitation : InvitationMaterial}

lemma stays_establishRatchet (h : RootSound provider root start disk)
    (hnone : (disk.roots root).transaction = none) (hroot : ratchet.trustedRoot = root)
    (hfile : ∀ file, readRatchetForRoot provider root disk = .ok (some file) →
      file.Keeps ratchet) {userId : UserId} :
    (establishRatchet provider vault ratchet userId).Stays (Advances provider root start disk)
      disk := by
  refine Program.stays_ensure_bind h.advances fun _ => ?_
  refine stays_check_bind h.advances fun _ _ => ?_
  refine Program.stays_ensure_bind h.advances fun _ => ?_
  refine Program.stays_bind (h.stays_writeRatchet hnone hroot fun file hread => ?_) ?_
  · exact (hfile file hread).trans (Ratchet.keeps_applyUpdate ratchet _)
  · exact fun _ _ hd => Program.stays_pure hd

/-- A claim takes a remembered ratchet as it is, and a baseline only where there is none. -/
lemma stays_claimInviteLocked (h : RootSound provider root start disk) :
    (claimInviteLocked provider vault root invitation).Stays (Advances provider root start disk)
      disk := by
  refine stays_ensureNoPendingTransaction_bind h.advances fun _ hnone => ?_
  refine stays_readStore_bind h.advances fun existing hexisting => ?_
  cases existing with
  | none =>
    refine stays_establishRatchet h hnone ?_ ?_
    · cases hbaseline : invitation.rollbackBaseline with
      | none => simp [seedRatchetFromOptionalBaseline, Ratchet.new]
      | some baseline =>
        simp [seedRatchetFromOptionalBaseline, trustedRoot_seedRatchet]
    · intro file hfile
      simp [hexisting] at hfile
  | some existing =>
    obtain ⟨_, _, _, _, hroot⟩ := readRatchetForRoot_eq_some.mp hexisting
    refine stays_establishRatchet h hnone hroot ?_
    intro file hfile
    obtain rfl : existing = file := by simpa [hexisting] using hfile
    exact .refl existing

lemma stays_ensureRatchetLocked (h : RootSound provider root start disk) :
    (ensureRatchetLocked provider vault root invitation).Stays (Advances provider root start disk)
      disk := by
  refine stays_ensureNoPendingTransaction_bind h.advances fun _ hnone => ?_
  refine stays_readStore_bind h.advances fun existing hexisting => ?_
  cases existing with
  | some existing => exact Program.stays_pure h.advances
  | none =>
    cases hbaseline : invitation.rollbackBaseline with
    | none => exact Program.stays_fail h.advances
    | some baseline =>
      refine Program.stays_bind (stays_establishRatchet h hnone trustedRoot_seedRatchet ?_) ?_
      · intro file hfile
        simp [hexisting] at hfile
      · exact fun _ _ hd => Program.stays_pure hd

end RaisingSteps

/-! ### Sessions -/

section SessionSteps

variable {provider : StoreProvider} {root : HashValue} {start disk : Disk} {paths : WorkspacePaths}
  {session : LockedSession} {contended : Bool}

/-- The raises of a session are joined to the ratchet that is there. -/
lemma stays_absorbCleanTrustRaises (h : RootSound provider root start disk)
    (hroot : session.ratchet.trustedRoot = root) :
    (absorbCleanTrustRaises provider contended).Stays
      (fun state => Advances provider root start disk state.1) (disk, session) := by
  subst hroot
  apply meets_absorbCleanTrustRaises
  · exact fun _ => h.advances
  · exact fun _ _ _ => h.advances
  · exact fun _ => h.advances
  · rintro found raised bytes stored - - - - - hnone hfound rfl hholds hstored
    have hscope : (found.getD (.new session.ratchet.trustedRoot)).trustedRoot =
        session.ratchet.trustedRoot := by
      cases found with
      | none => rfl
      | some found => exact (readRatchetForRoot_eq_some.mp hfound).choose_spec.2.2.2
    rw [Ratchet.trustedRoot_applyUpdate, hscope] at hholds ⊢
    refine ⟨h.advances, h.advances_setRatchet hholds ?_ ?_⟩
    · intro file hfile
      obtain rfl : found = some file := by simpa [hfound] using hfile
      obtain ⟨_, _, _, hdecode, _⟩ := readRatchetForRoot_eq_some.mp hfile
      exact hstored.keeps_from (vaultRoot_of_decodeRatchet hdecode) (Ratchet.keeps_applyUpdate _ _)
    · intro transaction next hread
      rw [readTransaction_eq_none.mpr hnone] at hread
      simp at hread

/-- Both commits hand the journal an after-image that keeps the one they expect. -/
lemma stays_commitEncoded (h : RootSound provider root start disk) {older newer : Ratchet}
    {expectedRatchetBytes nextRatchetBytes : Bytes}
    (hexpected : encodeRatchet provider older = .ok expectedRatchetBytes)
    (hnext : encodeRatchet provider newer = .ok nextRatchetBytes)
    (hroot : older.trustedRoot = root) (hkeeps : older.Keeps newer) {transactionId : Bytes}
    {operation : String} {expectedVaultBytes nextVaultBytes : Bytes} :
    (commitAfterImages provider paths root transactionId operation expectedVaultBytes
      expectedRatchetBytes nextVaultBytes nextRatchetBytes).Stays
        (Advances provider root start disk) disk := by
  obtain ⟨before, hbefore, holder⟩ := storedAs_of_encodeRatchet (.ratchet root) hexpected
  obtain ⟨after, hafter, hnewer⟩ := storedAs_of_encodeRatchet (.ratchet root) hnext
  exact stays_commitAfterImages h hbefore (holder.trustedRoot.trans hroot) hafter
    (holder.keeps hnewer hkeeps)

lemma stays_commit (h : RootSound provider root start disk)
    (hroot : session.ratchet.trustedRoot = root) {α : Type} {transactionId : Bytes}
    {change : Change α} :
    (commit provider contended transactionId change).Stays
      (fun state => Advances provider root start disk state.1) (disk, session) := by
  subst hroot
  cases hpersistence : session.persistence with
  | prepared =>
    exact meets_commit_prepared hpersistence (fun _ => h.advances) fun _ _ => h.advances
  | live =>
    refine meets_commit hpersistence (fun _ => h.advances) (fun _ _ _ => h.advances) ?_
    intro session' next expectedRatchetBytes nextRatchetBytes _ _ _ hfresh hexpected hproject hnext
    refine (stays_commitEncoded h hexpected hnext hfresh.trustedRoot
      (keeps_of_project hproject)).mono (fun _ hd => hd) fun result disk' hd => ?_
    cases result <;> exact hd

lemma stays_commitPrepared (h : RootSound provider root start disk)
    (hroot : session.ratchet.trustedRoot = root) {origin prepared : LockedSession}
    (hprepared : PreparedFrom provider origin prepared) {expectedRatchetBytes : Bytes}
    (hexpected : encodeRatchet provider origin.ratchet = .ok expectedRatchetBytes)
    {transactionId : Bytes} {operation : String} {expectedVaultBytes : Bytes} :
    (commitPrepared provider contended transactionId prepared operation expectedVaultBytes
      expectedRatchetBytes).Stays
        (fun state => Advances provider root start disk state.1) (disk, session) := by
  subst hroot
  refine meets_commitPrepared (fun _ => h.advances) ?_
  intro nextRatchetBytes _ hroot _ _ _ _ _ hnext
  refine (stays_commitEncoded h hexpected hnext (hprepared.keeps.trustedRoot ▸ hroot)
    hprepared.keeps).mono (fun _ hd => hd) fun result disk' hd => ?_
  cases result <;> exact hd

/-! ### Loading -/

/-- A journal of older releases that is on disk was there at the start. -/
lemma RootSound.readJoinCommit_start (h : RootSound provider root start disk)
    {journal : JoinCommitJournalV1} (hread : readJoinCommit provider root disk = .ok (some journal)) :
    readJoinCommit provider root start = .ok (some journal) := by
  rcases h.legacy with hsame | ⟨hgone, -⟩
  · rw [readJoinCommit, ← hsame]
    exact hread
  · rw [readJoinCommit_of_none provider hgone] at hread
    simp at hread

lemma stays_recoverForRoot (h : RootSound provider root start disk)
    (hlegacy : LegacySound provider root start) :
    (recoverForRoot provider paths root).Stays (Advances provider root start disk) disk := by
  have hrecover : (recoverTransactionIfOrigin provider paths root).Stays
      (Advances provider root start disk) disk := by
    refine Program.stays_read_bind h.advances fun disposition _ => ?_
    cases disposition with
    | recovered => exact stays_recoverLocked h
    | none => exact Program.stays_pure h.advances
    | pendingElsewhere => exact Program.stays_pure h.advances
  refine stays_readStore_bind h.advances fun transaction _ => ?_
  refine stays_readStore_bind h.advances fun legacy _ => ?_
  refine Program.stays_ensure_bind h.advances fun _ => ?_
  refine Program.stays_bind hrecover fun disposition disk₁ h₁ => ?_
  cases disposition with
  | recovered => exact Program.stays_pure h₁
  | pendingElsewhere => exact Program.stays_pure h₁
  | none =>
    refine Program.stays_bind (Program.stays_read_bind h₁ fun found hfound => ?_)
      fun _ _ hd => Program.stays_pure hd
    cases found with
    | none => exact Program.stays_pure h₁
    | some journal =>
      refine Program.stays_bind (h₁.stays (stays_completeJoinCommit h₁.sound hlegacy
        (h₁.sound.readJoinCommit_start hfound))) fun _ _ hd => Program.stays_pure hd

/-- A snapshot carries a ratchet of the root. -/
lemma trustedRoot_of_loadSnapshot {recovery : RecoveryDisposition}
    (h : loadSnapshot provider paths root recovery disk = .ok session) :
    session.ratchet.trustedRoot = root := by
  simp only [loadSnapshot, bind_eq_ok, mapError_eq_ok, Prod.exists] at h
  obtain ⟨vaultBytes, -, vault, -, ratchet, pending, hratchet, h⟩ := h
  obtain rfl := Except.ok.inj h
  exact trustedRoot_of_readStrongestRatchet hratchet

lemma stays_load (h : RootSound provider root start disk)
    (hlegacy : LegacySound provider root start) (hroot : loadRoot provider paths disk = .ok root) :
    (load provider contended paths).Stays (Advances provider root start disk) disk := by
  refine Program.stays_read_bind h.advances fun found hfound => ?_
  obtain rfl : root = found := by simpa [hroot] using hfound
  refine Program.stays_bind (stays_recoverForRoot h hlegacy) fun recovery disk₁ h₁ => ?_
  refine Program.stays_read_bind h₁ fun session hsession => ?_
  refine Program.stays_bind (Program.stays_carry ?_) fun _ _ hd => Program.stays_pure hd
  refine (stays_absorbCleanTrustRaises h₁.sound (trustedRoot_of_loadSnapshot hsession)).mono
    (fun _ hd => h₁.trans hd) fun _ _ hd => h₁.trans hd

end SessionSteps

/-! ### Runs -/

section Main

variable (provider : StoreProvider) (root : HashValue) (start : Disk)

/-- One step of a run on a root. Each program may be cut off at any durable step, and is given
whatever its caller has in memory: a session may be stale, and its vault may be read long before.
Everything else on disk, such as the vault files and the state of other roots, changes freely. -/
inductive RootStep : Disk → Disk → Prop
  | elsewhere {disk disk' : Disk} :
      (disk'.roots root).ratchet = (disk.roots root).ratchet →
      (disk'.roots root).transaction = (disk.roots root).transaction →
      (disk'.roots root).joinCommit = (disk.roots root).joinCommit → RootStep disk disk'
  | load {disk disk' : Disk} (contended : Bool) (paths : WorkspacePaths) :
      loadRoot provider paths disk = .ok root →
      (load provider contended paths).Leaves disk disk' → RootStep disk disk'
  | recover {disk disk' : Disk} (paths : WorkspacePaths) :
      (recoverLocked provider paths root).Leaves disk disk' → RootStep disk disk'
  | recoverJoin {disk disk' : Disk} (paths : WorkspacePaths) {journal : JoinCommitJournalV1} :
      readJoinCommit provider root start = .ok (some journal) →
      (completeJoinCommit provider paths journal).Leaves disk disk' → RootStep disk disk'
  | abandon {disk disk' : Disk} :
      (abandonTransaction provider root).Leaves disk disk' → RootStep disk disk'
  | absorb {disk disk' : Disk} (contended : Bool) (session : LockedSession) :
      session.ratchet.trustedRoot = root →
      ((absorbCleanTrustRaises provider contended).carry session).Leaves disk disk' →
      RootStep disk disk'
  | commit {disk disk' : Disk} {α : Type} (contended : Bool) (transactionId : Bytes)
      (change : Change α) (session : LockedSession) :
      session.ratchet.trustedRoot = root →
      ((commit provider contended transactionId change).carry session).Leaves disk disk' →
      RootStep disk disk'
  | commitPrepared {disk disk' : Disk} (contended : Bool) (transactionId : Bytes)
      (operation : String) (session : LockedSession) {origin prepared : LockedSession}
      {expectedRatchetBytes : Bytes} :
      session.ratchet.trustedRoot = root → PreparedFrom provider origin prepared →
      encodeRatchet provider origin.ratchet = .ok expectedRatchetBytes →
      ((commitPrepared provider contended transactionId prepared operation origin.vaultBytes
        expectedRatchetBytes).carry session).Leaves disk disk' → RootStep disk disk'
  | claimInvite {disk disk' : Disk} (vault : VaultStore) (invitation : InvitationMaterial) :
      (claimInviteLocked provider vault root invitation).Leaves disk disk' → RootStep disk disk'
  | ensureRatchet {disk disk' : Disk} (vault : VaultStore) (invitation : InvitationMaterial) :
      (ensureRatchetLocked provider vault root invitation).Leaves disk disk' → RootStep disk disk'

/-- Any sequence and interleaving of steps. -/
abbrev RootRun : Disk → Disk → Prop := Relation.ReflTransGen (RootStep provider root start)

/-- What a ratchet can be told: an update of a validation, a fact, the facts of a ratchet, or a
ratchet to merge. -/
inductive Lesson where
  | update (raised : RatchetUpdate)
  | record (fact : RatchetRecordV1)
  | records (other : Ratchet)
  | merge (other : Ratchet)

/-- A merge that is refused changes nothing. -/
def Ratchet.learn (self : Ratchet) : Lesson → Ratchet
  | .update raised => self.applyUpdate raised
  | .record fact => self.absorbRecord fact
  | .records other => other.toRecords.foldl absorbRecord self
  | .merge other => (mergeRatchet self other).toOption.getD self

end Main

section MainLemmas

variable {provider : StoreProvider} {root : HashValue} {start disk disk' : Disk}

/-- One step advances the root. -/
lemma RootStep.advances (hlegacy : LegacySound provider root start)
    (h : RootSound provider root start disk) (hstep : RootStep provider root start disk disk') :
    Advances provider root start disk disk' := by
  cases hstep with
  | elsewhere hratchet htransaction hjoin => exact h.advances_of_same hratchet htransaction hjoin
  | load contended paths hroot hleaves => exact (stays_load h hlegacy hroot).leaves hleaves
  | recover paths hleaves => exact (stays_recoverLocked h).leaves hleaves
  | recoverJoin paths hjoin hleaves => exact (stays_completeJoinCommit h hlegacy hjoin).leaves hleaves
  | abandon hleaves => exact (stays_abandonTransaction h).leaves hleaves
  | absorb contended session hroot hleaves =>
    exact (Program.stays_carry (stays_absorbCleanTrustRaises h hroot)).leaves hleaves
  | commit contended transactionId change session hroot hleaves =>
    exact (Program.stays_carry (stays_commit h hroot)).leaves hleaves
  | commitPrepared contended transactionId operation session hroot hprepared hexpected hleaves =>
    exact (Program.stays_carry (stays_commitPrepared h hroot hprepared hexpected)).leaves hleaves
  | claimInvite vault invitation hleaves => exact (stays_claimInviteLocked h).leaves hleaves
  | ensureRatchet vault invitation hleaves => exact (stays_ensureRatchetLocked h).leaves hleaves

/-- A run advances the root. -/
lemma RootRun.advances (hlegacy : LegacySound provider root start)
    (h : RootSound provider root start disk) (hrun : RootRun provider root start disk disk') :
    Advances provider root start disk disk' := by
  induction hrun with
  | refl => exact h.advances
  | tail _ hstep ih => exact ih.trans (hstep.advances hlegacy ih.sound)

/-- What a reader is told is what the root remembers. -/
lemma RootSound.remembers_of_read (h : RootSound provider root start disk) {paths : WorkspacePaths}
    {ratchet : Ratchet} {pending : Option PendingTransaction}
    (hread : readStrongestRatchetOptionalWithPending provider paths root disk =
      .ok (some ratchet, pending)) :
    ∃ remembered, Remembers provider root disk remembered ∧ ratchet.Keeps remembered := by
  obtain ⟨file, hfile, ⟨hnone, hsome, -⟩ | ⟨transaction, next, merged, htransaction, hvalid, hmerge,
    -, hsome, -⟩⟩ := readStrongestRatchetOptionalWithPending_eq_ok.mp hread
  · subst hsome
    exact ⟨ratchet, ⟨ratchet, hfile, Or.inl ⟨readTransaction_eq_none.mp hnone, rfl⟩⟩, .refl ratchet⟩
  · obtain rfl := Option.some.inj hsome
    obtain ⟨_, hcurrent, hkeeps⟩ := h.keeps_pending htransaction hvalid
    obtain rfl := Except.ok.inj (hfile.symm.trans hcurrent)
    obtain ⟨-, hdecode, -⟩ := validateTransaction_eq_ok.mp hvalid
    obtain ⟨_, hmerge', -, hnothing⟩ :=
      mergeRatchet_of_keeps hkeeps (vaultRoot_of_decodeRatchet hdecode)
    obtain rfl := Except.ok.inj (hmerge.symm.trans hmerge')
    exact ⟨next, ⟨_, hcurrent, Or.inr ⟨transaction, htransaction, hvalid⟩⟩, hnothing⟩

/-- What the root remembers is what a reader is told. -/
lemma RootSound.read_of_remembers (h : RootSound provider root start disk) {paths : WorkspacePaths}
    (hexists : disk.vaults paths.vaultPath ≠ none) {remembered : Ratchet}
    (hremembers : Remembers provider root disk remembered) :
    ∃ ratchet pending, readStrongestRatchetOptionalWithPending provider paths root disk =
      .ok (some ratchet, pending) ∧ remembered.Keeps ratchet := by
  obtain ⟨file, hfile, ⟨hnone, rfl⟩ | ⟨transaction, htransaction, hvalid⟩⟩ := hremembers
  · refine ⟨remembered, none, ?_, .refl remembered⟩
    exact readStrongestRatchetOptionalWithPending_eq_ok.mpr
      ⟨_, hfile, Or.inl ⟨readTransaction_eq_none.mpr hnone, rfl, rfl⟩⟩
  · obtain ⟨_, hcurrent, hkeeps⟩ := h.keeps_pending htransaction hvalid
    obtain ⟨-, hdecode, -⟩ := validateTransaction_eq_ok.mp hvalid
    obtain ⟨merged, hmerge, hkept, -⟩ :=
      mergeRatchet_of_keeps hkeeps (vaultRoot_of_decodeRatchet hdecode)
    refine ⟨merged, some (.of transaction paths), ?_, hkept⟩
    exact readStrongestRatchetOptionalWithPending_eq_ok.mpr
      ⟨_, hcurrent, Or.inr ⟨transaction, remembered, merged, htransaction, hvalid, hmerge, hexists,
        rfl, rfl⟩⟩

/-- What a lesson adds to a ratchet of a root. -/
def Lesson.memory (root : HashValue) : Lesson → Memory
  | .update raised => raised.memory
  | .record fact => fact.memory
  | .records other => other.storedMemory
  | .merge other => if root = other.trustedRoot then other.storedMemory else ⊥

lemma trustedRoot_learn (self : Ratchet) (lesson : Lesson) :
    (self.learn lesson).trustedRoot = self.trustedRoot := by
  cases lesson with
  | update raised => rfl
  | record fact => exact (Ratchet.scope_absorbRecords self [fact]).1
  | records other => exact (Ratchet.scope_absorbRecords self other.toRecords).1
  | merge other =>
    by_cases hroot : self.trustedRoot = other.trustedRoot
    · obtain ⟨merged, hmerge, hscope, -⟩ := mergeRatchet_spec hroot
      simp [Ratchet.learn, hmerge, hscope, Except.toOption]
    · simp [Ratchet.learn, mergeRatchet, hroot, Except.toOption]

/-- Each lesson is a join. -/
lemma memory_learn (self : Ratchet) (lesson : Lesson) :
    (self.learn lesson).memory = self.memory ⊔ lesson.memory self.trustedRoot := by
  cases lesson with
  | update raised => exact Ratchet.memory_applyUpdate self raised
  | record fact => exact Ratchet.memory_absorbRecord self fact
  | records other => exact Ratchet.memory_absorb_toRecords self other
  | merge other =>
    by_cases hroot : self.trustedRoot = other.trustedRoot
    · obtain ⟨merged, hmerge, -, hmemory, -⟩ := mergeRatchet_spec hroot
      simp [Ratchet.learn, hmerge, Lesson.memory, hroot, Except.toOption, hmemory]
    · simp [Ratchet.learn, mergeRatchet, hroot, Lesson.memory, Except.toOption]

/-- The lessons count as a set. -/
lemma memory_learn_congr (self : Ratchet) {lessons lessons' : List Lesson}
    (h : ∀ lesson, lesson ∈ lessons ↔ lesson ∈ lessons') :
    (lessons.foldl Ratchet.learn self).memory = (lessons'.foldl Ratchet.learn self).memory := by
  refine foldl_join_congr Ratchet.memory (Lesson.memory self.trustedRoot)
    (P := fun ratchet => ratchet.trustedRoot = self.trustedRoot) ?_ ?_ h rfl
  · exact fun ratchet lesson hroot => (trustedRoot_learn ratchet lesson).trans hroot
  · intro ratchet lesson hroot
    rw [memory_learn, hroot]

end MainLemmas

/-- In every run the strongest ratchet of a root keeps what it was at any earlier point, for every
reader; and the order and repetition of what a ratchet is told do not matter. -/
theorem strongestRatchet_monotone {provider : StoreProvider} {root : HashValue}
    {start disk disk' : Disk} (hstart : RootSound provider root start start)
    (hlegacy : LegacySound provider root start) (hrun : RootRun provider root start start disk)
    (hrun' : RootRun provider root start disk disk') :
    (∀ (paths paths' : WorkspacePaths) (ratchet : Ratchet) (pending : Option PendingTransaction),
      readStrongestRatchetOptionalWithPending provider paths root disk =
        .ok (some ratchet, pending) →
      disk'.vaults paths'.vaultPath ≠ none →
      ∃ ratchet' pending', readStrongestRatchetOptionalWithPending provider paths' root disk' =
        .ok (some ratchet', pending') ∧ ratchet.Keeps ratchet') ∧
    ∀ (ratchet : Ratchet) (lessons lessons' : List Lesson),
      (∀ lesson, lesson ∈ lessons ↔ lesson ∈ lessons') →
      (lessons.foldl Ratchet.learn ratchet).watermarks =
          (lessons'.foldl Ratchet.learn ratchet).watermarks ∧
        (lessons.foldl Ratchet.learn ratchet).formatVersion =
          (lessons'.foldl Ratchet.learn ratchet).formatVersion := by
  constructor
  · intro paths paths' ratchet pending hread hexists
    have hsound := (hrun.advances hlegacy hstart).sound
    obtain ⟨remembered, hremembers, hkeeps⟩ := hsound.remembers_of_read hread
    have hadvances := hrun'.advances hlegacy hsound
    obtain ⟨remembered', hremembers', hkeeps'⟩ := hadvances.keeps remembered hremembers
    obtain ⟨ratchet', pending', hread', hkeeps''⟩ :=
      hadvances.sound.read_of_remembers hexists hremembers'
    exact ⟨ratchet', pending', hread', hkeeps.trans (hkeeps'.trans hkeeps'')⟩
  · intro ratchet lessons lessons' h
    exact Ratchet.memory_eq_iff.mp (memory_learn_congr ratchet h)

/-! ### A recovery -/

open TestSupport

/-- A commit of a first secret was cut off after its journal was written. -/
def firstSecretPending : Disk :=
  testDisk (some (vaultFile 0)) (some (ratchetFile 0)) (some (transactionFile 0))

/-- The disk after a recovery of it. -/
def firstSecretRecovered : Disk :=
  (recoverLocked (tableProvider firstSecretTables) testPaths testRoot firstSecretPending).last

theorem strongestRatchet_monotone_recovery :
    RootSound (tableProvider firstSecretTables) testRoot firstSecretPending firstSecretPending ∧
      LegacySound (tableProvider firstSecretTables) testRoot firstSecretPending ∧
      RootRun (tableProvider firstSecretTables) testRoot firstSecretPending firstSecretPending
        firstSecretRecovered ∧
      readStrongestRatchetOptionalWithPending (tableProvider firstSecretTables) testPaths testRoot
        firstSecretPending =
          .ok (some firstSecretRatchet, some (.of firstSecret testPaths)) ∧
      ∃ ratchet pending, readStrongestRatchetOptionalWithPending (tableProvider firstSecretTables)
          testPaths testRoot firstSecretRecovered = .ok (some ratchet, pending) ∧
        firstSecretRatchet.Keeps ratchet := by
  have hsound : RootSound (tableProvider firstSecretTables) testRoot firstSecretPending
      firstSecretPending :=
    ⟨fun _ => ⟨rfl, firstSecret, firstSecretRatchet, freshRatchet, by decide, by decide, by decide,
      keeps_firstSecretRatchet⟩, Or.inl rfl⟩
  have hlegacy : LegacySound (tableProvider firstSecretTables) testRoot firstSecretPending := by
    intro journal next hjoin
    rw [readJoinCommit_of_none _ rfl] at hjoin
    simp at hjoin
  have hrun : RootRun (tableProvider firstSecretTables) testRoot firstSecretPending
      firstSecretPending firstSecretRecovered :=
    .single (.recover testPaths (Or.inr rfl))
  have hread : readStrongestRatchetOptionalWithPending (tableProvider firstSecretTables) testPaths
      testRoot firstSecretPending =
        .ok (some firstSecretRatchet, some (.of firstSecret testPaths)) := by decide
  exact ⟨hsound, hlegacy, hrun, hread,
    (strongestRatchet_monotone hsound hlegacy .refl hrun).1 testPaths testPaths _ _ hread (by decide)⟩

end Thorax
