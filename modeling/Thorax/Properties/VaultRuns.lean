import Thorax.Ops.Records
import Thorax.Properties.RatchetRuns
import Thorax.Properties.Resting

/-!
# The vault over runs

Any number of processes load sessions of a workspace, mutate its vault through them, prepare
mutations in memory and commit them later, recover or abandon what others left half done, and are
cut off at any durable step. Whatever they do, and in whatever order their critical sections come,
no record that is in the vault file is ever taken out of it, and what a session has shown is in the
file from then on.
-/

namespace Thorax

open Collections Durable

/-! ### Growing vaults -/

/-- Every record of one vault is in the other. -/
def VaultStore.Grows (vault vault' : VaultStore) : Prop :=
  ∀ signed ∈ vault.records, signed ∈ vault'.records

lemma VaultStore.Grows.refl (vault : VaultStore) : vault.Grows vault := fun _ hsigned => hsigned

lemma VaultStore.Grows.trans {vault vault' vault'' : VaultStore} (h : vault.Grows vault')
    (h' : vault'.Grows vault'') : vault.Grows vault'' :=
  fun signed hsigned => h' signed (h signed hsigned)

lemma VaultStore.grows_appendRecords (records : List VaultRecordV1) (vault : VaultStore) :
    vault.Grows (records.foldl VaultStore.appendRecord vault) := by
  induction records generalizing vault with
  | nil => exact .refl vault
  | cons signed records ih =>
    exact VaultStore.Grows.trans (fun _ h => VaultStore.mem_appendRecord.mpr (Or.inl h)) (ih _)

section Files

variable (provider : StoreProvider) (path : Path) (root : HashValue)

/-- The bytes of a vault of a root. -/
structure HoldsVault (bytes : Bytes) (vault : VaultStore) : Prop where
  decodes : decodeVault provider bytes = .ok vault
  root : trustedRootCandidate provider.toCryptoProvider vault = .ok root

/-- The hashes of vault files tell them apart. -/
def FilesIdentify : Prop :=
  ∀ bytes bytes' vault vault', decodeVault provider bytes = .ok vault →
    decodeVault provider bytes' = .ok vault' → fileHash provider bytes = fileHash provider bytes' →
    bytes = bytes'

/-- A journal adds to the vault that it was made for. -/
def JournalAdds (transaction : TransactionV1) : Prop :=
  ∃ next, HoldsVault provider root transaction.nextVaultBytes next ∧
    ∀ bytes vault, decodeVault provider bytes = .ok vault →
      transaction.vaultBefore = .hash (fileHash provider bytes) → vault.Grows next

/-- What holds at every step of the vault file of one workspace: it is a vault of the root, and a
journal that came from there is one of the root and adds to what it was made for. No journal of older
releases is left. -/
structure VaultSound (disk : Disk) : Prop where
  file : ∃ bytes vault, disk.vaults path = some bytes ∧ HoldsVault provider root bytes vault
  journal : ∀ root' transaction, readTransaction provider root' disk = .ok (some transaction) →
    transaction.originVaultPath = .fromPath path →
      root' = root ∧ JournalAdds provider root transaction
  joinCommit : ∀ root', (disk.roots root').joinCommit = none

/-- The file has the records of a vault. -/
structure VaultKept (vault : VaultStore) (disk : Disk) : Prop extends
    VaultSound provider path root disk where
  keeps : ∃ bytes current, disk.vaults path = some bytes ∧
    decodeVault provider bytes = .ok current ∧ vault.Grows current

/-- A session that shows a vault of the root whose records the file has. -/
structure SessionKept (session : LockedSession) (disk : Disk) : Prop where
  trustedRoot : session.ratchet.trustedRoot = root
  bytes : ∃ stored, HoldsVault provider root session.vaultBytes stored ∧
    ∀ signed, signed ∈ stored.records ↔ signed ∈ session.vault.records
  kept : VaultKept provider path root session.vault disk

/-- A copy of a session that has been mutated in memory. -/
inductive PreparedBy (session : LockedSession) : LockedSession → Prop
  | clone : PreparedBy session session.preparedClone
  | mutate {prepared : LockedSession} {α : Type} (change : BatchChange α) {next : Projection α} :
      PreparedBy session prepared → project provider prepared change.toChange = .ok next →
      PreparedBy session (prepared.advance next)

end Files

/-! ### Changes of the files -/

section Changes

variable {provider : StoreProvider} {path : Path} {root root' : HashValue}
  {vault : VaultStore} {disk disk' : Disk}

lemma VaultSound.kept (h : VaultSound provider path root disk) {bytes : Bytes} {current : VaultStore}
    (hfile : disk.vaults path = some bytes) (hdecode : decodeVault provider bytes = .ok current) :
    VaultKept provider path root current disk :=
  ⟨h, bytes, current, hfile, hdecode, .refl current⟩

lemma VaultKept.mono {vault' : VaultStore} (h : VaultKept provider path root vault disk)
    (hgrows : vault'.Grows vault) : VaultKept provider path root vault' disk := by
  obtain ⟨bytes, current, hfile, hdecode, hgrows'⟩ := h.keeps
  exact ⟨h.toVaultSound, bytes, current, hfile, hdecode, hgrows.trans hgrows'⟩

/-- The vault that the file holds is one of the root. -/
lemma VaultSound.holds (h : VaultSound provider path root disk) {bytes : Bytes}
    {current : VaultStore} (hfile : disk.vaults path = some bytes)
    (hdecode : decodeVault provider bytes = .ok current) :
    HoldsVault provider root bytes current := by
  obtain ⟨bytes', current', hfile', hholds⟩ := h.file
  obtain rfl := Option.some.inj (hfile.symm.trans hfile')
  obtain rfl := Except.ok.inj (hdecode.symm.trans hholds.decodes)
  exact hholds

/-- Other files do not matter. -/
lemma VaultKept.of_same (h : VaultKept provider path root vault disk)
    (hvault : disk'.vaults path = disk.vaults path)
    (htransaction : ∀ root', (disk'.roots root').transaction = (disk.roots root').transaction)
    (hjoin : ∀ root', (disk'.roots root').joinCommit = (disk.roots root').joinCommit) :
    VaultKept provider path root vault disk' := by
  refine ⟨⟨?_, ?_, ?_⟩, ?_⟩
  · rw [hvault]
    exact h.file
  · intro root' transaction hread
    rw [readTransaction_congr provider (htransaction root')] at hread
    exact h.journal root' transaction hread
  · exact fun root' => (hjoin root').trans (h.joinCommit root')
  · rw [hvault]
    exact h.keeps

lemma VaultKept.setRatchet (h : VaultKept provider path root vault disk) (root' : HashValue)
    (bytes : Bytes) : VaultKept provider path root vault (disk.setRatchet root' bytes) := by
  apply h.of_same
  · rfl
  all_goals
    intro other
    by_cases hother : other = root'
    · subst hother
      simp
    · rw [Disk.setRatchet, Disk.roots_modifyRoot_of_ne hother]

lemma VaultKept.setCache (h : VaultKept provider path root vault disk) (root' : HashValue)
    (user : UserId) (bytes : Bytes) :
    VaultKept provider path root vault (disk.setCache root' user bytes) := by
  apply h.of_same
  · rfl
  all_goals
    intro other
    by_cases hother : other = root'
    · subst hother
      simp
    · rw [Disk.setCache, Disk.roots_modifyRoot_of_ne hother]

/-- The vault of another workspace is written. -/
lemma VaultKept.setVault_of_ne (h : VaultKept provider path root vault disk) {path' : Path}
    (hne : path ≠ path') (bytes : Bytes) :
    VaultKept provider path root vault (disk.setVault path' bytes) :=
  h.of_same (Function.update_of_ne hne _ _) (fun _ => rfl) fun _ => rfl

/-- The file is brought to a vault that has its records. -/
lemma VaultKept.setVault (h : VaultKept provider path root vault disk) {bytes : Bytes}
    {next : VaultStore} (hholds : HoldsVault provider root bytes next)
    (hgrows : ∀ before current, disk.vaults path = some before →
      decodeVault provider before = .ok current → current.Grows next) :
    VaultKept provider path root vault (disk.setVault path bytes) := by
  have hfile : (disk.setVault path bytes).vaults path = some bytes := Disk.vaults_setVault
  refine ⟨⟨⟨bytes, next, hfile, hholds⟩, h.journal, h.joinCommit⟩, bytes, next, hfile,
    hholds.decodes, ?_⟩
  obtain ⟨before, current, hbefore, hdecode, hgrows'⟩ := h.keeps
  exact hgrows'.trans (hgrows before current hbefore hdecode)

/-- A journal is written that does not come from the file, or adds to what it was made for. -/
lemma VaultKept.setTransaction (h : VaultKept provider path root vault disk) {bytes : Bytes}
    {transaction : TransactionV1} (hholds : HoldsTransaction provider root' bytes transaction)
    (hadds : transaction.originVaultPath = .fromPath path →
      root' = root ∧ JournalAdds provider root transaction) :
    VaultKept provider path root vault (disk.setTransaction root' (some bytes)) := by
  refine ⟨⟨h.file, ?_, ?_⟩, h.keeps⟩
  · intro other pending hread horigin
    by_cases hother : other = root'
    · subst hother
      have hwritten : readTransaction provider other (disk.setTransaction other (some bytes)) =
          .ok (some transaction) := readTransaction_eq_some.mpr ⟨bytes, by simp, hholds⟩
      obtain rfl := Option.some.inj (Except.ok.inj (hread.symm.trans hwritten))
      exact hadds horigin
    · have hsame : (disk.setTransaction root' (some bytes)).roots other = disk.roots other :=
        Disk.roots_modifyRoot_of_ne hother
      rw [readTransaction_congr provider (congrArg RootState.transaction hsame)] at hread
      exact h.journal other pending hread horigin
  · intro other
    by_cases hother : other = root'
    · subst hother
      simpa using h.joinCommit other
    · rw [Disk.setTransaction, Disk.roots_modifyRoot_of_ne hother]
      exact h.joinCommit other

/-- A journal goes. -/
lemma VaultKept.removeTransaction (h : VaultKept provider path root vault disk)
    (root' : HashValue) : VaultKept provider path root vault (disk.setTransaction root' none) := by
  refine ⟨⟨h.file, ?_, ?_⟩, h.keeps⟩
  · intro other pending hread
    by_cases hother : other = root'
    · subst hother
      have hnone : readTransaction provider other (disk.setTransaction other none) = .ok none :=
        readTransaction_eq_none.mpr (by simp)
      simp [hnone] at hread
    · have hsame : (disk.setTransaction root' none).roots other = disk.roots other :=
        Disk.roots_modifyRoot_of_ne hother
      rw [readTransaction_congr provider (congrArg RootState.transaction hsame)] at hread
      exact h.journal other pending hread
  · intro other
    by_cases hother : other = root'
    · subst hother
      simpa using h.joinCommit other
    · rw [Disk.setTransaction, Disk.roots_modifyRoot_of_ne hother]
      exact h.joinCommit other

end Changes

/-! ### The journal -/

section JournalSteps

variable {provider : StoreProvider} {path : Path} {root root' : HashValue}
  {vault : VaultStore} {disk : Disk} {paths : WorkspacePaths} {transaction : TransactionV1}

/-- On the way to its completion the journal stays as it is, and so does the file that was found. -/
structure VaultCompleting (provider : StoreProvider) (path : Path) (root : HashValue)
    (vault : VaultStore) (transaction : TransactionV1) (found : Option Bytes) (disk : Disk) :
    Prop where
  kept : VaultKept provider path root vault disk
  pending : readTransaction provider transaction.trustedRoot disk = .ok (some transaction)
  file : disk.vaults path = found

/-- A file that is found neither before nor after stops a completion. -/
lemma before_of_classifyFile {current : Option Bytes} {before : FilePreconditionV1} {after : Bytes}
    (h : classifyFile provider current before after = .ok false) {bytes : Bytes}
    (hcurrent : current = some bytes) : before = .hash (fileHash provider bytes) := by
  subst hcurrent
  cases before with
  | missing =>
    simp only [classifyFile, Bool.not_false, Bool.true_and, Bool.not_eq_true',
      decide_eq_false_iff_not] at h
    split_ifs at h with hafter
    exact absurd hafter (of_decide_eq_false (Except.ok.inj h))
  | hash expected =>
    simp only [classifyFile, Bool.and_eq_true, Bool.not_eq_true', decide_eq_false_iff_not] at h
    split_ifs at h with hneither
    have hafter := Except.ok.inj h
    simp only [decide_eq_false_iff_not] at hafter
    by_contra hne
    exact hneither ⟨fun heq => hne (congrArg _ heq.symm), hafter⟩

/-- The ratchet is brought to its after-image. -/
lemma VaultCompleting.stays_ratchetStep {found : Option Bytes}
    (h : VaultCompleting provider path root vault transaction found disk) {isAfter : Bool} :
    (Program.skipWhen isAfter (liftStore (writeRatchetBytesAtomic provider transaction.trustedRoot
      transaction.nextRatchetBytes))).Stays
        (VaultCompleting provider path root vault transaction found) disk := by
  refine Program.stays_skipWhen h (stays_liftStore (stays_writeRatchetBytes h fun _ _ => ?_))
  exact ⟨h.kept.setRatchet _ _, (readTransaction_congr provider (by simp)).trans h.pending, h.file⟩

/-- The vault is brought from its before-image to its after-image, in the workspace that the journal
came from. -/
lemma VaultCompleting.stays_vaultStep {found : Option Bytes}
    (h : VaultCompleting provider path root vault transaction found disk)
    (horigin : transaction.originVaultPath = .fromPath paths.vaultPath) {isAfter : Bool}
    (hclassified : paths.vaultPath = path →
      classifyFile provider found transaction.vaultBefore transaction.nextVaultBytes = .ok isAfter) :
    (Program.skipWhen isAfter (liftStore (writeVaultBytesAtomic provider paths
      transaction.nextVaultBytes))).Stays (fun disk =>
        VaultKept provider path root vault disk ∧
          readTransaction provider transaction.trustedRoot disk = .ok (some transaction)) disk := by
  cases isAfter with
  | true => exact Program.stays_pure ⟨h.kept, h.pending⟩
  | false =>
    refine Program.stays_skipWhen ⟨h.kept, h.pending⟩ (stays_liftStore
      (stays_writeVaultBytes ⟨h.kept, h.pending⟩ ⟨?_, h.pending⟩))
    by_cases hpath : path = paths.vaultPath
    · subst hpath
      obtain ⟨-, next, hnext, hadds⟩ := h.kept.journal _ _ h.pending horigin
      refine h.kept.setVault hnext fun before current hfile hdecode => hadds before current hdecode ?_
      exact before_of_classifyFile (hclassified rfl) (h.file.symm.trans hfile)
    · exact h.kept.setVault_of_ne hpath _

lemma stays_completeTransaction_kept (h : VaultKept provider path root vault disk)
    (hread : readTransaction provider transaction.trustedRoot disk = .ok (some transaction))
    (horigin : transaction.originVaultPath = .fromPath paths.vaultPath) :
    (completeTransaction provider paths transaction).Stays
      (VaultKept provider path root vault) disk := by
  have hstart : VaultCompleting provider path root vault transaction (disk.vaults path) disk :=
    ⟨h, hread, rfl⟩
  rw [completeTransaction]
  refine stays_readStore_bind h fun current hcurrent => stays_readStore_bind h fun _ _ => ?_
  refine stays_check_bind h fun isAfter hclassified => stays_check_bind h fun _ _ => ?_
  have hfound : paths.vaultPath = path → classifyFile provider (disk.vaults path)
      transaction.vaultBefore transaction.nextVaultBytes = .ok isAfter := by
    rintro rfl
    rwa [(readOptionalFile_eq_ok.mp hcurrent).1] at hclassified
  refine Program.stays_bind_within hstart.stays_ratchetStep (fun _ hd => hd.kept) fun _ disk₁ h₁ => ?_
  refine Program.stays_bind_within (h₁.stays_vaultStep horigin hfound) (fun _ hd => hd.1) ?_
  intro _ disk₂ h₂
  refine stays_readStore_bind h₂.1 fun _ _ => stays_readStore_bind h₂.1 fun _ _ => ?_
  refine Program.stays_ensure_bind h₂.1 fun _ => ?_
  exact stays_liftStore (Program.stays_write h₂.1 (h₂.1.removeTransaction _))

/-- A journal that adds to what it was made for is written and completed. -/
lemma stays_writeTransaction_kept (h : VaultKept provider path root vault disk)
    (horigin : transaction.originVaultPath = .fromPath paths.vaultPath)
    (hadds : paths.vaultPath = path →
      transaction.trustedRoot = root ∧ JournalAdds provider root transaction) :
    (do
      liftStore (writeTransactionAtomic provider transaction)
      completeTransaction provider paths transaction : Program Disk OpsError Unit).Stays
        (VaultKept provider path root vault) disk := by
  refine Program.stays_bind_of (WrittenOr disk fun _ disk' =>
      ∃ bytes, HoldsTransaction provider transaction.trustedRoot bytes transaction ∧
        disk' = disk.setTransaction transaction.trustedRoot (some bytes))
    (meets_liftStore.mpr (meets_writeTransaction_of ?_ fun _ => rfl)) ?_ ?_
  · exact fun bytes hholds _ => ⟨h, bytes, hholds, rfl⟩
  · rintro e _ rfl
    exact h
  · rintro _ _ ⟨bytes, hholds, rfl⟩
    refine stays_completeTransaction_kept (h.setTransaction hholds fun hpath => ?_)
      (readTransaction_eq_some.mpr ⟨bytes, by simp, hholds⟩) horigin
    exact hadds (fromPath_injective (horigin.symm.trans hpath))

/-- After-images that add to the expected vault are journaled and completed. -/
lemma stays_commitAfterImages_kept (hfiles : FilesIdentify provider)
    (h : VaultKept provider path root vault disk)
    {transactionId : Bytes} {operation : String}
    {expectedVaultBytes expectedRatchetBytes nextVaultBytes nextRatchetBytes : Bytes}
    (hadds : paths.vaultPath = path → root' = root ∧ ∀ current next,
      decodeVault provider expectedVaultBytes = .ok current →
      decodeVault provider nextVaultBytes = .ok next → current.Grows next) :
    (commitAfterImages provider paths root' transactionId operation expectedVaultBytes
      expectedRatchetBytes nextVaultBytes nextRatchetBytes).Stays
        (VaultKept provider path root vault) disk := by
  rw [commitAfterImages]
  refine stays_readStore_bind h fun _ _ => Program.stays_ensure_bind h fun _ => ?_
  refine stays_readStore_bind h fun pending _ => ?_
  cases pending with
  | some pending => exact Program.stays_fail h
  | none =>
    refine stays_readStore_bind h fun vaultBytes hvault => ?_
    refine Program.stays_ensure_bind h fun hsame => ?_
    obtain rfl : vaultBytes = expectedVaultBytes := by simpa using hsame
    refine stays_readStore_bind h fun _ _ => Program.stays_ensure_bind h fun _ => ?_
    refine stays_readStore_bind h fun originVaultPath horigin => ?_
    obtain ⟨-, rfl⟩ := canonical_eq_ok.mp horigin
    refine stays_check_bind h fun ratchet hvalid => ?_
    obtain ⟨⟨next, hdecode, hroot⟩, -⟩ := validateTransaction_eq_ok.mp hvalid
    refine stays_writeTransaction_kept h rfl fun hpath => ?_
    obtain ⟨rfl, hgrows⟩ := hadds hpath
    refine ⟨rfl, next, ⟨hdecode, hroot⟩, fun before current hcurrent hbefore => ?_⟩
    obtain ⟨hfile, -⟩ := readVaultBytes_eq_ok.mp hvault
    obtain ⟨bytes, stored, hfile', hholds⟩ := h.file
    rw [hpath] at hfile
    obtain rfl := Option.some.inj (hfile.symm.trans hfile')
    obtain rfl := hfiles before vaultBytes current stored hcurrent hholds.decodes
      (FilePreconditionV1.hash.inj hbefore).symm
    exact hgrows current next hcurrent hdecode

lemma stays_recoverLocked_kept (h : VaultKept provider path root vault disk) :
    (recoverLocked provider paths root').Stays (VaultKept provider path root vault) disk := by
  rw [recoverLocked]
  refine stays_readStore_bind h fun pending hread => ?_
  cases pending with
  | none => exact Program.stays_pure h
  | some transaction =>
    refine stays_check_bind h fun next hvalid => ?_
    refine stays_readStore_bind h fun isOrigin hmatches => ?_
    cases isOrigin with
    | false => exact Program.stays_pure h
    | true =>
      obtain ⟨-, horigin⟩ := matchesCanonical_eq_ok.mp hmatches
      obtain ⟨_, _, _, _, rfl⟩ := readTransaction_eq_some.mp hread
      refine Program.stays_bind (stays_completeTransaction_kept h hread (by simpa using horigin)) ?_
      exact fun _ _ hd => Program.stays_pure hd

/-- Giving up a journal leaves the vault as it is. -/
lemma stays_abandonTransaction_kept (h : VaultKept provider path root vault disk) :
    (abandonTransaction provider root').Stays (VaultKept provider path root vault) disk := by
  rw [abandonTransaction]
  refine stays_readStore_bind h fun pending _ => ?_
  cases pending with
  | none => exact Program.stays_fail h
  | some transaction =>
    refine stays_check_bind h fun after _ => ?_
    refine stays_readStore_bind h fun found _ => ?_
    cases found with
    | none => exact Program.stays_fail h
    | some persisted =>
      refine stays_check_bind h fun merged _ => ?_
      refine Program.stays_bind (stays_liftStore (stays_writeRatchet h fun _ _ _ _ =>
        h.setRatchet _ _)) fun _ disk₁ h₁ => ?_
      refine Program.stays_bind (stays_liftStore (Program.stays_write h₁
        (h₁.removeTransaction root'))) ?_
      exact fun _ _ hd => Program.stays_pure hd

lemma stays_recoverForRoot_kept (h : VaultKept provider path root vault disk) :
    (recoverForRoot provider paths root').Stays (VaultKept provider path root vault) disk := by
  rw [recoverForRoot]
  refine stays_readStore_bind h fun _ _ => stays_readStore_bind h fun _ _ => ?_
  refine Program.stays_ensure_bind h fun _ => ?_
  refine Program.stays_bind (Program.stays_read_bind h fun disposition _ => ?_) ?_
  · cases disposition with
    | recovered => exact stays_recoverLocked_kept h
    | none => exact Program.stays_pure h
    | pendingElsewhere => exact Program.stays_pure h
  · intro disposition disk₁ h₁
    cases disposition with
    | recovered => exact Program.stays_pure h₁
    | pendingElsewhere => exact Program.stays_pure h₁
    | none =>
      refine Program.stays_bind (Program.stays_read_bind h₁ fun found hfound => ?_)
        fun _ _ hd => Program.stays_pure hd
      obtain rfl : found = none := by
        simpa [readJoinCommit_of_none provider (h₁.joinCommit root')] using hfound.symm
      exact Program.stays_pure h₁

end JournalSteps

/-! ### Trust -/

section TrustSteps

variable {provider : StoreProvider} {path : Path} {root root' : HashValue}
  {vault vault' : VaultStore} {disk : Disk} {invitation : InvitationMaterial} {ratchet : Ratchet}

lemma stays_establishRatchet_kept (h : VaultKept provider path root vault disk) {userId : UserId} :
    (establishRatchet provider vault' ratchet userId).Stays (VaultKept provider path root vault)
      disk := by
  refine Program.stays_ensure_bind h fun _ => stays_check_bind h fun _ _ => ?_
  refine Program.stays_ensure_bind h fun _ => ?_
  refine Program.stays_bind (stays_liftStore (stays_writeRatchet h fun _ _ _ _ =>
    h.setRatchet _ _)) ?_
  exact fun _ _ hd => Program.stays_pure hd

lemma stays_claimInviteLocked_kept (h : VaultKept provider path root vault disk) :
    (claimInviteLocked provider vault' root' invitation).Stays (VaultKept provider path root vault)
      disk := by
  refine stays_ensureNoPendingTransaction_bind h fun _ _ => ?_
  exact stays_readStore_bind h fun _ _ => stays_establishRatchet_kept h

lemma stays_ensureRatchetLocked_kept (h : VaultKept provider path root vault disk) :
    (ensureRatchetLocked provider vault' root' invitation).Stays
      (VaultKept provider path root vault) disk := by
  refine stays_ensureNoPendingTransaction_bind h fun _ _ => ?_
  refine stays_readStore_bind h fun existing _ => ?_
  cases existing with
  | some existing => exact Program.stays_pure h
  | none =>
    cases invitation.rollbackBaseline with
    | none => exact Program.stays_fail h
    | some baseline =>
      refine Program.stays_bind (stays_establishRatchet_kept h) ?_
      exact fun _ _ hd => Program.stays_pure hd

end TrustSteps

/-! ### Sessions -/

section SessionSteps

variable {provider : StoreProvider} {path : Path} {root : HashValue} {vault : VaultStore}
  {disk : Disk} {session session' origin prepared : LockedSession} {contended : Bool} {α : Type}

/-- A live session of any workspace; one of this workspace is kept. -/
structure HeldKept (provider : StoreProvider) (path : Path) (root : HashValue)
    (session : LockedSession) (disk : Disk) : Prop where
  live : session.persistence = .live
  kept : session.paths.vaultPath = path → SessionKept provider path root session disk

/-- A session looks at the disk for its vault only. -/
lemma HeldKept.of_kept {disk' : Disk} (h : HeldKept provider path root session disk)
    (hkept : VaultKept provider path root session.vault disk →
      VaultKept provider path root session.vault disk') :
    HeldKept provider path root session disk' := by
  refine ⟨h.live, fun hpath => ?_⟩
  obtain ⟨hroot, hbytes, hvault⟩ := h.kept hpath
  exact ⟨hroot, hbytes, hkept hvault⟩

/-- A session that shows the same vault. -/
lemma HeldKept.of_same (h : HeldKept provider path root session disk)
    (hpersistence : session'.persistence = session.persistence)
    (hpaths : session'.paths = session.paths) (hvault : session'.vault = session.vault)
    (hbytes : session'.vaultBytes = session.vaultBytes)
    (hroot : session'.ratchet.trustedRoot = session.ratchet.trustedRoot) :
    HeldKept provider path root session' disk := by
  refine ⟨hpersistence.trans h.live, fun hpath => ?_⟩
  obtain ⟨hroot', hbytes', hvault'⟩ := h.kept (hpaths ▸ hpath)
  exact ⟨hroot.trans hroot', by rw [hbytes, hvault]; exact hbytes', by rw [hvault]; exact hvault'⟩

/-- A session that shows what the file holds. -/
lemma SessionKept.of_file (h : VaultSound provider path root disk)
    (hroot : session.ratchet.trustedRoot = root)
    (hfile : disk.vaults path = some session.vaultBytes) {stored : VaultStore}
    (hdecode : decodeVault provider session.vaultBytes = .ok stored)
    (hrecords : ∀ signed, signed ∈ stored.records ↔ signed ∈ session.vault.records) :
    SessionKept provider path root session disk :=
  ⟨hroot, ⟨stored, h.holds hfile hdecode, hrecords⟩,
    (h.kept hfile hdecode).mono fun signed hsigned => (hrecords signed).mpr hsigned⟩

/-- A session that is refreshed is kept. -/
lemma HeldKept.refreshes (h : HeldKept provider path root session disk)
    (hsound : VaultSound provider path root disk)
    (hfresh : Refreshes provider disk session session') :
    HeldKept provider path root session' disk := by
  cases hfresh with
  | same hbytes hratchet => exact h.of_same rfl rfl rfl rfl rfl
  | reload hbytes hvault hroot hratchet hstale =>
    refine ⟨h.live, ?_⟩
    rintro rfl
    obtain ⟨hfile, -⟩ := readVaultBytes_eq_ok.mp hbytes
    refine .of_file hsound ?_ hfile hvault fun _ => Iff.rfl
    exact (trustedRoot_of_readStrongestRatchet hratchet).trans
      (Except.ok.inj (hroot.symm.trans (hsound.holds hfile hvault).root))

/-- A mutation adds records, and its bytes are those of the vault it makes. -/
lemma grows_of_project {change : BatchChange α} {next : Projection α}
    (h : project provider session change.toChange = .ok next) :
    session.vault.Grows next.vault ∧ encodeVault provider next.vault = .ok next.vaultBytes := by
  obtain ⟨-, vault, output, hupdate, rfl, -, -, -, -, hbytes, -⟩ := project_eq_ok.mp h
  simp only [BatchChange.toChange, bind_eq_ok, Prod.exists] at hupdate
  obtain ⟨records, _, -, hvault⟩ := hupdate
  have happended : records.foldl VaultStore.appendRecord session.vault = next.vault :=
    congrArg Prod.fst (Except.ok.inj hvault)
  exact ⟨happended ▸ VaultStore.grows_appendRecords records session.vault, hbytes⟩

/-- The bytes of a session are those of its vault, if they are of any. -/
def BytesAgree (provider : StoreProvider) (session : LockedSession) : Prop :=
  ∀ stored, decodeVault provider session.vaultBytes = .ok stored →
    ∀ signed, signed ∈ stored.records ↔ signed ∈ session.vault.records

lemma SessionKept.bytesAgree (h : SessionKept provider path root session disk) :
    BytesAgree provider session := by
  obtain ⟨stored, hholds, hrecords⟩ := h.bytes
  intro stored' hdecode
  obtain rfl := Except.ok.inj (hholds.decodes.symm.trans hdecode)
  exact hrecords

lemma bytesAgree_advance (session : LockedSession) {next : Projection α}
    (hbytes : encodeVault provider next.vault = .ok next.vaultBytes) :
    BytesAgree provider (session.advance next) := by
  obtain ⟨-, stored, hdecode, -, hrecords⟩ := decodeVault_encodeVault hbytes
  intro stored' hdecode'
  obtain rfl := Except.ok.inj (hdecode.symm.trans hdecode')
  exact hrecords

lemma PreparedBy.paths (h : PreparedBy provider origin prepared) : prepared.paths = origin.paths := by
  induction h with
  | clone => rfl
  | mutate change hprepared hproject ih => exact ih

/-- Mutations in memory add records. -/
lemma PreparedBy.grows (h : PreparedBy provider origin prepared) :
    origin.vault.Grows prepared.vault := by
  induction h with
  | clone => exact .refl origin.vault
  | mutate change hprepared hproject ih => exact ih.trans (grows_of_project hproject).1

lemma PreparedBy.bytesAgree (h : PreparedBy provider origin prepared)
    (horigin : BytesAgree provider origin) : BytesAgree provider prepared := by
  cases h with
  | clone => exact horigin
  | mutate change hprepared hproject => exact bytesAgree_advance _ (grows_of_project hproject).2

/-- A program that leaves every vault that the file has there. -/
def KeepsVaults {ε : Type} (provider : StoreProvider) (path : Path) (root : HashValue)
    (program : Program Disk ε α) (disk : Disk) : Prop :=
  ∀ vault, VaultKept provider path root vault disk →
    program.Stays (VaultKept provider path root vault) disk

/-- The states of the disk and a session that are sound, and keep a vault. -/
structure StateKept (provider : StoreProvider) (path : Path) (root : HashValue) (vault : VaultStore)
    (state : Disk × LockedSession) : Prop where
  kept : VaultKept provider path root vault state.1
  held : HeldKept provider path root state.2 state.1

/-- A program on the disk keeps what is kept, and the session too. -/
lemma KeepsVaults.meets_state {program : Program Disk OpsError α}
    (h : KeepsVaults provider path root program disk)
    (hstate : StateKept provider path root vault (disk, session)) :
    program.Meets disk (fun disk' => StateKept provider path root vault (disk', session))
      fun result disk' => StateKept provider path root vault (disk', session) ∧
        ∀ value, result = .ok value → program.Ends disk value disk' := by
  have hvault := h vault hstate.kept
  have hsession : program.Stays (fun disk' => HeldKept provider path root session disk') disk := by
    by_cases hpath : session.paths.vaultPath = path
    · refine (h session.vault (hstate.held.kept hpath).kept).mono ?_ ?_
      · exact fun _ hd => hstate.held.of_kept fun _ => hd
      · exact fun _ _ hd => hstate.held.of_kept fun _ => hd
    · exact (Program.meets_leaves program disk).mono
        (fun _ _ => ⟨hstate.held.live, fun h => absurd h hpath⟩)
        fun _ _ _ => ⟨hstate.held.live, fun h => absurd h hpath⟩
  refine ((hvault.and hsession).and (Program.meets_leaves program disk)).mono ?_ ?_
  · exact fun _ hd => ⟨hd.1.1, hd.1.2⟩
  · rintro result disk' ⟨⟨hkept, hheld⟩, rfl, rfl⟩
    exact ⟨⟨hkept, hheld⟩, fun value hvalue => ⟨hvalue, rfl⟩⟩

/-- After-images of a session that add to what it shows leave it at what the file holds. -/
lemma meets_commitAfterImages_kept (hfiles : FilesIdentify provider)
    (hstate : StateKept provider path root vault (disk, session))
    {transactionId : Bytes} {operation : String} {expectedRatchetBytes nextRatchetBytes : Bytes}
    (after : LockedSession) (hafter : after.persistence = .live)
    (hpaths : after.paths = session.paths)
    (hroot : after.ratchet.trustedRoot = session.ratchet.trustedRoot)
    (hgrows : session.paths.vaultPath = path →
      session.vault.Grows after.vault ∧ BytesAgree provider after) :
    (commitAfterImages provider session.paths session.ratchet.trustedRoot transactionId operation
      session.vaultBytes expectedRatchetBytes after.vaultBytes nextRatchetBytes).Meets disk
        (fun disk' => StateKept provider path root vault (disk', session)) fun result disk' =>
          match result with
          | .error _ => StateKept provider path root vault (disk', session)
          | .ok _ => StateKept provider path root vault (disk', after) := by
  have hkeeps : KeepsVaults provider path root (commitAfterImages provider session.paths
      session.ratchet.trustedRoot transactionId operation session.vaultBytes expectedRatchetBytes
      after.vaultBytes nextRatchetBytes) disk := by
    refine fun vault hvault => stays_commitAfterImages_kept hfiles hvault fun hpath => ?_
    have hsession := hstate.held.kept hpath
    obtain ⟨hgrows, hagree⟩ := hgrows hpath
    refine ⟨hsession.trustedRoot, fun current next hcurrent hnext signed hsigned => ?_⟩
    rw [hsession.bytesAgree current hcurrent] at hsigned
    rw [hagree next hnext]
    exact hgrows signed hsigned
  refine (hkeeps.meets_state hstate).mono (fun _ hd => hd) fun result disk' hd => ?_
  obtain ⟨hkept, hends⟩ := hd
  cases result with
  | error e => exact hkept
  | ok done =>
    refine ⟨hkept.kept, hafter, fun hpath => ?_⟩
    rw [hpaths] at hpath
    have hsession := hstate.held.kept hpath
    obtain ⟨-, hagree⟩ := hgrows hpath
    obtain ⟨⟨stored, hdecode, -⟩, -, hfile, -⟩ := ends_commitAfterImages (hends done rfl)
    rw [hpath] at hfile
    exact .of_file hkept.kept.toVaultSound (hroot.trans hsession.trustedRoot) hfile hdecode
      (hagree stored hdecode)

lemma stays_commit_kept (hfiles : FilesIdentify provider)
    (hstate : StateKept provider path root vault (disk, session))
    {transactionId : Bytes} {change : BatchChange α} :
    (commit provider contended transactionId change.toChange).Stays
      (StateKept provider path root vault) (disk, session) := by
  refine meets_commit hstate.held.live (fun _ => hstate) ?_ ?_
  · exact fun session' _ hfresh =>
      ⟨hstate.kept, hstate.held.refreshes hstate.kept.toVaultSound hfresh⟩
  · intro session' next _ _ _ _ _ hfresh _ hproject _
    obtain ⟨hgrows, hbytes⟩ := grows_of_project hproject
    have hstate' : StateKept provider path root vault (disk, session') :=
      ⟨hstate.kept, hstate.held.refreshes hstate.kept.toVaultSound hfresh⟩
    rw [← hfresh.trustedRoot]
    refine (meets_commitAfterImages_kept hfiles hstate'
      { session'.advance next with pendingTransaction := none } hstate'.held.live rfl
      (keeps_of_project hproject).trustedRoot
      fun _ => ⟨hgrows, bytesAgree_advance session' hbytes⟩).mono (fun _ hd => hd) ?_
    intro result disk' hd
    cases result <;> exact hd

/-- What has been prepared from a session is written if the disk is still where the session was. -/
lemma stays_commitPrepared_kept (hfiles : FilesIdentify provider)
    (hstate : StateKept provider path root vault (disk, session))
    (horigin : HeldKept provider path root origin disk) (hpaths : origin.paths = session.paths)
    (hprepared : PreparedBy provider origin prepared) {transactionId : Bytes} {operation : String}
    {expectedRatchetBytes : Bytes} :
    (commitPrepared provider contended transactionId prepared operation origin.vaultBytes
      expectedRatchetBytes).Stays (StateKept provider path root vault) (disk, session) := by
  refine meets_commitPrepared (fun _ => hstate) ?_
  intro nextRatchetBytes _ hroot hexpected _ _ _ _ _
  rw [← hexpected]
  refine (meets_commitAfterImages_kept hfiles hstate { prepared with persistence := .live } rfl ?_ hroot
    fun hpath => ?_).mono (fun _ hd => hd) fun result disk' hd => ?_
  · exact hprepared.paths.trans hpaths
  · have hsession := (hstate.held.kept hpath).bytesAgree
    obtain ⟨stored, hholds, hrecords⟩ := (horigin.kept (hpaths ▸ hpath)).bytes
    have horiginAgree := (horigin.kept (hpaths ▸ hpath)).bytesAgree
    refine ⟨fun signed hsigned => ?_, hprepared.bytesAgree horiginAgree⟩
    -- the session shows what its origin showed, since their bytes are the same
    have hdecode : decodeVault provider session.vaultBytes = .ok stored := hexpected ▸ hholds.decodes
    rw [← hsession stored hdecode, hrecords] at hsigned
    exact hprepared.grows signed hsigned
  · cases result <;> exact hd

/-- Taking over raises of the ratchet leaves the vault as it is. -/
lemma stays_absorbCleanTrustRaises_kept
    (hstate : StateKept provider path root vault (disk, session)) :
    (absorbCleanTrustRaises provider contended).Stays (StateKept provider path root vault)
      (disk, session) := by
  have hremember : HeldKept provider path root session.remember disk :=
    hstate.held.of_same rfl rfl rfl rfl rfl
  apply meets_absorbCleanTrustRaises
  · exact fun _ => hstate
  · exact fun _ _ _ => ⟨hstate.kept, hremember⟩
  · exact fun _ => ⟨hstate.kept, hremember⟩
  · rintro found raised bytes stored - - - - - - hfound rfl - -
    have hheld := hstate.held.of_kept fun hkept =>
      hkept.setRatchet (found.getD (.new session.ratchet.trustedRoot)).trustedRoot bytes
    refine ⟨⟨hstate.kept, hremember⟩, hstate.kept.setRatchet _ _, ?_⟩
    refine hheld.of_same rfl rfl rfl rfl ?_
    · show (found.getD (.new session.ratchet.trustedRoot)).trustedRoot = session.ratchet.trustedRoot
      cases found with
      | none => rfl
      | some found => exact (readRatchetForRoot_eq_some.mp hfound).choose_spec.2.2.2

/-- Rewriting the ratchet leaves the vault as it is. -/
lemma stays_rewriteRatchet_kept (hstate : StateKept provider path root vault (disk, session))
    {mutate : Ratchet → Ratchet} (hmutate : ∀ ratchet, (mutate ratchet).trustedRoot =
      ratchet.trustedRoot) :
    (rewriteRatchet provider contended mutate).Stays (StateKept provider path root vault)
      (disk, session) := by
  have hrefreshed : ∀ session', Refreshes provider disk session session' →
      StateKept provider path root vault (disk, session') := fun session' hfresh =>
    ⟨hstate.kept, hstate.held.refreshes hstate.kept.toVaultSound hfresh⟩
  apply meets_rewriteRatchet
  · exact fun _ => hstate
  · exact fun session' _ hfresh => hrefreshed session' hfresh
  · intro session' found bytes hrewrites
    have hstate' := hrefreshed session' hrewrites.refreshes
    have hheld := hstate'.held.of_kept fun hkept => hkept.setRatchet
      (mutate (found.getD (.new session.ratchet.trustedRoot))).trustedRoot bytes
    refine ⟨hstate', hstate'.kept.setRatchet _ _, ?_⟩
    refine hheld.of_same rfl rfl rfl rfl ?_
    · show (mutate (found.getD (.new session.ratchet.trustedRoot))).trustedRoot =
        session'.ratchet.trustedRoot
      rw [hmutate, hrewrites.refreshes.trustedRoot]
      cases found with
      | none => rfl
      | some found => exact (readRatchetForRoot_eq_some.mp hrewrites.reads).choose_spec.2.2.2

lemma stays_reloadIfStale_kept (hstate : StateKept provider path root vault (disk, session)) :
    (reloadIfStale provider).Stays (StateKept provider path root vault) (disk, session) := by
  refine meets_reloadIfStale (fun _ => hstate) fun _ session' hfresh => ?_
  exact ⟨hstate.kept, hstate.held.refreshes hstate.kept.toVaultSound hfresh⟩

/-- A cache of verifications is written beside the vault. -/
lemma stays_writeVerificationCache_kept {session : LockedSession} {identity : Identity} :
    KeepsVaults provider path root (writeVerificationCache provider session identity) disk :=
  fun _ h => stays_liftStore (meets_writeVerificationCache_of
    (fun _ _ => ⟨h, h.setCache _ _ _⟩) fun _ => h)

lemma stays_attestVerifications_kept (hstate : StateKept provider path root vault (disk, session))
    {identity : Identity} :
    (attestVerifications provider identity).Stays (StateKept provider path root vault)
      (disk, session) := by
  have hattested : HeldKept provider path root (session.attested provider identity) disk := by
    rw [LockedSession.attested]
    split_ifs
    · exact hstate.held
    · exact hstate.held.of_same rfl rfl rfl rfl rfl
  apply meets_attestVerifications
  · exact fun _ _ => ⟨hstate.kept, hattested⟩
  · exact fun _ => ⟨hstate.kept, hattested⟩
  · intro _
    have hstate' : StateKept provider path root vault
        (disk, session.attested provider identity) := ⟨hstate.kept, hattested⟩
    refine (stays_writeVerificationCache_kept.meets_state hstate').mono (fun _ hd => hd) ?_
    intro _ disk' hd
    exact ⟨hd.1.kept, hd.1.held.of_same rfl rfl rfl rfl rfl⟩

lemma stays_withIdentity_kept (hstate : StateKept provider path root vault (disk, session))
    {identity : Identity} :
    (withIdentity provider identity).Stays (StateKept provider path root vault)
      (disk, session) := by
  refine stays_current_bind (stays_onDisk_read_bind hstate fun _ _ => ?_)
  refine Program.stays_bind (stays_attestVerifications_kept hstate) fun _ state hstate' => ?_
  refine stays_current_bind (stays_onDisk_read_bind hstate' fun _ _ => ?_)
  exact stays_onDisk (Program.stays_read hstate')

/-- A snapshot of this workspace shows what the file holds. -/
lemma heldKept_of_loadSnapshot {paths : WorkspacePaths} {root' : HashValue} {disk' : Disk}
    {recovery : RecoveryDisposition} (h : VaultSound provider path root disk)
    (h' : VaultSound provider path root disk') (hroot : loadRoot provider paths disk = .ok root')
    (hsnapshot : loadSnapshot provider paths root' recovery disk' = .ok session) :
    HeldKept provider path root session disk' := by
  simp only [loadRoot, bind_eq_ok, mapError_eq_ok, decodeVaultAt_eq_ok] at hroot
  simp only [loadSnapshot, bind_eq_ok, mapError_eq_ok, decodeVaultAt_eq_ok, Prod.exists] at hsnapshot
  obtain ⟨rootBytes, hrootBytes, rootVault, hrootDecode, hroot⟩ := hroot
  obtain ⟨vaultBytes, hbytes, vault, hdecode, ratchet, pending, hratchet, hsession⟩ := hsnapshot
  obtain rfl := Except.ok.inj hsession
  refine ⟨rfl, ?_⟩
  rintro rfl
  obtain ⟨hrootFile, -⟩ := readVaultBytes_eq_ok.mp hrootBytes
  obtain ⟨hfile, -⟩ := readVaultBytes_eq_ok.mp hbytes
  have hsame : root' = root := Except.ok.inj (hroot.symm.trans (h.holds hrootFile hrootDecode).root)
  exact .of_file h' ((trustedRoot_of_readStrongestRatchet hratchet).trans hsame) hfile hdecode
    fun _ => Iff.rfl

/-- A load leaves the vault as it is or brings it to that of a journal from there, and ends with a
session that shows what the file then holds. -/
lemma meets_load_kept {paths : WorkspacePaths} (h : VaultKept provider path root vault disk) :
    (load provider contended paths).Meets disk (VaultKept provider path root vault)
      fun result disk' => VaultKept provider path root vault disk' ∧
        ∀ session, result = .ok session → HeldKept provider path root session disk' := by
  have hquiet : ∀ (e : OpsError) disk', VaultKept provider path root vault disk' →
      VaultKept provider path root vault disk' ∧ ∀ session : LockedSession,
        Except.error e = .ok session → HeldKept provider path root session disk' :=
    fun _ _ hkept => ⟨hkept, by simp⟩
  rw [load, Program.meets_bind, Program.meets_read]
  cases hroot : loadRoot provider paths disk with
  | error e => exact hquiet e disk h
  | ok root' =>
    refine Program.meets_bind.mpr ((stays_recoverForRoot_kept h).mono (fun _ hd => hd) ?_)
    intro recovery disk₁ h₁
    cases recovery with
    | error e => exact hquiet e disk₁ h₁
    | ok recovery =>
      refine Program.meets_bind.mpr (Program.meets_read.mpr ?_)
      cases hsnapshot : loadSnapshot provider paths root' recovery disk₁ with
      | error e => exact hquiet e disk₁ h₁
      | ok session =>
        have hstate : StateKept provider path root vault (disk₁, session) :=
          ⟨h₁, heldKept_of_loadSnapshot h.toVaultSound h₁.toVaultSound hroot hsnapshot⟩
        refine Program.meets_bind.mpr (Program.meets_carry.mpr
          ((stays_absorbCleanTrustRaises_kept hstate).mono (fun _ hd => hd.kept) ?_))
        intro result state hd
        cases result with
        | error e => exact hquiet e state.1 hd.kept
        | ok _ =>
          refine Program.meets_pure.mpr ⟨hd.kept, fun session hsession => ?_⟩
          obtain rfl := Except.ok.inj hsession
          exact hd.held

end SessionSteps

/-! ### Runs -/

section Main

variable (provider : StoreProvider) (path : Path) (root : HashValue)

/-- The disk, and every session that a process holds or has held. -/
structure Workspaces where
  disk : Disk
  held : Set LockedSession

/-- What changes the disk without a session. Each program may be cut off at any durable step. A
merge outside of the program replaces the vault by one that has its records, whatever journal is
pending; everything else on disk changes freely. -/
inductive DiskStep : Disk → Disk → Prop
  | elsewhere {disk disk' : Disk} :
      disk'.vaults path = disk.vaults path →
      (∀ root', (disk'.roots root').transaction = (disk.roots root').transaction) →
      (∀ root', (disk'.roots root').joinCommit = (disk.roots root').joinCommit) →
      DiskStep disk disk'
  | merge {disk : Disk} {bytes : Bytes} {next : VaultStore} :
      HoldsVault provider root bytes next →
      (∀ before current, disk.vaults path = some before →
        decodeVault provider before = .ok current → current.Grows next) →
      DiskStep disk (disk.setVault path bytes)
  | load {disk disk' : Disk} (contended : Bool) (paths : WorkspacePaths) :
      (load provider contended paths).Leaves disk disk' → DiskStep disk disk'
  | recover {disk disk' : Disk} (paths : WorkspacePaths) (root' : HashValue) :
      (recoverLocked provider paths root').Leaves disk disk' → DiskStep disk disk'
  | abandon {disk disk' : Disk} (root' : HashValue) :
      (abandonTransaction provider root').Leaves disk disk' → DiskStep disk disk'
  | claimInvite {disk disk' : Disk} (vault : VaultStore) (root' : HashValue)
      (invitation : InvitationMaterial) :
      (claimInviteLocked provider vault root' invitation).Leaves disk disk' → DiskStep disk disk'
  | ensureRatchet {disk disk' : Disk} (vault : VaultStore) (root' : HashValue)
      (invitation : InvitationMaterial) :
      (ensureRatchetLocked provider vault root' invitation).Leaves disk disk' → DiskStep disk disk'

/-- What is done through a session, which may be stale. A prepared commit writes what was prepared
from some session of the same workspace. -/
inductive SessionStep (held : Set LockedSession) :
    Disk × LockedSession → Disk × LockedSession → Prop
  | reload {state state' : Disk × LockedSession} :
      (reloadIfStale provider).Leaves state state' → SessionStep held state state'
  | absorb {state state' : Disk × LockedSession} (contended : Bool) :
      (absorbCleanTrustRaises provider contended).Leaves state state' →
      SessionStep held state state'
  | withIdentity {state state' : Disk × LockedSession} (identity : Identity) :
      (withIdentity provider identity).Leaves state state' → SessionStep held state state'
  | commit {state state' : Disk × LockedSession} {α : Type} (contended : Bool)
      (transactionId : Bytes) (change : BatchChange α) :
      (commit provider contended transactionId change.toChange).Leaves state state' →
      SessionStep held state state'
  | commitPrepared {state state' : Disk × LockedSession} (contended : Bool) (transactionId : Bytes)
      (operation : String) {origin prepared : LockedSession} {expectedRatchetBytes : Bytes} :
      origin ∈ held → origin.paths = state.2.paths → PreparedBy provider origin prepared →
      (commitPrepared provider contended transactionId prepared operation origin.vaultBytes
        expectedRatchetBytes).Leaves state state' → SessionStep held state state'
  | rewriteRatchet {state state' : Disk × LockedSession} (contended : Bool)
      {mutate : Ratchet → Ratchet} :
      (∀ ratchet, (mutate ratchet).trustedRoot = ratchet.trustedRoot) →
      (rewriteRatchet provider contended mutate).Leaves state state' → SessionStep held state state'

/-- One step: of the disk, of a load that ends with a session, or of a session. -/
inductive VaultStep : Workspaces → Workspaces → Prop
  | disk {state : Workspaces} {disk' : Disk} :
      DiskStep provider path root state.disk disk' → VaultStep state ⟨disk', state.held⟩
  | load {state : Workspaces} {disk' : Disk} {session : LockedSession} (contended : Bool)
      (paths : WorkspacePaths) :
      (load provider contended paths).Ends state.disk session disk' →
      VaultStep state ⟨disk', insert session state.held⟩
  | session {state : Workspaces} {disk' : Disk} {session session' : LockedSession} :
      session ∈ state.held →
      SessionStep provider state.held (state.disk, session) (disk', session') →
      VaultStep state ⟨disk', insert session' state.held⟩

/-- Any sequence and interleaving of steps. -/
abbrev VaultRun : Workspaces → Workspaces → Prop :=
  Relation.ReflTransGen (VaultStep provider path root)

/-- The vault file is sound, and every session shows what is in it. -/
structure WorkspacesSound (state : Workspaces) : Prop where
  sound : VaultSound provider path root state.disk
  held : ∀ session ∈ state.held, HeldKept provider path root session state.disk

end Main

section MainLemmas

variable {provider : StoreProvider} {path : Path} {root : HashValue} {vault : VaultStore}
  {disk disk' : Disk} {state state' : Workspaces} {held : Set LockedSession}

lemma DiskStep.kept (hstep : DiskStep provider path root disk disk')
    (h : VaultKept provider path root vault disk) : VaultKept provider path root vault disk' := by
  cases hstep with
  | elsewhere hvault htransaction hjoin => exact h.of_same hvault htransaction hjoin
  | merge hholds hgrows => exact h.setVault hholds hgrows
  | load contended paths hleaves =>
    exact ((meets_load_kept h).mono (fun _ hd => hd) fun _ _ hd => hd.1).leaves hleaves
  | recover paths root' hleaves => exact (stays_recoverLocked_kept h).leaves hleaves
  | abandon root' hleaves => exact (stays_abandonTransaction_kept h).leaves hleaves
  | claimInvite vault root' invitation hleaves =>
    exact (stays_claimInviteLocked_kept h).leaves hleaves
  | ensureRatchet vault root' invitation hleaves =>
    exact (stays_ensureRatchetLocked_kept h).leaves hleaves

lemma SessionStep.kept (hfiles : FilesIdentify provider) {start last : Disk × LockedSession}
    (hstep : SessionStep provider held start last)
    (hheld : ∀ session ∈ held, HeldKept provider path root session start.1)
    (h : StateKept provider path root vault start) : StateKept provider path root vault last := by
  cases hstep with
  | reload hleaves => exact (stays_reloadIfStale_kept h).leaves hleaves
  | absorb contended hleaves => exact (stays_absorbCleanTrustRaises_kept h).leaves hleaves
  | withIdentity identity hleaves => exact (stays_withIdentity_kept h).leaves hleaves
  | commit contended transactionId change hleaves => exact (stays_commit_kept hfiles h).leaves hleaves
  | commitPrepared contended transactionId operation horigin hpaths hprepared hleaves =>
    exact (stays_commitPrepared_kept hfiles h (hheld _ horigin) hpaths hprepared).leaves hleaves
  | rewriteRatchet contended hmutate hleaves =>
    exact (stays_rewriteRatchet_kept h hmutate).leaves hleaves

/-- One step keeps every vault that the file has. -/
lemma VaultStep.kept (hfiles : FilesIdentify provider) (hstep : VaultStep provider path root state state')
    (hstate : WorkspacesSound provider path root state)
    (h : VaultKept provider path root vault state.disk) :
    VaultKept provider path root vault state'.disk := by
  cases hstep with
  | disk hstep => exact hstep.kept h
  | load contended paths hends => exact ((meets_load_kept h).ends hends).1
  | session hmem hstep => exact (hstep.kept hfiles hstate.held ⟨h, hstate.held _ hmem⟩).kept

/-- The vault that the file holds is kept. -/
lemma VaultSound.exists_kept (h : VaultSound provider path root disk) :
    ∃ vault, VaultKept provider path root vault disk := by
  obtain ⟨bytes, current, hfile, hholds⟩ := h.file
  exact ⟨current, h.kept hfile hholds.decodes⟩

lemma VaultStep.sound (hfiles : FilesIdentify provider) (hstep : VaultStep provider path root state state')
    (hstate : WorkspacesSound provider path root state) :
    WorkspacesSound provider path root state' := by
  obtain ⟨vault, hkept⟩ := hstate.sound.exists_kept
  -- the sessions that were held before are kept as any vault is
  have hbefore : ∀ session ∈ state.held, HeldKept provider path root session state'.disk :=
    fun session hmem => (hstate.held session hmem).of_kept fun h => hstep.kept hfiles hstate h
  refine ⟨(hstep.kept hfiles hstate hkept).toVaultSound, ?_⟩
  cases hstep with
  | disk hstep => exact hbefore
  | load contended paths hends =>
    rintro session (rfl | hmem)
    · exact ((meets_load_kept hkept).ends hends).2 session rfl
    · exact hbefore session hmem
  | session hmem hstep =>
    rintro session (rfl | hmem')
    · exact (hstep.kept hfiles hstate.held ⟨hkept, hstate.held _ hmem⟩).held
    · exact hbefore session hmem'

lemma VaultRun.sound (hfiles : FilesIdentify provider) (hrun : VaultRun provider path root state state')
    (hstate : WorkspacesSound provider path root state) :
    WorkspacesSound provider path root state' := by
  induction hrun with
  | refl => exact hstate
  | tail _ hstep ih => exact hstep.sound hfiles ih

lemma VaultRun.kept (hfiles : FilesIdentify provider) (hrun : VaultRun provider path root state state')
    (hstate : WorkspacesSound provider path root state)
    (h : VaultKept provider path root vault state.disk) :
    VaultKept provider path root vault state'.disk := by
  induction hrun with
  | refl => exact h
  | tail hrun hstep ih => exact hstep.kept hfiles (VaultRun.sound hfiles hrun hstate) ih

end MainLemmas

/-- In every run, of any number of processes that load, mutate, prepare, recover, abandon and are
cut off, and of merges from outside between their critical sections, the vault file stays a vault of
its root, has every record it ever had, and has every record that a session of the workspace has
shown. -/
theorem vault_neverLosesRecords {provider : StoreProvider} {path : Path} {root : HashValue}
    {start : Disk} {state state' : Workspaces} (hfiles : FilesIdentify provider)
    (hstart : VaultSound provider path root start)
    (hrun : VaultRun provider path root ⟨start, ∅⟩ state)
    (hrun' : VaultRun provider path root state state') :
    ∃ bytes current, state'.disk.vaults path = some bytes ∧
      HoldsVault provider root bytes current ∧
      (∀ before vault, state.disk.vaults path = some before →
        decodeVault provider before = .ok vault → vault.Grows current) ∧
      ∀ session ∈ state.held, session.paths.vaultPath = path → session.vault.Grows current := by
  have hsound : WorkspacesSound provider path root state :=
    VaultRun.sound hfiles hrun ⟨hstart, fun _ hmem => absurd hmem (Set.notMem_empty _)⟩
  obtain ⟨bytes, current, hfile, hholds⟩ := (VaultRun.sound hfiles hrun' hsound).sound.file
  have hgrows : ∀ vault, VaultKept provider path root vault state.disk → vault.Grows current := by
    intro vault hkept
    obtain ⟨bytes', current', hfile', hdecode, hgrows⟩ := (VaultRun.kept hfiles hrun' hsound hkept).keeps
    obtain rfl := Option.some.inj (hfile.symm.trans hfile')
    obtain rfl := Except.ok.inj (hdecode.symm.trans hholds.decodes)
    exact hgrows
  refine ⟨bytes, current, hfile, hholds, ?_, ?_⟩
  · exact fun before vault hbefore hdecode => hgrows vault (hsound.sound.kept hbefore hdecode)
  · exact fun session hmem hpath => hgrows _ ((hsound.held session hmem).kept hpath).kept

/-! ### A load -/

open TestSupport

lemma eq_position_of_tableValue {α : Type} {table : List α} {value : α} {bytes : Bytes}
    (h : tableValue table bytes = .ok value) : ∃ position, bytes = [position] := by
  unfold tableValue at h
  split at h
  · next position => exact ⟨position, rfl⟩
  · cases h

/-- A vault file of the tables is told by its position. -/
lemma filesIdentify_table (tables : Tables) : FilesIdentify (tableProvider tables) := by
  have hposition : ∀ bytes vault, decodeVault (tableProvider tables) bytes = .ok vault →
      ∃ position, bytes = vaultFile position := by
    intro bytes vault h
    unfold decodeVault at h
    split at h
    · cases h
    · next payload hpayload =>
      split_ifs at h
      split at h
      · cases h
      · next found hfound =>
        obtain ⟨position, rfl⟩ := eq_position_of_tableValue hfound
        exact ⟨position, eq_append_of_afterMagic hpayload⟩
  intro bytes bytes' vault vault' h h' hhash
  obtain ⟨position, rfl⟩ := hposition bytes vault h
  obtain ⟨position', rfl⟩ := hposition bytes' vault' h'
  have hlast : ∀ position : UInt8, (fileDigest (vaultFile position)).bytes.head? = some position := by
    intro position
    simp [fileDigest, vaultFile]
  have hsame : fileDigest (vaultFile position) = fileDigest (vaultFile position') := hhash
  exact congrArg vaultFile (Option.some.inj (by rw [← hlast, hsame, hlast]))

/-- A load where a commit of a first secret was cut off after its journal was written. -/
def firstSecretLoad : Outcome Disk OpsError LockedSession :=
  load (tableProvider firstSecretTables) false testPaths firstSecretPending

theorem vault_neverLosesRecords_load :
    VaultSound (tableProvider firstSecretTables) testPaths.vaultPath testRoot firstSecretPending ∧
      ∃ session, VaultRun (tableProvider firstSecretTables) testPaths.vaultPath testRoot
          ⟨firstSecretPending, ∅⟩ ⟨firstSecretLoad.last, insert session ∅⟩ ∧
        session.vault.records.length = 2 ∧
        ∃ bytes current, firstSecretLoad.last.vaults testPaths.vaultPath = some bytes ∧
          HoldsVault (tableProvider firstSecretTables) testRoot bytes current ∧
          session.vault.Grows current := by
  have hsound : VaultSound (tableProvider firstSecretTables) testPaths.vaultPath testRoot
      firstSecretPending := by
    refine ⟨⟨vaultFile 0, .v1 ⟨[vaultRootRecord]⟩, by decide, by decide, by decide⟩, ?_, ?_⟩
    · intro root' transaction hread _
      by_cases hroot : root' = testRoot
      · subst hroot
        have hpending : readTransaction (tableProvider firstSecretTables) testRoot
            firstSecretPending = .ok (some firstSecret) := by decide
        obtain rfl := Option.some.inj (Except.ok.inj (hread.symm.trans hpending))
        refine ⟨rfl, .v1 ⟨[vaultRootRecord, secretRecord rootUser [rootUser] 1]⟩,
          ⟨by decide, by decide⟩, ?_⟩
        intro bytes vault hdecode hbefore
        have hvault : decodeVault (tableProvider firstSecretTables) (vaultFile 0) =
            .ok (.v1 ⟨[vaultRootRecord]⟩) := by decide
        obtain rfl := filesIdentify_table firstSecretTables bytes (vaultFile 0) vault _ hdecode hvault
          (FilePreconditionV1.hash.inj hbefore).symm
        obtain rfl := Except.ok.inj (hdecode.symm.trans hvault)
        exact fun signed hsigned => List.mem_append_left [secretRecord rootUser [rootUser] 1] hsigned
      · have hnone : readTransaction (tableProvider firstSecretTables) root' firstSecretPending =
            .ok none := readTransaction_eq_none.mpr (by simp [firstSecretPending, testDisk, hroot])
        simp [hnone] at hread
    · intro root'
      by_cases hroot : root' = testRoot <;> simp [firstSecretPending, testDisk, hroot]
  have hloaded : (firstSecretLoad.result.toOption.map fun session =>
      decide (session.paths.vaultPath = testPaths.vaultPath) &&
        session.vault.records.length == 2) = some true := by decide +kernel
  cases hresult : firstSecretLoad.result with
  | error e => simp [hresult, Except.toOption] at hloaded
  | ok session =>
    obtain ⟨hpath, hlength⟩ : session.paths.vaultPath = testPaths.vaultPath ∧
        session.vault.records.length = 2 := by
      simpa [hresult, Except.toOption] using hloaded
    have hrun : VaultRun (tableProvider firstSecretTables) testPaths.vaultPath testRoot
        ⟨firstSecretPending, ∅⟩ ⟨firstSecretLoad.last, insert session ∅⟩ :=
      .single (.load false testPaths ⟨hresult, rfl⟩)
    obtain ⟨bytes, current, hfile, hholds, -, hheld⟩ := 
      vault_neverLosesRecords (filesIdentify_table _) hsound hrun .refl
    exact ⟨hsound, session, hrun, hlength, bytes, current, hfile, hholds,
      hheld session (Set.mem_insert session ∅) hpath⟩

end Thorax
