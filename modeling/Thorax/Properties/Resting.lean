import Thorax.Properties.Coherence
import Thorax.Properties.Unraced

/-!
# Disks at rest

Between operations no journal is pending, the vault file holds a vault of the root, and the ratchet
file holds a ratchet. A load, an attestation and a commit that succeed start from such a disk and
leave one, and whatever refreshes itself there gets to what the files hold.
-/

namespace Thorax

open Collections Durable

/-! ### Rest -/

section Rest

variable (provider : StoreProvider) (envelopes : Set VaultRecordV1) (paths : WorkspacePaths)
variable (root : HashValue)

/-- No journal of the root is pending, and both files can be read. -/
structure Disk.RestsAt (disk : Disk) (vaultBytes : Bytes) (vault : VaultStore) (ratchet : Ratchet) :
    Prop where
  reads : readVaultBytes paths disk = .ok vaultBytes
  decodes : decodeVault provider vaultBytes = .ok vault
  candidate : trustedRootCandidate provider.toCryptoProvider vault = .ok root
  remembers : readRatchetForRoot provider root disk = .ok (some ratchet)
  transaction : (disk.roots root).transaction = none
  joinCommit : (disk.roots root).joinCommit = none

instance (disk : Disk) (vaultBytes : Bytes) (vault : VaultStore) (ratchet : Ratchet) :
    Decidable (disk.RestsAt provider paths root vaultBytes vault ratchet) :=
  decidable_of_iff (readVaultBytes paths disk = .ok vaultBytes ∧
      decodeVault provider vaultBytes = .ok vault ∧
      trustedRootCandidate provider.toCryptoProvider vault = .ok root ∧
      readRatchetForRoot provider root disk = .ok (some ratchet) ∧
      (disk.roots root).transaction = none ∧ (disk.roots root).joinCommit = none)
    ⟨fun ⟨hreads, hdecodes, hcandidate, hremembers, htransaction, hjoin⟩ =>
        ⟨hreads, hdecodes, hcandidate, hremembers, htransaction, hjoin⟩,
      fun h => ⟨h.reads, h.decodes, h.candidate, h.remembers, h.transaction, h.joinCommit⟩⟩

/-- A session that works on the files of a workspace, and has the vault of the bytes it read. -/
structure LockedSession.WorksAt (session : LockedSession) : Prop where
  settled : session.Settled provider envelopes
  live : session.persistence = .live
  paths : session.paths = paths
  trustedRoot : session.ratchet.trustedRoot = root
  faithful : ∃ vault, decodeVault provider session.vaultBytes = .ok vault ∧
    ∀ signed, signed ∈ vault.records ↔ signed ∈ session.vault.records

variable {provider envelopes paths root} {disk disk' : Disk} {vaultBytes : Bytes}
variable {vault : VaultStore} {ratchet : Ratchet} {session session' : LockedSession}

lemma Disk.RestsAt.strongest (h : disk.RestsAt provider paths root vaultBytes vault ratchet) :
    readStrongestRatchet provider paths root disk = .ok (ratchet, none) :=
  readStrongestRatchet_eq_ok.mpr (readStrongestRatchetOptionalWithPending_eq_ok.mpr
    ⟨some ratchet, h.remembers, Or.inl ⟨readTransaction_eq_none.mpr h.transaction, rfl, rfl⟩⟩)

lemma Disk.RestsAt.trustedRoot (h : disk.RestsAt provider paths root vaultBytes vault ratchet) :
    ratchet.trustedRoot = root :=
  trustedRoot_of_readStrongestRatchet h.strongest

/-- The ratchet of a file has no counter at the vault root. -/
lemma Disk.RestsAt.vaultRoot (h : disk.RestsAt provider paths root vaultBytes vault ratchet) :
    ratchet.watermarks[RecordKey.vaultRoot]? = none :=
  vaultRoot_of_readStrongestRatchet h.strongest

lemma Disk.RestsAt.unique {vaultBytes' : Bytes} {vault' : VaultStore} {ratchet' : Ratchet}
    (h : disk.RestsAt provider paths root vaultBytes vault ratchet)
    (h' : disk.RestsAt provider paths root vaultBytes' vault' ratchet') :
    vaultBytes = vaultBytes' ∧ vault = vault' ∧ ratchet = ratchet' := by
  obtain rfl := Except.ok.inj (h.reads.symm.trans h'.reads)
  exact ⟨rfl, Except.ok.inj (h.decodes.symm.trans h'.decodes),
    Option.some.inj (Except.ok.inj (h.remembers.symm.trans h'.remembers))⟩

lemma Disk.RestsAt.within (h : disk.RestsAt provider paths root vaultBytes vault ratchet)
    (hdisk : disk.Within envelopes provider) : vault.Within envelopes :=
  hdisk _ _ _ (readVaultBytes_eq_ok.mp h.reads).1 h.decodes

/-- A session that refreshes itself gets to what the files hold. -/
lemma Disk.RestsAt.refreshed (h : disk.RestsAt provider paths root vaultBytes vault ratchet)
    (hidentify : HashesIdentify provider.toCryptoProvider envelopes)
    (hdisk : disk.Within envelopes provider)
    (hsession : session.WorksAt provider envelopes paths root)
    (hrefreshes : Refreshes provider disk session session') :
    session'.WorksAt provider envelopes paths root ∧ session'.ratchet = ratchet ∧
      ∀ signed, signed ∈ vault.records ↔ signed ∈ session'.vault.records := by
  have hsettled := hrefreshes.settled hidentify hdisk hsession.settled
  obtain ⟨-, hlive, rfl, rfl, hfaithful⟩ := hsession
  cases hrefreshes with
  | same hbytes hratchet =>
    obtain ⟨rfl, -⟩ := Prod.ext_iff.mp (Except.ok.inj (hratchet.symm.trans h.strongest))
    obtain ⟨read, hread, hsame⟩ := hfaithful
    rw [Except.ok.inj (hbytes.symm.trans h.reads)] at hread
    obtain rfl := Except.ok.inj (hread.symm.trans h.decodes)
    refine ⟨⟨hsettled, hlive, rfl, rfl, read, ?_, hsame⟩, rfl, hsame⟩
    rw [Except.ok.inj (hbytes.symm.trans h.reads)]
    exact h.decodes
  | reload hbytes hvault hroot hratchet hstale =>
    obtain ⟨rfl, -⟩ := Prod.ext_iff.mp (Except.ok.inj (hratchet.symm.trans h.strongest))
    obtain rfl := Except.ok.inj (hbytes.symm.trans h.reads)
    obtain rfl := Except.ok.inj (hvault.symm.trans h.decodes)
    exact ⟨⟨hsettled, hlive, rfl, h.trustedRoot, _, hvault, fun _ => Iff.rfl⟩, rfl, fun _ => Iff.rfl⟩

/-! ### Commits -/

variable {α : Type} {contended : Bool} {transactionId : Bytes} {change : Change α} {output : α}
variable {state : Disk × LockedSession}

/-- A commit that succeeds leaves the disk at rest with the projection of what was there. -/
lemma Disk.RestsAt.commits (h : disk.RestsAt provider paths root vaultBytes vault ratchet)
    (hidentify : HashesIdentify provider.toCryptoProvider envelopes)
    (hdisk : disk.Within envelopes provider) (hcaches : CachesGenuine provider envelopes disk)
    (hsession : session.WorksAt provider envelopes paths root)
    (hends : (commit provider contended transactionId change).Ends (disk, session) output state)
    (hdisk' : state.1.Within envelopes provider) :
    CachesGenuine provider envelopes state.1 ∧ state.2.WorksAt provider envelopes paths root ∧
    ∃ session' next written stored, Refreshes provider disk session session' ∧
      project provider session' change = .ok next ∧ next.output = output ∧
      state.1.RestsAt provider paths root next.vaultBytes written stored ∧
      (∀ signed, signed ∈ written.records ↔ signed ∈ next.vault.records) ∧
      next.ratchet.StoredAs stored ∧ state.2.report = next.report := by
  obtain ⟨session', next, expectedRatchetBytes, nextRatchetBytes, hfresh, -, hproject, houtput, hnext,
    himages, hstate⟩ := ends_commit hsession.live hends
  obtain ⟨hworks, -, -⟩ := h.refreshed hidentify hdisk hsession hfresh
  rw [hsession.trustedRoot, hworks.paths] at himages
  obtain ⟨⟨written, hwritten, hroot⟩, ⟨stored, hstored, hstoredRoot⟩, hvault, hvaultLength, hratchet,
    hratchetLength, htransaction⟩ := ends_commitAfterImages himages
  have hjoin : (state.1.roots root).joinCommit = none := by
    have hsurvives : SurvivesCommits paths root fun disk => (disk.roots root).joinCommit = none :=
      ⟨fun _ _ hnone => hnone, fun _ _ hnone => by simpa using hnone,
        fun _ _ hnone => by simpa using hnone⟩
    exact (hsurvives.stays_commitAfterImages h.joinCommit).ends himages
  have hrests : state.1.RestsAt provider paths root next.vaultBytes written stored :=
    ⟨readVaultBytes_eq_ok.mpr ⟨hvault, hvaultLength⟩, hwritten, hroot,
      readRatchetForRoot_eq_some.mpr ⟨_, hratchet, hratchetLength, hstored, hstoredRoot⟩,
      htransaction, hjoin⟩
  have hsame : ∀ signed, signed ∈ written.records ↔ signed ∈ next.vault.records := by
    obtain ⟨-, _, _, -, rfl, -, -, -, -, hencoded, -⟩ := project_eq_ok.mp hproject
    obtain ⟨-, read, hread, -, hsame⟩ := decodeVault_encodeVault hencoded
    obtain rfl := Except.ok.inj (hread.symm.trans hwritten)
    exact hsame
  have hstoredAs : next.ratchet.StoredAs stored := by
    obtain ⟨read, hread, hstoredAs⟩ := storedAs_of_encodeRatchet (.ratchet root) hnext
    obtain rfl := Except.ok.inj (hread.symm.trans hstored)
    exact hstoredAs
  have hwithin : next.vault.Within envelopes := fun signed hsigned =>
    hrests.within hdisk' signed ((hsame signed).mpr hsigned)
  have hsettled := hworks.settled.advance_within hidentify hproject hwithin
  have hkeeps := keeps_of_project hproject
  refine ⟨((survivesCommits_cachesGenuine _ _).stays_commitAfterImages hcaches).ends himages, ?_,
    session', next, written, stored, hfresh, hproject, houtput, hrests, hsame, hstoredAs, ?_⟩
  · rw [hstate]
    exact ⟨⟨⟨hsettled.grounded.within, hsettled.grounded.direct⟩, hsettled.coherent⟩, hworks.live,
      hworks.paths, hkeeps.trustedRoot.trans hworks.trustedRoot, written, hwritten, hsame⟩
  · rw [hstate]
    rfl

/-! ### Loads -/

/-- Without a journal there is nothing to recover. -/
lemma ends_recoverForRoot (hnone : (disk.roots root).transaction = none)
    (hjoin : (disk.roots root).joinCommit = none) {disposition : RecoveryDisposition}
    (h : (recoverForRoot provider paths root).Ends disk disposition disk') :
    disposition = .none ∧ disk' = disk := by
  have hread : readTransaction provider root disk = .ok none := readTransaction_eq_none.mpr hnone
  have hlegacy : readJoinCommit provider root disk = .ok none := by
    simp [readJoinCommit, hjoin, readOptionalFile, readFileBounded, bind, Except.bind]
  have hcheck : recoveryCheck provider paths root disk = .ok .none := by
    simp [recoveryCheck, hread, bind, Except.bind]
  simp only [recoverForRoot, recoverTransactionIfOrigin, recoverJoinCommit, Program.ends_bind,
    ends_readStore, Program.ends_ensure, Program.ends_read] at h
  obtain ⟨_, _, ⟨-, rfl⟩, _, _, ⟨-, rfl⟩, _, _, ⟨-, rfl⟩, found, _, ⟨checked, _, ⟨hchecked, rfl⟩, h⟩,
    h'⟩ := h
  obtain rfl := Except.ok.inj (hcheck.symm.trans hchecked)
  obtain ⟨rfl, rfl⟩ := Program.ends_pure.mp h
  simp only [Program.ends_bind, Program.ends_read] at h'
  obtain ⟨recovered, _, ⟨journal, _, ⟨hjournal, rfl⟩, h⟩, h'⟩ := h'
  obtain rfl := Except.ok.inj (hlegacy.symm.trans hjournal)
  obtain ⟨rfl, rfl⟩ := Program.ends_pure.mp h
  obtain ⟨rfl, rfl⟩ := Program.ends_pure.mp h'
  exact ⟨rfl, rfl⟩

/-- What a load has in hand after its validation. -/
lemma Disk.RestsAt.snapshot (h : disk.RestsAt provider paths root vaultBytes vault ratchet)
    {recovery : RecoveryDisposition}
    (hread : loadSnapshot provider paths root recovery disk = .ok session) :
    session.vault = vault ∧ session.vaultBytes = vaultBytes ∧ session.ratchet = ratchet ∧
      session.paths = paths ∧ session.persistence = .live := by
  simp only [loadSnapshot, h.reads, mapError_ok, decodeVaultAt_eq_ok.mpr h.decodes, h.strongest, bind,
    Except.bind, Except.ok.injEq] at hread
  subst hread
  exact ⟨rfl, rfl, rfl, rfl, rfl⟩

/-- The session and the disk after a load: the same vault, under a ratchet that has at most learned
what the vault shows. -/
structure Loaded (provider : StoreProvider) (envelopes : Set VaultRecordV1) (paths : WorkspacePaths)
    (root : HashValue) (vaultBytes : Bytes) (vault : VaultStore) (ratchet : Ratchet)
    (state : Disk × LockedSession) : Prop where
  works : state.2.WorksAt provider envelopes paths root
  caches : CachesGenuine provider envelopes state.1
  rests : ∃ stored, state.1.RestsAt provider paths root vaultBytes vault stored ∧
    (stored = ratchet ∨ (ratchet.applyUpdate (validateVault provider.toCryptoProvider vault
      ratchet).ratchetUpdate).StoredAs stored)

/-- Remembering what a load has raised leaves the disk at rest. -/
lemma Disk.RestsAt.remembers_raises
    (h : disk.RestsAt provider paths root vaultBytes vault ratchet)
    (hidentify : HashesIdentify provider.toCryptoProvider envelopes)
    (hdisk : disk.Within envelopes provider) (hcaches : CachesGenuine provider envelopes disk)
    {recovery : RecoveryDisposition}
    (hread : loadSnapshot provider paths root recovery disk = .ok session) :
    (absorbCleanTrustRaises provider contended).Meets (disk, session) (fun _ => True)
      fun result state => result = .ok () →
        Loaded provider envelopes paths root vaultBytes vault ratchet state := by
  obtain ⟨hwithin, hreport⟩ := report_of_loadSnapshot hidentify hdisk hcaches hread
  obtain ⟨rfl, rfl, rfl, rfl, hlive⟩ := h.snapshot hread
  have hraised : SameVerdict session.report (validateVault provider.toCryptoProvider session.vault
      (session.ratchet.applyUpdate session.report.ratchetUpdate)) := by
    rw [hreport]
    exact (sameVerdict_applyUpdate _ _ _ _).symm
  have hworks : ∀ ratchet : Ratchet, ratchet.trustedRoot = root →
      SameVerdict session.report (validateVault provider.toCryptoProvider session.vault ratchet) →
      LockedSession.WorksAt provider envelopes session.paths root
        { session with ratchet := ratchet } :=
    fun ratchet hroot hverdict => ⟨⟨⟨hwithin, _, hreport⟩, hverdict⟩, hlive, rfl, hroot,
      session.vault, h.decodes, fun _ => Iff.rfl⟩
  refine meets_absorbCleanTrustRaises (fun _ _ => ?_) (fun _ _ _ _ => ?_) (by simp) ?_
  · exact ⟨hworks session.ratchet h.trustedRoot (hreport ▸ .refl _), hcaches, _, h, Or.inl rfl⟩
  · exact ⟨hworks _ h.trustedRoot hraised, hcaches, _, h, Or.inl rfl⟩
  · rintro found raised bytes stored - - - - - - hfound rfl hholds hstored
    obtain rfl := Except.ok.inj (h.remembers.symm.trans (h.trustedRoot ▸ hfound))
    have hroot : (session.ratchet.applyUpdate session.report.ratchetUpdate).trustedRoot = root :=
      h.trustedRoot
    rw [Option.getD_some] at hholds hstored ⊢
    rw [hroot] at hholds ⊢
    refine ⟨trivial, fun _ => ⟨hworks _ hroot hraised, hcaches.setRatchet _ _, stored, ?_,
      Or.inr (hreport ▸ hstored)⟩⟩
    exact ⟨h.reads, h.decodes, h.candidate, readRatchetForRoot_eq_some.mpr ⟨bytes, by simp, hholds⟩,
      by simpa using h.transaction, by simpa using h.joinCommit⟩

/-- A load that succeeds leaves the disk at rest. -/
lemma Disk.RestsAt.loads (h : disk.RestsAt provider paths root vaultBytes vault ratchet)
    (hidentify : HashesIdentify provider.toCryptoProvider envelopes)
    (hdisk : disk.Within envelopes provider) (hcaches : CachesGenuine provider envelopes disk)
    (hends : (load provider contended paths).Ends disk session disk') :
    Loaded provider envelopes paths root vaultBytes vault ratchet (disk', session) := by
  have hroot : loadRoot provider paths disk = .ok root := by
    simp [loadRoot, h.reads, decodeVaultAt_eq_ok.mpr h.decodes, h.candidate, bind, Except.bind]
  simp only [load, Program.ends_bind, Program.ends_read] at hends
  obtain ⟨found, _, ⟨hfound, rfl⟩, recovery, _, hrecovery, read, _, ⟨hread, rfl⟩, ⟨_, last⟩, _,
    habsorb, hlast⟩ := hends
  obtain rfl := Except.ok.inj (hroot.symm.trans hfound)
  obtain ⟨rfl, rfl⟩ := ends_recoverForRoot h.transaction h.joinCommit hrecovery
  obtain ⟨rfl, rfl⟩ := Program.ends_pure.mp hlast
  exact (h.remembers_raises hidentify hdisk hcaches hread).ends (Program.ends_carry.mp habsorb) rfl

/-! ### Attestations -/

/-- Two disks that differ in caches and selected users at most. -/
structure Disk.SameFiles (disk disk' : Disk) : Prop where
  vaults : disk'.vaults = disk.vaults
  ratchet : ∀ root, (disk'.roots root).ratchet = (disk.roots root).ratchet
  transaction : ∀ root, (disk'.roots root).transaction = (disk.roots root).transaction
  joinCommit : ∀ root, (disk'.roots root).joinCommit = (disk.roots root).joinCommit

lemma Disk.SameFiles.refl (disk : Disk) : disk.SameFiles disk :=
  ⟨rfl, fun _ => rfl, fun _ => rfl, fun _ => rfl⟩

lemma Disk.sameFiles_setCache (disk : Disk) (root : HashValue) (user : UserId) (bytes : Bytes) :
    disk.SameFiles (disk.setCache root user bytes) := by
  refine ⟨rfl, fun other => ?_, fun other => ?_, fun other => ?_⟩ <;>
    by_cases hroot : other = root
  all_goals first
    | subst hroot; simp
    | rw [Disk.setCache, Disk.roots_modifyRoot_of_ne hroot]

lemma Disk.RestsAt.sameFiles (h : disk.RestsAt provider paths root vaultBytes vault ratchet)
    (hsame : disk.SameFiles disk') :
    disk'.RestsAt provider paths root vaultBytes vault ratchet := by
  refine ⟨?_, h.decodes, h.candidate, ?_, ?_, ?_⟩
  · rw [readVaultBytes, hsame.vaults]
    exact h.reads
  · rw [readRatchetForRoot, hsame.ratchet]
    exact h.remembers
  · rw [hsame.transaction, h.transaction]
  · rw [hsame.joinCommit, h.joinCommit]

lemma Disk.Within.sameFiles (h : disk.Within envelopes provider) (hsame : disk.SameFiles disk') :
    disk'.Within envelopes provider := by
  rw [Disk.Within, hsame.vaults]
  exact h

lemma LockedSession.WorksAt.attested (h : session.WorksAt provider envelopes paths root)
    (identity : Identity) :
    (session.attested provider identity).WorksAt provider envelopes paths root := by
  have hsettled := h.settled.attested identity
  unfold LockedSession.attested at hsettled ⊢
  split_ifs at hsettled ⊢
  · exact h
  · exact ⟨hsettled, h.live, h.paths, h.trustedRoot, h.faithful⟩

/-- A session at work, on a disk whose files are those of another. -/
structure Unlocking (provider : StoreProvider) (envelopes : Set VaultRecordV1)
    (paths : WorkspacePaths) (root : HashValue) (disk : Disk) (state : Disk × LockedSession) :
    Prop where
  works : state.2.WorksAt provider envelopes paths root
  caches : CachesGenuine provider envelopes state.1
  files : disk.SameFiles state.1

/-- An attestation changes no file but a cache. -/
lemma stays_attestVerifications (h : session.WorksAt provider envelopes paths root)
    (hcaches : CachesGenuine provider envelopes disk) (identity : Identity) :
    (attestVerifications provider identity).Stays
      (Unlocking provider envelopes paths root disk) (disk, session) := by
  have hattested := h.attested identity
  have hdirect : LockedSession.WorksAt provider envelopes paths root
      { session.attested provider identity with verifications := .direct } :=
    ⟨⟨⟨hattested.settled.grounded.within, hattested.settled.grounded.direct⟩,
      hattested.settled.coherent⟩, hattested.live, hattested.paths, hattested.trustedRoot,
      hattested.faithful⟩
  refine meets_attestVerifications (fun _ _ => ⟨hattested, hcaches, .refl disk⟩)
    (fun _ => ⟨hattested, hcaches, .refl disk⟩) fun _ => ?_
  refine meets_liftStore.mpr (meets_writeVerificationCache_of (fun bytes hread => ?_) fun _ => ?_)
  · exact ⟨⟨hattested, hcaches, .refl disk⟩, hdirect,
      hcaches.setCache hattested.settled.grounded.genuineHashes hread,
      disk.sameFiles_setCache _ _ _⟩
  · exact ⟨hdirect, hcaches, .refl disk⟩

/-- Binding an identity does not either, whether it succeeds or not. -/
lemma stays_withIdentity (h : session.WorksAt provider envelopes paths root)
    (hcaches : CachesGenuine provider envelopes disk) (identity : Identity) :
    (withIdentity provider identity).Stays
      (Unlocking provider envelopes paths root disk) (disk, session) := by
  have hstart : Unlocking provider envelopes paths root disk (disk, session) :=
    ⟨h, hcaches, .refl disk⟩
  have hcheck : ∀ {state : Disk × LockedSession} {result : Except OpsError Unit},
      Unlocking provider envelopes paths root disk state →
        (onDisk (check result)).Stays (Unlocking provider envelopes paths root disk) state :=
    fun hstate => stays_onDisk (Program.stays_read hstate)
  rw [withIdentity]
  refine stays_current_bind (Program.stays_bind_of
    (fun _ state => state = (disk, session)) ?_ (fun _ _ heq => heq ▸ hstart) fun _ _ heq => ?_)
  · exact ⟨fun _ hmem => absurd hmem List.not_mem_nil, rfl⟩
  · subst heq
    refine Program.stays_bind (stays_attestVerifications h hcaches identity) fun _ state hstate => ?_
    exact stays_current_bind (Program.stays_bind (hcheck hstate) fun _ _ => hcheck)

/-! ### Refusals -/

/-- A commit that fails leaves the session as it was, or refreshed. -/
lemma session_of_commit_error {e : OpsError} (hlive : session.persistence = .live)
    (h : (commit provider contended transactionId change (disk, session)).result = .error e) :
    (commit provider contended transactionId change (disk, session)).last.2 = session ∨
      Refreshes provider disk session
        (commit provider contended transactionId change (disk, session)).last.2 := by
  have hmeets : (commit provider contended transactionId change).Meets (disk, session)
      (fun _ => True) fun result state => ∀ e, result = .error e →
        state.2 = session ∨ Refreshes provider disk session state.2 := by
    refine meets_commit hlive (fun _ _ _ => Or.inl rfl) (fun _ _ hfresh _ _ => Or.inr hfresh) ?_
    intro session' next _ _ _ _ _ hfresh _ _ _
    refine (Program.meets_leaves _ _).mono (by simp) fun result disk' _ => ?_
    cases result with
    | error e => exact fun _ _ => Or.inr hfresh
    | ok done => simp
  exact hmeets.result e h

end Rest

end Thorax
