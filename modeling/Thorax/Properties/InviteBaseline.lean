import Thorax.Ops.Invite
import Thorax.Resolution.Report
import Thorax.TestStore

/-!
# The baseline of an invitation

What the facts in an invitation protect. On a machine without a ratchet for the root the vault must
reach them, and they are remembered. On a machine that has one, they are not looked at: a claim
holds the vault against the ratchet of the machine instead, and establishing trust does nothing. So
there they are in force only where the vault shows what they remember beyond that ratchet.
-/

namespace Thorax

open Collections Durable

/-! ### Enforcing a ratchet -/

/-- A vault shows what a ratchet remembers: the admitted counter at every remembered key is no
smaller, and neither is the format version. -/
structure VaultStore.Reaches (crypto : CryptoProvider) (vault : VaultStore) (ratchet : Ratchet) :
    Prop where
  counters : ∀ (key : RecordKey) (remembered : ℕ), ratchet.watermarks[key]? = some remembered →
    remembered ≤ (admittedCounters crypto vault (.new ratchet.trustedRoot))[key]?.getD 0
  formatVersion : ratchet.formatVersion ≤ vault.formatVersion

/-- The vault shows what a ratchet remembers, and what is stored keeps it. -/
structure Enforces (provider : StoreProvider) (vault : VaultStore) (ratchet : Ratchet)
    (disk : Disk) : Prop where
  vault : vault.Reaches provider.toCryptoProvider ratchet
  stored : ∃ stored, readRatchetForRoot provider ratchet.trustedRoot disk = .ok (some stored) ∧
    ratchet.Keeps stored

/-- Wherever a baseline remembers more than a ratchet, the vault shows what the baseline remembers. -/
structure VaultStore.CoversExcess (crypto : CryptoProvider) (vault : VaultStore)
    (ratchet baseline : Ratchet) : Prop where
  counters : ∀ (key : RecordKey) (remembered : ℕ), baseline.watermarks[key]? = some remembered →
    ratchet.watermarks[key]?.getD 0 < remembered →
      remembered ≤ (admittedCounters crypto vault (.new baseline.trustedRoot))[key]?.getD 0
  formatVersion : ratchet.formatVersion < baseline.formatVersion →
    baseline.formatVersion ≤ vault.formatVersion

/-- What is stored for a root is at every key no smaller than what the vault shows. -/
def StoresAdmitted (provider : StoreProvider) (vault : VaultStore) (root : HashValue) (disk : Disk) :
    Prop :=
  ∃ stored, readRatchetForRoot provider root disk = .ok (some stored) ∧
    ∀ key ≠ RecordKey.vaultRoot,
      (admittedCounters provider.toCryptoProvider vault (.new root))[key]?.getD 0 ≤
        stored.watermarks[key]?.getD 0

section Enforcement

variable {provider : StoreProvider} {crypto : CryptoProvider} {vault : VaultStore}
  {ratchet : Ratchet}

/-- Where the vault shows what one ratchet remembers, it shows another one exactly if it covers what
that one remembers beyond the first. -/
lemma VaultStore.Reaches.covers_iff {baseline : Ratchet} (h : vault.Reaches crypto ratchet)
    (hroot : ratchet.trustedRoot = baseline.trustedRoot) :
    vault.Reaches crypto baseline ↔ vault.CoversExcess crypto ratchet baseline := by
  constructor
  · intro hbaseline
    exact ⟨fun key remembered hkey _ => hbaseline.counters key remembered hkey,
      fun _ => hbaseline.formatVersion⟩
  · intro hcovers
    refine ⟨fun key remembered hkey => ?_, ?_⟩
    · rcases Nat.lt_or_ge (ratchet.watermarks[key]?.getD 0) remembered with hlt | hge
      · exact hcovers.counters key remembered hkey hlt
      · cases hlocal : ratchet.watermarks[key]? with
        | none =>
          rw [hlocal, Option.getD_none] at hge
          omega
        | some counter =>
          rw [hlocal, Option.getD_some] at hge
          rw [← hroot]
          exact hge.trans (h.counters key counter hlocal)
    · rcases Nat.lt_or_ge ratchet.formatVersion baseline.formatVersion with hlt | hge
      · exact hcovers.formatVersion hlt
      · exact hge.trans h.formatVersion

lemma hasSuspectedRollback_eq_false {report : ValidationReport} :
    hasSuspectedRollback report = false ↔ ∀ key, ¬ report.effective.RollbackAt key := by
  simp only [hasSuspectedRollback, List.any_eq_false, mem_values, EffectiveState.RollbackAt]
  constructor
  · rintro h key ⟨conflict, remembered, hconflict, hkind⟩
    exact h conflict ⟨key, hconflict⟩ (by rw [hkind])
  · rintro h conflict ⟨key, hconflict⟩ hrollback
    cases hkind : conflict.kind with
    | tie => simp [hkind] at hrollback
    | rollback remembered => exact h key ⟨conflict, remembered, hconflict, hkind⟩

lemma resolvedRecords_new {resolved : SelectedRoot × List VerifiedRecord}
    (h : resolvedRecords crypto vault ratchet = some resolved) :
    resolvedRecords crypto vault (.new ratchet.trustedRoot) = some resolved := by
  have hversion := (resolvedRecords_eq_some.mp h).1
  rw [← h]
  exact resolvedRecords_congr rfl (by simp [Ratchet.new, hversion])

/-- A vault that validates without an issue or a rollback reaches the ratchet. -/
lemma reaches_of_validateVault (hissues : (validateVault crypto vault ratchet).issues = [])
    (hrollback : ∀ key, ¬ (validateVault crypto vault ratchet).effective.RollbackAt key) :
    vault.Reaches crypto ratchet := by
  cases hresolved : resolvedRecords crypto vault ratchet with
  | none => exact absurd hissues (validateVault_of_unresolved hresolved).2.2
  | some resolved =>
    obtain ⟨root, records⟩ := resolved
    refine ⟨fun key remembered hremembered => ?_,
      not_lt.mp (resolvedRecords_eq_some.mp hresolved).1⟩
    rw [admittedCounters_of_resolved (resolvedRecords_new hresolved)]
    have hkey := hrollback key
    rw [(validateVault_of_resolved hresolved).1, rollbackAt_resolveRecords, mem_rollbackKeys,
      hremembered] at hkey
    exact not_lt.mp hkey

/-- What a vault shows without an issue, the update of the ratchet remembers. -/
lemma admitted_le_applyUpdate (hissues : (validateVault crypto vault ratchet).issues = [])
    (key : RecordKey) :
    (admittedCounters crypto vault (.new ratchet.trustedRoot))[key]?.getD 0 ≤
      (ratchet.applyUpdate (validateVault crypto vault ratchet).ratchetUpdate).watermarks[
        key]?.getD 0 := by
  cases hresolved : resolvedRecords crypto vault ratchet with
  | none => exact absurd hissues (validateVault_of_unresolved hresolved).2.2
  | some resolved =>
    obtain ⟨root, records⟩ := resolved
    rw [watermarks_applyUpdate hresolved, admittedCounters_of_resolved (resolvedRecords_new hresolved)]
    exact le_max_right _ _

end Enforcement

/-! ### Claims -/

section Claims

variable {provider : StoreProvider} {vault : VaultStore} {ratchet : Ratchet} {userId : UserId}
  {root : HashValue} {invitation : InvitationMaterial} {baseline : List RatchetRecordV1}
  {disk : Disk}

/-- A ratchet has in its file, at every key but that of the root, what it remembers. -/
lemma getElem?_storedAs {stored : Ratchet} (h : ratchet.StoredAs stored) {key : RecordKey}
    (hkey : key ≠ .vaultRoot) : stored.watermarks[key]? = ratchet.watermarks[key]? := by
  have hcounters := congrFun (congrArg Prod.fst h.memory) key
  simp only [Ratchet.memory, Ratchet.storedMemory, countersOf] at hcounters
  cases hstored : stored.watermarks[key]? <;> cases hratchet : ratchet.watermarks[key]? <;>
    simp_all

/-- What establishes a ratchet enforces it, and remembers what the vault shows. -/
lemma meets_establishRatchet (hroot : ratchet.watermarks[RecordKey.vaultRoot]? = none) :
    (establishRatchet provider vault ratchet userId).Meets disk (fun _ => True)
      fun result disk' => ∀ report, result = .ok report →
        Enforces provider vault ratchet disk' ∧
          StoresAdmitted provider vault ratchet.trustedRoot disk' := by
  simp only [establishRatchet, Program.meets_bind, Program.meets_ensure, meets_check]
  cases hsuspected : hasSuspectedRollback
      (validateVault provider.toCryptoProvider vault ratchet) with
  | true => simp
  | false =>
    simp only [Bool.not_false, if_true]
    cases hissues : ensureNoIssues (validateVault provider.toCryptoProvider vault ratchet) with
    | error e => simp
    | ok done =>
      have hclean := ensureNoIssues_eq_ok.mp hissues
      have hreaches : vault.Reaches provider.toCryptoProvider ratchet :=
        reaches_of_validateVault hclean (hasSuspectedRollback_eq_false.mp hsuspected)
      simp only
      split_ifs with hmember
      · refine meets_liftStore.mpr (meets_writeRatchet_of ?_ ?_)
        · intro bytes stored hholds hstored
          have hread : readRatchetForRoot provider ratchet.trustedRoot
              (disk.setRatchet ratchet.trustedRoot bytes) = .ok (some stored) :=
            readRatchetForRoot_eq_some.mpr ⟨bytes, by simp, hholds⟩
          refine ⟨trivial, Program.meets_pure.mpr fun _ _ => ⟨⟨hreaches, stored, hread, ?_⟩,
            stored, hread, fun key hkey => ?_⟩⟩
          · exact hstored.keeps_from hroot (Ratchet.keeps_applyUpdate ratchet _)
          · rw [getElem?_storedAs hstored hkey]
            exact admitted_le_applyUpdate hclean key
        · simp
      · simp

/-- A claim enforces the ratchet of the machine, or the baseline if there is none. -/
lemma meets_claimInviteLocked (hbaseline : invitation.rollbackBaseline = some baseline) :
    (claimInviteLocked provider vault root invitation).Meets disk (fun _ => True)
      fun result disk' => ∀ report, result = .ok report →
        ∃ existing, readRatchetForRoot provider root disk = .ok existing ∧
          Enforces provider vault (existing.getD (seedRatchetFromBaseline root baseline)) disk' ∧
          StoresAdmitted provider vault root disk' := by
  simp only [claimInviteLocked, Program.meets_bind]
  refine meets_ensureNoPendingTransaction (by simp) fun _ _ => ?_
  simp only [meets_readStore]
  cases hexisting : readRatchetForRoot provider root disk with
  | error e => simp
  | ok existing =>
    have hscope : (existing.getD (seedRatchetFromBaseline root baseline)).watermarks[
        RecordKey.vaultRoot]? = none ∧
        (existing.getD (seedRatchetFromBaseline root baseline)).trustedRoot = root := by
      cases existing with
      | none => exact ⟨vaultRoot_seedRatchet, trustedRoot_seedRatchet⟩
      | some existing =>
        obtain ⟨_, _, _, hdecode, hroot⟩ := readRatchetForRoot_eq_some.mp hexisting
        exact ⟨vaultRoot_of_decodeRatchet hdecode, hroot⟩
    simp only [mapError_ok, hbaseline, seedRatchetFromOptionalBaseline]
    refine (meets_establishRatchet hscope.1).mono (fun _ h => h)
      fun result disk' h report hreport => ?_
    obtain ⟨henforces, hremembers⟩ := h report hreport
    rw [hscope.2] at hremembers
    exact ⟨existing, rfl, henforces, hremembers⟩

/-- Establishing trust enforces the baseline where there is no ratchet, and does nothing where
there is one. -/
lemma meets_ensureRatchetLocked (hbaseline : invitation.rollbackBaseline = some baseline) :
    (ensureRatchetLocked provider vault root invitation).Meets disk (fun _ => True)
      fun result disk' => result = .ok () →
        ∃ existing, readRatchetForRoot provider root disk = .ok existing ∧
          (existing = none → Enforces provider vault (seedRatchetFromBaseline root baseline) disk') ∧
          (existing ≠ none → disk' = disk) := by
  simp only [ensureRatchetLocked, Program.meets_bind]
  refine meets_ensureNoPendingTransaction (by simp) fun _ _ => ?_
  simp only [meets_readStore]
  cases hexisting : readRatchetForRoot provider root disk with
  | error e => simp
  | ok existing =>
    cases existing with
    | some existing => simp
    | none =>
      simp only [mapError_ok, hbaseline, Program.meets_bind]
      refine (meets_establishRatchet vaultRoot_seedRatchet).mono (fun _ h => h)
        fun result disk' h => ?_
      cases result with
      | error e => simp
      | ok report =>
        exact Program.meets_pure.mpr fun _ => ⟨none, rfl, fun _ => (h report rfl).1, fun hne =>
          absurd rfl hne⟩

end Claims

/-! ### Invitations -/

section Invitations

variable (provider : StoreProvider) (paths : WorkspacePaths) (invitation : InvitationMaterial)
  (baseline : List RatchetRecordV1) (disk : Disk)

/-- The vault shows what the baseline remembers, and the stored ratchet is at every key no smaller
than the baseline, and keeps what the machine remembered. -/
structure BaselineInForce (vault : VaultStore) (disk' : Disk) : Prop where
  vault : vault.Reaches provider.toCryptoProvider
    (seedRatchetFromBaseline invitation.trustedRoot baseline)
  stored : ∃ stored, readRatchetForRoot provider invitation.trustedRoot disk' = .ok (some stored) ∧
    (∀ key : RecordKey, (seedRatchetFromBaseline invitation.trustedRoot baseline).watermarks[
      key]?.getD 0 ≤ stored.watermarks[key]?.getD 0) ∧
    ∀ existing, readRatchetForRoot provider invitation.trustedRoot disk = .ok (some existing) →
      existing.Keeps stored

/-- Whichever way an invitation is taken, its baseline is in force afterwards. -/
def BaselineAlwaysInForce : Prop :=
  ∀ vault, invitedVault provider paths invitation disk = .ok vault →
    (∀ report, (claimInvite provider paths invitation disk).result = .ok report →
      BaselineInForce provider invitation baseline disk vault
        (claimInvite provider paths invitation disk).last) ∧
    ((ensureRatchetFromInvite provider paths invitation disk).result = .ok () →
      BaselineInForce provider invitation baseline disk vault
        (ensureRatchetFromInvite provider paths invitation disk).last)

variable {provider invitation baseline disk}

lemma Ratchet.Keeps.getD_le {older newer : Ratchet} (h : older.Keeps newer) (key : RecordKey) :
    older.watermarks[key]?.getD 0 ≤ newer.watermarks[key]?.getD 0 := by
  cases hcounter : older.watermarks[key]? with
  | none => exact Nat.zero_le _
  | some counter =>
    obtain ⟨remembered, hremembered, hle⟩ := h.watermarks key counter hcounter
    rwa [hremembered]

/-- Where there is no ratchet, what enforces the baseline puts it in force. -/
lemma Enforces.baselineInForce {vault : VaultStore} {disk' : Disk}
    (hnone : readRatchetForRoot provider invitation.trustedRoot disk = .ok none)
    (h : Enforces provider vault (seedRatchetFromBaseline invitation.trustedRoot baseline) disk') :
    BaselineInForce provider invitation baseline disk vault disk' := by
  obtain ⟨stored, hread, hkeeps⟩ := h.stored
  rw [trustedRoot_seedRatchet] at hread
  refine ⟨h.vault, stored, hread, hkeeps.getD_le, fun existing hexisting => ?_⟩
  simp [hnone] at hexisting

/-- Where there is a ratchet, what enforces it and remembers the vault puts the baseline in force
exactly if the vault covers what the baseline remembers beyond that ratchet. -/
lemma Enforces.inForce_iff {vault : VaultStore} {existing : Ratchet} {disk' : Disk}
    (hexisting : readRatchetForRoot provider invitation.trustedRoot disk = .ok (some existing))
    (h : Enforces provider vault existing disk')
    (hremembers : StoresAdmitted provider vault invitation.trustedRoot disk') :
    BaselineInForce provider invitation baseline disk vault disk' ↔
      vault.CoversExcess provider.toCryptoProvider existing
        (seedRatchetFromBaseline invitation.trustedRoot baseline) := by
  obtain ⟨_, _, _, _, hroot⟩ := readRatchetForRoot_eq_some.mp hexisting
  have hsame : existing.trustedRoot =
      (seedRatchetFromBaseline invitation.trustedRoot baseline).trustedRoot := by
    rw [hroot, trustedRoot_seedRatchet]
  rw [← h.vault.covers_iff hsame]
  refine ⟨fun hinforce => hinforce.vault, fun hreaches => ⟨hreaches, ?_⟩⟩
  obtain ⟨stored, hread, hkeeps⟩ := h.stored
  obtain ⟨stored', hread', hshown⟩ := hremembers
  rw [hroot] at hread
  obtain rfl : stored = stored' := by simpa [hread] using hread'
  refine ⟨stored, hread, fun key => ?_, fun ratchet hratchet => ?_⟩
  · by_cases hkey : key = .vaultRoot
    · rw [hkey, vaultRoot_seedRatchet]
      exact Nat.zero_le _
    · cases hcounter : (seedRatchetFromBaseline invitation.trustedRoot baseline).watermarks[
          key]? with
      | none => exact Nat.zero_le _
      | some remembered =>
        have hreached := hreaches.counters key remembered hcounter
        rw [trustedRoot_seedRatchet] at hreached
        exact hreached.trans (hshown key hkey)
  · obtain rfl : existing = ratchet := by simpa [hexisting] using hratchet
    exact hkeeps

/-- A claim that succeeds puts the baseline in force exactly if there was no ratchet, or the vault
covers what the baseline remembers beyond it. Establishing trust puts it in force exactly if there
was no ratchet, or that ratchet remembers all of the baseline and the vault shows it. -/
theorem baselineInForce_iff (hbaseline : invitation.rollbackBaseline = some baseline) :
    (∀ report, (claimInvite provider paths invitation disk).result = .ok report →
      ∃ vault existing, invitedVault provider paths invitation disk = .ok vault ∧
        readRatchetForRoot provider invitation.trustedRoot disk = .ok existing ∧
        (BaselineInForce provider invitation baseline disk vault
            (claimInvite provider paths invitation disk).last ↔
          ∀ ratchet ∈ existing, vault.CoversExcess provider.toCryptoProvider ratchet
            (seedRatchetFromBaseline invitation.trustedRoot baseline))) ∧
    ((ensureRatchetFromInvite provider paths invitation disk).result = .ok () →
      ∃ vault existing, invitedVault provider paths invitation disk = .ok vault ∧
        readRatchetForRoot provider invitation.trustedRoot disk = .ok existing ∧
        (BaselineInForce provider invitation baseline disk vault
            (ensureRatchetFromInvite provider paths invitation disk).last ↔
          ∀ ratchet ∈ existing,
            (∀ key : RecordKey, (seedRatchetFromBaseline invitation.trustedRoot
              baseline).watermarks[key]?.getD 0 ≤ ratchet.watermarks[key]?.getD 0) ∧
            vault.Reaches provider.toCryptoProvider
              (seedRatchetFromBaseline invitation.trustedRoot baseline))) := by
  cases hvault : invitedVault provider paths invitation disk with
  | error e => simp [claimInvite, ensureRatchetFromInvite, bind, Program.read, hvault]
  | ok vault =>
    have hclaim : claimInvite provider paths invitation disk =
        claimInviteLocked provider vault invitation.trustedRoot invitation disk := by
      simp [claimInvite, bind, Program.read, hvault]
    have hensure : ensureRatchetFromInvite provider paths invitation disk =
        ensureRatchetLocked provider vault invitation.trustedRoot invitation disk := by
      simp [ensureRatchetFromInvite, bind, Program.read, hvault]
    rw [hclaim, hensure]
    constructor
    · intro report hreport
      obtain ⟨existing, hexisting, henforces, hremembers⟩ :=
        (meets_claimInviteLocked hbaseline).result report hreport
      refine ⟨vault, existing, rfl, hexisting, ?_⟩
      cases existing with
      | none => exact iff_of_true (henforces.baselineInForce hexisting) (by simp)
      | some ratchet =>
        rw [henforces.inForce_iff hexisting hremembers]
        simp
    · intro hdone
      obtain ⟨existing, hexisting, hnone, hsome⟩ :=
        (meets_ensureRatchetLocked hbaseline).result hdone
      refine ⟨vault, existing, rfl, hexisting, ?_⟩
      cases existing with
      | none => exact iff_of_true ((hnone rfl).baselineInForce hexisting) (by simp)
      | some ratchet =>
        rw [hsome (by simp)]
        constructor
        · rintro ⟨hreaches, stored, hread, hle, -⟩ _ ⟨⟩
          obtain rfl : ratchet = stored := by simpa [hexisting] using hread
          exact ⟨hle, hreaches⟩
        · intro h
          obtain ⟨hle, hreaches⟩ := h ratchet rfl
          refine ⟨hreaches, ratchet, hexisting, hle, fun existing hread => ?_⟩
          obtain rfl : ratchet = existing := by simpa [hexisting] using hread
          exact .refl ratchet

end Invitations

section Example

open TestSupport

/-- A vault with one invited user. -/
def invitedRecords : List VaultRecordV1 :=
  [vaultRootRecord, userRecord rootUser (testUser 1) 1, trustRoot (testUser 1) 1]

def invitedRatchet : Ratchet :=
  freshRatchet.applyUpdate
    (validateVault transparentCrypto (.v1 ⟨invitedRecords⟩) freshRatchet).ratchetUpdate

def invitedTables : Tables where
  vaults := [.v1 ⟨invitedRecords⟩]
  ratchets := [ratchetStore freshRatchet, ratchetStore invitedRatchet]
  transactions := []
  caches := []

def invitationWith (baseline : List RatchetRecordV1) : InvitationMaterial :=
  ⟨(testUser 1).id, testRoot, some baseline⟩

/-- The issuer remembers the user that the vault shows. -/
def issuedBaseline : List RatchetRecordV1 := [.user (testUser 1).id 1]

/-- A machine without a ratchet. -/
def firstSyncDisk : Disk := testDisk (some (vaultFile 0)) none none

theorem baselineInForce_iff_firstSync :
    ∃ vault, BaselineInForce (tableProvider invitedTables) (invitationWith issuedBaseline)
      issuedBaseline firstSyncDisk vault
      (claimInvite (tableProvider invitedTables) testPaths (invitationWith issuedBaseline)
        firstSyncDisk).last := by
  have hresult : (claimInvite (tableProvider invitedTables) testPaths
      (invitationWith issuedBaseline) firstSyncDisk).result.toOption.isSome = true := by
    decide +kernel
  have hread : readRatchetForRoot (tableProvider invitedTables) testRoot firstSyncDisk =
      .ok none := rfl
  cases hreport : (claimInvite (tableProvider invitedTables) testPaths
      (invitationWith issuedBaseline) firstSyncDisk).result with
  | error e => simp [hreport, Except.toOption] at hresult
  | ok report =>
    obtain ⟨vault, existing, -, hexisting, hinforce⟩ :=
      (baselineInForce_iff testPaths (rfl : (invitationWith issuedBaseline).rollbackBaseline =
        some issuedBaseline)).1 report hreport
    obtain rfl : none = existing := Except.ok.inj (hread.symm.trans hexisting)
    exact ⟨vault, hinforce.mpr (by simp)⟩

/-- The issuer remembers a secret that the vault does not show. -/
def strongerBaseline : List RatchetRecordV1 := [.secret testSecretId 10 testSelector]

/-- A machine that has remembered nothing yet. -/
def returningDisk : Disk := testDisk (some (vaultFile 0)) (some (ratchetFile 0)) none

/-- The machine has a ratchet, so the claim succeeds on a vault without the remembered secret. -/
theorem not_baselineAlwaysInForce_returning :
    ¬ BaselineAlwaysInForce (tableProvider invitedTables) testPaths
      (invitationWith strongerBaseline) strongerBaseline returningDisk := by
  intro h
  have hvault : invitedVault (tableProvider invitedTables) testPaths
      (invitationWith strongerBaseline) returningDisk = .ok (.v1 ⟨invitedRecords⟩) := rfl
  have hresult : (claimInvite (tableProvider invitedTables) testPaths
      (invitationWith strongerBaseline) returningDisk).result.toOption.isSome = true := by
    decide +kernel
  have hremembered : (seedRatchetFromBaseline testRoot strongerBaseline).watermarks[
      RecordKey.secret testSecretId]? = some 10 := rfl
  have hadmitted : (admittedCounters (tableProvider invitedTables).toCryptoProvider
      (.v1 ⟨invitedRecords⟩) (.new (seedRatchetFromBaseline testRoot strongerBaseline).trustedRoot))[
        RecordKey.secret testSecretId]?.getD 0 = 0 := by
    decide +kernel
  cases hreport : (claimInvite (tableProvider invitedTables) testPaths
      (invitationWith strongerBaseline) returningDisk).result with
  | error e => simp [hreport, Except.toOption] at hresult
  | ok report =>
    have hinforce := (h _ hvault).1 report hreport
    have hle : 10 ≤ (admittedCounters (tableProvider invitedTables).toCryptoProvider
        (.v1 ⟨invitedRecords⟩)
        (.new (seedRatchetFromBaseline testRoot strongerBaseline).trustedRoot))[
          RecordKey.secret testSecretId]?.getD 0 :=
      hinforce.vault.counters _ _ hremembered
    rw [hadmitted] at hle
    exact absurd hle (by decide)

end Example

end Thorax
