import Thorax.Ops.Trust
import Thorax.Properties.AcceptRollback
import Thorax.Properties.Algebra
import Thorax.Properties.InviteBaseline
import Thorax.Resolution.Memory
import Thorax.Resolution.RecordSets
import Thorax.Resolution.Served

/-!
# Re-established trust

A ratchet rests on a vault when it remembers exactly what the vault shows. The next load of a
workspace at rest writes nothing and finds nothing to object to. Making a vault brings a workspace
to rest, and so does resetting the trust in one.
-/

namespace Thorax

open Collections Durable
open Std (ExtTreeMap ExtTreeSet LawfulEqOrd TransOrd)

/-! ### Ratchets at rest -/

/-- A ratchet remembers exactly the counters that a clean vault admits. -/
structure Ratchet.RestsOn (crypto : CryptoProvider) (ratchet : Ratchet) (vault : VaultStore) :
    Prop where
  issues : (validateVault crypto vault (.new ratchet.trustedRoot)).issues = []
  counters : ∀ key : RecordKey, ratchet.watermarks[key]?.getD 0 =
    (admittedCounters crypto vault (.new ratchet.trustedRoot))[key]?.getD 0
  formatVersion : ratchet.formatVersion ≤ vault.formatVersion

section Rest

variable {crypto : CryptoProvider} {vault : VaultStore} {ratchet stored : Ratchet}
  {root : HashValue} {known : BTreeSet HashValue}

lemma not_lt_formatVersion_new : ¬ vault.formatVersion < (Ratchet.new root).formatVersion := by
  simp [Ratchet.new]

/-- Under a ratchet at rest nothing has regressed. -/
lemma Ratchet.RestsOn.rollbackKeys_empty (h : ratchet.RestsOn crypto vault) {selected : SelectedRoot}
    {records : List VerifiedRecord}
    (hresolved : resolvedRecords crypto vault (.new ratchet.trustedRoot) = some (selected, records))
    (key : RecordKey) : key ∉ rollbackKeys crypto ratchet selected records := by
  rw [mem_rollbackKeys, h.counters key, admittedCounters_of_resolved hresolved]
  exact lt_irrefl _

/-- A vault says the same under a ratchet at rest as under none, and has nothing to teach it. -/
lemma Ratchet.RestsOn.verdict (h : ratchet.RestsOn crypto vault) :
    SameVerdict (validateVault crypto vault ratchet)
        (validateVault crypto vault (.new ratchet.trustedRoot)) ∧
      (validateVault crypto vault ratchet).ratchetUpdate.raisedWatermarks = ∅ ∧
      hasSuspectedRollback (validateVault crypto vault ratchet) = false := by
  cases hnew : resolvedRecords crypto vault (.new ratchet.trustedRoot) with
  | none => exact absurd h.issues (validateVault_of_unresolved hnew).2.2
  | some resolved =>
    obtain ⟨selected, records⟩ := resolved
    have hversion : vault.formatVersion < ratchet.formatVersion ↔
        vault.formatVersion < (Ratchet.new ratchet.trustedRoot).formatVersion :=
      iff_of_false (not_lt.mpr h.formatVersion) not_lt_formatVersion_new
    have hresolved : resolvedRecords crypto vault ratchet = some (selected, records) := by
      rw [← hnew]
      exact resolvedRecords_congr rfl hversion
    have hnone := h.rollbackKeys_empty hnew
    have hnone' : ∀ key, key ∉
        rollbackKeys crypto (.new ratchet.trustedRoot) selected records := by
      intro key
      simp [mem_rollbackKeys, Ratchet.new]
    refine ⟨?_, ?_, ?_⟩
    · refine sameVerdict_of_alike rfl hversion ((resolvedWith_empty ..).trans hnew) ⟨?_, ?_⟩
      · apply ExtTreeMap.ext_getElem?
        intro key
        rw [ExtTreeMap.getElem?_eq_none (hnone key), ExtTreeMap.getElem?_eq_none (hnone' key)]
      · exact fun key hkey => absurd hkey (hnone' key)
    · rw [(validateVault_of_resolved hresolved).2.1]
      apply ExtTreeMap.ext_getElem?
      intro key
      rw [ExtTreeMap.getElem?_filter', h.counters key, admittedCounters_of_resolved hnew]
      cases (currentWatermarks crypto selected records)[key]? <;> simp [Option.filter]
    · rw [hasSuspectedRollback_eq_false]
      intro key
      rw [(validateVault_of_resolved hresolved).1, rollbackAt_resolveRecords]
      exact hnone key

/-- What is derived from a vault alone rests on it, also once it has been through a file. -/
lemma restsOn_of_learned (hissues : (validateVault crypto vault (.new root)).issues = [])
    (hstored : ((Ratchet.new root).applyUpdate
      (validateVault crypto vault (.new root)).ratchetUpdate).StoredAs stored) :
    stored.RestsOn crypto vault := by
  have hroot : stored.trustedRoot = root := hstored.trustedRoot
  cases hresolved : resolvedRecords crypto vault (.new root) with
  | none => exact absurd hissues (validateVault_of_unresolved hresolved).2.2
  | some resolved =>
    obtain ⟨selected, records⟩ := resolved
    have hvaultRoot : ((Ratchet.new root).applyUpdate (validateVault crypto vault
        (.new root)).ratchetUpdate).watermarks[RecordKey.vaultRoot]? = none := by
      rw [getElem?_applyUpdate, vaultRoot_ratchetUpdate]
      simp [Ratchet.new]
    obtain ⟨hwatermarks, hversion⟩ := Ratchet.memory_eq_iff.mp
      (hstored.memory.trans (Ratchet.storedMemory_eq_memory hvaultRoot))
    refine ⟨by rw [hroot]; exact hissues, fun key => ?_, ?_⟩
    · rw [hwatermarks, watermarks_applyUpdate hresolved, hroot,
        admittedCounters_of_resolved hresolved]
      simp [Ratchet.new]
    · have hle : ¬ vault.formatVersion < ((Ratchet.new root).applyUpdate
          (validateVault crypto vault (.new root)).ratchetUpdate).formatVersion :=
        (lt_formatVersion_applyUpdate raisedFormatVersion_le).not.mpr not_lt_formatVersion_new
      rw [hversion]
      exact not_lt.mp hle

/-- From nothing, a validation raises the counters that a vault admits. -/
lemma counters_of_clean (hissues : (validateVault crypto vault (.new root)).issues = [])
    (key : RecordKey) : (admittedCounters crypto vault (.new root))[key]?.getD 0 =
      (validateVault crypto vault (.new root)).ratchetUpdate.raisedWatermarks[key]?.getD 0 := by
  cases hresolved : resolvedRecords crypto vault (.new root) with
  | none => exact absurd hissues (validateVault_of_unresolved hresolved).2.2
  | some resolved =>
    obtain ⟨selected, records⟩ := resolved
    rw [(validateVault_of_resolved hresolved).2.1, admittedCounters_of_resolved hresolved,
      ExtTreeMap.getElem?_filter']
    cases (currentWatermarks crypto selected records)[key]? with
    | none => rfl
    | some counter =>
      rcases Nat.eq_zero_or_pos counter with rfl | hpos
      · simp [Option.filter, Ratchet.new]
      · simp [Option.filter, Ratchet.new, hpos]

/-- A ratchet rests on the records of a vault, in whatever order a file has them. -/
lemma Ratchet.RestsOn.of_mem {vault' : VaultStore} (h : ratchet.RestsOn crypto vault)
    (hcf : CollisionFree crypto vault.records)
    (hsame : ∀ signed, signed ∈ vault.records ↔ signed ∈ vault'.records) :
    ratchet.RestsOn crypto vault' := by
  have halike := judgedAlike_of_mem hcf hsame (.new ratchet.trustedRoot)
  have hissues : (validateVault crypto vault' (.new ratchet.trustedRoot)).issues = [] := by
    have hperm := halike.issues
    rw [h.issues] at hperm
    exact hperm.nil_eq.symm
  refine ⟨hissues, fun key => ?_, ?_⟩
  · rw [h.counters key, counters_of_clean h.issues, counters_of_clean hissues, halike.ratchetUpdate]
  · rw [VaultStore.formatVersion_eq vault vault']
    exact h.formatVersion

end Rest

/-! ### Workspaces at rest -/

/-- A workspace with a vault of a root, a ratchet that rests on it, and no journal. -/
structure AtRest (provider : StoreProvider) (paths : WorkspacePaths) (root : HashValue)
    (vault : VaultStore) (disk : Disk) : Prop where
  file : readVault provider paths disk = .ok vault
  candidate : trustedRootCandidate provider.toCryptoProvider vault = .ok root
  ratchet : ∃ ratchet, readRatchetForRoot provider root disk = .ok (some ratchet) ∧
    ratchet.RestsOn provider.toCryptoProvider vault
  transaction : (disk.roots root).transaction = none
  joinCommit : (disk.roots root).joinCommit = none

/-- The cache that a load would trust lists only envelopes of the vault that verify. -/
def CacheGenuine (provider : StoreProvider) (root : HashValue) (vault : VaultStore) (disk : Disk) :
    Prop :=
  ∀ cache, readTrustedCache provider vault root disk = some cache →
    KnownGenuine provider.toCryptoProvider vault.records cache.verifiedRecordHashes

lemma cacheGenuine_of_no_user {provider : StoreProvider} {root : HashValue} {disk : Disk}
    (vault : VaultStore) (h : (disk.roots root).currentUser = none) :
    CacheGenuine provider root vault disk := by
  intro cache hcache
  simp [readTrustedCache, h] at hcache

/-- A session that shows a vault as the vault alone justifies it. -/
structure Shows (provider : StoreProvider) (root : HashValue) (vault : VaultStore)
    (session : LockedSession) : Prop where
  shown : session.vault = vault
  issues : session.report.issues = []
  rollback : hasSuspectedRollback session.report = false
  effective : session.report.effective =
    (validateVault provider.toCryptoProvider vault (.new root)).effective
  counters : ∀ key : RecordKey, session.ratchet.watermarks[key]?.getD 0 =
    (admittedCounters provider.toCryptoProvider vault (.new root))[key]?.getD 0

section AtRest

variable {provider : StoreProvider} {paths : WorkspacePaths} {root : HashValue}
  {vault : VaultStore} {disk : Disk}

lemma readVault_eq_ok : readVault provider paths disk = .ok vault ↔
    ∃ bytes, readVaultBytes paths disk = .ok bytes ∧
      decodeVaultAt provider (.vault paths.vaultPath) bytes = .ok vault := bind_eq_ok

lemma AtRest.recovers (h : AtRest provider paths root vault disk) :
    (recoverForRoot provider paths root).Ends disk .none disk := by
  have hread : readTransaction provider root disk = .ok none := readTransaction_eq_none.mpr h.transaction
  have hjoin : joinCommitPresent root disk = .ok false := joinCommitPresent_eq_false.mpr h.joinCommit
  have hcheck : recoveryCheck provider paths root disk = .ok .none := by
    simp [recoveryCheck, hread, bind, Except.bind]
  have hlegacy : readJoinCommit provider root disk = .ok none := by
    have hfile : readOptionalFile (.joinCommit root) (disk.roots root).joinCommit
        maxJoinCommitBytes = .ok none := by
      simp [readOptionalFile, readFileBounded, h.joinCommit]
    simp [readJoinCommit, hfile, bind, Except.bind]
  simp [recoverForRoot, recoverTransactionIfOrigin, recoverJoinCommit, hread, hjoin, hcheck, hlegacy]

/-- A load of a workspace at rest writes nothing and shows the vault as it is. -/
lemma AtRest.loads (h : AtRest provider paths root vault disk) (contended : Bool)
    (hcache : CacheGenuine provider root vault disk) :
    ∃ session, (load provider contended paths).Ends disk session disk ∧
      Shows provider root vault session := by
  obtain ⟨bytes, hbytes, hdecode⟩ := readVault_eq_ok.mp h.file
  obtain ⟨ratchet, hratchet, hrests⟩ := h.ratchet
  have hroot : loadRoot provider paths disk = .ok root := by
    simp [loadRoot, hbytes, hdecode, h.candidate, bind, Except.bind]
  have hstrongest : readStrongestRatchet provider paths root disk = .ok (ratchet, none) := by
    refine readStrongestRatchet_eq_ok.mpr (readStrongestRatchetOptionalWithPending_eq_ok.mpr ?_)
    exact ⟨some ratchet, hratchet, Or.inl ⟨readTransaction_eq_none.mpr h.transaction, rfl, rfl⟩⟩
  have hratchetRoot := trustedRoot_of_readStrongestRatchet hstrongest
  obtain ⟨hsame, hraised, hrollback⟩ := hrests.verdict
  obtain ⟨session, hsnapshot, hshown, hreport, hkept⟩ : ∃ session,
      loadSnapshot provider paths root .none disk = .ok session ∧ session.vault = vault ∧
        session.report = validateVault provider.toCryptoProvider vault ratchet ∧
        session.ratchet = ratchet := by
    have hsnapshot : ∃ session, loadSnapshot provider paths root .none disk = .ok session := by
      simp [loadSnapshot, hbytes, hdecode, hstrongest, bind, Except.bind]
    obtain ⟨session, hsnapshot⟩ := hsnapshot
    refine ⟨session, hsnapshot, ?_⟩
    simp only [loadSnapshot, hbytes, hdecode, hstrongest, mapError_ok, bind, Except.bind,
      Except.ok.injEq] at hsnapshot
    subst hsnapshot
    refine ⟨rfl, validateVaultWithVerified_of_genuine ratchet ?_, rfl⟩
    cases htrusted : readTrustedCache provider vault root disk with
    | none => simp [KnownGenuine]
    | some cache => exact hcache cache htrusted
  have hissues : session.report.issues = [] := by
    rw [hreport, hsame.2, hratchetRoot]
    exact hratchetRoot ▸ hrests.issues
  refine ⟨session, ?_, hshown, hissues, ?_, ?_, ?_⟩
  · have hquiet : (absorbCleanTrustRaises provider contended).Ends (disk, session) ()
        (disk, session) := by
      simp [absorbCleanTrustRaises, current, hreport, hraised]
    simp only [load, Program.ends_bind, Program.ends_read, Program.ends_pure]
    exact ⟨root, disk, ⟨hroot, rfl⟩, .none, disk, h.recovers, session, disk, ⟨hsnapshot, rfl⟩,
      ((), session), disk, Program.ends_carry.mpr hquiet, rfl, rfl⟩
  · rw [hreport]
    exact hrollback
  · rw [hreport, hsame.1, hratchetRoot]
  · intro key
    rw [hkept, hrests.counters key, hratchetRoot]

end AtRest

/-! ### Resets -/

section Resets

variable {provider : StoreProvider} {paths : WorkspacePaths} {root : HashValue}
  {vault : VaultStore} {existing fresh : Ratchet} {disk : Disk} {contended dryRun : Bool}
  {key : RecordKey}

lemma mem_droppedWatermarks : key ∈ droppedWatermarks existing fresh ↔
    ∃ counter, existing.watermarks[key]? = some counter ∧
      fresh.watermarks[key]?.getD 0 < counter := by
  simp only [droppedWatermarks, ExtTreeMap.mem_keys, ← ExtTreeMap.isSome_getElem?_iff_mem,
    ExtTreeMap.getElem?_filter']
  cases existing.watermarks[key]? with
  | none => simp
  | some counter => simp [Option.filter]

lemma freshTrust_eq_ok : freshTrust provider vault root = .ok fresh ↔
    (validateVault provider.toCryptoProvider vault (.new root)).issues = [] ∧
      fresh = (Ratchet.new root).applyUpdate
        (validateVault provider.toCryptoProvider vault (.new root)).ratchetUpdate := by
  simp only [freshTrust, bind_eq_ok, ensureNoIssues_eq_ok, Except.ok.injEq]
  constructor
  · rintro ⟨-, hissues, rfl⟩
    exact ⟨hissues, rfl⟩
  · rintro ⟨hissues, rfl⟩
    exact ⟨(), hissues, rfl⟩

/-- What fresh trust remembers is what the vault shows. -/
lemma counters_freshTrust (h : freshTrust provider vault root = .ok fresh) (key : RecordKey) :
    fresh.watermarks[key]?.getD 0 =
      (admittedCounters provider.toCryptoProvider vault (.new root))[key]?.getD 0 := by
  obtain ⟨hissues, rfl⟩ := freshTrust_eq_ok.mp h
  cases hresolved : resolvedRecords provider.toCryptoProvider vault (.new root) with
  | none => exact absurd hissues (validateVault_of_unresolved hresolved).2.2
  | some resolved =>
    obtain ⟨selected, records⟩ := resolved
    rw [watermarks_applyUpdate hresolved, admittedCounters_of_resolved hresolved]
    simp [Ratchet.new]

/-- What a reset has looked at before it writes. -/
structure ResetFrom (provider : StoreProvider) (paths : WorkspacePaths) (disk : Disk)
    (root : HashValue) (vault : VaultStore) (existing fresh : Ratchet) : Prop where
  file : readVault provider paths disk = .ok vault
  candidate : trustedRootCandidate provider.toCryptoProvider vault = .ok root
  existing : readRatchetForRoot provider root disk = .ok (some existing)
  transaction : (disk.roots root).transaction = none
  joinCommit : (disk.roots root).joinCommit = none
  fresh : freshTrust provider vault root = .ok fresh

/-- A reset fails and leaves everything, or says what is lost and writes the fresh trust unless it
is a dry run. -/
lemma meets_resetRatchet {crash : Disk → Prop}
    {post : Except OpsError ResetRatchetOutput → Disk → Prop} (herror : ∀ e, post (.error e) disk)
    (hdry : ∀ root vault existing fresh, dryRun = true →
      ResetFrom provider paths disk root vault existing fresh →
      post (.ok ⟨root, droppedWatermarks existing fresh, false⟩) disk)
    (hwrite : ∀ root vault existing fresh bytes stored, dryRun = false →
      ResetFrom provider paths disk root vault existing fresh →
      HoldsRatchet provider root bytes stored → fresh.StoredAs stored →
      crash disk ∧ post (.ok ⟨root, droppedWatermarks existing fresh, true⟩)
        (disk.setRatchet root bytes)) :
    (resetRatchet provider contended paths dryRun).Meets disk crash post := by
  simp only [resetRatchet, Program.meets_bind, Program.meets_read]
  cases hroot : loadRoot provider paths disk with
  | error e => exact herror e
  | ok root =>
    cases contended with
    | true => simp [acquireRootStateLock, herror]
    | false =>
      simp only [acquireRootStateLock, Program.meets_ensure, Bool.not_false, if_true]
      refine meets_ensureNoPendingTransaction herror fun hjoin hnone => ?_
      simp only [meets_readStore, meets_check]
      cases hfile : readVault provider paths disk with
      | error e => exact herror _
      | ok vault =>
        simp only [mapError_ok]
        cases hcandidate : trustedRootCandidate provider.toCryptoProvider vault with
        | error e => exact herror e
        | ok reread =>
          by_cases hsame : reread = root
          · subst hsame
            simp only [decide_true, if_true]
            cases hexisting : readRatchetForRoot provider reread disk with
            | error e => exact herror _
            | ok found =>
              cases found with
              | none => simp [herror]
              | some existing =>
                simp only [mapError_ok, Program.meets_bind, meets_check]
                cases hfresh : freshTrust provider vault reread with
                | error e => exact herror e
                | ok fresh =>
                  have hfrom : ResetFrom provider paths disk reread vault existing fresh :=
                    ⟨hfile, hcandidate, hexisting, hnone, hjoin, hfresh⟩
                  cases dryRun with
                  | true => simpa using hdry reread vault existing fresh rfl hfrom
                  | false =>
                    have hfreshRoot : fresh.trustedRoot = reread := by
                      rw [(freshTrust_eq_ok.mp hfresh).2]
                      rfl
                    simp only [Program.meets_skipWhen, Bool.false_eq_true, if_false,
                      meets_liftStore, Program.meets_pure]
                    refine meets_writeRatchet_of (fun bytes stored hholds hstored => ?_)
                      fun e => herror _
                    rw [hfreshRoot] at hholds ⊢
                    exact hwrite reread vault existing fresh bytes stored rfl hfrom hholds hstored
          · simp [hsame, herror]

/-- Nothing but the end of a reset differs from its start. -/
lemma resetRatchet_outcome {disk' : Disk} (h : (resetRatchet provider contended paths dryRun).Leaves
    disk disk') :
    disk' = disk ∨ dryRun = false ∧
      ∃ output, (resetRatchet provider contended paths dryRun).Ends disk output disk' := by
  have hmeets : (resetRatchet provider contended paths dryRun).Meets disk (fun t => t = disk)
      fun result t => t = disk ∨ dryRun = false ∧ ∃ output, result = .ok output :=
    meets_resetRatchet (fun _ => Or.inl rfl) (fun _ _ _ _ _ _ => Or.inl rfl)
      fun _ _ _ _ _ _ hdry _ _ _ => ⟨rfl, Or.inr ⟨hdry, _, rfl⟩⟩
  rcases h with hpassed | rfl
  · exact Or.inl (hmeets.passed hpassed)
  · rcases hmeets.result with hsame | ⟨hdry, output, hresult⟩
    · exact Or.inl hsame
    · exact Or.inr ⟨hdry, output, hresult, rfl⟩

lemma ResetFrom.atRest {bytes : Bytes} {stored : Ratchet}
    (h : ResetFrom provider paths disk root vault existing fresh)
    (hholds : HoldsRatchet provider root bytes stored) (hstored : fresh.StoredAs stored) :
    AtRest provider paths root vault (disk.setRatchet root bytes) := by
  obtain ⟨hissues, rfl⟩ := freshTrust_eq_ok.mp h.fresh
  refine ⟨h.file, h.candidate, ⟨stored, ?_, restsOn_of_learned hissues hstored⟩, ?_, ?_⟩
  · exact readRatchetForRoot_eq_some.mpr ⟨bytes, by simp, hholds⟩
  · simpa using h.transaction
  · simpa using h.joinCommit

lemma ResetFrom.mem_dropped (h : ResetFrom provider paths disk root vault existing fresh)
    (key : RecordKey) : key ∈ droppedWatermarks existing fresh ↔
      ∃ counter, existing.watermarks[key]? = some counter ∧
        (admittedCounters provider.toCryptoProvider vault (.new root))[key]?.getD 0 < counter := by
  rw [mem_droppedWatermarks, counters_freshTrust h.fresh]

/-- What a reset tells and leaves: the keys it names are those at which the vault has fallen below
what was remembered, and once it is applied the ratchet is the only file that differs and the
workspace is at rest. -/
structure StartsOver (provider : StoreProvider) (paths : WorkspacePaths) (disk disk' : Disk)
    (vault : VaultStore) (output : ResetRatchetOutput) : Prop where
  file : readVault provider paths disk = .ok vault
  dropped : ∃ existing, readRatchetForRoot provider output.trustedRoot disk = .ok (some existing) ∧
    ∀ key : RecordKey, key ∈ output.droppedWatermarks ↔
      ∃ counter, existing.watermarks[key]? = some counter ∧
        (admittedCounters provider.toCryptoProvider vault (.new output.trustedRoot))[key]?.getD 0 <
          counter
  written : disk' = disk ∨ ∃ bytes, disk' = disk.setRatchet output.trustedRoot bytes
  applied : output.applied = true → AtRest provider paths output.trustedRoot vault disk'

lemma startsOver_of_ends {output : ResetRatchetOutput} {disk' : Disk}
    (h : (resetRatchet provider contended paths dryRun).Ends disk output disk') :
    output.applied = !dryRun ∧ ∃ vault, StartsOver provider paths disk disk' vault output := by
  have hmeets : (resetRatchet provider contended paths dryRun).Meets disk (fun _ => True)
      fun result t => ∀ output, result = .ok output →
        output.applied = !dryRun ∧ ∃ vault, StartsOver provider paths disk t vault output := by
    refine meets_resetRatchet (by simp) ?_ ?_
    · rintro root vault existing fresh rfl hfrom _ ⟨⟩
      exact ⟨rfl, vault, hfrom.file, ⟨existing, hfrom.existing, hfrom.mem_dropped⟩, Or.inl rfl,
        by simp⟩
    · rintro root vault existing fresh bytes stored rfl hfrom hholds hstored
      refine ⟨trivial, ?_⟩
      rintro _ ⟨⟩
      exact ⟨rfl, vault, hfrom.file, ⟨existing, hfrom.existing, hfrom.mem_dropped⟩,
        Or.inr ⟨bytes, rfl⟩, fun _ => hfrom.atRest hholds hstored⟩
  exact hmeets.ends h output rfl

/-- A reset that fails, is cut off or is a dry run changes nothing. One that goes through tells
which remembered counters the vault has fallen below, replaces the ratchet of the vault's root and
nothing else, and from then on every load writes nothing and shows the vault as the vault alone
justifies it: without an issue and without a suspected rollback. The cache that a load trusts, if
there is one, must be genuine. -/
theorem resetRatchet_startsOver (provider : StoreProvider) (contended : Bool)
    (paths : WorkspacePaths) (dryRun : Bool) (disk : Disk) :
    (∀ disk', (resetRatchet provider contended paths dryRun).Leaves disk disk' → disk' = disk ∨
      dryRun = false ∧
        ∃ output, (resetRatchet provider contended paths dryRun).Ends disk output disk') ∧
    ∀ output disk', (resetRatchet provider contended paths dryRun).Ends disk output disk' →
      output.applied = !dryRun ∧ ∃ vault, StartsOver provider paths disk disk' vault output ∧
        (output.applied = true → CacheGenuine provider output.trustedRoot vault disk' →
          ∀ contended', ∃ session, (load provider contended' paths).Ends disk' session disk' ∧
            Shows provider output.trustedRoot vault session) := by
  refine ⟨fun disk' hleaves => resetRatchet_outcome hleaves, fun output disk' hends => ?_⟩
  obtain ⟨happlied, vault, hover⟩ := startsOver_of_ends hends
  exact ⟨happlied, vault, hover, fun h hcache contended' =>
    (hover.applied h).loads contended' hcache⟩

end Resets

section ResetExample

open TestSupport

/-- What a machine learns from a vault alone. -/
def learnedAlone (vault : VaultStore) : Ratchet :=
  (Ratchet.new testRoot).applyUpdate (validateVault transparentCrypto vault (.new testRoot)).ratchetUpdate

/-- The machine remembers a later value of the secret than the vault shows. -/
def resetTables : Tables where
  vaults := [survivorVault]
  ratchets := [ratchetStore rolledBackRatchet, ratchetStore (learnedAlone survivorVault)]
  transactions := []
  caches := []

theorem resetRatchet_startsOver_rolledBack : ∃ output disk' session,
    (resetRatchet (tableProvider resetTables) false testPaths false).Ends (rolledBackDisk 0) output
        disk' ∧
      .secret testSecretId ∈ output.droppedWatermarks ∧
      (load (tableProvider resetTables) false testPaths).Ends disk' session disk' ∧
      Shows (tableProvider resetTables) output.trustedRoot survivorVault session := by
  have hresult : (resetRatchet (tableProvider resetTables) false testPaths false
      (rolledBackDisk 0)).result.toOption.any (fun output =>
        decide (.secret testSecretId ∈ output.droppedWatermarks ∧
          output.trustedRoot = testRoot)) = true := by
    decide +kernel
  have huser : ((resetRatchet (tableProvider resetTables) false testPaths false
      (rolledBackDisk 0)).last.roots testRoot).currentUser = none := by decide +kernel
  have hfile : readVault (tableProvider resetTables) testPaths (rolledBackDisk 0) =
      .ok survivorVault := by decide
  cases hreset : (resetRatchet (tableProvider resetTables) false testPaths false
      (rolledBackDisk 0)).result with
  | error e => simp [hreset, Except.toOption] at hresult
  | ok output =>
    obtain ⟨hdropped, hroot⟩ : .secret testSecretId ∈ output.droppedWatermarks ∧
        output.trustedRoot = testRoot := by
      simpa [hreset, Except.toOption] using hresult
    obtain ⟨happlied, vault, hover, hloads⟩ := (resetRatchet_startsOver (tableProvider resetTables)
      false testPaths false (rolledBackDisk 0)).2 output _ ⟨hreset, rfl⟩
    obtain rfl := Except.ok.inj (hfile.symm.trans hover.file)
    obtain ⟨session, hload, hshows⟩ := hloads happlied
      (cacheGenuine_of_no_user survivorVault (hroot ▸ huser)) false
    exact ⟨output, _, session, ⟨hreset, rfl⟩, hdropped, hload, hshows⟩

end ResetExample

/-! ### New vaults -/

section NewVaults

variable {crypto : CryptoProvider} {provider : StoreProvider} {paths : WorkspacePaths}
  {root : RecordSigner} {vault : VaultStore} {ratchet : Ratchet} {selected : SelectedRoot}
  {records : List VerifiedRecord} {disk : Disk} {contended : Bool}

/-- A new vault holds the root's own record and its entry point. -/
lemma initialVault_eq_ok (h : initialVault provider root = .ok vault) :
    ∃ rootSigned rootEntryPoint, vault.records = [rootSigned, rootEntryPoint] ∧
      rootSigned.signingPublicKey = root.signingPublicKey ∧
      rootSigned.body = .known (.vaultRoot ⟨root.userId, root.hpkePublicKey⟩) ∧
      rootEntryPoint.body = .known (.entryPoint ⟨root.userId, root.hpkePublicKey, 0⟩) := by
  simp only [initialVault, Hazmat.vaultRootRecord, Hazmat.entryPointRecord, bind_eq_ok,
    mapError_eq_ok, Hazmat.signedPayload_eq_ok, Except.ok.injEq] at h
  obtain ⟨_, ⟨hid, rfl⟩, _, ⟨-, rfl⟩, rfl⟩ := h
  exact ⟨_, _, rfl, rfl, by rw [hid], rfl⟩

lemma toList_insert_empty {K : Type} [Ord K] [TransOrd K] [LawfulEqOrd K] (k : K) :
    ((∅ : BTreeSet K).insert k).toList = [k] := by
  have hlength : ((∅ : BTreeSet K).insert k).toList.length = 1 := by
    rw [ExtTreeSet.length_toList, ExtTreeSet.size_insert]
    simp
  obtain ⟨other, hlist⟩ := List.length_eq_one_iff.mp hlength
  have hmem : k ∈ ((∅ : BTreeSet K).insert k).toList := by simp
  rw [hlist, List.mem_singleton] at hmem
  rw [hlist, hmem]

/-- A sole candidate is the root. -/
lemma trustedRootCandidate_of_sole {candidate : HashValue} (h : ∀ other,
    other ∈ trustedRootCandidates crypto vault.records ↔ other = candidate) :
    trustedRootCandidate crypto vault = .ok candidate := by
  have hset : trustedRootCandidates crypto vault.records =
      (∅ : BTreeSet HashValue).insert candidate := by
    apply set_ext
    intro other
    rw [h, ExtTreeSet.mem_insert, Std.compare_eq_iff_eq]
    simp [eq_comm]
  rw [trustedRootCandidate, hset, toList_insert_empty]

/-- Where no record introduces a user, the root is the only one. -/
lemma mem_users_of_no_user (hresolved : resolvedRecords crypto vault ratchet = some (selected, records))
    (hnone : ∀ signed ∈ vault.records, ∀ user, signed.body ≠ .known (.user user)) (user : UserId) :
    user ∈ (validateVault crypto vault ratchet).effective.users ↔ user = selected.root.id := by
  have husers : (validateVault crypto vault ratchet).effective.users =
      (effectiveUnder crypto selected records (rollbackKeys crypto ratchet selected records)
        (admitDeletions crypto selected records
          (rollbackKeys crypto ratchet selected records))).users := by
    rw [(validateVault_of_resolved hresolved).1]
    rfl
  rw [husers, ← ExtTreeMap.isSome_getElem?_iff_mem, getElem?_effective_users]
  split_ifs with hroot
  · simp [hroot]
  · refine iff_of_false (fun hsome => ?_) hroot
    obtain ⟨found, hfound⟩ := Option.isSome_iff_exists.mp hsome
    obtain ⟨w, hw, hbody⟩ := Option.bind_eq_some_iff.mp hfound
    obtain ⟨-, -, rfl⟩ := resolvedRecords_eq_some.mp hresolved
    have hmem := (View.mem_pool.mp (View.winner_mem_pool hw)).1
    have hsigned := body_of_verified hmem
    have hvault := (mem_of_mem_distinctRecords (signed_mem_of_verified hmem)).1
    cases hw' : w.body with
    | user declared => exact hnone _ hvault declared (hsigned.trans (by rw [hw']))
    | _ => simp [hw', RecordBodyV1.user?] at hbody

/-- A new vault that validates has the root's key as its only candidate, and the root as its only
user. -/
lemma founded_of_initialVault (h : initialVault provider root = .ok vault)
    (hissues : (validateVault provider.toCryptoProvider vault
      (.new (keyHash provider.toCryptoProvider root.signingPublicKey))).issues = []) :
    trustedRootCandidate provider.toCryptoProvider vault =
        .ok (keyHash provider.toCryptoProvider root.signingPublicKey) ∧
      ∀ user, user ∈ (validateVault provider.toCryptoProvider vault
        (.new (keyHash provider.toCryptoProvider root.signingPublicKey))).effective.users ↔
          user = root.userId := by
  obtain ⟨rootSigned, rootEntryPoint, hrecords, hkey, hroot, hentry⟩ := initialVault_eq_ok h
  cases hresolved : resolvedRecords provider.toCryptoProvider vault
      (.new (keyHash provider.toCryptoProvider root.signingPublicKey)) with
  | none => exact absurd hissues (validateVault_of_unresolved hresolved).2.2
  | some resolved =>
    obtain ⟨selected, records⟩ := resolved
    obtain ⟨signed, hmem, hmatch⟩ := exists_root_record (resolvedRecords_eq_some.mp hresolved).2.1
    obtain ⟨hbody, hsignedKey, hid, haccepts, -, -⟩ := rootMatch_eq_some.mp hmatch
    have hmem' : signed = rootSigned ∨ signed = rootEntryPoint := by
      simpa [hrecords] using (mem_of_mem_distinctRecords hmem).1
    -- of the two records only the first declares a root
    obtain rfl : signed = rootSigned := by
      rcases hmem' with rfl | rfl
      · rfl
      · rw [hentry] at hbody
        cases hbody
    have hselected : selected.root = ⟨root.userId, root.hpkePublicKey⟩ := by
      rw [hroot] at hbody
      exact (RecordBodyV1.vaultRoot.inj (Evolving.known.inj hbody)).symm
    refine ⟨trustedRootCandidate_of_sole fun other => ?_, fun user => ?_⟩
    · have hverifies : verifiesEnvelope provider.toCryptoProvider signed = true := by
        simpa [acceptsEnvelope] using haccepts
      have hderived : root.userId = deriveUserId provider.toCryptoProvider root.signingPublicKey
          root.hpkePublicKey := by
        rw [hselected, ← hsignedKey, hkey] at hid
        exact hid
      simp only [trustedRootCandidates, mem_collectSet, ExtTreeSet.not_mem_empty, false_or, hrecords,
        List.mem_cons, List.not_mem_nil, or_false, exists_eq_or_imp, exists_eq_left, hroot, hentry,
        hkey, ← hderived, hverifies, and_self, if_true, Option.some.injEq, reduceCtorEq]
      exact eq_comm
    · rw [mem_users_of_no_user hresolved, hselected]
      rw [hrecords]
      rintro other hother declared
      rcases List.mem_pair.mp hother with rfl | rfl
      · simp [hroot]
      · simp [hentry]

@[simp] lemma meets_liftInit {α : Type} {program : Program Disk OpsError α} {crash : Disk → Prop}
    {post : Except InitVaultError α → Disk → Prop} :
    (liftInit program).Meets disk crash post ↔
      program.Meets disk crash fun result disk' => post (result.mapError .ops) disk' := by
  simp [liftInit]

/-- What the making of a vault has looked at before it writes, and the ratchet it writes first. -/
structure FoundedFrom (provider : StoreProvider) (paths : WorkspacePaths) (root : RecordSigner)
    (disk : Disk) (output : InitVaultOutput) : Prop where
  absent : disk.vaults paths.vaultPath = none
  vault : initialVault provider root = .ok output.vault
  rootHash : output.rootSigningPublicKeyHash =
    keyHash provider.toCryptoProvider root.signingPublicKey
  report : output.report = validateVault provider.toCryptoProvider output.vault
    (.new output.rootSigningPublicKeyHash)
  issues : output.report.issues = []
  ratchet : output.ratchet =
    (Ratchet.new output.rootSigningPublicKeyHash).applyUpdate output.report.ratchetUpdate

/-- The making of a vault fails and leaves everything, or writes the ratchet and then the vault. -/
lemma meets_initVault {crash : Disk → Prop}
    {post : Except InitVaultError InitVaultOutput → Disk → Prop} (herror : ∀ e, post (.error e) disk)
    (hwrite : ∀ output bytes stored, FoundedFrom provider paths root disk output →
      HoldsRatchet provider output.rootSigningPublicKeyHash bytes stored →
      output.ratchet.StoredAs stored →
      crash disk ∧
        (∀ e, post (.error e) (disk.setRatchet output.rootSigningPublicKeyHash bytes)) ∧
        ∀ vaultBytes, encodeVault provider output.vault = .ok vaultBytes →
          crash (disk.setRatchet output.rootSigningPublicKeyHash bytes) ∧
            post (.ok output) ((disk.setRatchet output.rootSigningPublicKeyHash bytes).setVault
              paths.vaultPath vaultBytes)) :
    (initVault provider contended paths root).Meets disk crash post := by
  simp only [initVault, ensureNoVault, Program.meets_bind, Program.meets_read, meets_liftInit,
    meets_check]
  cases habsent : disk.vaults paths.vaultPath with
  | some bytes => simpa using herror _
  | none =>
    simp only [Option.isSome_none, Bool.false_eq_true, if_false]
    cases hvault : initialVault provider root with
    | error e => exact herror _
    | ok vault =>
      simp only [mapError_ok]
      cases hissues : ensureNoIssues (validateVault provider.toCryptoProvider vault
          (.new (keyHash provider.toCryptoProvider root.signingPublicKey))) with
      | error e => exact herror _
      | ok _ =>
        cases contended with
        | true => simpa [acquireRootStateLock] using herror _
        | false =>
          simp only [mapError_ok, acquireRootStateLock, Program.meets_ensure, Bool.not_false,
            if_true, habsent, Option.isSome_none, Bool.false_eq_true, if_false, meets_liftStore]
          have hfrom : FoundedFrom provider paths root disk
              ⟨paths, root.userId, keyHash provider.toCryptoProvider root.signingPublicKey, vault,
                (Ratchet.new (keyHash provider.toCryptoProvider root.signingPublicKey)).applyUpdate
                  (validateVault provider.toCryptoProvider vault (.new (keyHash
                    provider.toCryptoProvider root.signingPublicKey))).ratchetUpdate,
                validateVault provider.toCryptoProvider vault (.new (keyHash
                  provider.toCryptoProvider root.signingPublicKey))⟩ :=
            ⟨habsent, hvault, rfl, rfl, ensureNoIssues_eq_ok.mp hissues, rfl⟩
          refine meets_writeRatchet_of (fun bytes stored hholds hstored => ?_) fun e => herror _
          obtain ⟨hcrash, hfail, hdone⟩ := hwrite _ bytes stored hfrom hholds hstored
          refine ⟨hcrash, ?_⟩
          simp only [mapError_ok, writeVaultAtomic, Program.meets_bind, Program.meets_read]
          cases hencode : encodeVault provider vault with
          | error e => exact hfail _
          | ok vaultBytes =>
            obtain ⟨hlength, vault', hdecode, -, -⟩ := decodeVault_encodeVault hencode
            obtain ⟨hcrash', hpost⟩ := hdone vaultBytes hencode
            simp only [mapError_ok]
            exact (meets_writeVaultBytes hlength hdecode).mpr
              ⟨hcrash', Program.meets_pure.mpr hpost⟩

/-- The file of a new vault has its records, and brings the workspace to rest unless a journal of
the root was left behind. -/
structure Founded (provider : StoreProvider) (paths : WorkspacePaths) (disk disk' : Disk)
    (output : InitVaultOutput) (vault : VaultStore) : Prop where
  file : readVault provider paths disk' = .ok vault
  records : SameRecords output.vault vault
  atRest : CollisionFree provider.toCryptoProvider output.vault.records →
    (disk.roots output.rootSigningPublicKeyHash).transaction = none →
    (disk.roots output.rootSigningPublicKeyHash).joinCommit = none →
    AtRest provider paths output.rootSigningPublicKeyHash vault disk'

section Founding

variable {output : InitVaultOutput} {bytes vaultBytes : Bytes} {stored : Ratchet} {disk' : Disk}

lemma FoundedFrom.founded (h : FoundedFrom provider paths root disk output)
    (hholds : HoldsRatchet provider output.rootSigningPublicKeyHash bytes stored)
    (hstored : output.ratchet.StoredAs stored)
    (hencode : encodeVault provider output.vault = .ok vaultBytes) :
    ∃ vault, Founded provider paths disk ((disk.setRatchet output.rootSigningPublicKeyHash
      bytes).setVault paths.vaultPath vaultBytes) output vault := by
  obtain ⟨hlength, vault, hdecode, -, hmem⟩ := decodeVault_encodeVault hencode
  have hsame : SameRecords output.vault vault := fun signed => (hmem signed).symm
  have hread : readVault provider paths ((disk.setRatchet output.rootSigningPublicKeyHash
      bytes).setVault paths.vaultPath vaultBytes) = .ok vault :=
    readVault_eq_ok.mpr ⟨vaultBytes, readVaultBytes_eq_ok.mpr ⟨Disk.vaults_setVault, hlength⟩,
      decodeVaultAt_eq_ok.mpr hdecode⟩
  have hissues := h.issues
  rw [h.report] at hissues
  refine ⟨vault, hread, hsame, fun hcf hnone hjoin => ⟨hread, ?_, ⟨stored, ?_, ?_⟩, ?_, ?_⟩⟩
  · rw [← trustedRootCandidate_congr hsame]
    rw [h.rootHash] at hissues ⊢
    exact (founded_of_initialVault h.vault hissues).1
  · exact readRatchetForRoot_eq_some.mpr ⟨bytes, by simp, hholds⟩
  · rw [h.ratchet, h.report] at hstored
    exact (restsOn_of_learned hissues hstored).of_mem hcf hsame
  · simpa using hnone
  · simpa using hjoin

lemma FoundedFrom.users (h : FoundedFrom provider paths root disk output) (user : UserId) :
    user ∈ output.report.effective.users ↔ user = root.userId := by
  have hissues := h.issues
  rw [h.report, h.rootHash] at hissues ⊢
  exact (founded_of_initialVault h.vault hissues).2 user

/-- The making of a vault leaves the disk as it was, or with the new root's ratchet, or ends. -/
lemma initVault_outcome (h : (initVault provider contended paths root).Leaves disk disk') :
    disk' = disk ∨ disk.vaults paths.vaultPath = none ∧
      ((∃ bytes, disk' = disk.setRatchet
          (keyHash provider.toCryptoProvider root.signingPublicKey) bytes) ∨
        ∃ output, (initVault provider contended paths root).Ends disk output disk') := by
  have hmeets : (initVault provider contended paths root).Meets disk
      (fun t => t = disk ∨ disk.vaults paths.vaultPath = none ∧ ∃ bytes, t = disk.setRatchet
        (keyHash provider.toCryptoProvider root.signingPublicKey) bytes)
      fun result t => t = disk ∨ disk.vaults paths.vaultPath = none ∧
        ((∃ bytes, t = disk.setRatchet
          (keyHash provider.toCryptoProvider root.signingPublicKey) bytes) ∨
          ∃ output, result = .ok output) := by
    refine meets_initVault (fun _ => Or.inl rfl) fun output bytes stored hfrom _ _ => ?_
    rw [← hfrom.rootHash]
    exact ⟨Or.inl rfl, fun _ => Or.inr ⟨hfrom.absent, Or.inl ⟨bytes, rfl⟩⟩, fun _ _ =>
      ⟨Or.inr ⟨hfrom.absent, bytes, rfl⟩, Or.inr ⟨hfrom.absent, Or.inr ⟨output, rfl⟩⟩⟩⟩
  rcases h with hpassed | rfl
  · exact (hmeets.passed hpassed).imp_right fun ⟨habsent, hratchet⟩ => ⟨habsent, Or.inl hratchet⟩
  · rcases hmeets.result with hsame | ⟨habsent, hratchet | ⟨output, hresult⟩⟩
    · exact Or.inl hsame
    · exact Or.inr ⟨habsent, Or.inl hratchet⟩
    · exact Or.inr ⟨habsent, Or.inr ⟨output, hresult, rfl⟩⟩

lemma founded_of_ends (h : (initVault provider contended paths root).Ends disk output disk') :
    FoundedFrom provider paths root disk output ∧
      ∃ vault, Founded provider paths disk disk' output vault := by
  have hmeets : (initVault provider contended paths root).Meets disk (fun _ => True)
      fun result t => ∀ output, result = .ok output → FoundedFrom provider paths root disk output ∧
        ∃ vault, Founded provider paths disk t output vault := by
    refine meets_initVault (by simp) fun output bytes stored hfrom hholds hstored => ?_
    refine ⟨trivial, by simp, fun vaultBytes hencode => ⟨trivial, ?_⟩⟩
    rintro _ ⟨⟩
    exact ⟨hfrom, hfrom.founded hholds hstored hencode⟩
  exact hmeets.ends h output rfl

end Founding

/-- Making a vault never touches one that is there. It leaves the disk as it was, or with the new
root's ratchet, or with both files; and once it succeeds the vault holds the root and nobody else.
Every load then writes nothing and shows it so, where no journal and no join is left from before,
the cache that is trusted is genuine, and the hashes of the records do not collide. -/
theorem initVault_founds (provider : StoreProvider) (contended : Bool) (paths : WorkspacePaths)
    (root : RecordSigner) (disk : Disk) :
    (∀ disk', (initVault provider contended paths root).Leaves disk disk' → disk' = disk ∨
      disk.vaults paths.vaultPath = none ∧
        ((∃ bytes, disk' = disk.setRatchet
            (keyHash provider.toCryptoProvider root.signingPublicKey) bytes) ∨
          ∃ output, (initVault provider contended paths root).Ends disk output disk')) ∧
    ∀ output disk', (initVault provider contended paths root).Ends disk output disk' →
      output.report.issues = [] ∧
        (∀ user, user ∈ output.report.effective.users ↔ user = root.userId) ∧
        ∃ vault, Founded provider paths disk disk' output vault ∧
          (AtRest provider paths output.rootSigningPublicKeyHash vault disk' →
            CollisionFree provider.toCryptoProvider output.vault.records →
            CacheGenuine provider output.rootSigningPublicKeyHash vault disk' → ∀ contended',
              ∃ session, (load provider contended' paths).Ends disk' session disk' ∧
                Shows provider output.rootSigningPublicKeyHash vault session ∧
                ∀ user, user ∈ session.report.effective.users ↔ user = root.userId) := by
  refine ⟨fun disk' hleaves => initVault_outcome hleaves, fun output disk' hends => ?_⟩
  obtain ⟨hfrom, vault, hfounded⟩ := founded_of_ends hends
  refine ⟨hfrom.issues, hfrom.users, vault, hfounded, fun hrest hcf hcache contended' => ?_⟩
  obtain ⟨session, hload, hshows⟩ := hrest.loads contended' hcache
  have halike := judgedAlike_of_mem hcf hfounded.records (.new output.rootSigningPublicKeyHash)
  refine ⟨session, hload, hshows, fun user => ?_⟩
  rw [hshows.effective, ← EffectiveState.users_of_view halike.view, ← hfrom.users user, hfrom.report]

end NewVaults

section InitExample

open TestSupport

/-- The root as it signs its first records. -/
def rootSigner : RecordSigner where
  userId := rootUser.id
  signingPublicKey := rootUser.signingPublicKey
  hpkePublicKey := rootUser.hpkePublicKey
  sign message := rootUser.signingPublicKey ++ message

def newVault : VaultStore := .v1 ⟨[vaultRootRecord, trustRoot rootUser 0]⟩

def newTables : Tables where
  vaults := [newVault]
  ratchets := [ratchetStore (learnedAlone newVault)]
  transactions := []
  caches := []

theorem initVault_founds_root : ∃ output disk' session,
    (initVault (tableProvider newTables) false testPaths rootSigner).Ends (testDisk none none none)
        output disk' ∧
      (load (tableProvider newTables) false testPaths).Ends disk' session disk' ∧
      ∀ user, user ∈ session.report.effective.users ↔ user = rootUser.id := by
  have hresult : (initVault (tableProvider newTables) false testPaths rootSigner
      (testDisk none none none)).result.toOption.any (fun output =>
        decide (output.vault = newVault ∧ output.rootSigningPublicKeyHash = testRoot)) = true := by
    decide +kernel
  have huser : ((initVault (tableProvider newTables) false testPaths rootSigner
      (testDisk none none none)).last.roots testRoot).currentUser = none := by decide +kernel
  have hcf : CollisionFree (tableProvider newTables).toCryptoProvider newVault.records := by
    decide +kernel
  cases hinit : (initVault (tableProvider newTables) false testPaths rootSigner
      (testDisk none none none)).result with
  | error e => simp [hinit, Except.toOption] at hresult
  | ok output =>
    obtain ⟨hvault, hroot⟩ : output.vault = newVault ∧
        output.rootSigningPublicKeyHash = testRoot := by
      simpa [hinit, Except.toOption] using hresult
    obtain ⟨-, -, vault, hfounded, hloads⟩ := (initVault_founds (tableProvider newTables) false
      testPaths rootSigner (testDisk none none none)).2 output _ ⟨hinit, rfl⟩
    rw [← hvault] at hcf
    obtain ⟨session, hload, -, husers⟩ := hloads (hfounded.atRest hcf (by rw [hroot]; rfl)
      (by rw [hroot]; rfl)) hcf (cacheGenuine_of_no_user vault (hroot ▸ huser)) false
    exact ⟨output, _, session, ⟨hinit, rfl⟩, hload, husers⟩

end InitExample

end Thorax
