import Thorax.Ops.Conflicts
import Thorax.Resolution.Served
import Thorax.TestStore

/-!
# Accepting a rollback

Accepting a rollback should lower what is remembered at one key to what the vault shows there, and
leave everything as it is if it cannot. The counter it writes is the one the session saw before the
locks, and it writes before it looks whether the conflict is gone. So it keeps its word exactly
when the conflict is still the one the session saw and the survivors do not tie.
-/

namespace Thorax

open Collections Durable
open Std (ExtTreeMap)

/-! ### Ratchets that agree -/

/-- Two ratchets that remember the same, up to the order of the unknown records. -/
structure Ratchet.Agrees (before after : Ratchet) : Prop where
  trustedRoot : after.trustedRoot = before.trustedRoot
  watermarks : after.watermarks = before.watermarks
  origins : after.origins = before.origins
  formatVersion : after.formatVersion = before.formatVersion
  unknownRecords : ∀ unknown, unknown ∈ after.unknownRecords ↔ unknown ∈ before.unknownRecords

/-- Two ratchets that remember the same at every key but one. -/
structure Ratchet.AgreesExceptAt (key : RecordKey) (before after : Ratchet) : Prop where
  trustedRoot : after.trustedRoot = before.trustedRoot
  watermarks : ∀ other ≠ key, after.watermarks[other]? = before.watermarks[other]?
  origins : ∀ other ≠ key, after.origins[other]? = before.origins[other]?
  formatVersion : after.formatVersion = before.formatVersion
  unknownRecords : ∀ unknown, unknown ∈ after.unknownRecords ↔ unknown ∈ before.unknownRecords

/-- The ratchet of a root is stored as it was. -/
def RatchetUnchanged (provider : StoreProvider) (root : HashValue) (disk disk' : Disk) : Prop :=
  (disk'.roots root).ratchet = (disk.roots root).ratchet ∨
    ∃ before after, readRatchetForRoot provider root disk = .ok (some before) ∧
      readRatchetForRoot provider root disk' = .ok (some after) ∧ before.Agrees after

section Stored

variable {provider : StoreProvider} {root : HashValue} {disk disk' : Disk} {before ratchet : Ratchet}
  {key : RecordKey} {counter : ℕ} {bytes : Bytes}

/-- The file of a ratchet gives it back, unless it has a counter at the vault root. -/
lemma agrees_of_encodeRatchet (h : encodeRatchet provider ratchet = .ok bytes)
    (hlen : bytes.length ≤ maxRatchetBytes) (hlegible : ratchet.OriginsLegible)
    (hroot : ratchet.watermarks[RecordKey.vaultRoot]? = none) :
    ∃ stored, HoldsRatchet provider ratchet.trustedRoot bytes stored ∧ ratchet.Agrees stored := by
  obtain ⟨stored, hread, hstored⟩ := storedAs_of_encodeRatchet (.ratchet ratchet.trustedRoot) h
  have hmemory : stored.memory = ratchet.memory := by
    rw [hstored.memory, Ratchet.storedMemory_eq_memory hroot]
  obtain ⟨hwatermarks, hversion⟩ := Ratchet.memory_eq_iff.mp hmemory
  exact ⟨stored, ⟨hlen, hread, hstored.trustedRoot⟩, hstored.trustedRoot, hwatermarks,
    origins_of_encodeRatchet h hread hlegible hroot, hversion, hstored.unknownRecords⟩

lemma Ratchet.agreesExceptAt_acceptAt (h : (before.acceptAt key counter).Agrees ratchet) :
    before.AgreesExceptAt key ratchet := by
  refine ⟨?_, fun other hother => ?_, fun other hother => ?_, ?_, ?_⟩
  · rw [h.trustedRoot, Ratchet.trustedRoot_acceptAt]
  · rw [h.watermarks, Ratchet.watermarks_acceptAt, if_neg hother]
  · rw [h.origins, Ratchet.origins_acceptAt, if_neg fun hkey => hother hkey.1]
  · rw [h.formatVersion, Ratchet.formatVersion_acceptAt]
  · intro unknown
    rw [h.unknownRecords, Ratchet.unknownRecords_acceptAt]

/-- Unchanged ratchets have the same watermarks. -/
lemma RatchetUnchanged.watermarks (h : RatchetUnchanged provider root disk disk')
    (hread : readRatchetForRoot provider root disk = .ok (some before))
    (hread' : readRatchetForRoot provider root disk' = .ok (some ratchet)) :
    ratchet.watermarks = before.watermarks := by
  rcases h with hfile | ⟨before', after, hbefore, hafter, hagrees⟩
  · have hsame : readRatchetForRoot provider root disk' = readRatchetForRoot provider root disk := by
      simp only [readRatchetForRoot, hfile]
    rw [hread, hread'] at hsame
    obtain rfl := Option.some.inj (Except.ok.inj hsame)
    rfl
  · obtain rfl := Option.some.inj (Except.ok.inj (hread.symm.trans hbefore))
    obtain rfl := Option.some.inj (Except.ok.inj (hread'.symm.trans hafter))
    exact hagrees.watermarks

end Stored

/-! ### Sessions under the locks -/

section Sessions

variable (provider : StoreProvider) (session : LockedSession)

/-- The verdict on the vault of a session under a ratchet. -/
def LockedSession.verdict (ratchet : Ratchet) : ValidationReport :=
  validateVaultWithVerified provider.toCryptoProvider session.vault ratchet
    session.report.effective.verifiedRecordHashes

/-- What resolves of the vault of a session under a ratchet. -/
def LockedSession.resolved (ratchet : Ratchet) : Option (SelectedRoot × List VerifiedRecord) :=
  resolvedWith provider.toCryptoProvider session.report.effective.verifiedRecordHashes session.vault
    ratchet

/-- The highest counter that the vault of a session admits at a key. -/
def LockedSession.admitted (key : RecordKey) : Option ℕ :=
  (session.resolved provider session.ratchet).bind fun resolved =>
    (currentWatermarks provider.toCryptoProvider resolved.1 resolved.2)[key]?

/-- The report of a session is a verdict under a ratchet that a file can hold. -/
def LockedSession.Judged : Prop :=
  ∃ (vault : VaultStore) (ratchet : Ratchet) (verified : BTreeSet HashValue),
    ratchet.watermarks[RecordKey.vaultRoot]? = none ∧
    session.report = validateVaultWithVerified provider.toCryptoProvider vault ratchet verified

variable {provider session} {disk : Disk} {session' : LockedSession} {key : RecordKey}
  {contended : Bool} {mutate : Ratchet → Ratchet} {found : Option Ratchet} {bytes : Bytes}

lemma Refreshes.judged (h : Refreshes provider disk session session')
    (hsession : session.Judged provider) : session'.Judged provider := by
  cases h with
  | same hbytes hratchet => exact hsession
  | reload hbytes hvault hroot hratchet hstale =>
    exact ⟨_, _, _, vaultRoot_of_readStrongestRatchet hratchet, rfl⟩

/-- The vault root is never in conflict. -/
lemma vaultRoot_not_mem_conflicted {crypto : CryptoProvider} {vault : VaultStore}
    {ratchet : Ratchet} {verified : BTreeSet HashValue}
    (hroot : ratchet.watermarks[RecordKey.vaultRoot]? = none) :
    RecordKey.vaultRoot ∉
      (validateVaultWithVerified crypto vault ratchet verified).effective.conflicted := by
  cases hresolved : resolvedWith crypto verified vault ratchet with
  | none =>
    rw [(validateVaultWithVerified_of_unresolved hresolved).1]
    exact ExtTreeMap.not_mem_empty
  | some resolved =>
    obtain ⟨root, records⟩ := resolved
    rw [(validateVaultWithVerified_of_resolved hresolved).1, mem_conflicted_iff_tied]
    rintro (hrollback | htied)
    · rw [mem_rollbackKeys, hroot] at hrollback
      simp at hrollback
    · obtain ⟨record, hrecord, -⟩ := View.tied_eq_true.mp htied
      obtain ⟨-, -, hcompetes, hkey⟩ := View.mem_pool.mp (View.mem_leaders.mp hrecord).1
      exact (View.key_ne_of_competes hcompetes).1 hkey

/-- What a rewrite finds is the ratchet of the session under the locks. -/
lemma Rewrites.found_eq
    (h : Rewrites provider contended mutate disk session session' found bytes) :
    found = some session'.ratchet := by
  have hnone : readTransaction provider session.ratchet.trustedRoot disk = .ok none :=
    readTransaction_eq_none.mpr h.transaction
  have hstrongest : ∃ pending, readStrongestRatchet provider session.paths
      session.ratchet.trustedRoot disk = .ok (session'.ratchet, pending) := by
    cases h.refreshes with
    | same hbytes hratchet => exact ⟨_, hratchet⟩
    | reload hbytes hvault hroot hratchet hstale => exact ⟨_, hratchet⟩
  obtain ⟨pending, hstrongest⟩ := hstrongest
  obtain ⟨file, hfile, hmerged⟩ :=
    readStrongestRatchetOptionalWithPending_eq_ok.mp (readStrongestRatchet_eq_ok.mp hstrongest)
  rcases hmerged with ⟨-, rfl, -⟩ | ⟨transaction, -, -, hjournal, -⟩
  · exact Except.ok.inj (h.reads.symm.trans hfile)
  · simp [hnone] at hjournal

end Sessions

/-! ### What accepting should do -/

section Accepting

variable (provider : StoreProvider) (contended : Bool) (key : RecordKey) (disk : Disk)
  (session : LockedSession)

/-- How accepting a rollback should end. On success the vault and the ratchet under the locks showed
a rollback at the key, and only there the stored ratchet changes: it now remembers the counter that
the vault admits. On failure the stored ratchet does not change. -/
def EndsExactly (result : Except OpsError AcceptRollbackOutput) (state : Disk × LockedSession) :
    Prop :=
  match result with
  | .ok _ => ∃ session' stored, Refreshes provider disk session session' ∧
      readRatchetForRoot provider session.ratchet.trustedRoot disk = .ok (some session'.ratchet) ∧
      readRatchetForRoot provider session.ratchet.trustedRoot state.1 = .ok (some stored) ∧
      (session'.verdict provider session'.ratchet).effective.RollbackAt key ∧
      session'.ratchet.AgreesExceptAt key stored ∧
      stored.watermarks[key]? = session'.admitted provider key
  | .error _ => RatchetUnchanged provider session.ratchet.trustedRoot disk state.1

def AcceptsExactly : Prop :=
  EndsExactly provider key disk session
    (acceptRollback provider contended key (disk, session)).result
    (acceptRollback provider contended key (disk, session)).last

/-- Under the locks the key is still rolled back to the counter to accept, and what survives does
not tie once the key is no longer held back. -/
structure StillRolledBack (accepted : ℕ) (session' : LockedSession) : Prop where
  regressed : (session'.verdict provider session'.ratchet).effective.RollbackAt key
  counter : session'.admitted provider key = acceptedWatermark accepted
  untied : ∀ root records, session'.resolved provider session'.ratchet = some (root, records) →
    ¬ (finalView provider.toCryptoProvider (session'.ratchet.acceptAt key accepted) root
        records).tied records
      (rollbackKeys provider.toCryptoProvider (session'.ratchet.acceptAt key accepted) root records)
      key = true

/-- Under the locks the ratchet remembers the counter to accept already, and the key is in conflict
nevertheless. -/
structure AlreadyAccepted (accepted : ℕ) (session' : LockedSession) : Prop where
  remembered : session'.ratchet.watermarks[key]? = acceptedWatermark accepted
  conflicted : key ∈ (session'.verdict provider session'.ratchet).effective.conflicted

variable {provider contended key disk session} {session' : LockedSession} {accepted : ℕ}

lemma rollbackAt_of_rollbackToAccept {report : ValidationReport} {found : ℕ × ℕ}
    (h : rollbackToAccept report key = .ok found) : report.effective.RollbackAt key := by
  unfold rollbackToAccept at h
  cases hconflict : report.effective.conflicted[key]? with
  | none => simp [hconflict] at h
  | some conflict =>
    cases hkind : conflict.kind with
    | tie => simp [hconflict, hkind] at h
    | rollback remembered => exact ⟨conflict, remembered, hconflict, hkind⟩

lemma resolved_acceptAt : session'.resolved provider (session'.ratchet.acceptAt key accepted) =
    session'.resolved provider session'.ratchet := by
  simp only [LockedSession.resolved, resolvedWith, Ratchet.trustedRoot_acceptAt,
    Ratchet.formatVersion_acceptAt]

/-- Only a vault that resolves shows a rollback. -/
lemma resolved_of_rollbackAt {ratchet : Ratchet}
    (h : (session'.verdict provider ratchet).effective.RollbackAt key) :
    ∃ root records, session'.resolved provider ratchet = some (root, records) := by
  cases hresolved : session'.resolved provider ratchet with
  | some resolved => exact ⟨resolved.1, resolved.2, rfl⟩
  | none =>
    obtain ⟨report, -, hreport, -⟩ := h
    rw [LockedSession.verdict, (validateVaultWithVerified_of_unresolved hresolved).1] at hreport
    simp [EffectiveState.unresolved] at hreport

/-- With the counter accepted the key is in conflict only if what survives ties. -/
lemma mem_conflicted_acceptAt {root : SelectedRoot} {records : List VerifiedRecord}
    (hresolved : session'.resolved provider session'.ratchet = some (root, records))
    (hcounter : session'.admitted provider key = acceptedWatermark accepted) :
    key ∈ (session'.verdict provider
        (session'.ratchet.acceptAt key accepted)).effective.conflicted ↔
      (finalView provider.toCryptoProvider (session'.ratchet.acceptAt key accepted) root
        records).tied records (rollbackKeys provider.toCryptoProvider
          (session'.ratchet.acceptAt key accepted) root records) key = true := by
  have hadmitted : (currentWatermarks provider.toCryptoProvider root records)[key]? =
      acceptedWatermark accepted := by
    simpa [LockedSession.admitted, hresolved] using hcounter
  rw [LockedSession.verdict, (validateVaultWithVerified_of_resolved
    (resolved_acceptAt.trans hresolved)).1, mem_conflicted_iff_tied, mem_rollbackKeys,
    Ratchet.watermarks_acceptAt, if_pos rfl, hadmitted]
  simp

/-- Once it gets to its write, accepting writes, and succeeds if the key is no longer in conflict. -/
lemma Rewrites.meets_acceptRollback {remembered : ℕ} {bytes : Bytes}
    (hrollback : rollbackToAccept session.report key = .ok (remembered, accepted))
    (h : Rewrites provider contended (fun trust => trust.acceptAt key accepted) disk session session'
      (some session'.ratchet) bytes) :
    (acceptRollback provider contended key).Meets (disk, session) (fun _ => True)
      fun result state => state.1 = disk.setRatchet session.ratchet.trustedRoot bytes ∧
        if key ∈ (session'.verdict provider
            (session'.ratchet.acceptAt key accepted)).effective.conflicted then
          ∃ e, result = .error e
        else ∃ output, result = .ok output := by
  have hroot : (session'.ratchet.acceptAt key accepted).trustedRoot =
      session.ratchet.trustedRoot := by
    rw [Ratchet.trustedRoot_acceptAt, h.refreshes.trustedRoot]
  simp only [acceptRollback, current, onDisk, Program.meets_bind, Program.meets_read,
    Program.meets_zoom, meets_check, hrollback, mapError_ok]
  refine h.meets_rewriteRatchet trivial ?_
  simp only [Option.getD_some, Program.meets_ensure, Program.meets_pure, hroot]
  split_ifs with hclear hconflict hconflict
  · rw [Bool.not_eq_true', ← Bool.not_eq_true, ExtTreeMap.contains_iff_mem] at hclear
    exact absurd hconflict hclear
  · exact ⟨trivial, _, rfl⟩
  · exact ⟨trivial, _, rfl⟩
  · rw [Bool.not_eq_true', Bool.not_eq_false, ExtTreeMap.contains_iff_mem] at hclear
    exact absurd hclear hconflict

/-- Whether accepting ends as it should, once it gets to its write. -/
lemma Rewrites.accepts_iff {remembered : ℕ} {bytes : Bytes} (hkey : key ≠ .vaultRoot)
    (hrollback : rollbackToAccept session.report key = .ok (remembered, accepted))
    (h : Rewrites provider contended (fun trust => trust.acceptAt key accepted) disk session session'
      (some session'.ratchet) bytes) :
    AcceptsExactly provider contended key disk session ↔
      StillRolledBack provider key accepted session' ∨
        AlreadyAccepted provider key accepted session' := by
  have hread : readRatchetForRoot provider session.ratchet.trustedRoot disk =
      .ok (some session'.ratchet) := h.reads
  obtain ⟨_, _, _, hdecode, _⟩ := readRatchetForRoot_eq_some.mp hread
  have hlegible := originsLegible_of_decodeRatchet hdecode
  have hvaultRoot : (session'.ratchet.acceptAt key accepted).watermarks[RecordKey.vaultRoot]? =
      none := by
    rw [Ratchet.watermarks_acceptAt, if_neg (Ne.symm hkey)]
    exact vaultRoot_of_decodeRatchet hdecode
  have hencodes : encodeRatchet provider (session'.ratchet.acceptAt key accepted) = .ok bytes :=
    h.encodes
  obtain ⟨stored, hholds, hagrees⟩ :=
    agrees_of_encodeRatchet hencodes h.length hlegible.acceptAt hvaultRoot
  have hstored : readRatchetForRoot provider session.ratchet.trustedRoot
      (disk.setRatchet session.ratchet.trustedRoot bytes) = .ok (some stored) := by
    have hroot : (session'.ratchet.acceptAt key accepted).trustedRoot =
        session.ratchet.trustedRoot := by
      rw [Ratchet.trustedRoot_acceptAt, h.refreshes.trustedRoot]
    exact readRatchetForRoot_eq_some.mpr ⟨bytes, by simp, hroot ▸ hholds⟩
  have hwatermark : stored.watermarks[key]? = acceptedWatermark accepted := by
    rw [hagrees.watermarks, Ratchet.watermarks_acceptAt, if_pos rfl]
  obtain ⟨hlast, hresult⟩ := (h.meets_acceptRollback hrollback).result
  unfold AcceptsExactly EndsExactly
  by_cases hconflict : key ∈ (session'.verdict provider
      (session'.ratchet.acceptAt key accepted)).effective.conflicted
  · rw [if_pos hconflict] at hresult
    obtain ⟨e, hresult⟩ := hresult
    simp only [hresult, hlast]
    constructor
    · intro hunchanged
      have hsame : session'.ratchet.watermarks[key]? = acceptedWatermark accepted := by
        rw [← hunchanged.watermarks hread hstored]
        exact hwatermark
      rw [Ratchet.acceptAt_eq_self hlegible hsame] at hconflict
      exact Or.inr ⟨hsame, hconflict⟩
    · rintro (hstill | halready)
      · obtain ⟨root, records, hresolved⟩ := resolved_of_rollbackAt hstill.regressed
        exact absurd ((mem_conflicted_acceptAt hresolved hstill.counter).mp hconflict)
          (hstill.untied root records hresolved)
      · rw [Ratchet.acceptAt_eq_self hlegible halready.remembered] at hagrees
        exact Or.inr ⟨session'.ratchet, stored, hread, hstored, hagrees⟩
  · rw [if_neg hconflict] at hresult
    obtain ⟨output, hresult⟩ := hresult
    simp only [hresult, hlast]
    constructor
    · rintro ⟨locked, stored', hfresh, -, hstored', hregressed, -, hcounter⟩
      obtain rfl := h.refreshes.unique hfresh
      obtain rfl := Option.some.inj (Except.ok.inj (hstored.symm.trans hstored'))
      have hadmitted : session'.admitted provider key = acceptedWatermark accepted :=
        hcounter.symm.trans hwatermark
      refine Or.inl ⟨hregressed, hadmitted, fun root records hresolved htied => ?_⟩
      exact hconflict ((mem_conflicted_acceptAt hresolved hadmitted).mpr htied)
    · rintro (hstill | halready)
      · exact ⟨session', stored, h.refreshes, hread, hstored, hstill.regressed,
          Ratchet.agreesExceptAt_acceptAt hagrees, hwatermark.trans hstill.counter.symm⟩
      · rw [Ratchet.acceptAt_eq_self hlegible halready.remembered] at hconflict
        exact absurd halready.conflicted hconflict

/-- Accepting that does not get to its write changes nothing on disk. -/
lemma acceptsExactly_of_not_rewrites
    (h : ∀ remembered accepted session' bytes,
      rollbackToAccept session.report key = .ok (remembered, accepted) →
      ¬ Rewrites provider contended (fun trust => trust.acceptAt key accepted) disk session session'
        (some session'.ratchet) bytes) :
    AcceptsExactly provider contended key disk session := by
  have hmeets : (acceptRollback provider contended key).Meets (disk, session) (fun _ => True)
      (EndsExactly provider key disk session) := by
    simp only [acceptRollback, current, onDisk, Program.meets_bind, Program.meets_read,
      Program.meets_zoom, meets_check]
    cases hrollback : rollbackToAccept session.report key with
    | error e => exact Or.inl rfl
    | ok found =>
      obtain ⟨remembered, accepted⟩ := found
      simp only [mapError_ok]
      refine meets_rewriteRatchet (fun e => Or.inl rfl) (fun session' e _ => Or.inl rfl) ?_
      intro session' found bytes hrewrites
      obtain rfl := hrewrites.found_eq
      exact absurd hrewrites (h remembered accepted session' bytes hrollback)
  exact hmeets.result

/-- Accepting a rollback ends as it should exactly if, whenever it gets to its write, either the key
is still rolled back to the counter the session saw and what survives does not tie, or the ratchet
remembers that counter already and the key is in conflict nevertheless. -/
theorem acceptsExactly_iff (hsession : session.Judged provider) :
    AcceptsExactly provider contended key disk session ↔
      ∀ remembered accepted session' bytes,
        rollbackToAccept session.report key = .ok (remembered, accepted) →
        Rewrites provider contended (fun trust => trust.acceptAt key accepted) disk session session'
          (some session'.ratchet) bytes →
        StillRolledBack provider key accepted session' ∨
          AlreadyAccepted provider key accepted session' := by
  have hkey : ∀ remembered accepted,
      rollbackToAccept session.report key = .ok (remembered, accepted) → key ≠ .vaultRoot := by
    rintro remembered accepted hrollback rfl
    obtain ⟨vault, ratchet, verified, hroot, hreport⟩ := hsession
    have hfree : session.report.effective.conflicted[RecordKey.vaultRoot]? = none := by
      rw [hreport]
      exact ExtTreeMap.getElem?_eq_none (vaultRoot_not_mem_conflicted hroot)
    simp [rollbackToAccept, hfree] at hrollback
  constructor
  · intro haccepts remembered accepted session' bytes hrollback hrewrites
    exact (hrewrites.accepts_iff (hkey _ _ hrollback) hrollback).mp haccepts
  · intro h
    by_cases hwrites : ∃ remembered accepted session' bytes,
        rollbackToAccept session.report key = .ok (remembered, accepted) ∧
        Rewrites provider contended (fun trust => trust.acceptAt key accepted) disk session session'
          (some session'.ratchet) bytes
    · obtain ⟨remembered, accepted, session', bytes, hrollback, hrewrites⟩ := hwrites
      exact (hrewrites.accepts_iff (hkey _ _ hrollback) hrollback).mpr
        (h remembered accepted session' bytes hrollback hrewrites)
    · exact acceptsExactly_of_not_rewrites fun remembered accepted session' bytes hrollback hrewrites =>
        hwrites ⟨remembered, accepted, session', bytes, hrollback, hrewrites⟩

end Accepting

section Example

open TestSupport

/-- The machine remembers a value of the secret that the vault no longer shows. -/
def rolledBackRatchet : Ratchet := ratchetWith [(.secret testSecretId, 10)]

def acceptedRatchet : Ratchet := ratchetWith [(.secret testSecretId, 5)]

/-- One value of the secret survives, or two that tie. -/
def survivorVault : VaultStore := .v1 ⟨[vaultRootRecord, secretRecord rootUser [rootUser] 5]⟩

def tiedSurvivorsVault : VaultStore :=
  .v1 ⟨[vaultRootRecord, secretRecord rootUser [rootUser] 5,
    secretRecord rootUser [rootUser, testUser 1] 5]⟩

def rolledBackTables : Tables where
  vaults := [survivorVault, tiedSurvivorsVault]
  ratchets := [ratchetStore rolledBackRatchet, ratchetStore acceptedRatchet]
  transactions := []
  caches := []

def rolledBackDisk (vault : UInt8) : Disk :=
  testDisk (some (vaultFile vault)) (some (ratchetFile 0)) none

/-- The session of a load of a vault file. -/
def rolledBackSession (vault : VaultStore) (position : UInt8) : LockedSession where
  paths := testPaths
  vault := vault
  vaultBytes := vaultFile position
  ratchet := rolledBackRatchet
  report := validateVaultWithVerified (tableProvider rolledBackTables).toCryptoProvider vault
    rolledBackRatchet ∅
  verifications := .direct
  pendingTransaction := none
  recoveredTransaction := false
  persistence := .live

lemma judged_rolledBackSession (vault : VaultStore) (position : UInt8) :
    (rolledBackSession vault position).Judged (tableProvider rolledBackTables) :=
  ⟨vault, rolledBackRatchet, ∅, rfl, rfl⟩

theorem acceptsExactly_survivor :
    AcceptsExactly (tableProvider rolledBackTables) false (.secret testSecretId)
      (rolledBackDisk 0) (rolledBackSession survivorVault 0) := by
  refine (acceptsExactly_iff (judged_rolledBackSession survivorVault 0)).mpr ?_
  intro remembered accepted session' bytes hrollback hrewrites
  have hfound : rollbackToAccept (rolledBackSession survivorVault 0).report
      (.secret testSecretId) = .ok (10, 5) := by
    decide +kernel
  obtain ⟨rfl, rfl⟩ := Prod.ext_iff.mp (Except.ok.inj (hrollback.symm.trans hfound))
  have hsame : Refreshes (tableProvider rolledBackTables) (rolledBackDisk 0)
      (rolledBackSession survivorVault 0) (rolledBackSession survivorVault 0) :=
    .same rfl rfl
  obtain rfl := hrewrites.refreshes.unique hsame
  have huntied : ((rolledBackSession survivorVault 0).resolved (tableProvider rolledBackTables)
      rolledBackRatchet).all (fun resolved =>
        !(finalView (tableProvider rolledBackTables).toCryptoProvider
          (rolledBackRatchet.acceptAt (.secret testSecretId) 5) resolved.1 resolved.2).tied
            resolved.2 (rollbackKeys (tableProvider rolledBackTables).toCryptoProvider
              (rolledBackRatchet.acceptAt (.secret testSecretId) 5) resolved.1 resolved.2)
            (.secret testSecretId)) = true := by
    decide +kernel
  have hverdict : rollbackToAccept ((rolledBackSession survivorVault 0).verdict
      (tableProvider rolledBackTables) rolledBackRatchet) (.secret testSecretId) = .ok (10, 5) := by
    decide +kernel
  refine Or.inl ⟨rollbackAt_of_rollbackToAccept hverdict, by decide +kernel,
    fun root records hresolved htied => ?_⟩
  replace hresolved : (rolledBackSession survivorVault 0).resolved
      (tableProvider rolledBackTables) rolledBackRatchet = some (root, records) := hresolved
  rw [hresolved, Option.all_some, Bool.not_eq_true'] at huntied
  exact Bool.eq_false_iff.mp huntied htied

/-- What survives ties: the ratchet is lowered although accepting fails. -/
theorem not_acceptsExactly_tiedSurvivors :
    ¬ AcceptsExactly (tableProvider rolledBackTables) false (.secret testSecretId)
      (rolledBackDisk 1) (rolledBackSession tiedSurvivorsVault 1) := by
  intro h
  have hresult : (acceptRollback (tableProvider rolledBackTables) false (.secret testSecretId)
      (rolledBackDisk 1, rolledBackSession tiedSurvivorsVault 1)).result =
        .error (.operationNotEffective "accepting the rollback did not clear the conflict") := by
    decide +kernel
  have hbefore : readRatchetForRoot (tableProvider rolledBackTables) testRoot (rolledBackDisk 1) =
      .ok (some rolledBackRatchet) := rfl
  have hafter : readRatchetForRoot (tableProvider rolledBackTables) testRoot
      (acceptRollback (tableProvider rolledBackTables) false (.secret testSecretId)
        (rolledBackDisk 1, rolledBackSession tiedSurvivorsVault 1)).last.1 =
          .ok (some acceptedRatchet) := by
    decide +kernel
  simp only [AcceptsExactly, EndsExactly, hresult] at h
  have hsame := RatchetUnchanged.watermarks h hbefore hafter
  have hdiffer : acceptedRatchet.watermarks[RecordKey.secret testSecretId]? ≠
      rolledBackRatchet.watermarks[RecordKey.secret testSecretId]? := by
    decide
  exact hdiffer (by rw [hsame])

end Example

end Thorax
