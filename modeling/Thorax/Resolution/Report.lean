import Thorax.Resolution.Screening

/-!
# Reports

What a report says, in terms of the selected root and the verified records: which keys are in
conflict and why, and what the ratchet remembers afterwards.
-/

namespace Thorax

open Collections
open Std (ExtTreeMap)

/-! ### Conflicts -/

section Conflicts

variable {crypto : CryptoProvider} {ratchet : Ratchet} {root : SelectedRoot}
variable {records : List VerifiedRecord} {key : RecordKey}

/-- The keys that resolution makes inert. -/
def rollbackKeys (crypto : CryptoProvider) (ratchet : Ratchet) (root : SelectedRoot)
    (records : List VerifiedRecord) : BTreeMap RecordKey ℕ :=
  regressedKeys ratchet (currentWatermarks crypto root records)

lemma getElem?_rollbackKeys :
    (rollbackKeys crypto ratchet root records)[key]? =
      ratchet.watermarks[key]?.filter fun remembered =>
        decide ((currentWatermarks crypto root records)[key]?.getD 0 < remembered) := by
  simp [rollbackKeys, regressedKeys]

lemma mem_rollbackKeys :
    key ∈ rollbackKeys crypto ratchet root records ↔
      (currentWatermarks crypto root records)[key]?.getD 0 < ratchet.watermarks[key]?.getD 0 := by
  rw [← ExtTreeMap.isSome_getElem?_iff_mem, getElem?_rollbackKeys]
  cases ratchet.watermarks[key]? with
  | none => simp
  | some remembered => simp [Option.filter]

/-- A tie is reported as such. -/
lemma kind_materializeConflicts {slots : BTreeMap RecordKey ConflictSlot}
    {verified : List VerifiedRecord} {report : ConflictReport}
    (h : (materializeConflicts crypto verified slots)[key]? = some report) :
    report.kind = .tie := by
  simp only [materializeConflicts, ExtTreeMap.getElem?_map, Option.map_eq_some_iff] at h
  obtain ⟨slot, _, rfl⟩ := h
  rfl

lemma mem_materializeConflicts {slots : BTreeMap RecordKey ConflictSlot}
    {verified : List VerifiedRecord} :
    key ∈ materializeConflicts crypto verified slots ↔ key ∈ slots := by
  simp [materializeConflicts]

/-- The final resolution, with the regressed keys inert. -/
def finalState (crypto : CryptoProvider) (ratchet : Ratchet) (root : SelectedRoot)
    (records : List VerifiedRecord) : EffectiveState :=
  (resolveEffectiveWithDeletions crypto root records
    (rollbackKeys crypto ratchet root records)).1

/-- The ties among the records of secrets. -/
def secretTies (crypto : CryptoProvider) (ratchet : Ratchet) (root : SelectedRoot)
    (records : List VerifiedRecord) : BTreeMap RecordKey ConflictSlot :=
  (lwwResolution records (rollbackKeys crypto ratchet root records)
    (classifySecret (finalState crypto ratchet root records).authorities)).conflicted

lemma conflicted_resolveRecords :
    (resolveRecords crypto ratchet root records).conflicted =
      (finalState crypto ratchet root records).conflicted ∪
        materializeConflicts crypto records (secretTies crypto ratchet root records) ∪
        (rollbackKeys crypto ratchet root records).map (rollbackConflict crypto records ratchet
          (currentWatermarks crypto root records) (observedOrigins crypto root records)) := rfl

/-- A key is in conflict when it regressed or when its leaders diverge. -/
lemma mem_conflicted_resolveRecords :
    key ∈ (resolveRecords crypto ratchet root records).conflicted ↔
      key ∈ rollbackKeys crypto ratchet root records ∨
        key ∈ (finalState crypto ratchet root records).conflicted ∨
        key ∈ secretTies crypto ratchet root records := by
  rw [conflicted_resolveRecords, ExtTreeMap.mem_union_iff, ExtTreeMap.mem_union_iff,
    mem_materializeConflicts, ExtTreeMap.mem_map]
  tauto

/-- Rollbacks are reported at the regressed keys, with what is remembered there. -/
lemma rollback_conflict_iff {remembered : ℕ} :
    (∃ report, (resolveRecords crypto ratchet root records).conflicted[key]? = some report ∧
        report.kind = .rollback remembered) ↔
      (rollbackKeys crypto ratchet root records)[key]? = some remembered := by
  have hfinal : ∀ report, (finalState crypto ratchet root records).conflicted[key]? = some report →
      report.kind = .tie := fun report h => kind_materializeConflicts h
  simp only [conflicted_resolveRecords, ExtTreeMap.getElem?_union, ExtTreeMap.getElem?_map]
  constructor
  · rintro ⟨report, h, hkind⟩
    rcases Option.or_eq_some_iff.mp h with hroll | ⟨_, htie⟩
    · obtain ⟨other, hother, rfl⟩ := Option.map_eq_some_iff.mp hroll
      rw [hother, ConflictKind.rollback.inj hkind]
    · rcases Option.or_eq_some_iff.mp htie with htie | ⟨_, htie⟩
      · simp [kind_materializeConflicts htie] at hkind
      · simp [hfinal report htie] at hkind
  · intro h
    exact ⟨_, by rw [h]; rfl, rfl⟩

/-- A state reports a rollback at a key. -/
def EffectiveState.RollbackAt (self : EffectiveState) (key : RecordKey) : Prop :=
  ∃ report remembered, self.conflicted[key]? = some report ∧ report.kind = .rollback remembered

/-- Rollbacks are reported at the regressed keys only. -/
lemma rollbackAt_resolveRecords :
    (resolveRecords crypto ratchet root records).RollbackAt key ↔
      key ∈ rollbackKeys crypto ratchet root records := by
  rw [← ExtTreeMap.isSome_getElem?_iff_mem, Option.isSome_iff_exists]
  simp only [← rollback_conflict_iff, EffectiveState.RollbackAt]
  exact exists_comm

end Conflicts

/-! ### Resolved vaults -/

section Vaults

variable (crypto : CryptoProvider)

/-- The root and the verified records of a vault that validation can resolve, when the envelopes
of some hashes count as verified. -/
def resolvedWith (verified : BTreeSet HashValue) (vault : VaultStore) (ratchet : Ratchet) :
    Option (SelectedRoot × List VerifiedRecord) :=
  if vault.formatVersion < ratchet.formatVersion then none
  else
    match selectRoot crypto (distinctRecords crypto ∅ vault.records) ratchet.trustedRoot
        verified with
    | .error _ => none
    | .ok root => some (root, (screenRecords crypto verified root
        (distinctRecords crypto ∅ vault.records)).verifiedRecords)

/-- The root and the verified records of a vault that validation can resolve. -/
def resolvedRecords (vault : VaultStore) (ratchet : Ratchet) :
    Option (SelectedRoot × List VerifiedRecord) :=
  if vault.formatVersion < ratchet.formatVersion then none
  else
    match selectRoot crypto (distinctRecords crypto ∅ vault.records) ratchet.trustedRoot ∅ with
    | .error _ => none
    | .ok root => some (root,
        (screenRecords crypto ∅ root (distinctRecords crypto ∅ vault.records)).verifiedRecords)

variable {crypto} {vault : VaultStore} {ratchet : Ratchet} {root : SelectedRoot}
variable {records : List VerifiedRecord}

lemma resolvedWith_empty : resolvedWith crypto ∅ vault ratchet =
    resolvedRecords crypto vault ratchet := rfl

section Verified

variable {verified : BTreeSet HashValue}

lemma resolvedWith_eq_some :
    resolvedWith crypto verified vault ratchet = some (root, records) ↔
      ¬ vault.formatVersion < ratchet.formatVersion ∧
      selectRoot crypto (distinctRecords crypto ∅ vault.records) ratchet.trustedRoot verified =
        .ok root ∧
      (screenRecords crypto verified root
        (distinctRecords crypto ∅ vault.records)).verifiedRecords = records := by
  unfold resolvedWith
  split_ifs with hv
  · simp [hv]
  · cases hroot : selectRoot crypto (distinctRecords crypto ∅ vault.records)
        ratchet.trustedRoot verified with
    | error issue => simp
    | ok r =>
      simp only [Option.some.injEq, Prod.mk.injEq, Except.ok.injEq, hv, not_false_eq_true, true_and]
      constructor
      · rintro ⟨rfl, h⟩
        exact ⟨rfl, h⟩
      · rintro ⟨rfl, h⟩
        exact ⟨rfl, h⟩

variable (crypto verified) in
/-- Past the format version, a report is the one of the records. -/
lemma validateVaultWithVerified_v1 {v1 : VaultStoreV1}
    (h : ¬ (VaultStore.v1 v1).formatVersion < ratchet.formatVersion) :
    let report := validateVaultWithVerified crypto (.v1 v1) ratchet verified
    let report1 := validateV1 crypto v1 ratchet verified
    report.effective = report1.effective ∧
      report.ratchetUpdate.raisedWatermarks = report1.ratchetUpdate.raisedWatermarks ∧
      report.ratchetUpdate.origins = report1.ratchetUpdate.origins ∧
      report.issues = report1.issues ∧ report.warnings = report1.warnings := by
  simp only [validateVaultWithVerified, h, if_false]
  split_ifs <;> exact ⟨rfl, rfl, rfl, rfl, rfl⟩

/-- The report of a vault that resolves. -/
lemma validateVaultWithVerified_of_resolved
    (h : resolvedWith crypto verified vault ratchet = some (root, records)) :
    let report := validateVaultWithVerified crypto vault ratchet verified
    let screening := screenRecords crypto verified root (distinctRecords crypto ∅ vault.records)
    report.effective = resolveRecords crypto ratchet root records ∧
      report.ratchetUpdate.raisedWatermarks = (currentWatermarks crypto root records).filter
        (fun key current => decide (ratchet.watermarks[key]?.getD 0 < current)) ∧
      report.ratchetUpdate.origins = (observedOrigins crypto root records).filter
        (fun key _ => !ratchet.origins.contains key) ∧
      report.issues = screening.issues ++
        (if (resolveRecords crypto ratchet root records).authorityUnresolved then
          [.authorityDidNotConverge] else []) ∧
      report.warnings = warningsFor screening.unknownRecords ++
        screening.ambiguousKeys.map .ambiguousSigningKey := by
  obtain ⟨hversion, hroot, hrecords⟩ := resolvedWith_eq_some.mp h
  obtain ⟨v1⟩ := vault
  simp only [VaultStore.records] at hroot hrecords
  have hfields := validateVaultWithVerified_v1 crypto verified hversion
  simp only [validateV1, hroot, hrecords, raisedUpdate] at hfields
  exact hfields

/-- The contested keys can be read off the warnings. -/
lemma mem_warningsFor_ambiguous {count : ℕ} {keyHash : HashValue} {rest : List ValidationWarning} :
    .ambiguousSigningKey keyHash ∈ warningsFor count ++ rest ↔
      .ambiguousSigningKey keyHash ∈ rest := by
  unfold warningsFor
  split_ifs <;> simp

/-- A vault that does not resolve yields nothing but an issue. -/
lemma validateVaultWithVerified_of_unresolved
    (h : resolvedWith crypto verified vault ratchet = none) :
    let report := validateVaultWithVerified crypto vault ratchet verified
    report.effective = .unresolved ∧ report.ratchetUpdate = .empty ∧ report.warnings = [] ∧
      report.issues ≠ [] := by
  obtain ⟨v1⟩ := vault
  unfold resolvedWith at h
  split_ifs at h with hversion
  · simp [validateVaultWithVerified, hversion]
  · simp only [VaultStore.records] at h
    cases hroot : selectRoot crypto (distinctRecords crypto ∅ v1.records) ratchet.trustedRoot
        verified with
    | ok root => simp [hroot] at h
    | error issue =>
      simp [validateVaultWithVerified, hversion, validateV1, hroot]

/-- The format version that is raised depends on the issues only. -/
lemma raisedFormatVersion_eq (vault : VaultStore) :
    (validateVaultWithVerified crypto vault ratchet verified).ratchetUpdate.raisedFormatVersion =
      if ratchet.formatVersion < vault.formatVersion ∧
          (validateVaultWithVerified crypto vault ratchet verified).issues = [] then
        some vault.formatVersion
      else none := by
  obtain ⟨v1⟩ := vault
  have hnone : (validateV1 crypto v1 ratchet verified).ratchetUpdate.raisedFormatVersion = none := by
    simp only [validateV1]
    split <;> rfl
  simp only [validateVaultWithVerified]
  split_ifs with hold hraise hboth hboth hboth <;> simp_all [RatchetUpdate.empty]

end Verified

lemma resolvedRecords_eq_some :
    resolvedRecords crypto vault ratchet = some (root, records) ↔
      ¬ vault.formatVersion < ratchet.formatVersion ∧
      selectRoot crypto (distinctRecords crypto ∅ vault.records) ratchet.trustedRoot ∅ = .ok root ∧
      (screenRecords crypto ∅ root (distinctRecords crypto ∅ vault.records)).verifiedRecords =
        records := by
  rw [← resolvedWith_empty]
  exact resolvedWith_eq_some

/-- The report of a vault that resolves without known hashes. -/
lemma validateVault_of_resolved (h : resolvedRecords crypto vault ratchet = some (root, records)) :
    (validateVault crypto vault ratchet).effective = resolveRecords crypto ratchet root records ∧
      (validateVault crypto vault ratchet).ratchetUpdate.raisedWatermarks =
        (currentWatermarks crypto root records).filter
          (fun key current => decide (ratchet.watermarks[key]?.getD 0 < current)) ∧
      (validateVault crypto vault ratchet).issues =
        (screenRecords crypto ∅ root (distinctRecords crypto ∅ vault.records)).issues ++
          (if (resolveRecords crypto ratchet root records).authorityUnresolved then
            [.authorityDidNotConverge] else []) := by
  rw [← resolvedWith_empty] at h
  obtain ⟨heffective, hraised, _, hissues, _⟩ := validateVaultWithVerified_of_resolved h
  exact ⟨heffective, hraised, hissues⟩

lemma validateVault_of_unresolved (h : resolvedRecords crypto vault ratchet = none) :
    (validateVault crypto vault ratchet).effective = .unresolved ∧
      (validateVault crypto vault ratchet).ratchetUpdate = .empty ∧
      (validateVault crypto vault ratchet).issues ≠ [] := by
  rw [← resolvedWith_empty] at h
  obtain ⟨heffective, hupdate, _, hissues⟩ := validateVaultWithVerified_of_unresolved h
  exact ⟨heffective, hupdate, hissues⟩

/-- Which records resolve depends on the ratchet's root and format version only. -/
lemma resolvedRecords_congr {ratchet' : Ratchet}
    (hroot : ratchet'.trustedRoot = ratchet.trustedRoot)
    (hversion : vault.formatVersion < ratchet'.formatVersion ↔
      vault.formatVersion < ratchet.formatVersion) :
    resolvedRecords crypto vault ratchet' = resolvedRecords crypto vault ratchet := by
  simp only [resolvedRecords, hroot, hversion]

/-- Remembering what one vault showed does not change how another resolves. -/
lemma resolvedRecords_applyUpdate (vault vault' : VaultStore) :
    resolvedRecords crypto vault'
        (ratchet.applyUpdate (validateVault crypto vault ratchet).ratchetUpdate) =
      resolvedRecords crypto vault' ratchet := by
  refine resolvedRecords_congr rfl ?_
  obtain ⟨v1⟩ := vault
  obtain ⟨v1'⟩ := vault'
  have hraised : (validateVault crypto (.v1 v1) ratchet).ratchetUpdate.raisedFormatVersion = _ :=
    raisedFormatVersion_eq (.v1 v1)
  split_ifs at hraised with h
  · simp [Ratchet.applyUpdate, hraised, VaultStore.formatVersion]
  · simp [Ratchet.applyUpdate, hraised]

/-! ### Admitted counters -/

variable (crypto) in
/-- The highest admitted counter at each key of a vault, none where it does not resolve. -/
def admittedCounters (vault : VaultStore) (ratchet : Ratchet) : BTreeMap RecordKey ℕ :=
  match resolvedRecords crypto vault ratchet with
  | some (root, records) => currentWatermarks crypto root records
  | none => ∅

lemma admittedCounters_of_resolved
    (h : resolvedRecords crypto vault ratchet = some (root, records)) :
    admittedCounters crypto vault ratchet = currentWatermarks crypto root records := by
  simp [admittedCounters, h]

/-- After a validation the ratchet remembers, at each key, the larger of what it remembered and
what was admitted. -/
lemma watermarks_applyUpdate (h : resolvedRecords crypto vault ratchet = some (root, records))
    (key : RecordKey) :
    ((ratchet.applyUpdate
        (validateVault crypto vault ratchet).ratchetUpdate).watermarks[key]?).getD 0 =
      max (ratchet.watermarks[key]?.getD 0)
        ((currentWatermarks crypto root records)[key]?.getD 0) := by
  rw [getElem?_applyUpdate, (validateVault_of_resolved h).2.1, ExtTreeMap.getElem?_filter']
  cases (currentWatermarks crypto root records)[key]? with
  | none => simp
  | some current =>
    by_cases hlt : ratchet.watermarks[key]?.getD 0 < current
    · simp [Option.filter, hlt]
    · simp only [Option.filter, hlt, decide_false, Bool.false_eq_true, if_false, Option.getD_some]
      omega

variable (crypto vault ratchet) in
/-- A validation raises no counter at the vault root: its record has none. -/
lemma vaultRoot_ratchetUpdate :
    (validateVault crypto vault ratchet).ratchetUpdate.raisedWatermarks[RecordKey.vaultRoot]? =
      none := by
  cases h : resolvedRecords crypto vault ratchet with
  | none =>
    rw [(validateVault_of_unresolved h).2.1]
    rfl
  | some resolved =>
    obtain ⟨root, records⟩ := resolved
    rw [(validateVault_of_resolved h).2.1, ExtTreeMap.getElem?_filter']
    cases hcurrent : (currentWatermarks crypto root records)[RecordKey.vaultRoot]? with
    | none => rfl
    | some counter =>
      obtain ⟨⟨record, ⟨-, hkey, hcounter, -⟩, -⟩, -⟩ := admittedWatermarks_eq_some.mp hcurrent
      cases hbody : record.body <;>
        simp [VerifiedRecord.key, hbody, recordKeyFor, RecordBodyV1.lwwCounter] at hkey hcounter

end Vaults

end Thorax
