import Thorax.Resolution.Report

/-!
# Counters

The counter of the next commit and the floor under it, in terms of the records that count.
-/

namespace Thorax

open Collections
open Std (ExtTreeMap)

section Counters

variable {crypto : CryptoProvider} {ratchet : Ratchet} {root : SelectedRoot}
variable {records : List VerifiedRecord}

/-- A record that counts in the first resolution. -/
abbrev Counts (crypto : CryptoProvider) (root : SelectedRoot) (records : List VerifiedRecord)
    (key : RecordKey) (record : VerifiedRecord) : Prop :=
  CountsAt records (provisional crypto root records).1 (provisional crypto root records).2 key
    record

/-- Records that count alike at a key leave it with one counter. -/
lemma currentWatermarks_congr {records' : List VerifiedRecord} {key : RecordKey}
    (h : ∀ record, Counts crypto root records' key record ↔ Counts crypto root records key record) :
    (currentWatermarks crypto root records')[key]? = (currentWatermarks crypto root records)[key]? := by
  rw [Option.ext_iff]
  intro counter
  rw [currentWatermarks, currentWatermarks, admittedWatermarks_eq_some, admittedWatermarks_eq_some]
  simp only [h]

/-- A key has not regressed if some record that counts there still reaches what is remembered. -/
lemma not_mem_rollbackKeys_iff {key : RecordKey} :
    key ∉ rollbackKeys crypto ratchet root records ↔ ratchet.watermarks[key]?.getD 0 = 0 ∨
      ∃ record, Counts crypto root records key record ∧
        ratchet.watermarks[key]?.getD 0 ≤ record.counter := by
  rw [mem_rollbackKeys, not_lt]
  cases hcurrent : (currentWatermarks crypto root records)[key]? with
  | none =>
    have hnone := admittedWatermarks_eq_none.mp hcurrent
    simp [hnone]
  | some counter =>
    obtain ⟨⟨record, hcounts, rfl⟩, hall⟩ := admittedWatermarks_eq_some.mp hcurrent
    rw [Option.getD_some]
    constructor
    · exact fun hle => Or.inr ⟨record, hcounts, hle⟩
    · rintro (hzero | ⟨other, hother, hle⟩)
      · exact hzero.le.trans (Nat.zero_le _)
      · exact hle.trans (hall other hother)

lemma lt_getD_max? {l : List ℕ} {c : ℕ} : c < l.max?.getD 0 ↔ ∃ a ∈ l, c < a := by
  cases hmax : l.max? with
  | none => simp [List.max?_eq_none_iff.mp hmax]
  | some m =>
    obtain ⟨hmem, hle⟩ := List.max?_eq_some_iff.mp hmax
    constructor
    · exact fun h => ⟨m, hmem, h⟩
    · rintro ⟨a, ha, hlt⟩
      exact hlt.trans_le (hle a ha)

lemma counter_le_of_resolved {vault : VaultStore}
    (h : resolvedRecords crypto vault ratchet = some (root, records)) :
    ∀ record ∈ records, record.counter ≤ maxLwwCounter := by
  obtain ⟨_, _, rfl⟩ := resolvedRecords_eq_some.mp h
  intro record hmem
  unfold VerifiedRecord.counter
  cases hc : record.body.lwwCounter with
  | none => exact Nat.zero_le _
  | some c => exact counter_le_of_structure (structure_of_verified hmem) hc

/-- The next counter lies above every counter that counts, and above nothing else. -/
lemma lt_nextCounter_iff (hle : ∀ record ∈ records, record.counter ≤ maxLwwCounter) {c : ℕ} :
    c < nextCounter (resolveRecords crypto ratchet root records) ↔
      ∃ key record, Counts crypto root records key record ∧ c ≤ record.counter := by
  have hvalues : ∀ a, a ∈ values (currentWatermarks crypto root records) → a ≤ maxLwwCounter := by
    intro a ha
    obtain ⟨key, hkey⟩ := mem_values.mp ha
    obtain ⟨⟨record, hcounts, rfl⟩, _⟩ := admittedWatermarks_eq_some.mp hkey
    exact hle record hcounts.1
  have hmax : c < nextCounter (resolveRecords crypto ratchet root records) ↔
      ∃ a ∈ values (currentWatermarks crypto root records), c ≤ a := by
    have hadmitted : (resolveRecords crypto ratchet root records).admittedCounterMax =
        (values (currentWatermarks crypto root records)).max? := rfl
    rw [nextCounter, hadmitted]
    cases hm : (values (currentWatermarks crypto root records)).max? with
    | none => simp [List.max?_eq_none_iff.mp hm]
    | some m =>
      obtain ⟨hmem, hall⟩ := List.max?_eq_some_iff.mp hm
      have hbound := hvalues m hmem
      simp only [saturatingAdd, maxLwwCounter] at hbound ⊢
      constructor
      · intro hlt
        exact ⟨m, hmem, by omega⟩
      · rintro ⟨a, ha, hca⟩
        have := hall a ha
        omega
  rw [hmax]
  constructor
  · rintro ⟨a, ha, hca⟩
    obtain ⟨key, hkey⟩ := mem_values.mp ha
    obtain ⟨⟨record, hcounts, rfl⟩, _⟩ := admittedWatermarks_eq_some.mp hkey
    exact ⟨key, record, hcounts, hca⟩
  · rintro ⟨key, record, hcounts, hca⟩
    cases hw : (currentWatermarks crypto root records)[key]? with
    | none => exact absurd hcounts (admittedWatermarks_eq_none.mp hw record)
    | some a =>
      exact ⟨a, mem_values.mpr ⟨key, hw⟩,
        hca.trans ((admittedWatermarks_eq_some.mp hw).2 record hcounts)⟩

/-- A key regressed when it is remembered above every counter that counts there. -/
lemma rollbackKeys_eq_some {key : RecordKey} {remembered : ℕ} :
    (rollbackKeys crypto ratchet root records)[key]? = some remembered ↔
      ratchet.watermarks[key]? = some remembered ∧ 0 < remembered ∧
        ∀ record, Counts crypto root records key record → record.counter < remembered := by
  rw [getElem?_rollbackKeys, Option.filter_eq_some_iff, decide_eq_true_eq]
  refine and_congr_right fun _ => ?_
  cases hw : (currentWatermarks crypto root records)[key]? with
  | none =>
    have hnone := admittedWatermarks_eq_none.mp hw
    simp only [Option.getD_none, iff_self_and]
    exact fun _ record hcounts => absurd hcounts (hnone record)
  | some c =>
    obtain ⟨⟨record, hcounts, rfl⟩, hall⟩ := admittedWatermarks_eq_some.mp hw
    rw [Option.getD_some]
    constructor
    · exact fun hlt => ⟨Nat.zero_lt_of_lt hlt, fun other ho => (hall other ho).trans_lt hlt⟩
    · exact fun h => h.2 record hcounts

/-- The floor clears every regressed key. -/
lemma lt_rollbackCounterFloor_iff {c : ℕ} :
    c < (resolveRecords crypto ratchet root records).rollbackCounterFloor ↔
      ∃ (key : RecordKey) (remembered : ℕ),
        (rollbackKeys crypto ratchet root records)[key]? = some remembered ∧
        c < saturatingAdd remembered 1 := by
  rw [EffectiveState.rollbackCounterFloor, lt_getD_max?]
  simp only [List.mem_filterMap]
  constructor
  · rintro ⟨floor, ⟨⟨key, report⟩, hentry, hkind⟩, hlt⟩
    rw [ExtTreeMap.mem_toList_iff_getElem?_eq_some] at hentry
    cases hk : report.kind with
    | tie => simp [hk] at hkind
    | rollback remembered =>
      simp only [hk, Option.some.injEq] at hkind
      subst hkind
      exact ⟨key, remembered, rollback_conflict_iff.mp ⟨report, hentry, hk⟩, hlt⟩
  · rintro ⟨key, remembered, hkey, hlt⟩
    obtain ⟨report, hentry, hk⟩ := rollback_conflict_iff.mpr hkey
    exact ⟨_, ⟨(key, report), ExtTreeMap.mem_toList_iff_getElem?_eq_some.mpr hentry,
      by simp [hk]⟩, hlt⟩

end Counters

end Thorax
