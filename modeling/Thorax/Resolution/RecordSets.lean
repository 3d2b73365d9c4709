import Thorax.Resolution.Memory
import Thorax.Resolution.Screening

/-!
# Vaults as sets of records

Two vault files that hold the same records, in whatever order, are judged alike.
-/

namespace Thorax

open Collections

/-- Reports on the same records: they differ in the order of lists at most. -/
structure JudgedAlike (a b : ValidationReport) : Prop where
  view : a.effective.view = b.effective.view
  ratchetUpdate : a.ratchetUpdate = b.ratchetUpdate
  warnings : a.warnings = b.warnings
  issues : a.issues.Perm b.issues

section RecordSets

variable {crypto : CryptoProvider} {vault vault' : VaultStore} {ratchet : Ratchet}

lemma JudgedAlike.refl (a : ValidationReport) : JudgedAlike a a := ⟨rfl, rfl, rfl, .refl _⟩

lemma judgedAlike_validateV1 {records records' : List VaultRecordV1}
    (hcf : CollisionFree crypto records) (h : ∀ signed, signed ∈ records ↔ signed ∈ records')
    (ratchet : Ratchet) :
    JudgedAlike (validateV1 crypto ⟨records⟩ ratchet ∅) (validateV1 crypto ⟨records'⟩ ratchet ∅) := by
  have hperm := distinctRecords_perm hcf h
  have hcf' : CollisionFree crypto (distinctRecords crypto ∅ records) :=
    hcf.mono fun signed hs => (mem_of_mem_distinctRecords hs).1
  simp only [validateV1, ← selectRoot_perm hperm]
  cases hroot : selectRoot crypto (distinctRecords crypto ∅ records) ratchet.trustedRoot ∅ with
  | error issue => exact .refl _
  | ok root =>
    obtain ⟨hverified, hissues, hunknown, hambiguous⟩ := screenRecords_perm hperm hcf' hroot
    have hsep : HashesSeparate (screenRecords crypto ∅ root (distinctRecords crypto ∅
        records)).verifiedRecords := hashesSeparate_verified hcf'
    have hbytes : BytesSeparate crypto (screenRecords crypto ∅ root (distinctRecords crypto ∅
        records)).verifiedRecords := bytesSeparate_verified hcf'
    have horigins : OriginsAgree (screenRecords crypto ∅ root (distinctRecords crypto ∅
        records)).verifiedRecords := originsAgree_verified hcf'
    have hview := resolveRecords_view_perm hverified hsep hbytes ratchet root horigins
    refine ⟨hview, ?_, ?_, ?_⟩
    · simp only [currentWatermarks_perm hverified hsep hbytes,
        observedOrigins_perm hverified hsep hbytes root horigins]
    · simp only [hunknown, hambiguous]
    · simp only [EffectiveState.authorityUnresolved_of_view hview]
      exact hissues.append_right _

lemma VaultStore.formatVersion_eq (vault vault' : VaultStore) :
    vault'.formatVersion = vault.formatVersion := by
  cases vault
  cases vault'
  rfl

/-- The records of a vault count as a set. -/
lemma judgedAlike_of_mem (hcf : CollisionFree crypto vault.records)
    (h : ∀ signed, signed ∈ vault.records ↔ signed ∈ vault'.records) (ratchet : Ratchet) :
    JudgedAlike (validateVault crypto vault ratchet) (validateVault crypto vault' ratchet) := by
  obtain ⟨⟨records⟩⟩ := vault
  obtain ⟨⟨records'⟩⟩ := vault'
  have hv1 : JudgedAlike (validateV1 crypto ⟨records⟩ ratchet ∅)
      (validateV1 crypto ⟨records'⟩ ratchet ∅) := judgedAlike_validateV1 hcf h ratchet
  have hempty : (validateV1 crypto ⟨records'⟩ ratchet ∅).issues.isEmpty =
      (validateV1 crypto ⟨records⟩ ratchet ∅).issues.isEmpty := by
    rw [Bool.eq_iff_iff, List.isEmpty_iff_length_eq_zero, List.isEmpty_iff_length_eq_zero,
      hv1.issues.length_eq]
  simp only [validateVault, validateVaultWithVerified, hempty,
    VaultStore.formatVersion_eq (.v1 ⟨records⟩) (.v1 ⟨records'⟩)]
  split_ifs
  · exact .refl _
  · exact ⟨hv1.view, by simp only [hv1.ratchetUpdate], hv1.warnings, hv1.issues⟩
  · exact hv1

end RecordSets

end Thorax
