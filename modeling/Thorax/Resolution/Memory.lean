import Thorax.Resolution.Acceptance
import Thorax.RatchetRecords

/-!
# Validation and what it remembers

A validation compares a vault with a ratchet and says what the ratchet learns. Two ratchets that
agree on the counters lead to the same verdict up to the names of lost keys, and a ratchet that has
learned what a validation raised leads to the same verdict as before.
-/

namespace Thorax

open Collections
open Std (ExtTreeMap)

section Memory

variable {crypto : CryptoProvider} {ratchet ratchet' : Ratchet} {root : SelectedRoot}
variable {records : List VerifiedRecord} {vault : VaultStore} {known : BTreeSet HashValue}

/-- What a validation says apart from what the ratchet learns. -/
def SameVerdict (report report' : ValidationReport) : Prop :=
  report.effective = report'.effective ∧ report.issues = report'.issues

lemma SameVerdict.refl (report : ValidationReport) : SameVerdict report report := ⟨rfl, rfl⟩

lemma SameVerdict.symm {report report' : ValidationReport} (h : SameVerdict report report') :
    SameVerdict report' report := ⟨h.1.symm, h.2.symm⟩

lemma SameVerdict.trans {report report' report'' : ValidationReport}
    (h : SameVerdict report report') (h' : SameVerdict report' report'') :
    SameVerdict report report'' := ⟨h.1.trans h'.1, h.2.trans h'.2⟩

/-- Ratchets under which a list of records resolves alike: the same keys have regressed, by the
same counters, and lost keys have the same names. -/
structure AlikeFor (crypto : CryptoProvider) (root : SelectedRoot) (records : List VerifiedRecord)
    (ratchet ratchet' : Ratchet) : Prop where
  rollbackKeys : rollbackKeys crypto ratchet' root records = rollbackKeys crypto ratchet root records
  origins : ∀ key ∈ Thorax.rollbackKeys crypto ratchet root records,
    (observedOrigins crypto root records)[key]?.or ratchet'.origins[key]? =
      (observedOrigins crypto root records)[key]?.or ratchet.origins[key]?

lemma resolveRecords_of_alike (h : AlikeFor crypto root records ratchet ratchet') :
    resolveRecords crypto ratchet' root records = resolveRecords crypto ratchet root records := by
  have hkeys : regressedKeys ratchet' (currentWatermarks crypto root records) =
      regressedKeys ratchet (currentWatermarks crypto root records) := h.rollbackKeys
  have hconflicts : (regressedKeys ratchet (currentWatermarks crypto root records)).map
      (rollbackConflict crypto records ratchet' (currentWatermarks crypto root records)
        (observedOrigins crypto root records)) =
      (regressedKeys ratchet (currentWatermarks crypto root records)).map
        (rollbackConflict crypto records ratchet (currentWatermarks crypto root records)
          (observedOrigins crypto root records)) := by
    apply ExtTreeMap.ext_getElem?
    intro key
    simp only [ExtTreeMap.getElem?_map]
    cases hkey : (regressedKeys ratchet (currentWatermarks crypto root records))[key]? with
    | none => rfl
    | some remembered =>
      have hmem : key ∈ rollbackKeys crypto ratchet root records :=
        ExtTreeMap.isSome_getElem?_iff_mem.mp (by rw [rollbackKeys, hkey]; rfl)
      simp only [Option.map_some, rollbackConflict, h.origins key hmem]
  simp only [resolveRecords, hkeys, hconflicts]

/-- Origins that are remembered stay, and the others are learned. -/
lemma origins_applyUpdate (ratchet : Ratchet) (update : RatchetUpdate) (key : RecordKey) :
    (ratchet.applyUpdate update).origins[key]? =
      ratchet.origins[key]?.or update.origins[key]? := by
  have hfind : (update.origins.toList.find? fun entry => decide (entry.1 = key)).map Prod.snd =
      update.origins[key]? := by
    rw [← List.head?_filter, filter_toList]
    cases update.origins[key]? <;> simp
  simp only [Ratchet.applyUpdate, getElem?_collectNew, List.filterMap_some, hfind]

/-- An update that raises a ratchet no further than the records do, and learns no other origins,
changes nothing of how they resolve. -/
lemma alikeFor_applyUpdate {update : RatchetUpdate}
    (hraised : ∀ (key : RecordKey) (counter : ℕ), update.raisedWatermarks[key]? = some counter →
      (currentWatermarks crypto root records)[key]? = some counter)
    (horigins : ∀ (key : RecordKey) (origin : KeyOrigin), update.origins[key]? = some origin →
      (observedOrigins crypto root records)[key]? = some origin) :
    AlikeFor crypto root records ratchet (ratchet.applyUpdate update) where
  rollbackKeys := by
    apply ExtTreeMap.ext_getElem?
    intro key
    rw [getElem?_rollbackKeys, getElem?_rollbackKeys, getElem?_applyUpdate]
    cases hkey : update.raisedWatermarks[key]? with
    | none => rfl
    | some current =>
      rw [hraised key current hkey, Option.getD_some]
      cases hremembered : ratchet.watermarks[key]? with
      | none =>
        -- what is raised from nothing has not regressed
        simp [Option.filter]
      | some remembered =>
        rw [Option.getD_some]
        rcases le_or_gt remembered current with hle | hlt
        · simp [Option.filter, hle]
        · simp [Option.filter, hlt, max_eq_left hlt.le]
  origins := by
    intro key _
    rw [origins_applyUpdate]
    cases horigin : update.origins[key]? with
    | none => rw [Option.or_none]
    | some origin => rw [horigins key origin horigin, Option.some_or, Option.some_or]

/-- What a validation of the records lets a ratchet learn comes from the records. -/
lemma learned_of_resolved (h : resolvedWith crypto known vault ratchet = some (root, records)) :
    let update := (validateVaultWithVerified crypto vault ratchet known).ratchetUpdate
    (∀ (key : RecordKey) (counter : ℕ), update.raisedWatermarks[key]? = some counter →
      (currentWatermarks crypto root records)[key]? = some counter) ∧
    ∀ (key : RecordKey) (origin : KeyOrigin), update.origins[key]? = some origin →
      (observedOrigins crypto root records)[key]? = some origin := by
  obtain ⟨-, hraised, horigins, -⟩ := validateVaultWithVerified_of_resolved h
  simp only [hraised, horigins, ExtTreeMap.getElem?_filter']
  exact ⟨fun _ _ hkey => (Option.filter_eq_some_iff.mp hkey).1,
    fun _ _ hkey => (Option.filter_eq_some_iff.mp hkey).1⟩

/-- The format version a validation lets the ratchet learn is at most that of the vault. -/
lemma raisedFormatVersion_le :
    (validateVaultWithVerified crypto vault ratchet known).ratchetUpdate.raisedFormatVersion.getD 0 ≤
      vault.formatVersion := by
  rw [raisedFormatVersion_eq]
  split_ifs
  · exact le_refl _
  · exact Nat.zero_le _

/-- Learning a format version that a vault has makes the vault no older. -/
lemma lt_formatVersion_applyUpdate {update : RatchetUpdate} {version : ℕ}
    (h : update.raisedFormatVersion.getD 0 ≤ version) :
    version < (ratchet.applyUpdate update).formatVersion ↔ version < ratchet.formatVersion := by
  simp only [Ratchet.applyUpdate]
  cases hversion : update.raisedFormatVersion with
  | none => rfl
  | some raised =>
    rw [hversion, Option.getD_some] at h
    simp [h]

/-- Which records resolve depends on the ratchet's root and format version only. -/
lemma resolvedWith_congr (crypto : CryptoProvider) (known : BTreeSet HashValue)
    (hroot : ratchet'.trustedRoot = ratchet.trustedRoot)
    (hversion : vault.formatVersion < ratchet'.formatVersion ↔
      vault.formatVersion < ratchet.formatVersion) :
    resolvedWith crypto known vault ratchet' = resolvedWith crypto known vault ratchet := by
  simp only [resolvedWith, hroot, hversion]

/-- Vaults that resolve to the same records under alike ratchets get the same verdict. -/
lemma sameVerdict_of_alike (hroot : ratchet'.trustedRoot = ratchet.trustedRoot)
    (hversion : vault.formatVersion < ratchet'.formatVersion ↔
      vault.formatVersion < ratchet.formatVersion)
    (hresolved : resolvedWith crypto known vault ratchet = some (root, records))
    (halike : AlikeFor crypto root records ratchet ratchet') :
    SameVerdict (validateVaultWithVerified crypto vault ratchet' known)
      (validateVaultWithVerified crypto vault ratchet known) := by
  have hresolved' := (resolvedWith_congr crypto known hroot hversion).trans hresolved
  obtain ⟨heffective, -, -, hissues, -⟩ := validateVaultWithVerified_of_resolved hresolved
  obtain ⟨heffective', -, -, hissues', -⟩ := validateVaultWithVerified_of_resolved hresolved'
  have hsame := resolveRecords_of_alike halike
  exact ⟨by rw [heffective, heffective', hsame], by rw [hissues, hissues', hsame]⟩

/-- Remembering what a validation has raised does not change what it says. -/
lemma sameVerdict_applyUpdate (crypto : CryptoProvider) (vault : VaultStore) (ratchet : Ratchet)
    (known : BTreeSet HashValue) :
    SameVerdict (validateVaultWithVerified crypto vault (ratchet.applyUpdate
        (validateVaultWithVerified crypto vault ratchet known).ratchetUpdate) known)
      (validateVaultWithVerified crypto vault ratchet known) := by
  cases hresolved : resolvedWith crypto known vault ratchet with
  | none =>
    rw [(validateVaultWithVerified_of_unresolved hresolved).2.1]
    exact .refl _
  | some resolved =>
    obtain ⟨root, records⟩ := resolved
    obtain ⟨hraised, horigins⟩ := learned_of_resolved hresolved
    exact sameVerdict_of_alike rfl (lt_formatVersion_applyUpdate raisedFormatVersion_le) hresolved
      (alikeFor_applyUpdate hraised horigins)

end Memory

end Thorax
