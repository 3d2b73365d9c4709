import Thorax.Resolution.Acceptance
import Thorax.TestSupport

/-!
# Records of unknown kinds

An older build reads a vault with kinds of records it does not know. It validates such a vault as
if these records were not there, and warns of their number.
-/

namespace Thorax

open Collections
open Std (ExtTreeMap ExtTreeSet)

section Unknown

variable {crypto : CryptoProvider} {known : BTreeSet HashValue} {ratchet : Ratchet}
variable {root : SelectedRoot} {records : List VaultRecordV1} {trustedRoot : HashValue}

lemma judgeRecord_ne_unknown {known : BTreeSet HashValue} {resolution : SignerResolution}
    {signed : VaultRecordV1} {body : RecordBodyV1} (hbody : signed.body = .known body) :
    judgeRecord crypto known root resolution signed ≠ .unknown := by
  simp only [judgeRecord, hbody]
  repeat' split
  all_goals simp

/-- A record of a kind that this build can read. -/
def VaultRecordV1.isKnown (self : VaultRecordV1) : Bool := self.body.known?.isSome

/-- What yields nothing for records of unknown kinds passes over them. -/
lemma filterMap_isKnown {α : Type} {f : VaultRecordV1 → Option α}
    (hf : ∀ signed raw, signed.body = .unknown raw → f signed = none) :
    (records.filter VaultRecordV1.isKnown).filterMap f = records.filterMap f := by
  rw [List.filterMap_filter]
  refine List.filterMap_congr fun signed _ => ?_
  split_ifs with hknown
  · rfl
  · cases hbody : signed.body with
    | known body => simp [VaultRecordV1.isKnown, hbody, Evolving.known?] at hknown
    | unknown raw => exact (hf signed raw hbody).symm

lemma selectRoot_isKnown : selectRoot crypto (records.filter VaultRecordV1.isKnown) trustedRoot
    known = selectRoot crypto records trustedRoot known := by
  unfold selectRoot
  rw [filterMap_isKnown fun signed raw hbody => by simp [rootMatch, hbody]]

lemma signerResolution_isKnown :
    signerResolution crypto known root (records.filter VaultRecordV1.isKnown) =
      signerResolution crypto known root records := by
  have hbodies : userBodies crypto (records.filter VaultRecordV1.isKnown) =
      userBodies crypto records := filterMap_isKnown fun signed raw hbody => by simp [hbody]
  have hattested : attestedUsers crypto known root.root.id (records.filter VaultRecordV1.isKnown) =
      attestedUsers crypto known root.root.id records := by
    apply ExtTreeSet.ext_mem
    intro user
    simp only [attestedUsers, mem_collectSet, List.mem_filter]
    refine or_congr_right (exists_congr fun signed => ?_)
    refine and_congr_left fun hattests => and_iff_left ?_
    cases hbody : signed.body with
    | known body => simp [VaultRecordV1.isKnown, hbody, Evolving.known?]
    | unknown raw => simp [attestation, hbody] at hattests
  simp only [signerResolution, introduce, hbodies, hattested]

/-- Exactly the records of unknown kinds are counted as such. -/
lemma isUnknown_judgeRecord {resolution : SignerResolution} (signed : VaultRecordV1) :
    (judgeRecord crypto known root resolution signed).isUnknown = !signed.isKnown := by
  cases hbody : signed.body with
  | known body =>
    have hne : judgeRecord crypto known root resolution signed ≠ .unknown :=
      judgeRecord_ne_unknown hbody
    rw [show signed.isKnown = true by simp [VaultRecordV1.isKnown, hbody, Evolving.known?]]
    cases hverdict : judgeRecord crypto known root resolution signed with
    | unknown => exact absurd hverdict hne
    | _ => rfl
  | unknown raw =>
    simp [judgeRecord, hbody, RecordVerdict.isUnknown, VaultRecordV1.isKnown, Evolving.known?]

/-- Of the records of unknown kinds nothing remains but their number. -/
lemma screenRecords_isKnown :
    screenRecords crypto known root (records.filter VaultRecordV1.isKnown) =
      { screenRecords crypto known root records with unknownRecords := 0 } := by
  have hjudge : ∀ signed raw, signed.body = .unknown raw → ∀ resolution,
      judgeRecord crypto known root resolution signed = .unknown :=
    fun signed raw hbody resolution => by simp [judgeRecord, hbody]
  simp only [screenRecords, signerResolution_isKnown, List.filterMap_map, Screening.mk.injEq,
    and_true]
  refine ⟨filterMap_isKnown fun signed raw hbody => ?_, filterMap_isKnown fun signed raw hbody => ?_,
    ?_⟩
  · simp [hjudge signed raw hbody, RecordVerdict.verified?]
  · simp [hjudge signed raw hbody, RecordVerdict.issue?]
  · rw [List.countP_map, List.countP_eq_zero]
    intro signed hsigned
    rw [Function.comp_apply, isUnknown_judgeRecord, (List.mem_filter.mp hsigned).2]
    simp

/-- A warning that names the number of records of unknown kinds. -/
def ValidationWarning.isUnknownRecords : ValidationWarning → Bool
  | .unknownRecords _ => true
  | _ => false

lemma warningsFor_zero_append (count : ℕ) (keys : List HashValue) :
    warningsFor 0 ++ keys.map ValidationWarning.ambiguousSigningKey =
      (warningsFor count ++ keys.map ValidationWarning.ambiguousSigningKey).filter
        (!·.isUnknownRecords) := by
  have hkeys : (keys.map ValidationWarning.ambiguousSigningKey).filter (!·.isUnknownRecords) =
      keys.map .ambiguousSigningKey := by
    refine List.filter_eq_self.mpr fun warning hwarning => ?_
    obtain ⟨key, -, rfl⟩ := List.mem_map.mp hwarning
    rfl
  have hcount : (warningsFor count).filter (!·.isUnknownRecords) = [] := by
    unfold warningsFor
    split_ifs <;> rfl
  rw [List.filter_append, hkeys, hcount]
  rfl

/-- The report of the records is the one without those of unknown kinds, but for the warning. -/
lemma validateV1_isKnown {vault : VaultStoreV1}
    (hinj : ∀ a ∈ vault.records, ∀ b ∈ vault.records,
      recordHash crypto a = recordHash crypto b → a = b) :
    validateV1 crypto ⟨vault.records.filter VaultRecordV1.isKnown⟩ ratchet known =
      { validateV1 crypto vault ratchet known with
        warnings := (validateV1 crypto vault ratchet known).warnings.filter
          (!·.isUnknownRecords) } := by
  have hdistinct : distinctRecords crypto ∅ (vault.records.filter VaultRecordV1.isKnown) =
      (distinctRecords crypto ∅ vault.records).filter VaultRecordV1.isKnown :=
    distinctRecords_filter hinj ∅ fun _ _ _ => Iff.rfl
  simp only [validateV1, hdistinct, selectRoot_isKnown]
  cases selectRoot crypto (distinctRecords crypto ∅ vault.records) ratchet.trustedRoot known with
  | error issue => rfl
  | ok root => simp only [screenRecords_isKnown, warningsFor_zero_append (screenRecords crypto known
      root (distinctRecords crypto ∅ vault.records)).unknownRecords]

/-- Records of unknown kinds are warned of once, where there are any. -/
lemma filter_isUnknownRecords (count : ℕ) (keys : List HashValue) :
    (warningsFor count ++ keys.map ValidationWarning.ambiguousSigningKey).filter
        (·.isUnknownRecords) = warningsFor count := by
  have hkeys : (keys.map ValidationWarning.ambiguousSigningKey).filter (·.isUnknownRecords) =
      [] := by
    refine List.filter_eq_nil_iff.mpr fun warning hwarning => ?_
    obtain ⟨key, -, rfl⟩ := List.mem_map.mp hwarning
    simp [ValidationWarning.isUnknownRecords]
  have hcount : (warningsFor count).filter (·.isUnknownRecords) = warningsFor count := by
    unfold warningsFor
    split_ifs <;> rfl
  rw [List.filter_append, hkeys, hcount, List.append_nil]

variable (crypto known ratchet) in
/-- A build that cannot read some kinds of records reports of a vault with them what it reports of
the vault without them, but for a warning with their number: it is there once where there are such
records and a root is found. The hashes of different records of the vault are different. -/
theorem unknownKinds_inert (vault : VaultStoreV1)
    (hinj : ∀ a ∈ vault.records, ∀ b ∈ vault.records,
      recordHash crypto a = recordHash crypto b → a = b) :
    let report := validateVaultWithVerified crypto (.v1 vault) ratchet known
    let count := (distinctRecords crypto ∅ vault.records).countP (!·.isKnown)
    validateVaultWithVerified crypto (.v1 ⟨vault.records.filter VaultRecordV1.isKnown⟩) ratchet
        known = { report with warnings := report.warnings.filter (!·.isUnknownRecords) } ∧
      report.warnings.filter (·.isUnknownRecords) =
        if 0 < count ∧ (resolvedWith crypto known (.v1 vault) ratchet).isSome then
          [.unknownRecords count] else [] := by
  intro report count
  constructor
  · unfold report validateVaultWithVerified
    rw [show VaultStore.formatVersion (.v1 ⟨vault.records.filter VaultRecordV1.isKnown⟩) =
      VaultStore.formatVersion (.v1 vault) from rfl]
    by_cases hold : (VaultStore.v1 vault).formatVersion < ratchet.formatVersion
    · simp only [hold, if_true, List.filter_nil]
    · simp only [hold, if_false, validateV1_isKnown hinj]
      split <;> rfl
  · cases hresolved : resolvedWith crypto known (.v1 vault) ratchet with
    | none =>
      unfold report
      rw [(validateVaultWithVerified_of_unresolved hresolved).2.2.1]
      simp
    | some resolved =>
      obtain ⟨root, records⟩ := resolved
      have hunknown : (screenRecords crypto known root
          (distinctRecords crypto ∅ vault.records)).unknownRecords = count := by
        simp only [screenRecords, List.countP_map]
        exact List.countP_congr fun signed _ => by
          rw [Function.comp_apply, isUnknown_judgeRecord]
      unfold report
      rw [(validateVaultWithVerified_of_resolved hresolved).2.2.2.2, filter_isUnknownRecords]
      simp only [VaultStore.records, hunknown, warningsFor, Option.isSome_some, and_true]

end Unknown

section Example

open TestSupport

/-- The root, Alice, and a record of a kind to come. -/
def laterVault : VaultStoreV1 where
  records := [vaultRootRecord, { vaultRootRecord with body := .unknown [7] },
    userRecord rootUser (testUser 1) 1, trustRoot (testUser 1) 1]

theorem unknownKinds_inert_later :
    let report := validateVaultWithVerified transparentCrypto (.v1 laterVault) freshRatchet ∅
    validateVaultWithVerified transparentCrypto
        (.v1 ⟨laterVault.records.filter VaultRecordV1.isKnown⟩) freshRatchet ∅ =
        { report with warnings := report.warnings.filter (!·.isUnknownRecords) } ∧
      report.warnings.filter (·.isUnknownRecords) = [.unknownRecords 1] := by
  obtain ⟨hsame, hwarnings⟩ :=
    unknownKinds_inert transparentCrypto ∅ freshRatchet laterVault (by decide +kernel)
  refine ⟨hsame, hwarnings.trans ?_⟩
  decide +kernel

end Example

end Thorax
