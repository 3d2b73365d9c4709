import Thorax.Resolution.Report

/-!
# Accepted envelopes

Signatures are looked at in four places: root selection, introduction, attestation and
verification. Each asks only whether an envelope is accepted, so a validation depends on the known
hashes through the envelopes they make acceptable, and an envelope that is not accepted is passed
over by all four.
-/

namespace Thorax

open Collections

/-! ### Sets of known hashes that accept the same envelopes -/

section Known

variable {crypto : CryptoProvider} {known known' : BTreeSet HashValue} {root : SelectedRoot}
variable {records : List VaultRecordV1} {trustedRoot : HashValue}

lemma mem_of_mem_userBodies {entry : VaultRecordV1 × UserRecordV1}
    (h : entry ∈ userBodies crypto records) : entry.1 ∈ records := (mem_userBodies.mp h).1

variable (h : ∀ signed ∈ records,
  acceptsEnvelope crypto known signed = acceptsEnvelope crypto known' signed)

include h

lemma selectRoot_known : selectRoot crypto records trustedRoot known =
    selectRoot crypto records trustedRoot known' := by
  have hmatch : records.filterMap (rootMatch crypto trustedRoot known) =
      records.filterMap (rootMatch crypto trustedRoot known') := by
    apply List.filterMap_congr
    intro signed hmem
    simp only [rootMatch, h signed hmem]
  simp only [selectRoot, hmatch]

lemma introduce_known : introduce crypto known root records =
    introduce crypto known' root records := by
  have hpass : introduceUsers crypto known (userBodies crypto records) =
      introduceUsers crypto known' (userBodies crypto records) := by
    funext state
    apply List.foldl_ext
    intro state entry hentry
    simp only [introduceUser, h entry.1 (mem_of_mem_userBodies hentry)]
  simp only [introduce, hpass]

lemma attestedUsers_known {rootId : UserId} : attestedUsers crypto known rootId records =
    attestedUsers crypto known' rootId records := by
  apply List.foldl_ext
  intro users signed hmem
  simp only [attestation, h signed hmem]

lemma screenRecords_known : screenRecords crypto known root records =
    screenRecords crypto known' root records := by
  have hres : signerResolution crypto known root records =
      signerResolution crypto known' root records := by
    simp only [signerResolution, introduce_known h, attestedUsers_known h]
  have hverdicts : records.map (judgeRecord crypto known root
      (signerResolution crypto known' root records)) =
      records.map (judgeRecord crypto known' root
        (signerResolution crypto known' root records)) := by
    apply List.map_congr_left
    intro signed hmem
    simp only [judgeRecord, h signed hmem]
  simp only [screenRecords, hres, hverdicts]

end Known

/-- Validations under sets of known hashes that accept the same envelopes of the vault are
equal. -/
lemma validateVaultWithVerified_known {crypto : CryptoProvider} {known known' : BTreeSet HashValue}
    {vault : VaultStore} (ratchet : Ratchet)
    (h : ∀ signed ∈ vault.records,
      acceptsEnvelope crypto known signed = acceptsEnvelope crypto known' signed) :
    validateVaultWithVerified crypto vault ratchet known =
      validateVaultWithVerified crypto vault ratchet known' := by
  obtain ⟨v1⟩ := vault
  have hdistinct : ∀ signed ∈ distinctRecords crypto ∅ v1.records,
      acceptsEnvelope crypto known signed = acceptsEnvelope crypto known' signed :=
    fun signed hmem => h signed (mem_of_mem_distinctRecords hmem).1
  have hv1 : validateV1 crypto v1 ratchet known = validateV1 crypto v1 ratchet known' := by
    simp only [validateV1, selectRoot_known hdistinct, screenRecords_known hdistinct]
  simp only [validateVaultWithVerified, hv1]

/-- Known hashes of the vault's records are hashes of genuine envelopes. -/
def KnownGenuine (crypto : CryptoProvider) (records : List VaultRecordV1)
    (known : BTreeSet HashValue) : Prop :=
  ∀ signed ∈ records, recordHash crypto signed ∈ known → verifiesEnvelope crypto signed = true

lemma acceptsEnvelope_of_genuine {crypto : CryptoProvider} {records : List VaultRecordV1}
    {known : BTreeSet HashValue} (h : KnownGenuine crypto records known) {signed : VaultRecordV1}
    (hmem : signed ∈ records) :
    acceptsEnvelope crypto known signed = verifiesEnvelope crypto signed := by
  rw [acceptsEnvelope]
  by_cases hknown : recordHash crypto signed ∈ known
  · rw [h signed hmem hknown, Bool.or_true]
  · rw [Bool.eq_false_iff.mpr (mt Std.ExtTreeSet.contains_iff_mem.mp hknown), Bool.false_or]

/-- Genuine known hashes change nothing. -/
lemma validateVaultWithVerified_of_genuine {crypto : CryptoProvider} {vault : VaultStore}
    {known : BTreeSet HashValue} (ratchet : Ratchet)
    (h : KnownGenuine crypto vault.records known) :
    validateVaultWithVerified crypto vault ratchet known = validateVault crypto vault ratchet := by
  apply validateVaultWithVerified_known
  intro signed hmem
  rw [acceptsEnvelope_of_genuine h hmem]
  simp [acceptsEnvelope]

/-! ### Envelopes that are not accepted -/

section Filter

variable {crypto : CryptoProvider} {known : BTreeSet HashValue} {root : SelectedRoot}
variable {records : List VaultRecordV1} {trustedRoot : HashValue} {keep : VaultRecordV1 → Bool}

/-- Without collisions, leaving records out and deduplicating commute. -/
lemma distinctRecords_filter {seen : BTreeSet HashValue}
    (hinj : ∀ a ∈ records, ∀ b ∈ records, recordHash crypto a = recordHash crypto b → a = b) :
    ∀ seen', (∀ signed ∈ records, keep signed = true →
        (recordHash crypto signed ∈ seen' ↔ recordHash crypto signed ∈ seen)) →
      distinctRecords crypto seen' (records.filter keep) =
        (distinctRecords crypto seen records).filter keep := by
  induction records generalizing seen with
  | nil => simp
  | cons a records ih =>
    intro seen' hseen
    have hinj' : ∀ b ∈ records, ∀ c ∈ records, recordHash crypto b = recordHash crypto c → b = c :=
      fun b hb c hc => hinj b (List.mem_cons_of_mem _ hb) c (List.mem_cons_of_mem _ hc)
    have hrest : ∀ signed ∈ records, keep signed = true →
        (recordHash crypto signed ∈ seen' ↔ recordHash crypto signed ∈ seen) :=
      fun signed hmem => hseen signed (List.mem_cons_of_mem _ hmem)
    by_cases ha : keep a = true
    · have hsame := hseen a List.mem_cons_self ha
      simp only [List.filter_cons_of_pos ha, distinctRecords_cons]
      by_cases hin : recordHash crypto a ∈ seen
      · rw [if_pos (Std.ExtTreeSet.contains_iff_mem.mpr (hsame.mpr hin)),
          if_pos (Std.ExtTreeSet.contains_iff_mem.mpr hin)]
        exact ih hinj' seen' hrest
      · rw [if_neg (mt Std.ExtTreeSet.contains_iff_mem.mp (mt hsame.mp hin)),
          if_neg (mt Std.ExtTreeSet.contains_iff_mem.mp hin), List.filter_cons_of_pos ha]
        congr 1
        apply ih hinj'
        intro signed hmem hk
        simp only [Std.ExtTreeSet.mem_insert, hrest signed hmem hk]
    · simp only [List.filter_cons_of_neg ha, distinctRecords_cons]
      split_ifs with hin
      · exact ih hinj' seen' hrest
      · rw [List.filter_cons_of_neg ha]
        apply ih hinj'
        intro signed hmem hk
        -- a kept record does not share the hash of one that is left out
        have hne : recordHash crypto a ≠ recordHash crypto signed := by
          intro heq
          rw [hinj a List.mem_cons_self signed (List.mem_cons_of_mem _ hmem) heq] at ha
          exact ha hk
        rw [hrest signed hmem hk]
        simp [Std.ExtTreeSet.mem_insert, hne]

variable (h : ∀ signed ∈ records, keep signed = false → acceptsEnvelope crypto known signed = false)

include h

lemma selectRoot_filter : selectRoot crypto (records.filter keep) trustedRoot known =
    selectRoot crypto records trustedRoot known := by
  have hmatch : (records.filter keep).filterMap (rootMatch crypto trustedRoot known) =
      records.filterMap (rootMatch crypto trustedRoot known) := by
    rw [List.filterMap_filter]
    apply List.filterMap_congr
    intro signed hmem
    split_ifs with hkeep
    · rfl
    · rw [Bool.not_eq_true] at hkeep
      simp only [rootMatch, h signed hmem hkeep]
      split <;> simp
  simp only [selectRoot, hmatch]

/-- Introduction passes over the user records that are left out. -/
lemma introduce_filter : introduce crypto known root (records.filter keep) =
    introduce crypto known root records := by
  have hbodies : userBodies crypto (records.filter keep) =
      (userBodies crypto records).filter fun entry => keep entry.1 := by
    rw [userBodies, userBodies, List.filterMap_filter, List.filter_filterMap]
    apply List.filterMap_congr
    intro signed _
    split_ifs with hkeep <;> split <;> try rfl
    all_goals split_ifs <;> simp [Option.filter, hkeep]
  have hpass : introduceUsers crypto known ((userBodies crypto records).filter fun entry =>
      keep entry.1) = introduceUsers crypto known (userBodies crypto records) := by
    funext state
    rw [introduceUsers, introduceUsers, List.foldl_filter]
    apply List.foldl_ext
    intro state entry hentry
    split_ifs with hkeep
    · rfl
    · rw [Bool.not_eq_true] at hkeep
      simp [introduceUser, h entry.1 (mem_of_mem_userBodies hentry) hkeep]
  rw [introduce, introduce, hbodies, ← loopUntil_introduceUsers, hpass]
  exact Nat.succ_le_succ (List.length_filter_le _ _)

lemma attestedUsers_filter {rootId : UserId} :
    attestedUsers crypto known rootId (records.filter keep) =
      attestedUsers crypto known rootId records := by
  rw [attestedUsers, attestedUsers, collectSet, collectSet, List.foldl_filter]
  apply List.foldl_ext
  intro users signed hmem
  split_ifs with hkeep
  · rfl
  · rw [Bool.not_eq_true] at hkeep
    have hnone : attestation crypto known rootId signed = none := by
      simp only [attestation, h signed hmem hkeep]
      split <;> simp
    rw [hnone]

/-- Of the records that are left out nothing remains but their issues and their number. -/
lemma screenRecords_filter :
    let screening := screenRecords crypto known root records
    let screening' := screenRecords crypto known root (records.filter keep)
    screening'.verifiedRecords = screening.verifiedRecords ∧
      screening'.issues.Sublist screening.issues ∧
      (∀ issue ∈ screening.issues, issue ∈ screening'.issues ∨ ∃ signed ∈ records,
        keep signed = false ∧ judgeRecord crypto known root
          (signerResolution crypto known root records) signed = .rejected issue) ∧
      screening'.ambiguousKeys = screening.ambiguousKeys := by
  have hres : signerResolution crypto known root (records.filter keep) =
      signerResolution crypto known root records := by
    simp only [signerResolution, introduce_filter h, attestedUsers_filter h]
  have hsub := (List.filter_sublist (p := keep) (l := records)).map
    (judgeRecord crypto known root (signerResolution crypto known root records))
  simp only [screenRecords, hres, and_true]
  refine ⟨?_, hsub.filterMap _, fun issue hissue => ?_⟩
  swap
  · simp only [List.mem_filterMap, List.mem_map, exists_exists_and_eq_and, List.mem_filter]
      at hissue ⊢
    obtain ⟨signed, hmem, hverdict⟩ := hissue
    by_cases hkeep : keep signed = true
    · exact Or.inl ⟨signed, ⟨hmem, hkeep⟩, hverdict⟩
    · refine Or.inr ⟨signed, hmem, Bool.not_eq_true _ ▸ hkeep, ?_⟩
      unfold RecordVerdict.issue? at hverdict
      split at hverdict
      · next hj =>
        rw [hj, Option.some.inj hverdict]
      · cases hverdict
  rw [List.filterMap_map, List.filterMap_map, List.filterMap_filter]
  apply List.filterMap_congr
  intro signed hmem
  split_ifs with hkeep
  · rfl
  · rw [Bool.not_eq_true] at hkeep
    symm
    rw [Function.comp_apply, Option.eq_none_iff_forall_ne_some]
    intro record hv
    unfold RecordVerdict.verified? at hv
    split at hv
    · next hj =>
      have hacc := (judgeRecord_eq_verified.mp hj).2.2.2.2.2.2
      rw [h signed hmem hkeep] at hacc
      cases hacc
    · cases hv

end Filter

end Thorax
