import Thorax.Resolution.Acceptance
import Thorax.TestSupport

/-!
# The verification fast path

A validation may be told the hashes of envelopes whose signatures were checked before. Genuine
hashes change nothing about its report, and a record that is neither known nor genuine leaves
nothing behind but an issue of its own.
-/

namespace Thorax

open Collections

section FastPath

variable (crypto : CryptoProvider) (ratchet : Ratchet) (known : BTreeSet HashValue)

/-- A report that differs from another, for the vault without some records, at most by issues of
those records and by the number of records of unknown kinds. -/
structure InertRecords (vault : VaultStore) (keep : VaultRecordV1 → Bool)
    (report report' : ValidationReport) : Prop where
  effective : report'.effective = report.effective
  raisedWatermarks :
    report'.ratchetUpdate.raisedWatermarks = report.ratchetUpdate.raisedWatermarks
  origins : report'.ratchetUpdate.origins = report.ratchetUpdate.origins
  contested : ∀ keyHash, .ambiguousSigningKey keyHash ∈ report'.warnings ↔
    .ambiguousSigningKey keyHash ∈ report.warnings
  issues : report'.issues.Sublist report.issues
  ownIssues : ∀ issue ∈ report.issues, issue ∈ report'.issues ∨ ∃ signed ∈ vault.records,
    keep signed = false ∧ ∃ root resolution,
      judgeRecord crypto known root resolution signed = .rejected issue
  /-- The ratchet is told the format version of a vault without issues only. -/
  formatVersion : report.issues = report'.issues → report'.ratchetUpdate.raisedFormatVersion =
    report.ratchetUpdate.raisedFormatVersion

variable {crypto known} {records : List VaultRecordV1} {keep : VaultRecordV1 → Bool}

lemma InertRecords.refl {vault : VaultStore} (report : ValidationReport) :
    InertRecords crypto known vault keep report report where
  effective := rfl
  raisedWatermarks := rfl
  origins := rfl
  contested _ := Iff.rfl
  issues := List.Sublist.refl _
  ownIssues _ h := Or.inl h
  formatVersion _ := rfl

/-- Without collisions, records whose envelopes are not accepted are inert. -/
lemma inertRecords_of_not_accepted
    (hinj : ∀ a ∈ records, ∀ b ∈ records, recordHash crypto a = recordHash crypto b → a = b)
    (h : ∀ signed ∈ records, keep signed = false → acceptsEnvelope crypto known signed = false) :
    InertRecords crypto known (.v1 ⟨records⟩) keep
      (validateVaultWithVerified crypto (.v1 ⟨records⟩) ratchet known)
      (validateVaultWithVerified crypto (.v1 ⟨records.filter keep⟩) ratchet known) := by
  have hdistinct : distinctRecords crypto ∅ (records.filter keep) =
      (distinctRecords crypto ∅ records).filter keep :=
    distinctRecords_filter hinj ∅ fun _ _ _ => Iff.rfl
  have hmem : ∀ signed ∈ distinctRecords crypto ∅ records, signed ∈ records :=
    fun signed hs => (mem_of_mem_distinctRecords hs).1
  have haccept : ∀ signed ∈ distinctRecords crypto ∅ records, keep signed = false →
      acceptsEnvelope crypto known signed = false := fun signed hs => h signed (hmem signed hs)
  have hroot : selectRoot crypto (distinctRecords crypto ∅ (records.filter keep))
      ratchet.trustedRoot known =
      selectRoot crypto (distinctRecords crypto ∅ records) ratchet.trustedRoot known := by
    rw [hdistinct, selectRoot_filter haccept]
  cases hres : resolvedWith crypto known (.v1 ⟨records⟩) ratchet with
  | none =>
    -- neither vault resolves, and for the same reason
    have hsame : validateVaultWithVerified crypto (.v1 ⟨records.filter keep⟩) ratchet known =
        validateVaultWithVerified crypto (.v1 ⟨records⟩) ratchet known := by
      simp only [resolvedWith, VaultStore.records, VaultStore.formatVersion] at hres
      simp only [validateVaultWithVerified, VaultStore.formatVersion]
      split_ifs at hres with hold
      · simp only [hold, if_true]
      · cases hsel : selectRoot crypto (distinctRecords crypto ∅ records) ratchet.trustedRoot
            known with
        | ok root => simp [hsel, hold] at hres
        | error issue =>
          simp only [validateV1, hroot, hsel]
          rfl
    rw [hsame]
    exact .refl _
  | some resolved =>
    obtain ⟨root, verifiedRecords⟩ := resolved
    obtain ⟨hold, hsel, hrecords⟩ := resolvedWith_eq_some.mp hres
    simp only [VaultStore.records] at hsel hrecords
    obtain ⟨hverified, hsub, hown, hambiguous⟩ := screenRecords_filter haccept
    rw [← hdistinct] at hverified hsub hown hambiguous
    have hres' : resolvedWith crypto known (.v1 ⟨records.filter keep⟩) ratchet =
        some (root, verifiedRecords) :=
      resolvedWith_eq_some.mpr ⟨hold, hroot.trans hsel, hverified.trans hrecords⟩
    obtain ⟨heff, hraised, horigins, hissues, hwarnings⟩ :=
      validateVaultWithVerified_of_resolved hres
    obtain ⟨heff', hraised', horigins', hissues', hwarnings'⟩ :=
      validateVaultWithVerified_of_resolved hres'
    exact
      { effective := heff'.trans heff.symm
        raisedWatermarks := hraised'.trans hraised.symm
        origins := horigins'.trans horigins.symm
        contested := by
          intro keyHash
          rw [hwarnings, hwarnings', mem_warningsFor_ambiguous, mem_warningsFor_ambiguous]
          simp only [VaultStore.records, hambiguous]
        issues := by
          rw [hissues, hissues']
          exact hsub.append (List.Sublist.refl _)
        ownIssues := by
          intro issue hissue
          rw [hissues] at hissue
          rw [hissues']
          rcases List.mem_append.mp hissue with hscreen | hconverge
          · rcases hown issue hscreen with hkept | ⟨signed, hs, hkeep, hverdict⟩
            · exact Or.inl (List.mem_append_left _ hkept)
            · exact Or.inr ⟨signed, hmem signed hs, hkeep, root, _, hverdict⟩
          · exact Or.inl (List.mem_append_right _ hconverge)
        formatVersion := by
          intro heq
          rw [raisedFormatVersion_eq, raisedFormatVersion_eq, heq]
          rfl }

variable (crypto known)

/-- Genuine known hashes change nothing about a report. Without collisions, a record whose envelope
does not verify and whose hash is not known has no influence on the state, on what the ratchet
remembers and on the contested keys; it leaves behind an issue of its own at most. -/
theorem fastPath_agrees (vault : VaultStore) :
    (KnownGenuine crypto vault.records known →
      validateVaultWithVerified crypto vault ratchet known = validateVault crypto vault ratchet) ∧
    ((∀ a ∈ vault.records, ∀ b ∈ vault.records,
        recordHash crypto a = recordHash crypto b → a = b) →
      ∀ keep : VaultRecordV1 → Bool,
      (∀ signed ∈ vault.records, keep signed = false →
        verifiesEnvelope crypto signed = false ∧ recordHash crypto signed ∉ known) →
      InertRecords crypto known vault keep (validateVaultWithVerified crypto vault ratchet known)
        (validateVaultWithVerified crypto (.v1 ⟨vault.records.filter keep⟩) ratchet known)) := by
  refine ⟨fun hgenuine => validateVaultWithVerified_of_genuine ratchet hgenuine, ?_⟩
  intro hinj keep hkeep
  obtain ⟨records⟩ := vault
  apply inertRecords_of_not_accepted ratchet hinj
  intro signed hmem hout
  obtain ⟨hforged, hunknown⟩ := hkeep signed hmem hout
  rw [acceptsEnvelope, hforged, Bool.or_false]
  exact Bool.eq_false_iff.mpr (mt Std.ExtTreeSet.contains_iff_mem.mp hunknown)

end FastPath

section Forged

open TestSupport

/-- A grant to Alice that carries the root's key but no signature of the root. -/
def forgedGrant : VaultRecordV1 :=
  { grantRecord 0 rootUser (.user (testUser 1).id) .administer 3 with signature := [] }

/-- Alice, vouched for by herself and by the root, and the forged grant. -/
def forgedVault : VaultStore :=
  .v1 ⟨[vaultRootRecord, userRecord rootUser (testUser 1) 1, trustRoot (testUser 1) 1, forgedGrant]⟩

/-- The hashes of the genuine records are known: the report is the one without them, and the forged
grant is inert. -/
theorem fastPath_agrees_forgedVault :
    let known := collectSet (fun signed => some (recordHash transparentCrypto signed))
      [vaultRootRecord, userRecord rootUser (testUser 1) 1] ∅
    validateVaultWithVerified transparentCrypto forgedVault freshRatchet known =
        validateVault transparentCrypto forgedVault freshRatchet ∧
      InertRecords transparentCrypto known forgedVault (fun signed => signed != forgedGrant)
        (validateVaultWithVerified transparentCrypto forgedVault freshRatchet known)
        (validateVaultWithVerified transparentCrypto
          (.v1 ⟨forgedVault.records.filter fun signed => signed != forgedGrant⟩) freshRatchet
          known) := by
  intro known
  obtain ⟨hgenuine, hinert⟩ := fastPath_agrees transparentCrypto freshRatchet known forgedVault
  refine ⟨hgenuine ?_, hinert ?_ _ ?_⟩
  · unfold KnownGenuine
    decide +kernel
  · decide +kernel
  · decide +kernel

/-- A forged record that is not known leaves its issue in the report. -/
theorem forgedGrant_adds_issue :
    verifiesEnvelope transparentCrypto forgedGrant = false ∧
      recordHash transparentCrypto forgedGrant ∉ (∅ : BTreeSet HashValue) ∧
      (validateVaultWithVerified transparentCrypto forgedVault freshRatchet ∅).issues ≠
        (validateVaultWithVerified transparentCrypto
          (.v1 ⟨forgedVault.records.filter fun signed => signed != forgedGrant⟩) freshRatchet
          ∅).issues := by
  decide +kernel

end Forged

end Thorax
