import Thorax.Ops.Session
import Thorax.Resolution.Memory

/-!
# Grounded sessions

A session carries the hashes of the envelopes it has accepted from one validation to the next, and
caches carry them from one session to another. A session is grounded when its report is that of a
validation which checks every signature itself. Where different envelopes have different hashes,
reloads and mutations of a grounded session leave it grounded, and so do loads under a cache that
lists only genuine envelopes.
-/

namespace Thorax

open Collections Durable

/-! ### Envelopes -/

section Envelopes

variable (crypto : CryptoProvider) (envelopes : Set VaultRecordV1)

/-- Different envelopes have different hashes. -/
def HashesIdentify : Prop :=
  ∀ a ∈ envelopes, ∀ b ∈ envelopes, recordHash crypto a = recordHash crypto b → a = b

/-- The records of a vault are among the envelopes. -/
def VaultStore.Within (vault : VaultStore) : Prop := ∀ signed ∈ vault.records, signed ∈ envelopes

/-- Every vault file that can be read holds only these envelopes. -/
def Disk.Within (provider : StoreProvider) (disk : Disk) : Prop :=
  ∀ path bytes vault, disk.vaults path = some bytes → decodeVault provider bytes = .ok vault →
    vault.Within envelopes

/-- The hashes are those of envelopes that verify. -/
def GenuineHashes (hashes : BTreeSet HashValue) : Prop :=
  ∀ hash ∈ hashes, ∃ signed ∈ envelopes, recordHash crypto signed = hash ∧
    verifiesEnvelope crypto signed = true

end Envelopes

section Genuine

variable {crypto : CryptoProvider} {envelopes : Set VaultRecordV1} {hashes : BTreeSet HashValue}
variable {vault : VaultStore} {ratchet : Ratchet}

lemma knownGenuine_of_genuineHashes (hidentify : HashesIdentify crypto envelopes)
    (h : GenuineHashes crypto envelopes hashes) (hvault : vault.Within envelopes) :
    KnownGenuine crypto vault.records hashes := by
  intro signed hmem hknown
  obtain ⟨known, hin, hhash, hverifies⟩ := h _ hknown
  rw [← hidentify known hin signed (hvault signed hmem) hhash]
  exact hverifies

/-- A validation under hashes of genuine envelopes is one that checks every signature. -/
lemma validateVaultWithVerified_of_genuineHashes (hidentify : HashesIdentify crypto envelopes)
    (h : GenuineHashes crypto envelopes hashes) (hvault : vault.Within envelopes)
    (ratchet : Ratchet) :
    validateVaultWithVerified crypto vault ratchet hashes = validateVault crypto vault ratchet :=
  validateVaultWithVerified_of_genuine ratchet (knownGenuine_of_genuineHashes hidentify h hvault)

lemma mem_verifiedRecordHashes {effective : EffectiveState} {hash : HashValue} :
    hash ∈ effective.verifiedRecordHashes ↔
      ∃ record ∈ effective.verifiedRecords, record.recordHash = hash := by
  have hfold : ∀ (records : List VerifiedRecord) (hashes : BTreeSet HashValue),
      hash ∈ records.foldl (fun hashes record => hashes.insert record.recordHash) hashes ↔
        hash ∈ hashes ∨ ∃ record ∈ records, record.recordHash = hash := by
    intro records
    induction records with
    | nil => simp
    | cons record records ih =>
      intro hashes
      rw [List.foldl_cons, ih]
      simp only [Std.ExtTreeSet.mem_insert, Std.compare_eq_iff_eq, List.mem_cons,
        exists_eq_or_imp]
      tauto
  rw [EffectiveState.verifiedRecordHashes, hfold]
  simp

/-- What a validation without known hashes accepts has a genuine envelope. -/
lemma genuine_of_validateVault {record : VerifiedRecord}
    (h : record ∈ (validateVault crypto vault ratchet).effective.verifiedRecords) :
    record.signed ∈ vault.records ∧ record.recordHash = recordHash crypto record.signed ∧
      verifiesEnvelope crypto record.signed = true := by
  cases hresolved : resolvedRecords crypto vault ratchet with
  | none =>
    rw [(validateVault_of_unresolved hresolved).1] at h
    simp [EffectiveState.unresolved] at h
  | some resolved =>
    obtain ⟨root, records⟩ := resolved
    rw [(validateVault_of_resolved hresolved).1, resolveRecords_verifiedRecords] at h
    obtain ⟨-, -, rfl⟩ := resolvedRecords_eq_some.mp hresolved
    refine ⟨(mem_of_mem_distinctRecords (signed_mem_of_verified h)).1, hash_of_verified h, ?_⟩
    obtain ⟨signed, -, hjudge⟩ := mem_verifiedRecords.mp h
    obtain ⟨-, hsigned, -, -, -, -, haccepts⟩ := judgeRecord_eq_verified.mp hjudge
    rw [hsigned]
    simpa [acceptsEnvelope] using haccepts

/-- It has the body of its envelope. -/
lemma body_of_validateVault {record : VerifiedRecord}
    (h : record ∈ (validateVault crypto vault ratchet).effective.verifiedRecords) :
    record.signed.body = .known record.body := by
  cases hresolved : resolvedRecords crypto vault ratchet with
  | none => simp [(validateVault_of_unresolved hresolved).1, EffectiveState.unresolved] at h
  | some resolved =>
    obtain ⟨root, records⟩ := resolved
    rw [(validateVault_of_resolved hresolved).1, resolveRecords_verifiedRecords] at h
    obtain ⟨-, -, rfl⟩ := resolvedRecords_eq_some.mp hresolved
    exact body_of_verified h

lemma genuineHashes_of_validateVault (hvault : vault.Within envelopes) :
    GenuineHashes crypto envelopes
      (validateVault crypto vault ratchet).effective.verifiedRecordHashes := by
  intro hash hhash
  obtain ⟨record, hrecord, rfl⟩ := mem_verifiedRecordHashes.mp hhash
  obtain ⟨hmem, heq, hverifies⟩ := genuine_of_validateVault hrecord
  exact ⟨record.signed, hvault _ hmem, heq.symm, hverifies⟩

end Genuine

/-! ### Sessions -/

section Grounded

variable (provider : StoreProvider) (envelopes : Set VaultRecordV1)

/-- The report is that of a validation of the vault, under some ratchet, that checks every
signature. -/
structure LockedSession.Grounded (session : LockedSession) : Prop where
  within : session.vault.Within envelopes
  direct : ∃ ratchet, session.report = validateVault provider.toCryptoProvider session.vault ratchet

variable {provider envelopes} {session session' : LockedSession} {disk : Disk}

lemma LockedSession.Grounded.genuineHashes (h : session.Grounded provider envelopes) :
    GenuineHashes provider.toCryptoProvider envelopes
      session.report.effective.verifiedRecordHashes := by
  obtain ⟨ratchet, hreport⟩ := h.direct
  rw [hreport]
  exact genuineHashes_of_validateVault h.within

/-- Under what a grounded session has accepted, a validation is direct. -/
lemma LockedSession.Grounded.validate
    (hidentify : HashesIdentify provider.toCryptoProvider envelopes)
    (h : session.Grounded provider envelopes) {vault : VaultStore} (hvault : vault.Within envelopes)
    (ratchet : Ratchet) :
    validateVaultWithVerified provider.toCryptoProvider vault ratchet
        session.report.effective.verifiedRecordHashes =
      validateVault provider.toCryptoProvider vault ratchet :=
  validateVaultWithVerified_of_genuineHashes hidentify h.genuineHashes hvault ratchet

/-- A refreshed session is grounded. -/
lemma Refreshes.grounded (hidentify : HashesIdentify provider.toCryptoProvider envelopes)
    (hdisk : disk.Within envelopes provider) (h : Refreshes provider disk session session')
    (hsession : session.Grounded provider envelopes) : session'.Grounded provider envelopes := by
  cases h with
  | same hbytes hratchet => exact ⟨hsession.within, hsession.direct⟩
  | reload hbytes hvault hroot hratchet hstale =>
    have hwithin := hdisk _ _ _ (readVaultBytes_eq_ok.mp hbytes).1 hvault
    exact ⟨hwithin, _, hsession.validate hidentify hwithin _⟩

/-- A mutation of a grounded session leaves it grounded. -/
lemma LockedSession.Grounded.advance {α : Type} {change : Change α} {next : Projection α}
    (hidentify : HashesIdentify provider.toCryptoProvider envelopes)
    (h : session.Grounded provider envelopes) (hproject : project provider session change = .ok next)
    (hwithin : next.vault.Within envelopes) :
    (session.advance next).Grounded provider envelopes := by
  obtain ⟨-, vault, output, -, rfl, -, hreport, -⟩ := project_eq_ok.mp hproject
  exact ⟨hwithin, _, hreport.trans (h.validate hidentify hwithin _)⟩

end Grounded

end Thorax
