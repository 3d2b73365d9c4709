import Thorax.Ops.Secrets
import Thorax.Properties.Coherence
import Thorax.Properties.SecretGrowth

/-!
# Commits of secrets

What a settled session comes to when a mutation appends records of secrets to its vault: the
records it resolved to are still there, the verified ones among the new records come after them,
and both are judged under the ratchet that the session remembers.
-/

namespace Thorax

open Collections Durable
open Std (ExtTreeMap)

/-! ### Batches of records -/

section Batches

variable {vault : VaultStore} {appended : List VaultRecordV1}

@[simp] lemma formatVersion_appendRecords :
    (appended.foldl VaultStore.appendRecord vault).formatVersion = vault.formatVersion := by
  induction appended generalizing vault with
  | nil => rfl
  | cons signed appended ih => rw [List.foldl_cons, ih, VaultStore.formatVersion_appendRecord]

variable (vault appended) in
/-- A batch adds those of its records that are not there yet. -/
lemma exists_added : ∃ added,
    (appended.foldl VaultStore.appendRecord vault).records = vault.records ++ added ∧
      ∀ signed, signed ∈ added ↔ signed ∈ appended ∧ signed ∉ vault.records := by
  induction appended generalizing vault with
  | nil => exact ⟨[], by simp⟩
  | cons first appended ih =>
    obtain ⟨added, hrecords, hmem⟩ := ih (vault.appendRecord first)
    rw [VaultStore.records_appendRecord] at hrecords
    simp only [VaultStore.mem_appendRecord, not_or] at hmem
    by_cases hfirst : first ∈ vault.records
    · rw [if_pos hfirst] at hrecords
      refine ⟨added, hrecords, fun signed => ?_⟩
      rw [hmem, List.mem_cons]
      constructor
      · exact fun h => ⟨Or.inr h.1, h.2.1⟩
      · rintro ⟨rfl | hsigned, hnew⟩
        · exact absurd hfirst hnew
        · exact ⟨hsigned, hnew, fun heq => hnew (heq ▸ hfirst)⟩
    · rw [if_neg hfirst, List.append_assoc] at hrecords
      refine ⟨first :: added, hrecords, fun signed => ?_⟩
      rw [List.mem_cons, List.mem_cons, hmem]
      constructor
      · rintro (rfl | h)
        · exact ⟨Or.inl rfl, hfirst⟩
        · exact ⟨Or.inr h.1, h.2.1⟩
      · rintro ⟨rfl | hsigned, hnew⟩
        · exact Or.inl rfl
        · by_cases heq : signed = first
          · exact Or.inl heq
          · exact Or.inr ⟨hsigned, hnew, heq⟩

end Batches

/-! ### Grown vaults -/

section Vaults

variable {crypto : CryptoProvider} {vault vault' : VaultStore} {ratchet : Ratchet}
variable {root : SelectedRoot} {records : List VerifiedRecord} {added : List VaultRecordV1}

/-- How the resolution of a vault grows with records that say nothing about identities. -/
lemma resolvedRecords_grown (h : resolvedRecords crypto vault ratchet = some (root, records))
    (hvault : vault'.records = vault.records ++ added)
    (hversion : vault'.formatVersion = vault.formatVersion)
    (hnew : ∀ signed ∈ added, signed ∉ vault.records) (hcf : CollisionFree crypto vault'.records)
    (hidentity : ∀ signed ∈ added, ∀ body, signed.body = .known body → body.isIdentity = false) :
    ∃ extra, resolvedRecords crypto vault' ratchet = some (root, records ++ extra) ∧
      (∀ record, record ∈ extra ↔ ∃ signed ∈ added, judgeRecord crypto ∅ root
        (signerResolution crypto ∅ root (distinctRecords crypto ∅ vault.records)) signed =
          .verified record) ∧
      ((screenRecords crypto ∅ root (distinctRecords crypto ∅ vault'.records)).issues = [] ↔
        (screenRecords crypto ∅ root (distinctRecords crypto ∅ vault.records)).issues = [] ∧
        ∀ signed ∈ added, (judgeRecord crypto ∅ root (signerResolution crypto ∅ root
          (distinctRecords crypto ∅ vault.records)) signed).issue? = none) := by
  obtain ⟨hformat, hroot, hrecords⟩ := resolvedRecords_eq_some.mp h
  obtain ⟨seen, hdistinct⟩ : ∃ seen, distinctRecords crypto ∅ (vault.records ++ added) =
      distinctRecords crypto ∅ vault.records ++ distinctRecords crypto seen added :=
    distinctRecords_append ∅
  rw [← hvault] at hdistinct
  have hmem : ∀ signed, signed ∈ distinctRecords crypto seen added ↔ signed ∈ added := by
    intro signed
    refine ⟨fun hsigned => (mem_of_mem_distinctRecords hsigned).1, fun hsigned => ?_⟩
    have hwhole : signed ∈ distinctRecords crypto ∅ vault'.records :=
      (mem_distinctRecords hcf).mpr (hvault ▸ List.mem_append_right vault.records hsigned)
    rw [hdistinct, List.mem_append] at hwhole
    exact hwhole.resolve_left fun hold =>
      hnew signed hsigned (mem_of_mem_distinctRecords hold).1
  have hnone : ∀ signed ∈ distinctRecords crypto seen added, ∀ body,
      signed.body = .known body → body.isIdentity = false :=
    fun signed hsigned => hidentity signed ((hmem signed).mp hsigned)
  have hverified := @verifiedRecords_append crypto ∅ root (distinctRecords crypto ∅ vault.records) _
    hnone
  rw [hrecords] at hverified
  refine ⟨_, resolvedRecords_eq_some.mpr ⟨hversion ▸ hformat, ?_, hdistinct ▸ hverified⟩, ?_, ?_⟩
  · rw [hdistinct, selectRoot_append hnone, hroot]
  · intro record
    simp only [List.mem_filterMap, hmem]
    refine exists_congr fun signed => and_congr_right fun _ => ?_
    cases judgeRecord crypto ∅ root (signerResolution crypto ∅ root
      (distinctRecords crypto ∅ vault.records)) signed <;> simp [RecordVerdict.verified?]
  · simp only [screenRecords, hdistinct, signerResolution_append hnone, List.map_append,
      List.filterMap_append, List.append_eq_nil_iff, List.filterMap_map]
    refine and_congr_right fun _ => ?_
    simp only [List.filterMap_eq_nil_iff, hmem, Function.comp_apply]

end Vaults

/-! ### Settled sessions -/

section Sessions

variable (provider : StoreProvider) (session : LockedSession)

/-- What the ratchet of a session becomes by what its report raised. -/
abbrev LockedSession.remembered : Ratchet :=
  session.ratchet.applyUpdate session.report.ratchetUpdate

/-- How the vault of a session resolves signing keys. -/
def LockedSession.signers (root : SelectedRoot) : SignerResolution :=
  signerResolution provider.toCryptoProvider ∅ root
    (distinctRecords provider.toCryptoProvider ∅ session.vault.records)

/-- How an envelope is judged against the vault of a session. -/
def LockedSession.judges (root : SelectedRoot) (signed : VaultRecordV1) : RecordVerdict :=
  judgeRecord provider.toCryptoProvider ∅ root (session.signers provider root) signed

/-- A vault that holds records of secrets besides those of a session. -/
structure GrowsBySecrets (vault : VaultStore) (root : SelectedRoot)
    (records extra : List VerifiedRecord) : Prop where
  appends : AppendsSecrets provider.toCryptoProvider records extra
  resolved : resolvedRecords provider.toCryptoProvider session.vault session.ratchet =
    some (root, records)
  before : session.report.effective =
    resolveRecords provider.toCryptoProvider session.remembered root records
  after : (validateVault provider.toCryptoProvider vault session.remembered).effective =
    resolveRecords provider.toCryptoProvider session.remembered root (records ++ extra)
  mem_extra : ∀ record, record ∈ extra ↔ record.signed ∈ vault.records ∧
    record.signed ∉ session.vault.records ∧
      session.judges provider root record.signed = .verified record
  issues : (validateVault provider.toCryptoProvider vault session.remembered).issues = [] ↔
    ∀ signed ∈ vault.records, signed ∉ session.vault.records →
      (session.judges provider root signed).issue? = none

variable {provider session} {envelopes : Set VaultRecordV1}

/-- A settled session is settled among the envelopes of any vault that holds its own. -/
lemma LockedSession.Settled.mono (h : session.Settled provider envelopes)
    {envelopes' : Set VaultRecordV1} (hwithin : session.vault.Within envelopes') :
    session.Settled provider envelopes' :=
  ⟨⟨hwithin, h.grounded.direct⟩, h.coherent⟩

/-- What a settled session has accepted does not matter to the validation of a larger vault. -/
lemma LockedSession.Settled.validate_grown (h : session.Settled provider envelopes)
    {vault : VaultStore} (hcf : CollisionFree provider.toCryptoProvider vault.records)
    (hsub : ∀ signed ∈ session.vault.records, signed ∈ vault.records) (ratchet : Ratchet) :
    validateVaultWithVerified provider.toCryptoProvider vault ratchet
        session.report.effective.verifiedRecordHashes =
      validateVault provider.toCryptoProvider vault ratchet :=
  have hsettled : session.Settled provider {signed | signed ∈ vault.records} := h.mono hsub
  hsettled.grounded.validate (fun _ ha _ hb heq => hcf.recordHash_inj ha hb heq) (fun _ hmem => hmem) ratchet

/-- Without issues the authorities are resolved. -/
lemma LockedSession.Settled.authorityResolved (h : session.Settled provider envelopes)
    (hclean : session.report.issues = []) :
    session.report.effective.authorityUnresolved = false := by
  obtain ⟨ratchet, hreport⟩ := h.grounded.direct
  rw [hreport] at hclean ⊢
  cases hresolved : resolvedRecords provider.toCryptoProvider session.vault ratchet with
  | none => exact absurd hclean (validateVault_of_unresolved hresolved).2.2
  | some resolved =>
    obtain ⟨root, records⟩ := resolved
    obtain ⟨heffective, -, hissues⟩ := validateVault_of_resolved hresolved
    rw [hissues, List.append_eq_nil_iff] at hclean
    rw [heffective]
    simpa using hclean.2

/-- A settled session without issues resolves, and remembering changes nothing of how. -/
lemma LockedSession.Settled.resolved (h : session.Settled provider envelopes)
    (hclean : session.report.issues = []) : ∃ root records,
      resolvedRecords provider.toCryptoProvider session.vault session.ratchet =
        some (root, records) ∧
      session.report.effective =
        resolveRecords provider.toCryptoProvider session.ratchet root records ∧
      AlikeFor provider.toCryptoProvider root records session.ratchet session.remembered ∧
      (session.vault.formatVersion < session.remembered.formatVersion ↔
        session.vault.formatVersion < session.ratchet.formatVersion) := by
  obtain ⟨heffective, hissues⟩ := h.coherent
  cases hresolved : resolvedRecords provider.toCryptoProvider session.vault session.ratchet with
  | none => exact absurd (hissues.symm.trans hclean) (validateVault_of_unresolved hresolved).2.2
  | some resolved =>
    obtain ⟨root, records⟩ := resolved
    have hbefore := heffective.trans (validateVault_of_resolved hresolved).1
    -- the report was made under some ratchet, of the same root
    obtain ⟨ratchet, hreport⟩ := h.grounded.direct
    cases hdirect : resolvedRecords provider.toCryptoProvider session.vault ratchet with
    | none =>
      rw [hreport] at hclean
      exact absurd hclean (validateVault_of_unresolved hdirect).2.2
    | some direct =>
      obtain ⟨root', records'⟩ := direct
      have hsame : resolveRecords provider.toCryptoProvider ratchet root' records' =
          resolveRecords provider.toCryptoProvider session.ratchet root records := by
        rw [← hbefore, hreport, (validateVault_of_resolved hdirect).1]
      obtain rfl : records' = records := by
        simpa only [resolveRecords_verifiedRecords] using
          congrArg EffectiveState.verifiedRecords hsame
      obtain rfl : root' = root := by
        have hhash := Option.some.inj (congrArg EffectiveState.rootSigningPublicKeyHash hsame)
        obtain ⟨-, hroot, -⟩ := resolvedRecords_eq_some.mp hresolved
        obtain ⟨-, hroot', -⟩ := resolvedRecords_eq_some.mp hdirect
        rw [trustedRoot_of_selectRoot hroot, trustedRoot_of_selectRoot hroot'] at hhash
        rw [hhash, hroot] at hroot'
        exact (Except.ok.inj hroot').symm
      have hlearned := @learned_of_resolved provider.toCryptoProvider ratchet _ _ session.vault ∅
        hdirect
      have hversion := @raisedFormatVersion_le provider.toCryptoProvider ratchet session.vault ∅
      rw [validateVault] at hreport
      rw [← hreport] at hlearned hversion
      exact ⟨root', records', rfl, hbefore, alikeFor_applyUpdate hlearned.1 hlearned.2,
        lt_formatVersion_applyUpdate hversion⟩

/-- A verdict on an envelope that is verified is about that envelope. -/
lemma signed_of_judges {root : SelectedRoot} {signed : VaultRecordV1} {record : VerifiedRecord}
    (h : session.judges provider root signed = .verified record) :
    record.signed = signed ∧ signed.body = .known record.body :=
  ⟨(judgeRecord_eq_verified.mp h).2.1, (judgeRecord_eq_verified.mp h).1⟩

/-- Appending records of secrets to the vault of a settled session without issues. -/
lemma LockedSession.Settled.growsBySecrets (h : session.Settled provider envelopes)
    (hclean : session.report.issues = []) {appended : List VaultRecordV1}
    (hsecret : ∀ signed ∈ appended, ∃ body, signed.body = .known body ∧ body.isSecret = true)
    (hcf : CollisionFree provider.toCryptoProvider
      (appended.foldl VaultStore.appendRecord session.vault).records) :
    ∃ root records extra, GrowsBySecrets provider session
      (appended.foldl VaultStore.appendRecord session.vault) root records extra := by
  obtain ⟨root, records, hresolved, hbefore, halike, hversion⟩ := h.resolved hclean
  obtain ⟨added, hadded, hmem⟩ := exists_added session.vault appended
  have haddedSecret : ∀ signed ∈ added, ∃ body, signed.body = .known body ∧
      body.isSecret = true := fun signed hsigned => hsecret signed ((hmem signed).mp hsigned).1
  obtain ⟨extra, hgrown, hextra, hissues⟩ := resolvedRecords_grown hresolved hadded (by simp)
    (fun signed hsigned => ((hmem signed).mp hsigned).2) hcf fun signed hsigned body hbody => by
      obtain ⟨secret, hknown, hsecretBody⟩ := haddedSecret signed hsigned
      obtain rfl := Evolving.known.inj (hknown.symm.trans hbody)
      cases secret <;> first | rfl | cases hsecretBody
  have hjudged : ∀ record, record ∈ extra ↔
      record.signed ∈ (appended.foldl VaultStore.appendRecord session.vault).records ∧
        record.signed ∉ session.vault.records ∧
          session.judges provider root record.signed = .verified record := by
    intro record
    rw [hextra, hadded]
    constructor
    · rintro ⟨signed, hsigned, hverdict⟩
      obtain ⟨rfl, -⟩ := signed_of_judges hverdict
      exact ⟨List.mem_append_right _ hsigned, ((hmem _).mp hsigned).2, hverdict⟩
    · rintro ⟨hsigned, hnew, hverdict⟩
      exact ⟨record.signed, (List.mem_append.mp hsigned).resolve_left hnew, hverdict⟩
  have happends : AppendsSecrets provider.toCryptoProvider records extra := by
    obtain ⟨-, -, hverified⟩ := resolvedRecords_eq_some.mp hgrown
    have hcf' : CollisionFree provider.toCryptoProvider (distinctRecords provider.toCryptoProvider
        ∅ (appended.foldl VaultStore.appendRecord session.vault).records) :=
      hcf.mono fun signed hsigned => (mem_of_mem_distinctRecords hsigned).1
    refine ⟨fun record hrecord => ?_, hverified ▸ hashesSeparate_verified hcf',
      hverified ▸ bytesSeparate_verified hcf', hverified ▸ originsAgree_verified hcf'⟩
    obtain ⟨signed, hsigned, hverdict⟩ := (hextra record).mp hrecord
    obtain ⟨body, hbody, hsecretBody⟩ := haddedSecret signed hsigned
    obtain rfl := Evolving.known.inj (hbody.symm.trans (signed_of_judges hverdict).2)
    exact hsecretBody
  have hafter : resolvedRecords provider.toCryptoProvider
      (appended.foldl VaultStore.appendRecord session.vault) session.remembered =
        some (root, records ++ extra) := by
    rw [← hgrown]
    refine resolvedRecords_congr rfl ?_
    rw [formatVersion_appendRecords]
    exact hversion
  have hsame := resolveRecords_of_alike halike
  refine ⟨root, records, extra, happends, hresolved, hbefore.trans hsame.symm,
    (validateVault_of_resolved hafter).1, hjudged, ?_⟩
  have hclean' := h.coherent.2.symm.trans hclean
  rw [(validateVault_of_resolved hresolved).2.2, List.append_eq_nil_iff, ← hsame] at hclean'
  rw [(validateVault_of_resolved hafter).2.2, List.append_eq_nil_iff, hissues]
  rw [congrArg EffectiveState.authorityUnresolved happends.samePrincipalGraph, and_iff_left hclean'.2, and_iff_right hclean'.1, hadded]
  constructor
  · intro hnone signed hsigned hnew
    exact hnone signed ((List.mem_append.mp hsigned).resolve_left hnew)
  · intro hnone signed hsigned
    exact hnone signed (List.mem_append_right _ hsigned) ((hmem signed).mp hsigned).2

end Sessions

end Thorax
