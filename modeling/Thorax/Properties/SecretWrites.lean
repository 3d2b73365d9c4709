import Thorax.Properties.Identity
import Thorax.Properties.SecretCommits
import Thorax.Properties.Unraced
import Thorax.TestSecrets

/-!
# Writes of secrets

A user who may write a secret sets or deletes it. The counter clears everything that was admitted
and everything a rollback fell below, so the new record leads alone at its key, whatever was in
dispute there, and nothing else changes. The commit does not get through where the labels of the
selector are not valid, or where the ratchet file names a secret that only has labels.
-/

namespace Thorax

open Collections Durable
open Std (ExtTreeMap)

/-! ### Taking effect -/

/-- The live value of a secret depends on its latest record and on whether it is in dispute. -/
lemma liveSecret_congr {crypto : CryptoProvider} {before after : EffectiveState}
    {selector : SecretSelectorV1}
    (hconflict : after.secretConflict crypto selector = before.secretConflict crypto selector)
    (hlatest : after.latestAuthorizedSecretRecord (deriveSecretId crypto selector) =
      before.latestAuthorizedSecretRecord (deriveSecretId crypto selector)) :
    after.secretRecord crypto selector = before.secretRecord crypto selector := by
  rw [EffectiveState.secretRecord, EffectiveState.secretRecord, EffectiveState.liveSecretWinner,
    EffectiveState.liveSecretWinner, hconflict, hlatest]

/-- A record of a secret takes effect between two states, and nothing else changes. -/
structure TakesEffect (crypto : CryptoProvider) (before after : EffectiveState) (secret : SecretId)
    (record : VerifiedRecord) : Prop where
  appended : record ∈ after.verifiedRecords ∧ record ∉ before.verifiedRecords
  leads : ∀ other, Leading after.verifiedRecords ∅ (classifySecret after.authorities) secret other ↔
    other = record
  latest : after.latestAuthorizedSecretRecord secret = some record
  settled : RecordKey.secret secret ∉ after.conflicted
  principals : SamePrincipalGraph before after
  conflicts : ∀ key ≠ RecordKey.secret secret, after.conflicted[key]? = before.conflicted[key]?
  others : ∀ other ≠ secret,
    after.latestAuthorizedSecretRecord other = before.latestAuthorizedSecretRecord other
  values : ∀ selector, deriveSecretId crypto selector ≠ secret →
    after.secretRecord crypto selector = before.secretRecord crypto selector

/-! ### The clock -/

section Clock

variable {crypto : CryptoProvider} {ratchet : Ratchet} {root : SelectedRoot}
variable {records : List VerifiedRecord} {counter : ℕ}

/-- The counter of a commit lies above everything that counts. -/
lemma counter_lt_of_commitCounter (hle : ∀ record ∈ records, record.counter ≤ maxLwwCounter)
    (h : commitCounter (resolveRecords crypto ratchet root records) = .ok counter)
    {key : RecordKey} {record : VerifiedRecord} (hcounts : Counts crypto root records key record) :
    record.counter < counter := by
  have hlt : record.counter < nextCounter (resolveRecords crypto ratchet root records) :=
    (lt_nextCounter_iff hle).mpr ⟨key, record, hcounts, le_rfl⟩
  simp only [commitCounter] at h
  split_ifs at h
  obtain rfl := Except.ok.inj h
  exact hlt.trans_le (le_max_left _ _)

/-- It is within the ceiling, and clears whatever is remembered at a regressed key. -/
lemma remembered_lt_of_commitCounter
    (h : commitCounter (resolveRecords crypto ratchet root records) = .ok counter)
    {key : RecordKey} {remembered : ℕ}
    (hkey : (rollbackKeys crypto ratchet root records)[key]? = some remembered) :
    remembered < counter := by
  have hfloor : saturatingAdd remembered 1 - 1 <
      (resolveRecords crypto ratchet root records).rollbackCounterFloor := by
    refine lt_rollbackCounterFloor_iff.mpr ⟨key, remembered, hkey, ?_⟩
    simp only [saturatingAdd]
    omega
  simp only [commitCounter] at h
  split_ifs at h with hceiling
  obtain rfl := Except.ok.inj h
  have hmax := le_max_right (nextCounter (resolveRecords crypto ratchet root records))
    (resolveRecords crypto ratchet root records).rollbackCounterFloor
  simp only [saturatingAdd, maxLwwCounter] at hfloor hceiling
  omega

end Clock

/-! ### A record at the counter of a commit -/

section Effect

variable {crypto : CryptoProvider} {ratchet : Ratchet} {root : SelectedRoot}
variable {records extra : List VerifiedRecord} {secret : SecretId} {record : VerifiedRecord}

variable (hle : ∀ record ∈ records, record.counter ≤ maxLwwCounter)
variable (hrollbacks : ∀ key ∈ rollbackKeys crypto ratchet root records, key.isSecret = true)
variable (hcounter : commitCounter (resolveRecords crypto ratchet root records) =
  .ok record.counter)
variable (hclassified : classifySecret
  (resolveRecords crypto ratchet root records).authorities record = some secret)

include hle hrollbacks hcounter

/-- Whatever competes for a secret lies below the counter. -/
lemma contends_lt (hsep : HashesSeparate records) {other : VerifiedRecord}
    (hother : Contends crypto ratchet root records secret other) : other.counter < record.counter :=
  counter_lt_of_commitCounter hle hcounter (counts_of_contends hrollbacks hsep hother)

include hclassified

/-- A record that its signer may write cannot be there before. -/
lemma not_mem_of_commitCounter (hsep : HashesSeparate records) : record ∉ records := fun hmem =>
  (contends_lt hle hrollbacks hcounter hsep
    (⟨hmem, ExtTreeMap.not_mem_empty, hclassified⟩ : Contends crypto ratchet root records secret
      record)).false

/-- Appended alone, it takes effect. -/
lemma AppendsSecrets.takesEffect (h : AppendsSecrets crypto records extra)
    (hextra : ∀ other, other ∈ extra ↔ other = record) :
    TakesEffect crypto (resolveRecords crypto ratchet root records)
      (resolveRecords crypto ratchet root (records ++ extra)) secret record := by
  have hsep := h.hashes_left
  have hkey := key_of_classifySecret record secret hclassified
  have hmem : record ∈ extra := (hextra record).mpr rfl
  have honly : ∀ other ∈ extra, other.key = .secret secret → other = record :=
    fun other hother _ => (hextra other).mp hother
  have habove : ∀ other, Contends crypto ratchet root records secret other →
      other.counter < record.counter := fun other hother =>
    contends_lt hle hrollbacks hcounter hsep hother
  have hreached : RecordKey.secret secret ∉
      rollbackKeys crypto ratchet root (records ++ extra) := by
    rw [h.not_mem_rollbackKeys_of_only hmem honly hkey, or_iff_not_imp_left, not_not]
    intro hregressed
    refine ⟨writesFirst_of_classified hrollbacks hsep hclassified, ?_⟩
    obtain ⟨remembered, hremembered⟩ :=
      Option.isSome_iff_exists.mp (ExtTreeMap.isSome_getElem?_iff_mem.mpr hregressed)
    rw [(rollbackKeys_eq_some.mp hremembered).1, Option.getD_some]
    exact (remembered_lt_of_commitCounter hcounter hremembered).le
  have hconflicts : ∀ key ≠ RecordKey.secret secret,
      (resolveRecords crypto ratchet root (records ++ extra)).conflicted[key]? =
        (resolveRecords crypto ratchet root records).conflicted[key]? := by
    intro key hne
    apply h.conflicted_eq
    intro appended happended heq
    exact hne (by rw [← heq, (hextra appended).mp happended, hkey])
  have hothers : ∀ other ≠ secret,
      (resolveRecords crypto ratchet root (records ++ extra)).latestAuthorizedSecretRecord other =
        (resolveRecords crypto ratchet root records).latestAuthorizedSecretRecord other := by
    intro other hne
    apply h.latest_eq
    intro appended happended heq
    rw [(hextra appended).mp happended, hkey] at heq
    exact hne (RecordKey.secret.inj heq).symm
  refine ⟨⟨?_, ?_⟩, ?_, ?_, ?_, h.samePrincipalGraph, hconflicts, hothers, ?_⟩
  · rw [resolveRecords_verifiedRecords]
    exact List.mem_append_right records hmem
  · rw [resolveRecords_verifiedRecords]
    exact not_mem_of_commitCounter hle hrollbacks hcounter hclassified hsep
  · intro other
    rw [resolveRecords_verifiedRecords]
    exact h.leading_iff_of_above hmem honly hclassified habove
  · exact h.latest_of_above hmem honly hclassified habove
  · exact (h.settles_of_above hmem honly hclassified habove).mpr hreached
  · intro selector hne
    exact liveSecret_congr (hconflicts _ fun heq => hne (RecordKey.secret.inj heq))
      (hothers _ hne)

end Effect

/-! ### Changes of one secret -/

/-- The signer is an effective user, and its keys are those of the user. -/
structure RecordSigner.ActsIn (crypto : CryptoProvider) (signer : RecordSigner)
    (effective : EffectiveState) : Prop where
  genuine : signer.Genuine crypto
  user : ∃ user, effective.users[signer.userId]? = some user ∧
    user.signingPublicKey = signer.signingPublicKey

/-- A change builds a well-formed record of a secret, and looks whether it is current. -/
structure ChangesSecret {α : Type} (crypto : CryptoProvider) (signer : RecordSigner)
    (selector : SecretSelectorV1) (change : RecordChange α) (report : ValidationReport)
    (counter : ℕ) (signed : VaultRecordV1) (body : RecordBodyV1) (output : α) : Prop where
  builds : change.build report counter = .ok (signed, output)
  signs : Hazmat.signedPayload crypto signer body = .ok signed
  identity : secretRecordIdentity body = some (deriveSecretId crypto selector, selector)
  counter : body.lwwCounter = some counter
  shape : ∀ root, structurallyValidateRecord crypto signed body root = .ok ()
  checks : ∀ after : ValidationReport,
    after.effective.secretRecordIsCurrent (recordHash crypto signed) = true →
      change.effective output (recordHash crypto signed) after = .ok ()

section Changes

variable {provider : StoreProvider} {sealing : SealProvider} {session : LockedSession}
variable {envelopes : Set VaultRecordV1} {root : SelectedRoot} {records : List VerifiedRecord}
variable {signer : RecordSigner} {selector : SecretSelectorV1} {signed : VaultRecordV1}
variable {body : RecordBodyV1} {counter : ℕ} {ratchet : Ratchet}

lemma isSecret_of_identity {secret : SecretId}
    (h : secretRecordIdentity body = some (secret, selector)) : body.isSecret = true := by
  cases body <;> simp_all [secretRecordIdentity, RecordBodyV1.isSecret]

lemma ne_vaultRoot_of_identity {secret : SecretId}
    (h : secretRecordIdentity body = some (secret, selector)) (root : VaultRootRecordV1) :
    body ≠ .vaultRoot root := by
  rintro rfl
  cases h

/-- What an effective user signs is verified as its own. -/
lemma judges_of_actsIn
    (hresolved : resolvedRecords provider.toCryptoProvider session.vault session.ratchet =
      some (root, records))
    (hcf : CollisionFree provider.toCryptoProvider session.vault.records)
    (hacts : signer.ActsIn provider.toCryptoProvider
      (resolveRecords provider.toCryptoProvider ratchet root records))
    (hsigns : Hazmat.signedPayload provider.toCryptoProvider signer body = .ok signed)
    (hshape : structurallyValidateRecord provider.toCryptoProvider signed body root.root =
      .ok ()) :
    session.judges provider root signed =
      .verified ⟨signed, body, recordHash provider.toCryptoProvider signed, signer.userId⟩ := by
  obtain ⟨-, hroot, rfl⟩ := resolvedRecords_eq_some.mp hresolved
  have hcf' : CollisionFree provider.toCryptoProvider
      (distinctRecords provider.toCryptoProvider ∅ session.vault.records) :=
    hcf.mono fun signed hmem => (mem_of_mem_distinctRecords hmem).1
  obtain ⟨user, huser, hkey⟩ := hacts.user
  obtain ⟨huncontested, hresolves⟩ := resolves_of_effective_user hcf' hroot huser
  obtain ⟨hbody, hsigner⟩ := Hazmat.body_of_signedPayload hsigns
  have hverifies := Hazmat.verifies_of_signedPayload hacts.genuine hsigns
  refine judgeRecord_eq_verified.mpr ⟨hbody, rfl, rfl, hshape, ?_, ?_, ?_⟩
  · rw [hsigner, ← hkey]
    exact huncontested
  · rw [hsigner, ← hkey]
    exact hresolves
  · simp [acceptsEnvelope, hverifies]

variable {α : Type} {change : RecordChange α} {output : α} {vaultBytes : Bytes}

section Writer

variable (h : session.Settled provider envelopes) (hclean : session.report.issues = [])
variable (hrollbacks : ∀ key, session.report.effective.RollbackAt key → key.isSecret = true)
variable (hacts : signer.ActsIn provider.toCryptoProvider session.report.effective)
variable (hwrites :
  (session.report.effective.authorityForUser signer.userId).canWrite selector = true)
variable (hcounter : commitCounter session.report.effective = .ok counter)
variable (hchange : ChangesSecret provider.toCryptoProvider signer selector change session.report
  counter signed body output)
variable (hcf : CollisionFree provider.toCryptoProvider (session.vault.appendRecord signed).records)

include h hclean hrollbacks hacts hwrites hcounter hchange hcf

/-- In the vault with its record, a change of a secret by a user who may write it takes effect. -/
lemma takesEffect_of_changesSecret :
    (validateVault provider.toCryptoProvider (session.vault.appendRecord signed)
        session.remembered).issues = [] ∧
      TakesEffect provider.toCryptoProvider session.report.effective
        (validateVault provider.toCryptoProvider (session.vault.appendRecord signed)
          session.remembered).effective
        (deriveSecretId provider.toCryptoProvider selector)
        ⟨signed, body, recordHash provider.toCryptoProvider signed, signer.userId⟩ := by
  obtain ⟨hbody, -⟩ := Hazmat.body_of_signedPayload hchange.signs
  obtain ⟨root, records, extra, hgrows⟩ := h.growsBySecrets hclean
    (fun other (hother : other ∈ [signed]) => ⟨body, List.mem_singleton.mp hother ▸ hbody,
      isSecret_of_identity hchange.identity⟩) hcf
  rw [List.foldl_cons, List.foldl_nil] at hgrows
  rw [hgrows.before] at hacts hwrites hcounter hrollbacks
  have hcfOld : CollisionFree provider.toCryptoProvider session.vault.records :=
    hcf.mono fun other hother => VaultStore.mem_appendRecord.mpr (Or.inl hother)
  have hjudged := judges_of_actsIn hgrows.resolved hcfOld hacts hchange.signs
    (hchange.shape root.root)
  generalize hrecord : (⟨signed, body, recordHash provider.toCryptoProvider signed,
    signer.userId⟩ : VerifiedRecord) = record at hjudged
  have hsigned : record.signed = signed := hrecord ▸ rfl
  have hle := counter_le_of_resolved hgrows.resolved
  have hregressed : ∀ key ∈ rollbackKeys provider.toCryptoProvider session.remembered root records,
      key.isSecret = true := fun key hkey => hrollbacks key (rollbackAt_resolveRecords.mpr hkey)
  have hcounter' : commitCounter (resolveRecords provider.toCryptoProvider session.remembered root
      records) = .ok record.counter := by
    rw [hcounter, ← hrecord, VerifiedRecord.counter, hchange.counter, Option.getD_some]
  have hclassified : classifySecret (resolveRecords provider.toCryptoProvider session.remembered
      root records).authorities record =
        some (deriveSecretId provider.toCryptoProvider selector) := by
    rw [← secretIndexKey_eq_classifySecret, secretIndexKey, ← hrecord]
    simp only [hchange.identity]
    exact if_pos hwrites
  have hnew : signed ∉ session.vault.records := by
    intro hmem
    obtain ⟨-, -, hrecords⟩ := resolvedRecords_eq_some.mp hgrows.resolved
    refine not_mem_of_commitCounter hle hregressed hcounter' hclassified
      hgrows.appends.hashes_left ?_
    rw [← hrecords]
    exact mem_verifiedRecords.mpr ⟨signed, (mem_distinctRecords hcfOld).mpr hmem, hjudged⟩
  have honly : ∀ other ∈ (session.vault.appendRecord signed).records,
      other ∉ session.vault.records → other = signed := fun other hother hotherNew =>
    (VaultStore.mem_appendRecord.mp hother).resolve_left hotherNew
  have hextra : ∀ other, other ∈ extra ↔ other = record := by
    intro other
    rw [hgrows.mem_extra]
    constructor
    · rintro ⟨hother, hotherNew, hverdict⟩
      rw [honly _ hother hotherNew, hjudged] at hverdict
      exact (RecordVerdict.verified.inj hverdict).symm
    · rintro rfl
      rw [hsigned]
      exact ⟨VaultStore.mem_appendRecord.mpr (Or.inr rfl), hnew, hjudged⟩
  refine ⟨hgrows.issues.mpr fun other hother hotherNew => ?_, ?_⟩
  · rw [honly other hother hotherNew, hjudged]
    rfl
  · rw [hgrows.after, hgrows.before]
    exact hgrows.appends.takesEffect hle hregressed hcounter' hclassified hextra

/-- The change projects to a state in which it takes effect. -/
lemma project_changesSecret
    (hbytes : encodeVault provider (session.vault.appendRecord signed) = .ok vaultBytes) :
    ∃ next, project provider session (change.toChange provider.toCryptoProvider) = .ok next ∧
      next.vault = session.vault.appendRecord signed ∧
      next.output = (output, recordHash provider.toCryptoProvider signed) ∧
      next.report.issues = [] ∧
      TakesEffect provider.toCryptoProvider session.report.effective next.report.effective
        (deriveSecretId provider.toCryptoProvider selector)
        ⟨signed, body, recordHash provider.toCryptoProvider signed, signer.userId⟩ := by
  obtain ⟨hissues, heffect⟩ := takesEffect_of_changesSecret h hclean hrollbacks hacts hwrites
    hcounter hchange hcf
  have hreport := h.validate_grown hcf
    (fun other hother => VaultStore.mem_appendRecord.mpr (Or.inl hother)) session.remembered
  have hcurrent : (validateVault provider.toCryptoProvider (session.vault.appendRecord signed)
      session.remembered).effective.secretRecordIsCurrent
        (recordHash provider.toCryptoProvider signed) = true := by
    have hsettled : SecretsSettled provider.toCryptoProvider (validateVault provider.toCryptoProvider
        (session.vault.appendRecord signed) session.remembered).effective := secretsSettled_validate
    have hkey := key_of_latest hsettled.indexed heffect.latest
    exact (hsettled.secretRecordIsCurrent_iff heffect.appended.1 hkey).mpr
      ⟨heffect.settled, heffect.latest⟩
  refine ⟨{ vault := session.vault.appendRecord signed
            vaultBytes := vaultBytes
            ratchet := session.remembered.applyUpdate (validateVault provider.toCryptoProvider
              (session.vault.appendRecord signed) session.remembered).ratchetUpdate
            report := validateVault provider.toCryptoProvider (session.vault.appendRecord signed)
              session.remembered
            output := (output, recordHash provider.toCryptoProvider signed) },
    project_eq_ok.mpr ⟨hclean, _, _, ?_, rfl, rfl, hreport.symm, hissues, ?_, hbytes, rfl⟩,
    rfl, rfl, hissues, heffect⟩
  · simp only [RecordChange.toChange, hcounter, hchange.builds, bind, Except.bind]
  · exact hchange.checks _ hcurrent

end Writer

end Changes

/-! ### The records of a set and of a deletion -/

section Records

variable {provider : StoreProvider} {sealing : SealProvider} {report : ValidationReport}
variable {identity : UnlockedIdentity} {selector : SecretSelectorV1} {value : SecretValueV1}
variable {random : SealRandomness} {counter : ℕ}

/-- A record that declares no root is no candidate for one. -/
lemma trustedRootCandidate_appendRecord {crypto : CryptoProvider} {vault : VaultStore}
    {signed : VaultRecordV1} {body : RecordBodyV1} (hbody : signed.body = .known body)
    (hnone : ∀ root, body ≠ .vaultRoot root) :
    trustedRootCandidate crypto (vault.appendRecord signed) = trustedRootCandidate crypto vault := by
  have hset : trustedRootCandidates crypto (vault.appendRecord signed).records =
      trustedRootCandidates crypto vault.records := by
    apply set_ext
    intro candidate
    simp only [trustedRootCandidates, mem_collectSet, VaultStore.mem_appendRecord]
    refine or_congr_right ⟨?_, ?_⟩
    · rintro ⟨other, hother | rfl, h⟩
      · exact ⟨other, hother, h⟩
      · rw [hbody] at h
        cases body <;> simp_all
    · rintro ⟨other, hother, h⟩
      exact ⟨other, Or.inl hother, h⟩
  rw [trustedRootCandidate, trustedRootCandidate, hset]

lemma commitCounter_le {effective : EffectiveState} (h : commitCounter effective = .ok counter) :
    counter ≤ maxLwwCounter := by
  simp only [commitCounter] at h
  split_ifs at h with hceiling
  rw [← Except.ok.inj h]
  exact not_lt.mp hceiling

/-- What an identity signs for a selector holds a slot for each reader. -/
lemma sealedSecretRecord_eq_ok {signed : VaultRecordV1} {payload : SealedPayloadV1} :
    sealedSecretRecord provider sealing identity report selector value random counter =
        .ok (signed, payload) ↔
      sealSecretPayload sealing report.effective
          ⟨.secret (deriveSecretId provider.toCryptoProvider selector), identity.signingPublicKey,
            counter, deriveSecretId provider.toCryptoProvider selector, selector⟩ value random =
        .ok payload ∧
      Hazmat.signedPayload provider.toCryptoProvider identity.toRecordSigner
          (.secret ⟨deriveSecretId provider.toCryptoProvider selector, selector, payload,
            counter⟩) = .ok signed := by
  simp only [sealedSecretRecord, bind_eq_ok, mapError_eq_ok, Hazmat.secretRecord]
  constructor
  · rintro ⟨sealedPayload, hpayload, envelope, hsigned, h⟩
    obtain ⟨rfl, rfl⟩ := Prod.mk.inj (Except.ok.inj h)
    exact ⟨hpayload, hsigned⟩
  · rintro ⟨hpayload, hsigned⟩
    exact ⟨payload, hpayload, signed, hsigned, rfl⟩

lemma structurallyValidateRecord_secret {crypto : CryptoProvider} {signed : VaultRecordV1}
    {payload : SealedPayloadV1} (root : VaultRootRecordV1)
    (hvalid : validateSecretSelector selector = .ok ()) (hcounter : counter ≤ maxLwwCounter)
    (hslots : (payload.recipientSlots.map (·.recipientId)).Nodup) :
    structurallyValidateRecord crypto signed
      (.secret ⟨deriveSecretId crypto selector, selector, payload, counter⟩) root = .ok () := by
  simp [structurallyValidateRecord, structurallyValidateBody, RecordBodyV1.lwwCounter,
    not_lt.mpr hcounter, hvalid, hslots, bind, Except.bind]

lemma structurallyValidateRecord_secretDeleted {crypto : CryptoProvider} {signed : VaultRecordV1}
    (root : VaultRootRecordV1) (hvalid : validateSecretSelector selector = .ok ())
    (hcounter : counter ≤ maxLwwCounter) :
    structurallyValidateRecord crypto signed
      (.secretDeleted ⟨deriveSecretId crypto selector, selector, counter⟩) root = .ok () := by
  simp [structurallyValidateRecord, structurallyValidateBody, RecordBodyV1.lwwCounter,
    not_lt.mpr hcounter, hvalid, bind, Except.bind]

lemma currentOr_eq_ok {message : String} {hash : HashValue}
    (h : report.effective.secretRecordIsCurrent hash = true) :
    currentOr message hash report = .ok () := by
  rw [currentOr, if_pos h]

/-- Whatever a set builds names its selector. -/
lemma builds_set {signed : VaultRecordV1} {output : SetSecretOutput}
    (h : (setSecretChange provider sealing identity selector value random).build report counter =
      .ok (signed, output)) :
    ∃ body secret, signed.body = .known body ∧
      secretRecordIdentity body = some (secret, selector) := by
  simp only [setSecretChange, bind_eq_ok, Prod.exists] at h
  obtain ⟨built, payload, hrecord, h⟩ := h
  obtain ⟨rfl, -⟩ := Prod.mk.inj (Except.ok.inj h)
  obtain ⟨hbody, -⟩ := Hazmat.body_of_signedPayload (sealedSecretRecord_eq_ok.mp hrecord).2
  exact ⟨_, _, hbody, rfl⟩

/-- So does whatever a deletion builds. -/
lemma builds_delete {signed : VaultRecordV1} {output : DeleteSecretOutput}
    (h : (deleteSecretChange provider identity.toRecordSigner selector).build report counter =
      .ok (signed, output)) :
    ∃ body secret, signed.body = .known body ∧
      secretRecordIdentity body = some (secret, selector) := by
  simp only [deleteSecretChange, Hazmat.secretDeletedRecord, bind_eq_ok, mapError_eq_ok] at h
  obtain ⟨built, hrecord, h⟩ := h
  obtain ⟨rfl, -⟩ := Prod.mk.inj (Except.ok.inj h)
  exact ⟨_, _, (Hazmat.body_of_signedPayload hrecord).1, rfl⟩

variable (hgenuine : identity.toRecordSigner.Genuine provider.toCryptoProvider)
variable (hvalid : validateSecretSelector selector = .ok ()) (hcounter : counter ≤ maxLwwCounter)

include hgenuine hvalid hcounter

/-- A set changes a secret to a record with a slot for each reader. -/
lemma exists_changesSecret_set {root : HashValue}
    (hroot : report.effective.rootSigningPublicKeyHash = some root)
    (hseal : CanSeal sealing report.effective
      ⟨.secret (deriveSecretId provider.toCryptoProvider selector), identity.signingPublicKey,
        counter, deriveSecretId provider.toCryptoProvider selector, selector⟩ value random) :
    ∃ signed payload, ChangesSecret provider.toCryptoProvider identity.toRecordSigner selector
        (setSecretChange provider sealing identity selector value random) report counter signed
        (.secret ⟨deriveSecretId provider.toCryptoProvider selector, selector, payload, counter⟩)
        ⟨deriveSecretId provider.toCryptoProvider selector, selector, payload⟩ ∧
      payload.recipientSlots.map (·.recipientId) =
        report.effective.currentReaderEntries selector := by
  obtain ⟨payload, hpayload⟩ := exists_sealSecretPayload hroot hseal
  have hslots := slots_of_sealSecretPayload hpayload
  obtain ⟨signed, hsigned⟩ := Hazmat.exists_signedPayload hgenuine
    (.secret ⟨deriveSecretId provider.toCryptoProvider selector, selector, payload, counter⟩)
  have hrecord := sealedSecretRecord_eq_ok.mpr ⟨hpayload, hsigned⟩
  refine ⟨signed, payload, ⟨?_, hsigned, rfl, rfl, fun root => ?_, fun after hcurrent => ?_⟩, hslots⟩
  · simp only [setSecretChange, hrecord, bind, Except.bind]
  · exact structurallyValidateRecord_secret root hvalid hcounter
      (hslots ▸ nodup_currentReaderEntries selector)
  · exact currentOr_eq_ok hcurrent

/-- A deletion changes it to a tombstone. -/
lemma exists_changesSecret_delete :
    ∃ signed, ChangesSecret provider.toCryptoProvider identity.toRecordSigner selector
      (deleteSecretChange provider identity.toRecordSigner selector) report counter signed
      (.secretDeleted ⟨deriveSecretId provider.toCryptoProvider selector, selector, counter⟩)
      ⟨deriveSecretId provider.toCryptoProvider selector, selector⟩ := by
  obtain ⟨signed, hsigned⟩ := Hazmat.exists_signedPayload hgenuine
    (.secretDeleted ⟨deriveSecretId provider.toCryptoProvider selector, selector, counter⟩)
  refine ⟨signed, ?_, hsigned, rfl, rfl, fun root => ?_, fun after hcurrent => ?_⟩
  · simp [deleteSecretChange, Hazmat.secretDeletedRecord, hsigned, bind, Except.bind]
  · exact structurallyValidateRecord_secretDeleted root hvalid hcounter
  · exact currentOr_eq_ok hcurrent

end Records

/-! ### Selectors that are validated -/

section Labels

variable {crypto : CryptoProvider} {vault : VaultStore} {ratchet : Ratchet}
variable {verified : BTreeSet HashValue} {signed : VaultRecordV1} {body : RecordBodyV1}
variable {root : VaultRootRecordV1} {secret : SecretId} {selector : SecretSelectorV1}

/-- A validation without issues has found the known records well formed. -/
lemma structure_of_clean
    (hclean : (validateVaultWithVerified crypto vault ratchet verified).issues = [])
    (hcf : CollisionFree crypto vault.records) (hmem : signed ∈ vault.records)
    (hbody : signed.body = .known body) :
    ∃ root, structurallyValidateRecord crypto signed body root = .ok () := by
  cases hresolved : resolvedWith crypto verified vault ratchet with
  | none => exact absurd hclean (validateVaultWithVerified_of_unresolved hresolved).2.2.2
  | some resolved =>
    obtain ⟨root, records⟩ := resolved
    obtain ⟨-, -, -, hissues, -⟩ := validateVaultWithVerified_of_resolved hresolved
    rw [hissues, List.append_eq_nil_iff] at hclean
    have hnone := List.filterMap_eq_nil_iff.mp hclean.1 _
      (List.mem_map_of_mem ((mem_distinctRecords hcf).mpr hmem))
    refine ⟨root.root, ?_⟩
    cases hstructure : structurallyValidateRecord crypto signed body root.root with
    | ok done => rfl
    | error issue => simp [judgeRecord, hbody, hstructure, RecordVerdict.issue?] at hnone

/-- A well-formed record of a secret has a valid selector. -/
lemma labels_of_structure (hidentity : secretRecordIdentity body = some (secret, selector))
    (h : structurallyValidateRecord crypto signed body root = .ok ()) :
    validateSecretSelector selector = .ok () := by
  have hstructure := structurallyValidateBody_of_record h
  cases body <;> simp only [secretRecordIdentity, reduceCtorEq] at hidentity
  all_goals
    obtain ⟨-, rfl⟩ := Prod.mk.inj (Option.some.inj hidentity)
    obtain ⟨_, hvalid, -⟩ := bind_eq_ok.mp hstructure
    exact hvalid

end Labels

/-! ### Writes that nothing hinders -/

section Writes

variable (provider : StoreProvider) (disk : Disk) (session : LockedSession)

/-- A signer may write a secret in a session: nothing is wrong with the session, only secrets are
suspected of a rollback there, and counters are left. -/
structure LockedSession.MayWrite (signer : RecordSigner) (selector : SecretSelectorV1) : Prop where
  clean : session.report.issues = []
  rollbacks : ∀ key, session.report.effective.RollbackAt key → key.isSecret = true
  acts : signer.ActsIn provider.toCryptoProvider session.report.effective
  writes : (session.report.effective.authorityForUser signer.userId).canWrite selector = true
  counters : ∃ counter, commitCounter session.report.effective = .ok counter

variable {α : Type}

/-- What a change makes of the vault has no collisions of hashes, fits into its file, and is
committed by nobody else at the same time. -/
structure LockedSession.Admits (contended : Bool) (transactionId : Bytes) (change : Change α) :
    Prop where
  grown : ∀ vault output, change.update session.vault session.report = .ok (vault, output) →
    CollisionFree provider.toCryptoProvider vault.records ∧
      ∃ bytes, encodeVault provider vault = .ok bytes
  unhindered : ∀ next, project provider session change = .ok next →
    session.Unhindered provider disk contended transactionId next

/-- The labels of the selector are valid and, where there are files, the ratchet file is what
encoding its ratchet gives. -/
structure LockedSession.GetsThrough (selector : SecretSelectorV1) : Prop where
  labels : validateSecretSelector selector = .ok ()
  ratchet : session.persistence = .live → disk.KeepsRatchet provider session.ratchet.trustedRoot

variable {provider disk session}
variable {sealing : SealProvider} {envelopes : Set VaultRecordV1} {contended : Bool}
variable {transactionId : Bytes} {signer : RecordSigner} {selector : SecretSelectorV1}
variable {change : RecordChange α} {signed : VaultRecordV1} {body : RecordBodyV1} {output : α}
variable {counter : ℕ} {start : LockedSession}

/-- A change is admitted where the disk is, if all that it writes can be encoded. -/
lemma LockedSession.AtDisk.admits {change : Change α} {vault : VaultStore}
    {vaultBytes ratchetBytes nextRatchetBytes journalBytes : Bytes}
    (hdisk : session.AtDisk provider disk) (hlive : session.persistence = .live)
    (hupdate : (change.update session.vault session.report).map Prod.fst = .ok vault)
    (hcf : CollisionFree provider.toCryptoProvider vault.records)
    (hvault : encodeVault provider vault = .ok vaultBytes)
    (hratchet : encodeRatchet provider session.ratchet = .ok ratchetBytes)
    (hnext : encodeRatchet provider (session.remembered.applyUpdate (validateVaultWithVerified
      provider.toCryptoProvider vault session.remembered
      session.report.effective.verifiedRecordHashes).ratchetUpdate) = .ok nextRatchetBytes)
    (hjournal : encodeTransaction provider (session.journal provider transactionId ratchetBytes
      vaultBytes nextRatchetBytes) = .ok journalBytes)
    (hratchets : fileHash provider ratchetBytes ≠ fileHash provider nextRatchetBytes)
    (hvaults : fileHash provider session.vaultBytes ≠ fileHash provider vaultBytes) :
    session.Admits provider disk false transactionId change := by
  have hwritten : ∀ written output, change.update session.vault session.report =
      .ok (written, output) → written = vault := by
    intro written output h
    rw [h] at hupdate
    exact Except.ok.inj hupdate
  refine ⟨fun written output h => ?_, fun next hproject => ?_⟩
  · obtain rfl := hwritten written output h
    exact ⟨hcf, _, hvault⟩
  · obtain ⟨-, written, output, h, -, -, hreport, -, -, hencoded, hlearned⟩ :=
      project_eq_ok.mp hproject
    obtain rfl := hwritten written output h
    obtain rfl := Except.ok.inj (hencoded.symm.trans hvault)
    rw [hreport] at hlearned
    rw [LockedSession.remembered, ← hlearned] at hnext
    exact .live hlive rfl hdisk ⟨⟨_, _, _, hratchet, hnext, hjournal, fun heq =>
      absurd heq hratchets⟩, fun heq => absurd heq hvaults⟩

lemma ensureSecretWritable_of_mayWrite (h : session.Settled provider envelopes)
    (hmay : session.MayWrite provider signer selector) :
    ensureSecretWritable session.report.effective selector signer.userId = .ok () := by
  obtain ⟨user, huser, -⟩ := hmay.acts.user
  have hmem : session.report.effective.users.contains signer.userId = true := by
    rw [ExtTreeMap.contains_iff_mem, ← ExtTreeMap.isSome_getElem?_iff_mem, huser]
    rfl
  simp [ensureSecretWritable, hmem, h.authorityResolved hmay.clean, hmay.writes]

/-- A change of a secret by a signer who may write it succeeds if its commit gets through, and takes
effect. -/
lemma result_writeSecret (hsession : session.Settled provider envelopes)
    (henters : session.MayWrite provider signer selector)
    (hstarts : StartsFrom provider disk session start) (h : start.Settled provider envelopes)
    (hmay : start.MayWrite provider signer selector)
    (hthrough : start.GetsThrough provider disk selector)
    (hcounter : commitCounter start.report.effective = .ok counter)
    (hchange : ChangesSecret provider.toCryptoProvider signer selector change start.report counter
      signed body output)
    (hadmits : start.Admits provider disk contended transactionId
      (change.toChange provider.toCryptoProvider)) :
    (writeSecret provider contended transactionId signer selector change (disk, session)).result =
        .ok output ∧
      TakesEffect provider.toCryptoProvider start.report.effective
        (writeSecret provider contended transactionId signer selector change
          (disk, session)).last.2.report.effective
        (deriveSecretId provider.toCryptoProvider selector)
        ⟨signed, body, recordHash provider.toCryptoProvider signed, signer.userId⟩ := by
  have hupdate : (change.toChange provider.toCryptoProvider).update start.vault start.report =
      .ok (start.vault.appendRecord signed, output,
        recordHash provider.toCryptoProvider signed) := by
    simp only [RecordChange.toChange, hcounter, hchange.builds, bind, Except.bind]
  obtain ⟨hcf, bytes, hbytes⟩ := hadmits.grown _ _ hupdate
  obtain ⟨next, hproject, hvault, houtput, -, heffect⟩ := project_changesSecret h hmay.clean
    hmay.rollbacks hmay.acts hmay.writes hcounter hchange hcf hbytes
  have hunhindered := hadmits.unhindered next hproject
  have hroot : start.persistence = .live →
      trustedRootCandidate provider.toCryptoProvider next.vault =
        .ok start.ratchet.trustedRoot := by
    intro hlive
    rw [hvault, trustedRootCandidate_appendRecord (Hazmat.body_of_signedPayload hchange.signs).1
      (ne_vaultRoot_of_identity hchange.identity)]
    cases hunhindered with
    | prepared hprepared => simp [hlive] at hprepared
    | live _ _ hdisk _ => exact hdisk.root
  have hmeets : (writeSecret provider contended transactionId signer selector change).Meets
      (disk, session) (fun _ => True) fun result state =>
        result = .ok output ∧ start.Reaches next state := by
    have hidentity : Hazmat.ensureIdentityConsistent provider.toCryptoProvider signer =
        .ok signer.userId := by
      rw [Hazmat.ensureIdentityConsistent, if_pos hmay.acts.genuine.consistent.symm,
        ← hmay.acts.genuine.consistent]
    simp only [writeSecret, commitRecord, current, Program.meets_bind, Program.meets_read, onDisk,
      Program.meets_zoom, meets_check, ensureSecretWritable_of_mayWrite hsession henters, hidentity,
      mapError_ok]
    refine (hunhindered.meets_commit hstarts hthrough.ratchet hproject hroot).mono
      (fun _ _ => trivial) ?_
    rintro _ state ⟨rfl, hreaches⟩
    rw [houtput]
    exact Program.meets_pure.mpr ⟨rfl, hreaches⟩
  refine ⟨hmeets.result.1, ?_⟩
  rw [hmeets.result.2.report]
  exact heffect

/-- What a write of a secret returns has been committed. -/
lemma commit_of_writeSecret
    (h : (writeSecret provider contended transactionId signer selector change
      (disk, session)).result = .ok output) :
    ∃ hash, (commit provider contended transactionId (change.toChange provider.toCryptoProvider)
      (disk, session)).result = .ok (output, hash) := by
  have hends : (writeSecret provider contended transactionId signer selector change).Ends
      (disk, session) output _ := ⟨h, rfl⟩
  simp only [writeSecret, commitRecord, current, onDisk, Program.ends_bind, Program.ends_read,
    Program.ends_zoom, ends_check] at hends
  obtain ⟨_, _, ⟨-, rfl⟩, _, _, ⟨_, ⟨-, rfl⟩, rfl⟩, _, _, ⟨_, ⟨-, rfl⟩, rfl⟩, ⟨_, hash⟩, _, hcommit,
    hpure⟩ := hends
  obtain ⟨rfl, -⟩ := Program.ends_pure.mp hpure
  exact ⟨hash, hcommit.1⟩

/-- A write of a secret that returns has validated the selector, and found the ratchet file as it
would write it. -/
lemma getsThrough_of_writeSecret (hstarts : StartsFrom provider disk session start)
    (hadmits : start.Admits provider disk contended transactionId
      (change.toChange provider.toCryptoProvider))
    (hbuilds : ∀ counter signed output, change.build start.report counter = .ok (signed, output) →
      ∃ body secret, signed.body = .known body ∧
        secretRecordIdentity body = some (secret, selector))
    (h : (writeSecret provider contended transactionId signer selector change
      (disk, session)).result = .ok output) : start.GetsThrough provider disk selector := by
  obtain ⟨hash, hcommit⟩ := commit_of_writeSecret h
  obtain ⟨start', next, hstarts', hproject, -⟩ := startsFrom_of_commit hcommit
  obtain rfl := hstarts.unique hstarts'
  refine ⟨?_, fun hlive => ?_⟩
  · obtain ⟨-, vault, output, hupdate, -, -, hreport, hclean, -⟩ := project_eq_ok.mp hproject
    obtain ⟨hcf, -⟩ := hadmits.grown vault output hupdate
    simp only [RecordChange.toChange, bind_eq_ok, Prod.exists] at hupdate
    obtain ⟨counter, -, signed, built, hbuild, hvault⟩ := hupdate
    obtain ⟨body, secret, hbody, hidentity⟩ := hbuilds counter signed built hbuild
    obtain ⟨rfl, -⟩ := Prod.mk.inj (Except.ok.inj hvault)
    rw [hreport] at hclean
    obtain ⟨root, hstructure⟩ := structure_of_clean hclean hcf
      (VaultStore.mem_appendRecord.mpr (Or.inr rfl)) hbody
    exact labels_of_structure hidentity hstructure
  · cases hadmits.unhindered next hproject with
    | prepared hprepared => simp [hlive] at hprepared
    | live _ _ hdisk _ => exact keepsRatchet_of_commit hstarts hlive hdisk hcommit

/-- Once a value with a slot for each reader takes effect, exactly the readers can decrypt it. -/
lemma TakesEffect.decryptable {crypto : CryptoProvider} {before after : EffectiveState}
    {record : VerifiedRecord} {value : SecretRecordV1}
    (h : TakesEffect crypto before after (deriveSecretId crypto selector) record)
    (hbody : record.body = .secret value) (hselector : value.selector = selector)
    (hslots : value.sealed.recipientSlots.map (·.recipientId) =
      before.currentReaderEntries selector)
    (hresolved : before.authorityUnresolved = false) (user : UserId) :
    after.classifySecretForUser crypto selector user = .activeDecryptable ↔
      user ∈ after.users ∧ (after.authorityForUser user).canRead selector = true := by
  have hreaders := h.principals.currentReaderEntries_eq selector
  have hunresolved : after.authorityUnresolved = false := by
    rw [h.principals]
    exact hresolved
  have hlive : (after.liveSecretWinner crypto selector).bind EffectiveState.activeSecret =
      some ⟨record.signed, value⟩ :=
    live_eq_some.mpr ⟨record, h.latest, activeSecret_eq_some.mpr ⟨hbody, rfl⟩⟩
  rw [classifySecretForUser_eq_active h.settled, hlive]
  simp only [hunresolved, Option.some.injEq, exists_eq_left', true_and, hselector]
  rw [← hreaders] at hslots
  constructor
  · exact fun ⟨huser, hread, _⟩ => ⟨huser, hread⟩
  · rintro ⟨huser, hread⟩
    refine ⟨huser, hread, hslots ▸ nodup_currentReaderEntries selector, ?_⟩
    have hslot : user ∈ value.sealed.recipientSlots.map (·.recipientId) :=
      hslots ▸ mem_currentReaderEntries.mpr ⟨huser, hread⟩
    simpa using hslot

/-- A write of a secret returns, and its record takes effect. -/
def WriteTakesEffect {α : Type} (crypto : CryptoProvider) (start : LockedSession)
    (selector : SecretSelectorV1) (signer : UserId) (body : α → ℕ → RecordBodyV1)
    (run : Outcome (Disk × LockedSession) OpsError α) : Prop :=
  ∃ output record counter, run.result = .ok output ∧ record.body = body output counter ∧
    record.signer = signer ∧
    TakesEffect crypto start.report.effective run.last.2.report.effective
      (deriveSecretId crypto selector) record

end Writes

section Example

open TestSupport

def writableVault : VaultStore := .v1 ⟨[vaultRootRecord]⟩

def setVault : VaultStore := .v1 ⟨[vaultRootRecord, sealedRecord rootUser [rootUser] 0]⟩

def deletedVault : VaultStore := .v1 ⟨[vaultRootRecord, secretDeletedRecord rootUser 0]⟩

/-- A first counter is not remembered, the version of the format is. -/
def writtenRatchet : Ratchet := { freshRatchet with formatVersion := 1 }

/-- The journal of a write that replaces the first vault file. -/
def writtenJournal (position : UInt8) : TransactionV1 where
  transactionId := List.replicate 32 7
  trustedRoot := testRoot
  originVaultPath := .fromPath testPaths.vaultPath
  operation := "vault mutation"
  vaultBefore := .hash (fileDigest (vaultFile 0))
  ratchetBefore := .hash (fileDigest (ratchetFile 0))
  nextVaultBytes := vaultFile position
  nextRatchetBytes := ratchetFile 1

def writableProvider : StoreProvider := tableProvider
  { vaults := [writableVault, setVault, deletedVault]
    ratchets := [ratchetStore freshRatchet, ratchetStore writtenRatchet]
    transactions := [writtenJournal 1, writtenJournal 2]
    caches := [] }

def writableDisk : Disk := testDisk (some (vaultFile 0)) (some (ratchetFile 0)) none

def writableSession : LockedSession := loadedSession writableProvider writableVault 0 freshRatchet

lemma settled_loadedSession {provider : StoreProvider} {vault : VaultStore} {position : UInt8}
    {ratchet : Ratchet} : (loadedSession provider vault position ratchet).Settled provider
      {signed | signed ∈ vault.records} :=
  ⟨⟨fun _ hmem => hmem, ratchet, rfl⟩, rfl, rfl⟩

lemma atDisk_writable : writableSession.AtDisk writableProvider writableDisk where
  vault := rfl
  length := by decide
  decodes := ⟨writableVault, rfl, fun _ => Iff.rfl⟩
  root := rfl
  ratchet := ⟨ratchetFile 0, rfl, by decide, rfl, rfl⟩
  transaction := rfl
  joinCommit := rfl

/-- A user acts under its own keys where they are the ones on record. -/
lemma actsIn_of_user {effective : EffectiveState} {user : TestUser} {provider : StoreProvider}
    (hgenuine : (testSigner user).Genuine provider.toCryptoProvider)
    (h : (effective.users[user.id]?).map (·.signingPublicKey) = some user.signingPublicKey) :
    (testSigner user).ActsIn provider.toCryptoProvider effective :=
  ⟨hgenuine, Option.map_eq_some_iff.mp h⟩

lemma genuine_tableSigner (tables : Tables) (user : TestUser) :
    (testSigner user).Genuine (tableProvider tables).toCryptoProvider :=
  ⟨(genuine_testSigner user).verifies, (genuine_testSigner user).consistent⟩

lemma not_rollbackAt_of_settled {effective : EffectiveState}
    (h : effective.conflicted.isEmpty = true) (key : RecordKey) : ¬ effective.RollbackAt key := by
  rintro ⟨report, -, hreport, -⟩
  simp [ExtTreeMap.isEmpty_iff.mp h] at hreport

lemma mayWrite_writable :
    writableSession.MayWrite writableProvider (testSigner rootUser) testSelector where
  clean := rfl
  rollbacks key h := absurd h (not_rollbackAt_of_settled rfl key)
  acts := actsIn_of_user (genuine_tableSigner _ _) rfl
  writes := rfl
  counters := ⟨0, rfl⟩

/-- A change that writes a vault of the tables is admitted. -/
lemma admits_writable {α : Type} {change : Change α} (vault : VaultStore) (position : UInt8)
    (hupdate : (change.update writableSession.vault writableSession.report).map Prod.fst =
      .ok vault)
    (hcf : CollisionFree writableProvider.toCryptoProvider vault.records)
    (hbytes : encodeVault writableProvider vault = .ok (vaultFile position))
    (hjournal : encodeTransaction writableProvider (writtenJournal position) =
      .ok (transactionFile (position - 1)))
    (hdistinct : fileHash writableProvider (vaultFile 0) ≠
      fileHash writableProvider (vaultFile position))
    (hratchet : encodeRatchet writableProvider
      (writableSession.remembered.applyUpdate (validateVaultWithVerified
        writableProvider.toCryptoProvider vault writableSession.remembered
        writableSession.report.effective.verifiedRecordHashes).ratchetUpdate) =
      .ok (ratchetFile 1)) :
    writableSession.Admits writableProvider writableDisk false (List.replicate 32 7) change :=
  atDisk_writable.admits rfl hupdate hcf hbytes
    (show encodeRatchet writableProvider freshRatchet = .ok (ratchetFile 0) from rfl)
    hratchet hjournal (by decide) hdistinct

lemma startsFrom_writable : StartsFrom writableProvider writableDisk writableSession writableSession :=
  .locked rfl atDisk_writable.refreshes

lemma getsThrough_writable : writableSession.GetsThrough writableProvider writableDisk testSelector where
  labels := rfl
  ratchet := by
    intro _ bytes ratchet hbytes hholds
    obtain rfl := Option.some.inj hbytes
    obtain ⟨_, hbytes', hholds'⟩ := atDisk_writable.ratchet
    obtain rfl := Option.some.inj hbytes'
    obtain rfl := Except.ok.inj (hholds.2.1.symm.trans hholds'.2.1)
    rfl

/-- A selector that names labels only. -/
def labelledSelector : SecretSelectorV1 := ⟨[], [⟨"app", "web"⟩]⟩

def labelledId : SecretId := deriveSecretId transparentCrypto labelledSelector

/-- What the root seals there for itself, at counter 1. -/
def labelledRecord : VaultRecordV1 :=
  let slots : List RecipientSlotV1 := [⟨rootUser.id, rootUser.hpkePublicKey,
    slotBytes ⟨testRoot, labelledId, labelledSelector, rootUser.id⟩ ++ testRandomness.contentKey⟩]
  signedRecord rootUser (.secret ⟨labelledId, labelledSelector, ⟨testRandomness.nonce,
    contentBytes ⟨testRoot, ⟨.secret labelledId, rootUser.signingPublicKey, 1, labelledId,
      labelledSelector⟩, testRandomness.nonce, slots⟩ ++
        (sealedValueV1Magic ++ transparentSeal.serializeValue testValue), slots⟩, 1⟩)

def labelledVault : VaultStore := setVault.appendRecord labelledRecord

/-- What is read back of a ratchet that remembers the secret: its name is lost. -/
def namelessRatchet (counters : List (RecordKey × ℕ)) : Ratchet :=
  { writtenRatchet with watermarks := (ratchetWith counters).watermarks }

def namingRatchet (counters : List (RecordKey × ℕ)) : Ratchet :=
  { namelessRatchet counters with
    origins := (∅ : BTreeMap RecordKey KeyOrigin).insert (.secret labelledId)
      (.secret labelledSelector) }

def labelledProvider : StoreProvider := tableProvider
  { vaults := [setVault, labelledVault,
      labelledVault.appendRecord (sealedRecord rootUser [rootUser] 2),
      labelledVault.appendRecord (secretDeletedRecord rootUser 2)]
    ratchets := [ratchetStore writtenRatchet,
      ratchetStore (namingRatchet [(.secret labelledId, 1)]),
      ratchetStore (namelessRatchet [(.secret labelledId, 1)]),
      ratchetStore (namingRatchet [(.secret labelledId, 1), (.secret testSecretId, 2)])]
    transactions := [writtenJournal 1]
    caches := [] }

def heldSession : LockedSession := loadedSession labelledProvider setVault 0 writtenRatchet

def labelledDisk : Disk := testDisk (some (vaultFile 1)) (some (ratchetFile 1)) none

def labelledSession : LockedSession :=
  loadedSession labelledProvider labelledVault 1 (namelessRatchet [(.secret labelledId, 1)])

lemma atDisk_labelled : labelledSession.AtDisk labelledProvider labelledDisk where
  vault := rfl
  length := by decide
  decodes := ⟨labelledVault, rfl, fun _ => Iff.rfl⟩
  root := rfl
  ratchet := ⟨ratchetFile 1, rfl, by decide, rfl, rfl⟩
  transaction := rfl
  joinCommit := rfl

lemma mayWrite_labelled :
    labelledSession.MayWrite labelledProvider (testSigner rootUser) testSelector where
  clean := by decide +kernel
  rollbacks key h := absurd h (not_rollbackAt_of_settled (by decide +kernel) key)
  acts := actsIn_of_user (genuine_tableSigner _ _) (by decide +kernel)
  writes := by decide +kernel
  counters := ⟨2, by decide +kernel⟩

/-- The labels of a selector out of order. -/
def unsortedSelector : SecretSelectorV1 := ⟨[], [⟨"stage", "live"⟩, ⟨"app", "web"⟩]⟩

-- whoever may write everything does not write a secret whose labels are out of order
example : (writableSession.report.effective.authorityForUser rootUser.id).canWrite unsortedSelector =
      true ∧
    (deleteSecret writableProvider false (List.replicate 32 7) (testIdentity rootUser)
        unsortedSelector (writableDisk, writableSession)).result =
      .error (.validationFailed
        [.invalidStructure "secret selector labels must be sorted and unique"]) := by
  decide

end Example

end Thorax
