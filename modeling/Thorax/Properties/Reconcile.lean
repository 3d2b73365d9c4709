import Thorax.Properties.SecretWrites

/-!
# Reconciliation

Reconciliation re-encrypts what an identity can decrypt and some reader cannot, in one batch at the
next counter, and looks at nothing afterwards. Whether a re-encrypted secret then serves its readers
is decided at its key: by what the signer may write, and by what else competes there.
-/

namespace Thorax

open Collections Durable
open Std (ExtTreeMap)

/-! ### Serving the readers of a secret -/

section Serving

variable (crypto : CryptoProvider) (state : EffectiveState) (selector : SecretSelectorV1)

/-- A live record has a slot for each user who may read the selector. -/
def SlotsForReaders (active : ActiveSecretV1) : Prop :=
  ∀ reader ∈ state.currentReaderEntries selector,
    ∃ slot ∈ active.value.sealed.recipientSlots, slot.recipientId = reader

/-- The latest record of a selector is a value with a slot for each reader. -/
def HoldsForReaders : Prop :=
  ∃ latest active,
    state.latestAuthorizedSecretRecord (deriveSecretId crypto selector) = some latest ∧
      EffectiveState.activeSecret latest = some active ∧ SlotsForReaders state selector active

/-- No reader is missing in the live record. -/
def ServesReaders : Prop :=
  ∃ active, state.secretRecord crypto selector = some active ∧
    SlotsForReaders state selector active

variable {crypto state selector}

lemma secretRecord_eq_some {active : ActiveSecretV1} :
    state.secretRecord crypto selector = some active ↔
      RecordKey.secret (deriveSecretId crypto selector) ∉ state.conflicted ∧
        ∃ latest, state.latestAuthorizedSecretRecord (deriveSecretId crypto selector) =
          some latest ∧ EffectiveState.activeSecret latest = some active := by
  rw [EffectiveState.secretRecord, ← live_eq_some, ← secretConflict_isSome]
  split_ifs with hconflict <;> simp [hconflict]

lemma servesReaders_iff : ServesReaders crypto state selector ↔
    RecordKey.secret (deriveSecretId crypto selector) ∉ state.conflicted ∧
      HoldsForReaders crypto state selector := by
  simp only [ServesReaders, HoldsForReaders, secretRecord_eq_some]
  constructor
  · rintro ⟨active, ⟨hfree, latest, hlatest, hactive⟩, hslots⟩
    exact ⟨hfree, latest, active, hlatest, hactive, hslots⟩
  · rintro ⟨hfree, latest, active, hlatest, hactive, hslots⟩
    exact ⟨active, ⟨hfree, latest, hlatest, hactive⟩, hslots⟩

end Serving

/-! ### What becomes of a re-encrypted record -/

section Keys

variable (crypto : CryptoProvider) (ratchet : Ratchet) (root : SelectedRoot)
variable (records : List VerifiedRecord)

/-- What authorities let a resolved signer write. -/
def SignerWrites (authorities : Authorities) (signer : Option UserId)
    (selector : SecretSelectorV1) : Prop :=
  ∃ user, signer = some user ∧ (signerAuth authorities user).canWrite selector = true

/-- No rollback is suspected at a key, or a record written there at a counter lifts the suspicion:
the first resolution lets its signer write it, and nothing higher is remembered. -/
def LiftsRollback (signer : Option UserId) (selector : SecretSelectorV1) (counter : ℕ) : Prop :=
  RecordKey.secret (deriveSecretId crypto selector) ∉ rollbackKeys crypto ratchet root records ∨
    (SignerWrites (provisional crypto root records).1.authorities signer selector ∧
      ratchet.watermarks[RecordKey.secret (deriveSecretId crypto selector)]?.getD 0 ≤ counter)

/-- A record sealed to the readers of a selector, by a signer and at a counter, comes to serve them:
it wins, or it loses to a record that serves them already. -/
def ComesToServe (signer : Option UserId) (selector : SecretSelectorV1) (counter : ℕ) : Prop :=
  let state := resolveRecords crypto ratchet root records
  let contends := Contends crypto ratchet root records (deriveSecretId crypto selector)
  LiftsRollback crypto ratchet root records signer selector counter ∧
    ((SignerWrites state.authorities signer selector ∧
        ∀ other, contends other → other.counter < counter) ∨
      ((SignerWrites state.authorities signer selector →
          ∃ other, contends other ∧ counter < other.counter) ∧
        Agreed records ∅ (classifySecret state.authorities) (deriveSecretId crypto selector) ∧
        HoldsForReaders crypto state selector))

end Keys

section Batches

variable {crypto : CryptoProvider} {ratchet : Ratchet} {root : SelectedRoot}
variable {records extra : List VerifiedRecord} {selector : SecretSelectorV1}
variable {record : VerifiedRecord} {value : SecretRecordV1}

/-- A record of a secret is classified by what its signer may write. -/
lemma signerWrites_iff (hbody : record.body = .secret value) (authorities : Authorities) :
    SignerWrites authorities (some record.signer) value.selector ↔
      classifySecret authorities record = some value.id := by
  simp only [SignerWrites, Option.some.injEq, exists_eq_left', classifySecret, hbody]
  split_ifs with hwrites <;> simp [hwrites]

namespace AppendsSecrets

variable (h : AppendsSecrets crypto records extra)

include h

/-- Where nothing is appended the same readers are served. -/
lemma servesReaders_of_unheard
    (hnone : ∀ other ∈ extra, other.key ≠ .secret (deriveSecretId crypto selector)) (counter : ℕ) :
    ServesReaders crypto (resolveRecords crypto ratchet root (records ++ extra)) selector ↔
      ComesToServe crypto ratchet root records none selector counter := by
  have hfree : RecordKey.secret (deriveSecretId crypto selector) ∉
      (resolveRecords crypto ratchet root (records ++ extra)).conflicted ↔
        RecordKey.secret (deriveSecretId crypto selector) ∉
          (resolveRecords crypto ratchet root records).conflicted := by
    rw [← ExtTreeMap.isSome_getElem?_iff_mem, ← ExtTreeMap.isSome_getElem?_iff_mem,
      h.conflicted_eq hnone]
  rw [@mem_conflicted_secret_iff crypto ratchet root records] at hfree
  have hunwritten : ∀ authorities : Authorities, ¬ SignerWrites authorities none selector := by
    rintro authorities ⟨user, hnone, -⟩
    cases hnone
  simp only [servesReaders_iff, ComesToServe, LiftsRollback, hunwritten, false_and, or_false,
    false_or, false_implies, true_and, hfree, not_or, not_not, HoldsForReaders, SlotsForReaders,
    h.latest_eq hnone, h.samePrincipalGraph.currentReaderEntries_eq]
  exact and_assoc

section Heard

variable (hmem : record ∈ extra) (hbody : record.body = .secret value)
variable (hid : value.id = deriveSecretId crypto selector) (hselector : value.selector = selector)
variable (honly : ∀ other ∈ extra, other.key = .secret (deriveSecretId crypto selector) →
  other = record)

include hbody hselector

omit h in
lemma lifts_of_heard : (RecordKey.secret (deriveSecretId crypto selector) ∉
        rollbackKeys crypto ratchet root records ∨
      (WritesFirst crypto root records record ∧
        ratchet.watermarks[RecordKey.secret (deriveSecretId crypto selector)]?.getD 0 ≤
          record.counter)) ↔
    LiftsRollback crypto ratchet root records (some record.signer) selector value.counter := by
  have hwrites : WritesFirst crypto root records record ↔
      SignerWrites (provisional crypto root records).1.authorities (some record.signer)
        selector := by
    rw [← hselector, signerWrites_iff hbody, WritesFirst, Option.isSome_iff_exists]
    constructor
    · rintro ⟨secret, hsecret⟩
      rw [hsecret]
      have hkey := key_of_classifySecret record secret hsecret
      rw [key_of_secret hbody] at hkey
      exact congrArg some (RecordKey.secret.inj hkey).symm
    · exact fun hclassified => ⟨_, hclassified⟩
  have hcounter : record.counter = value.counter := by
    simp [VerifiedRecord.counter, hbody, RecordBodyV1.lwwCounter]
  rw [LiftsRollback, hwrites, hcounter]

include hmem hid honly

/-- A record that is appended for the readers of a selector serves them exactly if it comes to. -/
lemma servesReaders_of_heard
    (hslots : SlotsForReaders (resolveRecords crypto ratchet root records) selector
      ⟨record.signed, value⟩)
    (hfresh : ∀ other ∈ records, other.body ≠ record.body) :
    ServesReaders crypto (resolveRecords crypto ratchet root (records ++ extra)) selector ↔
      ComesToServe crypto ratchet root records (some record.signer) selector value.counter := by
  have hkey : record.key = .secret (deriveSecretId crypto selector) := hid ▸ key_of_secret hbody
  have hcounter : record.counter = value.counter := by
    simp [VerifiedRecord.counter, hbody, RecordBodyV1.lwwCounter]
  have hlifts : RecordKey.secret _ ∉ rollbackKeys crypto ratchet root (records ++ extra) ↔ _ :=
    h.not_mem_rollbackKeys_of_only hmem honly hkey
  rw [lifts_of_heard hbody hselector] at hlifts
  have hwrites := signerWrites_iff hbody (resolveRecords crypto ratchet root records).authorities
  rw [hselector, hid] at hwrites
  have hslots' : SlotsForReaders (resolveRecords crypto ratchet root (records ++ extra)) selector
      ⟨record.signed, value⟩ := by
    rw [SlotsForReaders, h.samePrincipalGraph.currentReaderEntries_eq]
    exact hslots
  rw [servesReaders_iff, mem_conflicted_secret_iff, not_or, not_not, hlifts, ComesToServe, and_assoc]
  refine and_congr_right fun _ => ?_
  simp only [hwrites, ← hcounter]
  by_cases habove : classifySecret (resolveRecords crypto ratchet root records).authorities record =
      some (deriveSecretId crypto selector) ∧
    ∀ other, Contends crypto ratchet root records (deriveSecretId crypto selector) other →
      other.counter < record.counter
  · -- it leads alone
    have hleads : ∀ other, Leading (records ++ extra) ∅ (classifySecret (resolveRecords crypto
        ratchet root (records ++ extra)).authorities) (deriveSecretId crypto selector) other ↔ _ :=
      fun _ => h.leading_iff_of_above hmem honly habove.1 habove.2
    refine iff_of_true ⟨fun a b ha hb => ?_, record, _, h.latest_of_above hmem honly habove.1 habove.2,
      activeSecret_eq_some.mpr ⟨hbody, rfl⟩, hslots'⟩ (Or.inl habove)
    rw [(hleads a).mp ha, (hleads b).mp hb]
  rw [or_iff_right habove]
  by_cases hbelow : classifySecret (resolveRecords crypto ratchet root records).authorities record =
      some (deriveSecretId crypto selector) →
    ∃ other, Contends crypto ratchet root records (deriveSecretId crypto selector) other ∧
      record.counter < other.counter
  · -- what was there stays
    rw [h.agreed_iff_of_below hmem honly hbelow, and_iff_right hbelow, HoldsForReaders,
      HoldsForReaders, h.latest_of_below hmem honly hbelow]
    simp only [SlotsForReaders, h.samePrincipalGraph.currentReaderEntries_eq]
  · -- it ties with another record
    refine iff_of_false ?_ fun hlower => hbelow hlower.1
    rintro ⟨hagreed, _⟩
    push Not at hbelow habove
    obtain ⟨hclassified, hhighest⟩ := hbelow
    obtain ⟨rival, hrival, hle⟩ := habove hclassified
    have hcontends : ∀ other, Contends crypto ratchet root (records ++ extra)
        (deriveSecretId crypto selector) other ↔ _ := fun _ => h.contends_iff_of_only hmem honly
    have hbound : ∀ other, Contends crypto ratchet root (records ++ extra)
        (deriveSecretId crypto selector) other → other.counter ≤ record.counter := by
      intro other hother
      rcases (hcontends other).mp hother with hother | ⟨rfl, -⟩
      · exact hhighest other hother
      · exact le_rfl
    have hsame := hagreed rival record
      ⟨(hcontends rival).mpr (Or.inl hrival), fun other hother => (hbound other hother).trans hle⟩
      ⟨(hcontends record).mpr (Or.inr ⟨rfl, hclassified⟩), hbound⟩
    exact hfresh rival hrival.1 hsame

end Heard

end AppendsSecrets

end Batches

/-! ### Candidates -/

section Candidates

variable {provider : StoreProvider} {sealing : SealProvider} {report : ValidationReport}
variable {identity : UnlockedIdentity} {selector : SecretSelectorV1} {secret : SecretPlaintext}

lemma mem_missingReaderCandidates : selector ∈ missingReaderCandidates provider report ↔
    (∃ active ∈ report.effective.secretRecords, active.value.selector = selector) ∧
      report.effective.secretMissingReader provider.toCryptoProvider selector = true := by
  simp only [missingReaderCandidates, List.mem_filter, List.mem_map]

lemma selector_of_decrypted
    (h : decryptSecretFromReport provider sealing report identity selector = .ok secret) :
    ∃ active, report.effective.secretRecord provider.toCryptoProvider selector = some active ∧
      active.value.selector = secret.selector := by
  unfold decryptSecretFromReport at h
  split at h
  · cases h
  · next active hactive =>
    refine ⟨active, hactive, ?_⟩
    obtain ⟨trustedRoot, -, h⟩ := bind_eq_ok.mp h
    unfold decryptSecretRecord at h
    split at h
    · cases h
    · simp only [bind_eq_ok] at h
      obtain ⟨_, -, _, -, _, -, _, -, _, -, h⟩ := h
      rw [← Except.ok.inj h]

variable (hsettled : SecretsSettled provider.toCryptoProvider report.effective)

include hsettled

/-- A listed secret is the one its selector leads to. -/
lemma secretRecord_of_listed {active : ActiveSecretV1}
    (h : active ∈ report.effective.secretRecords) :
    report.effective.secretRecord provider.toCryptoProvider active.value.selector = some active ∧
      active.value.id = deriveSecretId provider.toCryptoProvider active.value.selector := by
  obtain ⟨hfree, latest, hlatest, hactive⟩ := (mem_secretRecords_iff hsettled.indexed).mp h
  have hmem := (leading_of_latest hsettled.indexed hlatest).1.1
  have hid := hsettled.addressed latest hmem _ (activeSecret_eq_some.mp hactive).1
  rw [hid] at hfree hlatest
  exact ⟨secretRecord_eq_some.mpr ⟨hfree, latest, hlatest, hactive⟩, hid⟩

/-- The selectors of live secrets are told apart by their identifiers. -/
lemma listed_inj {a b : ActiveSecretV1} (ha : a ∈ report.effective.secretRecords)
    (hb : b ∈ report.effective.secretRecords)
    (heq : deriveSecretId provider.toCryptoProvider a.value.selector =
      deriveSecretId provider.toCryptoProvider b.value.selector) : a = b := by
  have hrecord := (secretRecord_of_listed hsettled ha).1
  rw [secretRecord_eq_some, heq, ← secretRecord_eq_some] at hrecord
  exact Option.some.inj (hrecord.symm.trans (secretRecord_of_listed hsettled hb).1)

/-- What is opened is what a candidate opens to. -/
lemma mem_openedCandidates : secret ∈ openedCandidates provider sealing report identity ↔
    secret.selector ∈ missingReaderCandidates provider report ∧
      decryptSecretFromReport provider sealing report identity secret.selector = .ok secret := by
  have hopens : ∀ selector ∈ missingReaderCandidates provider report,
      decryptSecretFromReport provider sealing report identity selector = .ok secret →
        secret.selector = selector := by
    intro selector hselector hopened
    obtain ⟨⟨listed, hlisted, rfl⟩, -⟩ := mem_missingReaderCandidates.mp hselector
    obtain ⟨active, hactive, hsame⟩ := selector_of_decrypted hopened
    rw [(secretRecord_of_listed hsettled hlisted).1] at hactive
    rw [← hsame, Option.some.inj hactive]
  simp only [openedCandidates, List.mem_filterMap]
  constructor
  · rintro ⟨selector, hselector, hopened⟩
    have hok : decryptSecretFromReport provider sealing report identity selector = .ok secret := by
      cases h : decryptSecretFromReport provider sealing report identity selector with
      | error e => simp [h, Except.toOption] at hopened
      | ok found => simpa [h, Except.toOption] using hopened
    rw [hopens selector hselector hok]
    exact ⟨hselector, hok⟩
  · rintro ⟨hselector, hok⟩
    exact ⟨_, hselector, by rw [hok]; rfl⟩

variable (sealing identity) in
/-- Every candidate is opened or left closed. -/
lemma mem_candidates_iff : selector ∈ missingReaderCandidates provider report ↔
    selector ∈ (openedCandidates provider sealing report identity).map (·.selector) ∨
      selector ∈ closedCandidates provider sealing report identity := by
  simp only [List.mem_map, mem_openedCandidates hsettled, closedCandidates, List.mem_filter]
  constructor
  · intro hselector
    cases hopened : decryptSecretFromReport provider sealing report identity selector with
    | error e => exact Or.inr ⟨hselector, rfl⟩
    | ok secret =>
      obtain ⟨⟨listed, hlisted, rfl⟩, -⟩ := mem_missingReaderCandidates.mp hselector
      obtain ⟨active, hactive, hsame⟩ := selector_of_decrypted hopened
      rw [(secretRecord_of_listed hsettled hlisted).1] at hactive
      rw [← Option.some.inj hactive] at hsame
      exact Or.inl ⟨secret, hsame ▸ ⟨hselector, hopened⟩, hsame.symm⟩
  · rintro (⟨secret, ⟨hselector, -⟩, rfl⟩ | ⟨hselector, -⟩)
    · exact hselector
    · exact hselector

end Candidates

/-! ### Whole reconciliations -/

section Sessions

/-- Whom a signing key counts for, unless it is contested. -/
def SignerResolution.signer? (self : SignerResolution) (key : Bytes) : Option UserId :=
  if self.contestedKeys.contains key then none else self.signerForKey[key]?

/-- None of the nonces is in use in a vault. -/
def FreshNonces (random : SecretSelectorV1 → SealRandomness) (vault : VaultStore) : Prop :=
  ∀ signed ∈ vault.records, ∀ value, signed.body = .known (.secret value) →
    ∀ selector, value.sealed.nonce ≠ (random selector).nonce

variable (provider : StoreProvider) (sealing : SealProvider) (disk : Disk)
variable (identity : UnlockedIdentity) (session : LockedSession)

/-- What a reconciliation works on: the session itself if there is nothing to encrypt, and what its
commit starts from otherwise. -/
inductive ReconcilesFrom : LockedSession → Prop
  | idle : openedCandidates provider sealing session.report identity = [] → ReconcilesFrom session
  | commits {session' : LockedSession} :
      openedCandidates provider sealing session.report identity ≠ [] →
      StartsFrom provider disk session session' → ReconcilesFrom session'

/-- Between two states, what a reconciliation reports is so. -/
structure ReportsTruly (crypto : CryptoProvider) (before after : EffectiveState)
    (output : ReconcileOutput) : Prop where
  encrypted : ∀ selector ∈ output.encrypted, ServesReaders crypto after selector
  rotation : ∀ active ∈ after.secretRecords,
    after.secretMissingReader crypto active.value.selector = true →
      active.value.selector ∈ output.needsRotation
  others : ∀ selector,
    (∀ other ∈ output.encrypted, deriveSecretId crypto other ≠ deriveSecretId crypto selector) →
      after.secretRecord crypto selector = before.secretRecord crypto selector

/-- Each secret that is opened comes to serve its readers where the commit starts from, and nothing
there misses a reader that was not a candidate of the session. -/
structure ReconcilesWell (session' : LockedSession) : Prop where
  serves : ∀ root records,
    resolvedRecords provider.toCryptoProvider session'.vault session'.ratchet =
      some (root, records) →
    ∀ secret ∈ openedCandidates provider sealing session.report identity,
      ComesToServe provider.toCryptoProvider session'.remembered root records
        ((session'.signers provider root).signer? identity.signingPublicKey) secret.selector
        (nextCounter session'.report.effective)
  known : ∀ active ∈ session'.report.effective.secretRecords,
    session'.report.effective.secretMissingReader provider.toCryptoProvider
        active.value.selector = true →
      active.value.selector ∈ missingReaderCandidates provider session.report

variable {provider sealing disk identity session} {envelopes : Set VaultRecordV1}
variable {session' : LockedSession} {root : SelectedRoot} {records extra : List VerifiedRecord}
variable {random : SecretSelectorV1 → SealRandomness}

/-- A well-formed envelope without an issue is verified as its signer's, or its key is contested. -/
lemma judges_of_issue?_eq_none {signed : VaultRecordV1} {body : RecordBodyV1}
    (hbody : signed.body = .known body)
    (h : (session.judges provider root signed).issue? = none) :
    (∃ record, session.judges provider root signed = .verified record ∧
        (session.signers provider root).signer? signed.signingPublicKey = some record.signer) ∨
      ((∀ record, session.judges provider root signed ≠ .verified record) ∧
        (session.signers provider root).signer? signed.signingPublicKey = none) := by
  simp only [LockedSession.judges, judgeRecord, hbody] at h ⊢
  cases hstructure : structurallyValidateRecord provider.toCryptoProvider signed body root.root with
  | error issue => simp [hstructure, RecordVerdict.issue?] at h
  | ok _ =>
    simp only [hstructure, SignerResolution.signer?] at h ⊢
    split_ifs at h ⊢ with hcontested haccepts
    · exact Or.inr ⟨by simp, rfl⟩
    · cases hsigner : (session.signers provider root).signerForKey[signed.signingPublicKey]? with
      | none => simp [hsigner, RecordVerdict.issue?] at h
      | some signer => exact Or.inl ⟨_, rfl, rfl⟩
    · cases hsigner : (session.signers provider root).signerForKey[signed.signingPublicKey]? with
      | none => simp [hsigner, RecordVerdict.issue?] at h
      | some signer => simp [hsigner, RecordVerdict.issue?] at h

lemma nonce_of_sealSecretPayload {effective : EffectiveState} {context : SealContext}
    {value : SecretValueV1} {randomness : SealRandomness} {payload : SealedPayloadV1}
    (h : sealSecretPayload sealing effective context value randomness = .ok payload) :
    payload.nonce = randomness.nonce := by
  simp only [sealSecretPayload, bind_eq_ok] at h
  obtain ⟨_, -, _, -, _, -, h⟩ := h
  rw [← Except.ok.inj h]

/-- What a reconciliation makes of an opened secret. -/
def Reencrypts (provider : StoreProvider) (sealing : SealProvider) (identity : UnlockedIdentity)
    (random : SecretSelectorV1 → SealRandomness) (report : ValidationReport)
    (secret : SecretPlaintext) (signed : VaultRecordV1) : Prop :=
  ∃ payload, sealedSecretRecord provider sealing identity report secret.selector secret.toValue
    (random secret.selector) (nextCounter report.effective) = .ok (signed, payload)

lemma Reencrypts.unique {report : ValidationReport} {secret : SecretPlaintext}
    {a b : VaultRecordV1} (ha : Reencrypts provider sealing identity random report secret a)
    (hb : Reencrypts provider sealing identity random report secret b) : a = b := by
  obtain ⟨_, ha⟩ := ha
  obtain ⟨_, hb⟩ := hb
  exact (Prod.mk.inj (Except.ok.inj (ha.symm.trans hb))).1

/-- The body of what is made of a secret: the value at the next counter, for its readers. -/
lemma Reencrypts.body {report : ValidationReport} {secret : SecretPlaintext}
    {signed : VaultRecordV1} (h : Reencrypts provider sealing identity random report secret signed) :
    ∃ payload, signed.body = .known (.secret
        ⟨deriveSecretId provider.toCryptoProvider secret.selector, secret.selector, payload,
          nextCounter report.effective⟩) ∧
      signed.signingPublicKey = identity.signingPublicKey ∧
      payload.nonce = (random secret.selector).nonce ∧
      payload.recipientSlots.map (·.recipientId) =
        report.effective.currentReaderEntries secret.selector := by
  obtain ⟨payload, hsealed⟩ := h
  obtain ⟨hpayload, hsigned⟩ := sealedSecretRecord_eq_ok.mp hsealed
  obtain ⟨hbody, hkey⟩ := Hazmat.body_of_signedPayload hsigned
  exact ⟨payload, hbody, hkey, nonce_of_sealSecretPayload hpayload,
    slots_of_sealSecretPayload hpayload⟩

/-- What the update of a reconciliation adds to a vault. -/
lemma convergeChange_eq_ok {opened : List SecretPlaintext} {vault vault' : VaultStore}
    {report : ValidationReport} {output : Unit}
    (h : (convergeChange provider sealing identity opened random).update vault report =
      .ok (vault', output)) :
    ∃ appended : List VaultRecordV1, vault' = appended.foldl VaultStore.appendRecord vault ∧
      (∀ secret ∈ opened, ∃ signed ∈ appended,
        Reencrypts provider sealing identity random report secret signed) ∧
      ∀ signed ∈ appended, ∃ secret ∈ opened,
        Reencrypts provider sealing identity random report secret signed := by
  simp only [convergeChange, bind_eq_ok] at h
  obtain ⟨made, hmade, h⟩ := h
  obtain ⟨rfl, -⟩ := Prod.mk.inj (Except.ok.inj h)
  obtain ⟨hall, honly⟩ := mem_of_mapM hmade
  refine ⟨made.map Prod.fst, rfl, fun secret hsecret => ?_, fun signed hsigned => ?_⟩
  · obtain ⟨pair, hpair, hok⟩ := hall secret hsecret
    exact ⟨pair.1, List.mem_map_of_mem hpair, pair.2, hok⟩
  · obtain ⟨pair, hpair, rfl⟩ := List.mem_map.mp hsigned
    obtain ⟨secret, hsecret, hok⟩ := honly pair hpair
    exact ⟨secret, hsecret, pair.2, hok⟩

section Envelopes

variable {crypto : CryptoProvider} {vault : VaultStore} {ratchet : Ratchet}

/-- A record that is resolved is an envelope of the vault. -/
lemma signed_mem_of_resolved {record : VerifiedRecord}
    (h : resolvedRecords crypto vault ratchet = some (root, records)) (hmem : record ∈ records) :
    record.signed ∈ vault.records ∧ record.signed.body = .known record.body := by
  obtain ⟨-, -, rfl⟩ := resolvedRecords_eq_some.mp h
  obtain ⟨signed, hsigned, hverdict⟩ := mem_verifiedRecords.mp hmem
  obtain ⟨hbody, hsame, -⟩ := judgeRecord_eq_verified.mp hverdict
  rw [hsame]
  exact ⟨(mem_of_mem_distinctRecords hsigned).1, hbody⟩

/-- So is a secret that is listed. -/
lemma exists_envelope_of_listed {active : ActiveSecretV1}
    (h : active ∈ (validateVault crypto vault ratchet).effective.secretRecords) :
    ∃ signed ∈ vault.records, signed.body = .known (.secret active.value) := by
  have hsettled : SecretsSettled crypto (validateVault crypto vault ratchet).effective :=
    secretsSettled_validate
  obtain ⟨-, latest, hlatest, hactive⟩ := (mem_secretRecords_iff hsettled.indexed).mp h
  have hmem := (leading_of_latest hsettled.indexed hlatest).1.1
  cases hresolved : resolvedRecords crypto vault ratchet with
  | none =>
    rw [(validateVault_of_unresolved hresolved).1] at hmem
    simp [EffectiveState.unresolved] at hmem
  | some resolved =>
    obtain ⟨root, records⟩ := resolved
    rw [(validateVault_of_resolved hresolved).1, resolveRecords_verifiedRecords] at hmem
    obtain ⟨hsigned, hbody⟩ := signed_mem_of_resolved hresolved hmem
    rw [(activeSecret_eq_some.mp hactive).1] at hbody
    exact ⟨latest.signed, hsigned, hbody⟩

/-- Where hashes do not collide, an identifier tells the selector of a secret. -/
lemma selector_inj_of_collisionFree (hcf : CollisionFree crypto vault.records)
    {a b : VaultRecordV1} {valueA valueB : SecretRecordV1} (ha : a ∈ vault.records)
    (hb : b ∈ vault.records) (hbodyA : a.body = .known (.secret valueA))
    (hbodyB : b.body = .known (.secret valueB))
    (heq : deriveSecretId crypto valueA.selector = deriveSecretId crypto valueB.selector) :
    valueA.selector = valueB.selector := by
  have hmem : ∀ {signed : VaultRecordV1} {value : SecretRecordV1},
      signed.body = .known (.secret value) →
      (HashDomain.secret, Canonical.selector value.selector) ∈ recordPreimages signed := by
    intro signed value hbody
    simp [recordPreimages, hbody]
  exact Canonical.selector.inj
    (hcf.eq_of_hash ha hb (hmem hbodyA) (hmem hbodyB) (congrArg Id.hash heq))

end Envelopes

lemma StartsFrom.settled (hidentify : HashesIdentify provider.toCryptoProvider envelopes)
    (hdisk : disk.Within envelopes provider) (hsession : session.Settled provider envelopes)
    (h : StartsFrom provider disk session session') : session'.Settled provider envelopes := by
  cases h with
  | locked _ hrefreshes => exact hrefreshes.settled hidentify hdisk hsession
  | prepared _ => exact hsession

/-- A session that the disk agrees with in every respect is refreshed to itself. -/
lemma refreshes_self (hbytes : readVaultBytes session.paths disk = .ok session.vaultBytes)
    (hratchet : readStrongestRatchet provider session.paths session.ratchet.trustedRoot disk =
      .ok (session.ratchet, session.pendingTransaction)) :
    Refreshes provider disk session session :=
  .same hbytes hratchet

lemma LockedSession.Settled.secretsSettled (h : session.Settled provider envelopes) :
    SecretsSettled provider.toCryptoProvider session.report.effective := by
  obtain ⟨ratchet, hreport⟩ := h.grounded.direct
  rw [hreport]
  exact secretsSettled_validate

section Batch

variable {next : Projection Unit}

variable (hlisted : SecretsSettled provider.toCryptoProvider session.report.effective)
variable (hsettled : session'.Settled provider envelopes)
variable (hproject : project provider session' (convergeChange provider sealing identity
  (openedCandidates provider sealing session.report identity) random) = .ok next)
variable (hcf : CollisionFree provider.toCryptoProvider next.vault.records)

include hlisted in
/-- What is made of an opened secret tells which secret it was. -/
lemma Reencrypts.inj {secret secret' : SecretPlaintext} {signed signed' : VaultRecordV1}
    {report : ValidationReport}
    (hsecret : secret ∈ openedCandidates provider sealing session.report identity)
    (hsecret' : secret' ∈ openedCandidates provider sealing session.report identity)
    (h : Reencrypts provider sealing identity random report secret signed)
    (h' : Reencrypts provider sealing identity random report secret' signed')
    (hid : deriveSecretId provider.toCryptoProvider secret.selector =
      deriveSecretId provider.toCryptoProvider secret'.selector) : signed = signed' := by
  obtain ⟨hcandidate, hopened⟩ := (mem_openedCandidates hlisted).mp hsecret
  obtain ⟨hcandidate', hopened'⟩ := (mem_openedCandidates hlisted).mp hsecret'
  obtain ⟨⟨active, hactive, hselector⟩, -⟩ := mem_missingReaderCandidates.mp hcandidate
  obtain ⟨⟨active', hactive', hselector'⟩, -⟩ := mem_missingReaderCandidates.mp hcandidate'
  rw [← hselector, ← hselector'] at hid
  rw [listed_inj hlisted hactive hactive' hid] at hselector
  have hsame : secret.selector = secret'.selector := hselector.symm.trans hselector'
  rw [hsame, hopened'] at hopened
  obtain rfl := Except.ok.inj hopened
  exact h.unique h'

include hlisted hsettled hproject hcf

/-- What the batch of a reconciliation comes to. -/
lemma converged_of_project (hfresh : FreshNonces random session'.vault) : ∃ root records,
    resolvedRecords provider.toCryptoProvider session'.vault session'.ratchet =
        some (root, records) ∧
      next.report =
        validateVault provider.toCryptoProvider next.vault session'.remembered ∧
      (∀ signed ∈ session'.vault.records, signed ∈ next.vault.records) ∧
      SamePrincipalGraph session'.report.effective next.report.effective ∧
      (∀ secret ∈ openedCandidates provider sealing session.report identity,
        ServesReaders provider.toCryptoProvider next.report.effective secret.selector ↔
          ComesToServe provider.toCryptoProvider session'.remembered root records
            ((session'.signers provider root).signer? identity.signingPublicKey) secret.selector
            (nextCounter session'.report.effective)) ∧
      (∀ secret ∈ openedCandidates provider sealing session.report identity,
        ∃ signed ∈ next.vault.records, ∃ value,
          signed.body = .known (.secret value) ∧ value.selector = secret.selector) ∧
      ∀ id, (∀ secret ∈ openedCandidates provider sealing session.report identity,
          deriveSecretId provider.toCryptoProvider secret.selector ≠ id) →
        next.report.effective.conflicted[RecordKey.secret id]? =
            session'.report.effective.conflicted[RecordKey.secret id]? ∧
          next.report.effective.latestAuthorizedSecretRecord id =
            session'.report.effective.latestAuthorizedSecretRecord id := by
  obtain ⟨hclean, vault, output, hupdate, rfl, -, hreport, hissues, -⟩ := project_eq_ok.mp hproject
  obtain ⟨appended, hvault, hall, honly⟩ := convergeChange_eq_ok hupdate
  have hbodies : ∀ signed ∈ appended, ∃ body, signed.body = .known body ∧ body.isSecret = true := by
    intro signed hsigned
    obtain ⟨secret, -, hmade⟩ := honly signed hsigned
    obtain ⟨payload, hbody, -⟩ := hmade.body
    exact ⟨_, hbody, rfl⟩
  have hadded : ∀ signed, signed ∈ next.vault.records ↔
      signed ∈ session'.vault.records ∨ signed ∈ appended := by
    intro signed
    obtain ⟨added, hrecords, hmem⟩ := exists_added session'.vault appended
    rw [hvault, hrecords, List.mem_append, hmem]
    tauto
  obtain ⟨root, records, extra, hgrows⟩ := hsettled.growsBySecrets hclean hbodies (hvault ▸ hcf)
  rw [← hvault] at hgrows
  rw [hsettled.validate_grown hcf fun signed hmem => (hadded signed).mpr (Or.inl hmem)] at hreport
  have hafter := hgrows.after
  rw [← hreport] at hafter
  have hunissued := hgrows.issues.mp (hreport ▸ hissues)
  have hfreshSigned : ∀ secret signed, Reencrypts provider sealing identity random
      session'.report secret signed → signed ∉ session'.vault.records := by
    intro secret signed hmade hmem
    obtain ⟨payload, hbody, -, hnonce, -⟩ := hmade.body
    exact hfresh signed hmem _ hbody _ hnonce
  have hat : ∀ secret ∈ openedCandidates provider sealing session.report identity,
      ∀ signed, Reencrypts provider sealing identity random session'.report secret signed →
      ∀ other ∈ extra,
        other.key = .secret (deriveSecretId provider.toCryptoProvider secret.selector) →
        other.signed = signed := by
    intro secret hsecret signed hmade other hother hkey
    obtain ⟨hmem, hnew, hverdict⟩ := (hgrows.mem_extra other).mp hother
    obtain ⟨secret', hsecret', hmade'⟩ := honly other.signed (((hadded _).mp hmem).resolve_left hnew)
    refine hmade'.inj hlisted hsecret' hsecret hmade ?_
    obtain ⟨payload, hbody, -⟩ := hmade'.body
    have hsame := Evolving.known.inj ((signed_of_judges hverdict).2.symm.trans hbody)
    rw [key_of_secret hsame] at hkey
    exact RecordKey.secret.inj hkey
  refine ⟨root, records, hgrows.resolved, hreport,
    fun signed hmem => (hadded signed).mpr (Or.inl hmem), ?_, fun secret hsecret => ?_,
    fun secret hsecret => ?_, fun id hid => ?_⟩
  · rw [hgrows.before, hafter]
    exact hgrows.appends.samePrincipalGraph
  · obtain ⟨signed, hsigned, hmade⟩ := hall secret hsecret
    obtain ⟨payload, hbody, hkey, hnonce, hslots⟩ := hmade.body
    have hissue := hunissued signed ((hadded signed).mpr (Or.inr hsigned))
      (hfreshSigned secret signed hmade)
    rw [hafter, ← hkey]
    rcases judges_of_issue?_eq_none hbody hissue with ⟨record, hverdict, hsigner⟩ |
      ⟨hunverified, hsigner⟩
    · obtain ⟨rfl, hknown⟩ := signed_of_judges hverdict
      have hrecordBody := Evolving.known.inj (hknown.symm.trans hbody)
      rw [hsigner]
      refine hgrows.appends.servesReaders_of_heard ?_ hrecordBody rfl rfl ?_ ?_ ?_
      · exact (hgrows.mem_extra record).mpr ⟨(hadded _).mpr (Or.inr hsigned),
          hfreshSigned secret _ hmade, hverdict⟩
      · intro other hother hotherKey
        have hsame := hat secret hsecret _ hmade other hother hotherKey
        obtain ⟨-, -, hotherVerdict⟩ := (hgrows.mem_extra other).mp hother
        rw [hsame, hverdict] at hotherVerdict
        exact (RecordVerdict.verified.inj hotherVerdict).symm
      · intro reader hreader
        rw [← hgrows.before, ← hslots] at hreader
        exact List.mem_map.mp hreader
      · intro other hother hsame
        have hmem := signed_mem_of_resolved hgrows.resolved hother
        rw [hrecordBody] at hsame
        exact hfresh other.signed hmem.1 _ (hsame ▸ hmem.2) _ hnonce
    · rw [hsigner]
      refine hgrows.appends.servesReaders_of_unheard (fun other hother hotherKey => ?_) _
      obtain ⟨-, -, hverdict⟩ := (hgrows.mem_extra other).mp hother
      rw [hat secret hsecret signed hmade other hother hotherKey] at hverdict
      exact hunverified other hverdict
  · obtain ⟨signed, hsigned, hmade⟩ := hall secret hsecret
    obtain ⟨payload, hbody, -⟩ := hmade.body
    exact ⟨signed, (hadded signed).mpr (Or.inr hsigned), _, hbody, rfl⟩
  · have hnone : ∀ other ∈ extra, other.key ≠ .secret id := by
      intro other hother hkey
      obtain ⟨hmem, hnew, hverdict⟩ := (hgrows.mem_extra other).mp hother
      obtain ⟨secret, hsecret, hmade⟩ := honly other.signed
        (((hadded _).mp hmem).resolve_left hnew)
      obtain ⟨payload, hbody, -⟩ := hmade.body
      have hsame := Evolving.known.inj ((signed_of_judges hverdict).2.symm.trans hbody)
      rw [key_of_secret hsame] at hkey
      exact hid secret hsecret (RecordKey.secret.inj hkey)
    rw [hafter, hgrows.before]
    exact ⟨hgrows.appends.conflicted_eq hnone, hgrows.appends.latest_eq hnone⟩

end Batch

/-- Reading only the secrets, states with the same conflict and latest record agree on a secret. -/
lemma listed_congr {before after : EffectiveState}
    (hbefore : before.Indexed) (hafter : after.Indexed) {active : ActiveSecretV1}
    (hconflict : after.conflicted[RecordKey.secret active.value.id]? =
      before.conflicted[RecordKey.secret active.value.id]?)
    (hlatest : after.latestAuthorizedSecretRecord active.value.id =
      before.latestAuthorizedSecretRecord active.value.id) :
    active ∈ after.secretRecords ↔ active ∈ before.secretRecords := by
  rw [mem_secretRecords_iff hafter, mem_secretRecords_iff hbefore, hlatest,
    ← ExtTreeMap.isSome_getElem?_iff_mem, ← ExtTreeMap.isSome_getElem?_iff_mem, hconflict]

/-- A listed secret misses a reader unless it has a slot for each. -/
lemma secretMissingReader_of_listed {report : ValidationReport} {active : ActiveSecretV1}
    (hsettled : SecretsSettled provider.toCryptoProvider report.effective)
    (h : active ∈ report.effective.secretRecords) :
    report.effective.secretMissingReader provider.toCryptoProvider active.value.selector = true ↔
      ¬ SlotsForReaders report.effective active.value.selector active := by
  rw [EffectiveState.secretMissingReader, (secretRecord_of_listed hsettled h).1]
  simp [SlotsForReaders]

/-- What the commit of a reconciliation makes true. -/
lemma reportsTruly_of_project {next : Projection Unit}
    (hlisted : SecretsSettled provider.toCryptoProvider session.report.effective)
    (hsettled : session'.Settled provider envelopes)
    (hproject : project provider session' (convergeChange provider sealing identity
      (openedCandidates provider sealing session.report identity) random) = .ok next)
    (hcf : CollisionFree provider.toCryptoProvider next.vault.records)
    (hfresh : FreshNonces random session'.vault) :
    ReportsTruly provider.toCryptoProvider session'.report.effective next.report.effective
        ⟨(openedCandidates provider sealing session.report identity).map (·.selector),
          closedCandidates provider sealing session.report identity⟩ ↔
      ReconcilesWell provider sealing identity session session' := by
  obtain ⟨root, records, hresolved, hreport, hsub, hprincipals, hserves, hwritten, hothers⟩ :=
    converged_of_project hlisted hsettled hproject hcf hfresh
  have hbefore := hsettled.secretsSettled
  have hafter : SecretsSettled provider.toCryptoProvider next.report.effective := by
    rw [hreport]
    exact secretsSettled_validate
  -- a listed secret is one of those that were opened, or is left alone
  have hopened : ∀ active : ActiveSecretV1, (∃ signed ∈ next.vault.records,
      signed.body = .known (.secret active.value)) → ∀ secret ∈ openedCandidates provider sealing
        session.report identity, deriveSecretId provider.toCryptoProvider secret.selector =
          deriveSecretId provider.toCryptoProvider active.value.selector →
      secret.selector = active.value.selector := by
    rintro active ⟨signed, hsigned, hbody⟩ secret hsecret heq
    obtain ⟨made, hmade, value, hmadeBody, hvalue⟩ := hwritten secret hsecret
    rw [← hvalue] at heq ⊢
    exact selector_inj_of_collisionFree hcf hmade hsigned hmadeBody hbody heq
  have halone : ∀ active : ActiveSecretV1,
      (∀ secret ∈ openedCandidates provider sealing session.report identity,
        deriveSecretId provider.toCryptoProvider secret.selector ≠ active.value.id) →
      (active ∈ next.report.effective.secretRecords ↔
        active ∈ session'.report.effective.secretRecords) := fun active hother =>
    listed_congr hbefore.indexed hafter.indexed (hothers _ hother).1 (hothers _ hother).2
  have hmissing : ∀ active, active ∈ next.report.effective.secretRecords →
      active ∈ session'.report.effective.secretRecords →
      (next.report.effective.secretMissingReader provider.toCryptoProvider active.value.selector =
          true ↔
        session'.report.effective.secretMissingReader provider.toCryptoProvider
          active.value.selector = true) := by
    intro active hnext hold
    rw [secretMissingReader_of_listed hafter hnext, secretMissingReader_of_listed hbefore hold,
      SlotsForReaders, SlotsForReaders, hprincipals.currentReaderEntries_eq]
  constructor
  · rintro ⟨hencrypted, hrotation, -⟩
    refine ⟨fun root' records' hresolved' secret hsecret => ?_, fun active hactive hmiss => ?_⟩
    · obtain ⟨rfl, rfl⟩ := Prod.mk.inj (Option.some.inj (hresolved.symm.trans hresolved'))
      exact (hserves secret hsecret).mp (hencrypted _ (List.mem_map_of_mem hsecret))
    · by_cases hat : ∃ secret ∈ openedCandidates provider sealing session.report identity,
          deriveSecretId provider.toCryptoProvider secret.selector = active.value.id
      · obtain ⟨secret, hsecret, hid⟩ := hat
        rw [(secretRecord_of_listed hbefore hactive).2] at hid
        obtain ⟨ratchet, hdirect⟩ := hsettled.grounded.direct
        rw [hdirect] at hactive
        obtain ⟨signed, hsigned, hbody⟩ := exists_envelope_of_listed hactive
        rw [← hopened active ⟨signed, hsub signed hsigned, hbody⟩ secret hsecret hid]
        exact ((mem_openedCandidates hlisted).mp hsecret).1
      · push Not at hat
        have hlistedNext := (halone active hat).mpr hactive
        have hmissNext := (hmissing active hlistedNext hactive).mpr hmiss
        exact (mem_candidates_iff sealing identity hlisted).mpr
          (Or.inr (hrotation active hlistedNext hmissNext))
  · rintro ⟨hcomes, hknown⟩
    have hencrypted : ∀ secret ∈ openedCandidates provider sealing session.report identity,
        ServesReaders provider.toCryptoProvider next.report.effective secret.selector :=
      fun secret hsecret => (hserves secret hsecret).mpr (hcomes root records hresolved secret hsecret)
    refine ⟨fun selector hselector => ?_, fun active hactive hmiss => ?_, fun selector hother => ?_⟩
    · obtain ⟨secret, hsecret, rfl⟩ := List.mem_map.mp hselector
      exact hencrypted secret hsecret
    · obtain ⟨hrecord, hid⟩ := secretRecord_of_listed hafter hactive
      by_cases hat : ∃ secret ∈ openedCandidates provider sealing session.report identity,
          deriveSecretId provider.toCryptoProvider secret.selector = active.value.id
      · obtain ⟨secret, hsecret, hsame⟩ := hat
        rw [hid] at hsame
        have hactiveNext := hactive
        rw [hreport] at hactiveNext
        have hselector := hopened active (exists_envelope_of_listed hactiveNext) secret hsecret hsame
        obtain ⟨served, hserved, hslots⟩ := hencrypted secret hsecret
        rw [hselector, hrecord] at hserved
        obtain rfl := Option.some.inj hserved
        rw [hselector] at hslots
        exact absurd hslots ((secretMissingReader_of_listed hafter hactive).mp hmiss)
      · push Not at hat
        have hold := (halone active hat).mp hactive
        have hcandidate := hknown active hold ((hmissing active hactive hold).mp hmiss)
        refine ((mem_candidates_iff sealing identity hlisted).mp hcandidate).resolve_left ?_
        intro hselector
        obtain ⟨secret, hsecret, hsame⟩ := List.mem_map.mp hselector
        exact hat secret hsecret (by rw [hsame, hid])
    · have hnone : ∀ secret ∈ openedCandidates provider sealing session.report identity,
          deriveSecretId provider.toCryptoProvider secret.selector ≠
            deriveSecretId provider.toCryptoProvider selector :=
        fun secret hsecret => hother _ (List.mem_map_of_mem hsecret)
      exact liveSecret_congr (hothers _ hnone).1 (hothers _ hnone).2

variable {contended : Bool} {transactionId : Bytes} {output : ReconcileOutput}

/-- A reconciliation has nothing to encrypt, or commits what it opens. -/
lemma convergeReaders_eq_ok
    (h : (convergeReaders provider sealing contended transactionId identity random
      (disk, session)).result = .ok output) :
    output = ⟨(openedCandidates provider sealing session.report identity).map (·.selector),
        closedCandidates provider sealing session.report identity⟩ ∧
      ((openedCandidates provider sealing session.report identity = [] ∧
          (convergeReaders provider sealing contended transactionId identity random
            (disk, session)).last.2 = session) ∨
        (openedCandidates provider sealing session.report identity ≠ [] ∧
          (commit provider contended transactionId (convergeChange provider sealing identity
            (openedCandidates provider sealing session.report identity) random)
              (disk, session)).result = .ok () ∧
          (convergeReaders provider sealing contended transactionId identity random
              (disk, session)).last =
            (commit provider contended transactionId (convergeChange provider sealing identity
              (openedCandidates provider sealing session.report identity) random)
                (disk, session)).last)) := by
  have hmeets : (convergeReaders provider sealing contended transactionId identity random).Meets
      (disk, session) (fun _ => True) fun result state => ∀ output, result = .ok output →
        output = ⟨(openedCandidates provider sealing session.report identity).map (·.selector),
            closedCandidates provider sealing session.report identity⟩ ∧
          ((openedCandidates provider sealing session.report identity = [] ∧ state.2 = session) ∨
            (openedCandidates provider sealing session.report identity ≠ [] ∧
              (commit provider contended transactionId (convergeChange provider sealing identity
                (openedCandidates provider sealing session.report identity) random)
                  (disk, session)).result = .ok () ∧
              state = (commit provider contended transactionId (convergeChange provider sealing
                identity (openedCandidates provider sealing session.report identity) random)
                  (disk, session)).last)) := by
    simp only [convergeReaders, current, Program.meets_bind, Program.meets_read]
    split_ifs with hopened
    · rw [Program.meets_pure]
      rintro _ heq
      rw [← Except.ok.inj heq, hopened]
      exact ⟨rfl, Or.inl ⟨rfl, rfl⟩⟩
    · rw [Program.meets_bind]
      refine (Program.meets_leaves _ _).mono (fun _ _ => trivial) ?_
      rintro result state ⟨hcommit, rfl⟩
      cases result with
      | error e => simp
      | ok done =>
        rw [Program.meets_pure]
        rintro _ heq
        rw [← Except.ok.inj heq]
        exact ⟨rfl, Or.inr ⟨hopened, hcommit.symm, rfl⟩⟩
  exact hmeets.result output h

/-- What a reconciliation reports is so exactly if the secrets it opens come to serve their readers,
and it knew of all that miss one. -/
theorem reportsTruly_iff (hidentify : HashesIdentify provider.toCryptoProvider envelopes)
    (hdisk : disk.Within envelopes provider) (hsession : session.Settled provider envelopes)
    (hstart : ReconcilesFrom provider sealing disk identity session session')
    (hfresh : FreshNonces random session'.vault)
    (hresult : (convergeReaders provider sealing contended transactionId identity random
      (disk, session)).result = .ok output)
    (hcf : CollisionFree provider.toCryptoProvider (convergeReaders provider sealing contended
      transactionId identity random (disk, session)).last.2.vault.records) :
    ReportsTruly provider.toCryptoProvider session'.report.effective
        (convergeReaders provider sealing contended transactionId identity random
          (disk, session)).last.2.report.effective output ↔
      ReconcilesWell provider sealing identity session session' := by
  have hlisted := hsession.secretsSettled
  obtain ⟨rfl, ⟨hnothing, hsame⟩ | ⟨hsomething, hcommit, hsame⟩⟩ := convergeReaders_eq_ok hresult
  · -- nothing is opened, and nothing changes
    obtain rfl : session' = session := by
      cases hstart with
      | idle _ => rfl
      | commits hsomething _ => exact absurd hnothing hsomething
    rw [hsame, hnothing]
    refine iff_of_true ⟨by simp, fun active hactive hmissing => ?_, fun _ _ => rfl⟩
      ⟨fun _ _ _ => by simp [hnothing], fun active hactive hmissing => ?_⟩
    · have hcandidate := (mem_candidates_iff sealing identity hlisted).mp
        (mem_missingReaderCandidates.mpr ⟨⟨active, hactive, rfl⟩, hmissing⟩)
      rw [hnothing] at hcandidate
      exact hcandidate.resolve_left List.not_mem_nil
    · exact mem_missingReaderCandidates.mpr ⟨⟨active, hactive, rfl⟩, hmissing⟩
  · obtain ⟨session'', next, hstarts, hproject, -, hvault, hreport⟩ := startsFrom_of_commit hcommit
    obtain rfl : session'' = session' := by
      cases hstart with
      | idle hnothing => exact absurd hnothing hsomething
      | commits _ hstarts' => exact hstarts.unique hstarts'
    rw [hsame, hvault] at hcf
    rw [hsame, hreport]
    have hsettled := hstarts.settled hidentify hdisk hsession
    exact reportsTruly_of_project hlisted hsettled hproject hcf hfresh

end Sessions

section Example

open TestSupport

def slotHolder : TestUser := testUser 1

def lateReader : TestUser := testUser 2

/-- Two users who may read everything; the second of them came after the value was sealed. -/
def lateReaderVault : VaultStore := .v1 ⟨
  [vaultRootRecord, userRecord rootUser slotHolder 1, trustRoot slotHolder 1,
    grantRecord 1 rootUser (.user slotHolder.id) (.readKeyspace .all) 1,
    sealedRecord rootUser [rootUser, slotHolder] 1,
    userRecord rootUser lateReader 1, trustRoot lateReader 1,
    grantRecord 2 rootUser (.user lateReader.id) (.readKeyspace .all) 1]⟩

def freshRandomness (_ : SecretSelectorV1) : SealRandomness :=
  ⟨List.replicate 32 3, List.replicate 12 4⟩

def emptyProvider : StoreProvider := tableProvider ⟨[], [], [], []⟩

def lateReaderReport : ValidationReport :=
  validateVault emptyProvider.toCryptoProvider lateReaderVault freshRatchet

/-- The vault that a reconciliation writes. -/
def reconciledVault (user : TestUser) : VaultStore :=
  (((convergeChange emptyProvider transparentSeal (testIdentity user)
    (openedCandidates emptyProvider transparentSeal lateReaderReport (testIdentity user))
    freshRandomness).update lateReaderVault lateReaderReport).toOption.map Prod.fst).getD
      lateReaderVault

def rememberedRatchet : Ratchet := freshRatchet.applyUpdate lateReaderReport.ratchetUpdate

def reconciledRatchet (user : TestUser) : Ratchet :=
  rememberedRatchet.applyUpdate (validateVault emptyProvider.toCryptoProvider
    (reconciledVault user) rememberedRatchet).ratchetUpdate

def reconcileJournal (position : UInt8) : TransactionV1 where
  transactionId := List.replicate 32 7
  trustedRoot := testRoot
  originVaultPath := .fromPath testPaths.vaultPath
  operation := "vault mutation"
  vaultBefore := .hash (fileDigest (vaultFile 0))
  ratchetBefore := .hash (fileDigest (ratchetFile 0))
  nextVaultBytes := vaultFile position
  nextRatchetBytes := ratchetFile position

def reconcileProvider : StoreProvider := tableProvider
  { vaults := [lateReaderVault, reconciledVault slotHolder, reconciledVault rootUser]
    ratchets := [ratchetStore freshRatchet, ratchetStore (reconciledRatchet slotHolder),
      ratchetStore (reconciledRatchet rootUser)]
    transactions := [reconcileJournal 1, reconcileJournal 2]
    caches := [] }

def reconcileDisk : Disk := testDisk (some (vaultFile 0)) (some (ratchetFile 0)) none

def lateReaderSession : LockedSession :=
  loadedSession reconcileProvider lateReaderVault 0 freshRatchet

abbrev reconcileAs (user : TestUser) : Outcome (Disk × LockedSession) OpsError ReconcileOutput :=
  convergeReaders reconcileProvider transparentSeal false (List.replicate 32 7)
    (testIdentity user) freshRandomness (reconcileDisk, lateReaderSession)

def lateReaderEnvelopes : Set VaultRecordV1 := {signed | signed ∈ lateReaderVault.records}

lemma within_reconcileDisk : reconcileDisk.Within lateReaderEnvelopes reconcileProvider := by
  intro path bytes vault hfile hvault
  have hold : decodeVault reconcileProvider (vaultFile 0) = .ok lateReaderVault := rfl
  simp only [reconcileDisk, testDisk] at hfile
  split_ifs at hfile
  obtain rfl := Option.some.inj hfile
  obtain rfl := Except.ok.inj (hold.symm.trans hvault)
  exact fun signed hsigned => hsigned

lemma hashesIdentify_lateReader :
    HashesIdentify reconcileProvider.toCryptoProvider lateReaderEnvelopes := by
  have hinj : ∀ a ∈ lateReaderVault.records, ∀ b ∈ lateReaderVault.records,
      recordHash reconcileProvider.toCryptoProvider a =
        recordHash reconcileProvider.toCryptoProvider b → a = b := by decide +kernel
  exact hinj

/-- A record is not sealed with the nonce that comes next. -/
def sealedBefore (signed : VaultRecordV1) : Bool :=
  match signed.body with
  | .known (.secret value) => decide (value.sealed.nonce ≠ List.replicate 12 4)
  | _ => true

lemma freshNonces_lateReader : FreshNonces freshRandomness lateReaderVault := by
  have hnonces : lateReaderVault.records.all sealedBefore = true := rfl
  intro signed hsigned value hbody selector
  have hnonce := List.all_eq_true.mp hnonces signed hsigned
  simpa [sealedBefore, hbody, freshRandomness] using hnonce

/-- Reconciled by the root, what is reported is so if and only if it should be. -/
theorem reportsTruly_iff_root :
    ReportsTruly reconcileProvider.toCryptoProvider lateReaderSession.report.effective
        (reconcileAs rootUser).last.2.report.effective ⟨[testSelector], []⟩ ↔
      ReconcilesWell reconcileProvider transparentSeal (testIdentity rootUser) lateReaderSession
        lateReaderSession := by
  have hrefreshes : Refreshes reconcileProvider reconcileDisk lateReaderSession
      lateReaderSession :=
    refreshes_self rfl rfl
  obtain ⟨hsomething, hresult, hcf⟩ :
      openedCandidates reconcileProvider transparentSeal lateReaderSession.report
          (testIdentity rootUser) ≠ [] ∧
        (reconcileAs rootUser).result = .ok ⟨[testSelector], []⟩ ∧
        CollisionFree reconcileProvider.toCryptoProvider
          (reconcileAs rootUser).last.2.vault.records := by
    decide +kernel
  have hstart : ReconcilesFrom reconcileProvider transparentSeal reconcileDisk
      (testIdentity rootUser) lateReaderSession lateReaderSession :=
    .commits hsomething (.locked rfl hrefreshes)
  have hsettled : lateReaderSession.Settled reconcileProvider lateReaderEnvelopes :=
    settled_loadedSession
  have hiff := reportsTruly_iff hashesIdentify_lateReader within_reconcileDisk hsettled hstart
    freshNonces_lateReader hresult
  with_reducible exact hiff hcf

/-- Whoever holds a slot but may not write reports a reader as served who is not. -/
theorem not_reportsTruly_slotHolder :
    lateReaderSession.Settled reconcileProvider lateReaderEnvelopes ∧
      lateReaderSession.report.issues = [] ∧
      (reconcileAs slotHolder).result = .ok ⟨[testSelector], []⟩ ∧
      ¬ ReportsTruly reconcileProvider.toCryptoProvider lateReaderSession.report.effective
        (reconcileAs slotHolder).last.2.report.effective ⟨[testSelector], []⟩ := by
  obtain ⟨hissues, hresult, hreader, hmissing⟩ : lateReaderSession.report.issues = [] ∧
      (reconcileAs slotHolder).result = .ok ⟨[testSelector], []⟩ ∧
      lateReader.id ∈
        (reconcileAs slotHolder).last.2.report.effective.currentReaderEntries testSelector ∧
      ((reconcileAs slotHolder).last.2.report.effective.secretRecord
        reconcileProvider.toCryptoProvider testSelector).all (fun active =>
          !active.value.sealed.recipientSlots.any (·.recipientId = lateReader.id)) = true := by
    decide +kernel
  refine ⟨settled_loadedSession, hissues, hresult, fun h => ?_⟩
  obtain ⟨active, hactive, hslots⟩ := h.encrypted testSelector (List.mem_singleton.mpr rfl)
  obtain ⟨slot, hslot, hrecipient⟩ := hslots lateReader.id hreader
  rw [hactive, Option.all_some, Bool.not_eq_true', List.any_eq_false] at hmissing
  exact hmissing slot hslot (by simpa using hrecipient)

end Example

end Thorax
