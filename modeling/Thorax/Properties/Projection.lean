import Thorax.Kubernetes.Projection
import Thorax.Properties.SecretIndex
import Thorax.TestCluster
import Thorax.TestSecrets

/-!
# Projections

A projection delivers all that its specification maps, or nothing. It tells sources that have all
been deleted from sources of which only some have, and takes nothing for a deletion that is not the
signed latest record of a secret.
-/

namespace Thorax

open Collections Durable
open Std (ExtTreeMap)

/-! ### Winners -/

/-- The last writer of a secret: among the records of users who may write it, the one with the
greatest counter, and of these the one with the greatest hash. -/
structure EffectiveState.LastWriter (state : EffectiveState) (secret : SecretId)
    (winner : VerifiedRecord) : Prop where
  competes : Competes state.verifiedRecords ∅ (classifySecret state.authorities) secret winner
  greatest : ∀ other, Competes state.verifiedRecords ∅ (classifySecret state.authorities) secret
    other → (compareLww other winner).isLE

section Winners

variable {crypto : CryptoProvider} {state : EffectiveState} {secret : SecretId}
variable {winner other : VerifiedRecord}

lemma SecretsSettled.lastWriter_iff (h : SecretsSettled crypto state) :
    state.LastWriter secret winner ↔ state.latestAuthorizedSecretRecord secret = some winner := by
  rw [latest_eq_some_iff h.indexed h.separate]
  exact ⟨fun hlast => ⟨hlast.competes, hlast.greatest⟩, fun hlast => ⟨hlast.1, hlast.2⟩⟩

lemma SecretsSettled.lastWriter_unique (h : SecretsSettled crypto state)
    (hwinner : state.LastWriter secret winner) (hother : state.LastWriter secret other) :
    winner = other := by
  rw [h.lastWriter_iff] at hwinner hother
  exact Option.some.inj (hwinner.symm.trans hother)

/-- The slots of a verified secret are those of different users. -/
lemma nodup_recipientSlots {vault : VaultStore} {ratchet : Ratchet} {known : BTreeSet HashValue}
    {record : VerifiedRecord} {value : SecretRecordV1}
    (hmem : record ∈ (validateVaultWithVerified crypto vault ratchet known).effective.verifiedRecords)
    (hbody : record.body = .secret value) :
    (value.sealed.recipientSlots.map (·.recipientId)).Nodup := by
  cases hresolved : resolvedWith crypto known vault ratchet with
  | none =>
    rw [(validateVaultWithVerified_of_unresolved hresolved).1] at hmem
    cases hmem
  | some resolved =>
    obtain ⟨root, records⟩ := resolved
    rw [(validateVaultWithVerified_of_resolved hresolved).1, resolveRecords_verifiedRecords] at hmem
    obtain ⟨-, -, rfl⟩ := resolvedWith_eq_some.mp hresolved
    have hstructure := structure_of_verified hmem
    rw [hbody] at hstructure
    exact slots_of_structure hstructure

/-- A report without issues resolves its authorities. -/
lemma authorityResolved_of_clean {vault : VaultStore} {ratchet : Ratchet}
    {known : BTreeSet HashValue}
    (hclean : (validateVaultWithVerified crypto vault ratchet known).issues = []) :
    (validateVaultWithVerified crypto vault ratchet known).effective.authorityUnresolved = false := by
  cases hresolved : resolvedWith crypto known vault ratchet with
  | none => exact absurd hclean (validateVaultWithVerified_of_unresolved hresolved).2.2.2
  | some resolved =>
    obtain ⟨heffective, -, -, hissues, -⟩ := validateVaultWithVerified_of_resolved hresolved
    rw [hissues, List.append_eq_nil_iff] at hclean
    rw [heffective]
    simpa using hclean.2

end Winners

namespace Kubernetes

/-! ### Runtime vaults -/

/-- A session shows what a validation made of some vault. -/
def Validates (crypto : CryptoProvider) (session : LockedSession) : Prop :=
  ∃ vault ratchet known, session.report = validateVaultWithVerified crypto vault ratchet known

/-- What a loaded runtime vault guarantees of its session. -/
structure Serves (provider : StoreProvider) (identity : Identity) (session : LockedSession) :
    Prop where
  validates : Validates provider.toCryptoProvider session
  clean : session.report.issues = []
  member : session.report.effective.users.contains (identity.userId provider.toCryptoProvider) = true

section Runtime

variable {provider : StoreProvider} {identity : Identity} {session session' : LockedSession}
variable {disk disk' : Disk} {paths : WorkspacePaths}

lemma validates_load (h : (load provider false paths).Ends disk session disk') :
    Validates provider.toCryptoProvider session := by
  simp only [load, Program.ends_bind, Program.ends_read] at h
  obtain ⟨root, _, -, recovery, loading, -, snapshot, _, ⟨hsnapshot, rfl⟩, ⟨_, last⟩, _, habsorb,
    hlast⟩ := h
  obtain ⟨rfl, -⟩ := Program.ends_pure.mp hlast
  have hvalidates : Validates provider.toCryptoProvider snapshot := by
    simp only [Thorax.loadSnapshot, bind_eq_ok, mapError_eq_ok, Prod.exists] at hsnapshot
    obtain ⟨_, -, vault, -, ratchet, _, -, hsnapshot⟩ := hsnapshot
    obtain rfl := Except.ok.inj hsnapshot
    exact ⟨vault, ratchet, _, rfl⟩
  have hmeets : (absorbCleanTrustRaises provider false).Meets (loading, snapshot) (fun _ => True)
      fun _ state => state.2.report = snapshot.report :=
    meets_absorbCleanTrustRaises (fun _ => rfl) (fun _ _ _ => rfl) (fun _ => rfl)
      fun _ _ _ _ _ _ _ _ _ _ _ _ _ _ => ⟨trivial, rfl⟩
  have hkept : last.report = snapshot.report := hmeets.ends (Program.ends_carry.mp habsorb)
  rw [Validates, hkept]
  exact hvalidates

/-- Whoever is bound to a session is a member of a vault without issues. -/
lemma serves_withIdentity {state : Disk × LockedSession} {done : Unit}
    (h : Validates provider.toCryptoProvider session)
    (hends : (withIdentity provider identity).Ends (disk, session) done state) :
    Serves provider identity state.2 := by
  simp only [withIdentity, current, onDisk, Program.ends_bind, Program.ends_read,
    Program.ends_zoom, ends_check] at hends
  obtain ⟨_, _, ⟨hcurrent, rfl⟩, _, _, ⟨_, ⟨-, rfl⟩, rfl⟩, _, _, hattests, bound, _, ⟨hbound, rfl⟩,
    _, _, ⟨_, ⟨hclean, rfl⟩, rfl⟩, _, ⟨hmember, rfl⟩, rfl⟩ := hends
  obtain rfl := Except.ok.inj hcurrent
  obtain rfl := Except.ok.inj hbound
  have hvalidates : ∀ state', (attestVerifications provider identity).Ends (disk, session) () state' →
      Validates provider.toCryptoProvider state'.2 := by
    intro state' hattests
    have hattested : Validates provider.toCryptoProvider (session.attested provider identity) := by
      rw [LockedSession.attested]
      split_ifs
      · exact h
      · exact ⟨_, _, _, rfl⟩
    have hmeets : (attestVerifications provider identity).Meets (disk, session) (fun _ => True)
        fun _ state => Validates provider.toCryptoProvider state.2 :=
      meets_attestVerifications (fun _ _ => hattested) (fun _ => hattested)
        fun _ => (Program.meets_leaves _ _).mono (fun _ _ => trivial) fun _ _ _ => hattested
    exact hmeets.ends hattests
  have hissues := ensureNoIssues_eq_ok.mp hclean
  refine ⟨hvalidates _ hattests, hissues, ?_⟩
  simp only [ensureMember] at hmember
  split_ifs at hmember with hmissing
  simpa [hissues] using hmissing

lemma serves_of_load {vaultBytes : Bytes} {ratchet : Ratchet}
    (h : RuntimeVault.load provider vaultBytes ratchet identity = .ok session) :
    Serves provider identity session := by
  have hends : (loadRuntime provider vaultBytes ratchet identity).Ends emptyDisk session
      (loadRuntime provider vaultBytes ratchet identity emptyDisk).last := ⟨h, rfl⟩
  simp only [loadRuntime, Program.ends_bind] at hends
  obtain ⟨_, _, -, _, _, -, loaded, _, hload, ⟨_, bound⟩, _, hbinds, hlast⟩ := hends
  obtain ⟨rfl, -⟩ := Program.ends_pure.mp hlast
  exact serves_withIdentity (validates_load hload) (Program.ends_carry.mp hbinds)

lemma Serves.settled (h : Serves provider identity session) :
    SecretsSettled provider.toCryptoProvider session.report.effective := by
  obtain ⟨vault, ratchet, known, hreport⟩ := h.validates
  exact hreport ▸ secretsSettled_validate

lemma Serves.resolved (h : Serves provider identity session) :
    session.report.effective.authorityUnresolved = false := by
  obtain ⟨vault, ratchet, known, hreport⟩ := h.validates
  have hclean := h.clean
  rw [hreport] at hclean ⊢
  exact authorityResolved_of_clean hclean

lemma Serves.nodup (h : Serves provider identity session) {record : VerifiedRecord}
    {value : SecretRecordV1} (hmem : record ∈ session.report.effective.verifiedRecords)
    (hbody : record.body = .secret value) :
    (value.sealed.recipientSlots.map (·.recipientId)).Nodup := by
  obtain ⟨vault, ratchet, known, hreport⟩ := h.validates
  exact nodup_recipientSlots (hreport ▸ hmem) hbody

end Runtime

/-! ### What a projection should deliver -/

section Conditions

variable (controller : ControllerProvider) (sealing : SealProvider)
variable (unwrap : Identity → Bytes → Bytes → Bytes → Bytes → Except CryptoError Bytes)
variable (session : LockedSession) (identity : Identity)

/-- What the identity of a session may read. -/
def authority : AuthoritySet :=
  session.report.effective.authorityForUser (identity.userId controller.toCryptoProvider)

/-- The last writer of a selector that the identity may read and that is not in conflict. -/
structure ReadsFrom (selector : SecretSelectorV1) (winner : VerifiedRecord) : Prop where
  reads : (authority controller session identity).canRead selector = true
  unconflicted : RecordKey.secret (deriveSecretId controller.toCryptoProvider selector) ∉
    session.report.effective.conflicted
  winner : session.report.effective.LastWriter
    (deriveSecretId controller.toCryptoProvider selector) winner

/-- A mapped source has been deleted, and the deletion is signed. -/
def SourceDeleted (mapping : SecretMapping) : Prop :=
  ∃ selector winner deletion, Thorax.parseSecretSelector mapping.selector = .ok selector ∧
    ReadsFrom controller session identity selector winner ∧ winner.body = .secretDeleted deletion

/-- The bytes that a mapping asks for. -/
def SecretMapping.bytes (mapping : SecretMapping) (opened : Thorax.SecretPlaintext) :
    Option Bytes :=
  match mapping.field with
  | none => some opened.plaintext
  | some key => (opened.field key).map (·.value)

/-- What the last writer of a source has sealed opens to a secret with the bytes asked for. The
selector of the record is the one asked for unless hashes collide. -/
def Delivers (mapping : SecretMapping) (bytes : Bytes) : Prop :=
  ∃ selector winner value root opened, Thorax.parseSecretSelector mapping.selector = .ok selector ∧
    ReadsFrom controller session identity selector winner ∧ winner.body = .secret value ∧
    (authority controller session identity).canRead value.selector = true ∧
    session.report.effective.rootSigningPublicKeyHash = some root ∧
    Thorax.decryptSecretRecord sealing (Identity.unlocked controller.toCryptoProvider unwrap identity)
      winner.signed value root = .ok opened ∧
    mapping.bytes opened = some bytes

/-- The bytes that the keys and the values of entries take together. -/
def entriesSize (entries : List (String × Bytes)) : ℕ :=
  (entries.map fun entry => entry.1.utf8ByteSize + entry.2.length).sum

/-- The keys of a specification, each with what its mapping delivers, within the limit. -/
structure Projects (spec : ThoraxSecretSpec) (data : BTreeMap String Bytes) : Prop where
  keys : ∀ key, key ∈ data ↔ key ∈ spec.data
  delivers : ∀ (key : String) (mapping : SecretMapping) (bytes : Bytes), spec.data[key]? = some mapping → data[key]? = some bytes →
    Delivers controller sealing unwrap session identity mapping bytes
  fits : entriesSize data.toList ≤ maxProjectedSecretBytes

end Conditions

/-! ### Sources -/

section Sources

variable {controller : ControllerProvider} {sealing : SealProvider}
variable {describe : FrontendError → String}
variable {unwrap : Identity → Bytes → Bytes → Bytes → Bytes → Except CryptoError Bytes}
variable {session : LockedSession} {identity : Identity} {selector : SecretSelectorV1}
variable {mapping : SecretMapping} {bytes : Bytes}

lemma getElem?_fieldsByKey (entries : List SecretFieldEntryV1) (key : String) :
    (fieldsByKey entries)[key]? = (entries.find? (·.key = key)).map (·.value) := by
  induction entries with
  | nil => simp [fieldsByKey]
  | cons entry entries ih =>
    rw [fieldsByKey, List.foldr_cons, ExtTreeMap.getElem?_insert, List.find?_cons]
    by_cases hkey : entry.key = key
    · simp [hkey]
    · rw [← fieldsByKey, ih]
      simp [hkey]

section States

variable {provider : ProjectionProvider} {effective : EffectiveState} {text : String}

/-- A source that may not be read is told as such, whatever it is. -/
lemma sourceState_of_unreadable (hparse : parseSelector provider text = .ok selector)
    (hread : ((session.report.effective).authorityForUser
      (identity.userId provider.toCryptoProvider)).canRead selector = false) :
    sourceState provider session identity text = .ok .notAuthorized := by
  simp [sourceState, hparse, hread, bind, Except.bind]

/-- A source that may be read is active if the report classifies it so. -/
lemma sourceState_eq_active (hparse : parseSelector provider text = .ok selector) :
    sourceState provider session identity text = .ok .active ↔
      (session.report.effective.authorityForUser
        (identity.userId provider.toCryptoProvider)).canRead selector = true ∧
      session.report.effective.classifySecretForUser provider.toCryptoProvider selector
        (identity.userId provider.toCryptoProvider) = .activeDecryptable := by
  cases hread : (session.report.effective.authorityForUser
      (identity.userId provider.toCryptoProvider)).canRead selector with
  | false => simp [sourceState_of_unreadable hparse hread]
  | true =>
    simp only [sourceState, hparse, bind, Except.bind, hread, Bool.true_eq_false, if_false, true_and,
      Except.ok.injEq]
    cases session.report.effective.classifySecretForUser provider.toCryptoProvider selector
      (identity.userId provider.toCryptoProvider) <;> simp
    split_ifs <;> simp

/-- A source that may be read is deleted if it is missing and its latest record deletes it. -/
lemma sourceState_eq_deleted (hparse : parseSelector provider text = .ok selector) :
    sourceState provider session identity text = .ok .deleted ↔
      (session.report.effective.authorityForUser
        (identity.userId provider.toCryptoProvider)).canRead selector = true ∧
      session.report.effective.classifySecretForUser provider.toCryptoProvider selector
        (identity.userId provider.toCryptoProvider) = .missing ∧
      session.report.effective.secretIsDeleted provider.toCryptoProvider selector = true := by
  cases hread : (session.report.effective.authorityForUser
      (identity.userId provider.toCryptoProvider)).canRead selector with
  | false => simp [sourceState_of_unreadable hparse hread]
  | true =>
    simp only [sourceState, hparse, bind, Except.bind, hread, Bool.true_eq_false, if_false, true_and,
      Except.ok.injEq]
    cases session.report.effective.classifySecretForUser provider.toCryptoProvider selector
      (identity.userId provider.toCryptoProvider) <;> simp

/-- Every source that parses has a state. -/
lemma exists_sourceState (hparse : parseSelector provider text = .ok selector) :
    ∃ state, sourceState provider session identity text = .ok state := by
  simp only [sourceState, hparse, bind, Except.bind]
  split_ifs <;> exact ⟨_, rfl⟩

lemma getSecret_eq_ok {opened : SecretPlaintext} :
    getSecret provider session identity selector = .ok opened ↔
      session.report.effective.classifySecretForUser provider.toCryptoProvider selector
          (identity.userId provider.toCryptoProvider) = .activeDecryptable ∧
        ∃ active root, session.report.effective.secretRecord provider.toCryptoProvider selector =
            some active ∧
          session.report.effective.rootSigningPublicKeyHash = some root ∧
          provider.decryptSecretRecord identity active root = .ok opened := by
  simp only [getSecret]
  cases session.report.effective.classifySecretForUser provider.toCryptoProvider selector
    (identity.userId provider.toCryptoProvider) with
  | activeDecryptable =>
    cases session.report.effective.secretRecord provider.toCryptoProvider selector <;>
      cases session.report.effective.rootSigningPublicKeyHash <;> simp
  | _ => simp

/-- A value is read where the secret opens and the part asked for is there. -/
lemma value_eq_ok (hparse : parseSelector provider mapping.selector = .ok selector) :
    value provider session identity mapping = .ok bytes ↔
      ∃ opened, getSecret provider session identity selector = .ok opened ∧
        (match mapping.field with
          | none => some opened.plaintext
          | some field => opened.fields[field]?) = some bytes := by
  simp only [value, hparse, bind_eq_ok, mapError_eq_ok, Except.ok.injEq, exists_eq_left']
  refine exists_congr fun opened => and_congr_right fun _ => ?_
  cases mapping.field with
  | none => simp
  | some field =>
    dsimp only
    generalize opened.fields[field]? = found
    cases found <;> simp

end States

lemma bytes_eq (opened : Thorax.SecretPlaintext) : mapping.bytes opened =
    match mapping.field with
    | none => some opened.plaintext
    | some field => (fieldsByKey opened.fields)[field]? := by
  unfold SecretMapping.bytes
  cases mapping.field with
  | none => rfl
  | some field => exact (getElem?_fieldsByKey opened.fields field).symm

/-- Only a record with a slot for the identity opens. -/
lemma slot_of_decrypts {unlocked : UnlockedIdentity} {signed : VaultRecordV1}
    {value : SecretRecordV1} {root : HashValue} {opened : Thorax.SecretPlaintext}
    (h : Thorax.decryptSecretRecord sealing unlocked signed value root = .ok opened) :
    ∃ slot ∈ value.sealed.recipientSlots, slot.recipientId = unlocked.userId := by
  unfold Thorax.decryptSecretRecord at h
  cases hslot : value.sealed.recipientSlots.find? (·.recipientId = unlocked.userId) with
  | none => simp [hslot] at h
  | some slot =>
    exact ⟨slot, List.mem_of_find?_eq_some hslot, by simpa using List.find?_some hslot⟩

section Settled

variable (hserves : Serves controller.toStoreProvider identity session)

include hserves

/-- A source is deleted if the last record of it that a writer has signed deletes it. -/
lemma sourceState_deleted_iff
    (hparse : Thorax.parseSecretSelector mapping.selector = .ok selector) :
    sourceState (sourceProvider controller sealing describe unwrap) session identity
        mapping.selector = .ok .deleted ↔
      SourceDeleted controller session identity mapping := by
  have hparsed : parseSelector (sourceProvider controller sealing describe unwrap)
      mapping.selector = .ok selector := mapError_eq_ok.mpr (mapError_eq_ok.mpr hparse)
  rw [sourceState_eq_deleted hparsed]
  show _ = true ∧ session.report.effective.classifySecretForUser controller.toCryptoProvider _ _ = _ ∧
    session.report.effective.secretIsDeleted controller.toCryptoProvider _ = true ↔ _
  constructor
  · rintro ⟨hread, -, hdeleted⟩
    have hfree : RecordKey.secret (deriveSecretId controller.toCryptoProvider selector) ∉
        session.report.effective.conflicted := by
      intro hconflict
      rw [(hserves.settled.conflictHidden hconflict).deleted] at hdeleted
      contradiction
    obtain ⟨winner, deletion, hlatest, hbody⟩ := (secretIsDeleted_eq_true hfree).mp hdeleted
    exact ⟨selector, winner, deletion, hparse,
      ⟨hread, hfree, hserves.settled.lastWriter_iff.mpr hlatest⟩, hbody⟩
  · rintro ⟨_, winner, deletion, hparse', hreads, hbody⟩
    obtain rfl := Except.ok.inj (hparse.symm.trans hparse')
    have hlatest := hserves.settled.lastWriter_iff.mp hreads.winner
    refine ⟨hreads.reads, ?_, (secretIsDeleted_eq_true hreads.unconflicted).mpr
      ⟨winner, deletion, hlatest, hbody⟩⟩
    have hactive : EffectiveState.activeSecret winner = none := by
      rw [EffectiveState.activeSecret, hbody]
    have hlive : (session.report.effective.liveSecretWinner controller.toCryptoProvider
        selector).bind EffectiveState.activeSecret = none := by
      rw [EffectiveState.liveSecretWinner, hlatest]
      simp [hactive]
    simp [EffectiveState.classifySecretForUser, hserves.resolved,
      secretConflict_isSome.not.mpr hreads.unconflicted, hlive]

/-- A source delivers what is read of it while it is active. -/
lemma delivers_iff (hparse : Thorax.parseSecretSelector mapping.selector = .ok selector) :
    sourceState (sourceProvider controller sealing describe unwrap) session identity
          mapping.selector = .ok .active ∧
        value (sourceProvider controller sealing describe unwrap) session identity mapping =
          .ok bytes ↔
      Delivers controller sealing unwrap session identity mapping bytes := by
  have hparsed : parseSelector (sourceProvider controller sealing describe unwrap)
      mapping.selector = .ok selector := mapError_eq_ok.mpr (mapError_eq_ok.mpr hparse)
  rw [sourceState_eq_active hparsed, value_eq_ok hparsed]
  simp only [getSecret_eq_ok]
  show (_ = true ∧ session.report.effective.classifySecretForUser controller.toCryptoProvider _ _ =
      _) ∧ (∃ opened, (session.report.effective.classifySecretForUser controller.toCryptoProvider _
      _ = _ ∧ ∃ active root, session.report.effective.secretRecord controller.toCryptoProvider _ =
        some active ∧ _ ∧ _) ∧ _) ↔ _
  constructor
  · rintro ⟨⟨hread, hactive⟩, opened, ⟨-, active, root, hrecord, hroot, hopened⟩, hbytes⟩
    have hfree : RecordKey.secret (deriveSecretId controller.toCryptoProvider selector) ∉
        session.report.effective.conflicted := by
      intro hconflict
      rw [(hserves.settled.conflictHidden hconflict).record] at hrecord
      contradiction
    rw [secretRecord_of_free hfree] at hrecord
    obtain ⟨-, _, hsame, -, hown, -⟩ := (classifySecretForUser_eq_active hfree).mp hactive
    obtain rfl := Option.some.inj (hrecord.symm.trans hsame)
    obtain ⟨winner, hlatest, hshown⟩ := live_eq_some.mp hrecord
    obtain ⟨hbody, hsigned⟩ := activeSecret_eq_some.mp hshown
    obtain ⟨source, hsource, heq⟩ := bind_eq_ok.mp hopened
    obtain rfl := Except.ok.inj heq
    refine ⟨selector, winner, active.value, root, source, hparse,
      ⟨hread, hfree, hserves.settled.lastWriter_iff.mpr hlatest⟩, hbody, hown, hroot,
      hsigned ▸ hsource, ?_⟩
    rw [← hbytes, bytes_eq]
  · rintro ⟨_, winner, record, root, source, hparse', hreads, hbody, hown, hroot, hsource, hbytes⟩
    obtain rfl := Except.ok.inj (hparse.symm.trans hparse')
    have hlatest := hserves.settled.lastWriter_iff.mp hreads.winner
    have hrecord : (session.report.effective.liveSecretWinner controller.toCryptoProvider
        selector).bind EffectiveState.activeSecret = some ⟨winner.signed, record⟩ :=
      live_eq_some.mpr ⟨winner, hlatest, activeSecret_eq_some.mpr ⟨hbody, rfl⟩⟩
    have hactive : session.report.effective.classifySecretForUser controller.toCryptoProvider
        selector (identity.userId controller.toCryptoProvider) = .activeDecryptable := by
      refine (classifySecretForUser_eq_active hreads.unconflicted).mpr ⟨hserves.resolved, _, hrecord,
        ExtTreeMap.contains_iff_mem.mp hserves.member, hown,
        hserves.nodup hreads.winner.competes.1 hbody, ?_⟩
      exact slot_of_decrypts hsource
    refine ⟨⟨hreads.reads, hactive⟩, ⟨source.plaintext, fieldsByKey source.fields⟩,
      ⟨hactive, _, root, (secretRecord_of_free hreads.unconflicted).trans hrecord, hroot,
        bind_eq_ok.mpr ⟨source, hsource, rfl⟩⟩, ?_⟩
    rw [← hbytes, bytes_eq]

end Settled

end Sources

/-! ### All or nothing -/

section Aggregates

variable {controller : ControllerProvider} {sealing : SealProvider}
variable {describe : FrontendError → String}
variable {unwrap : Identity → Bytes → Bytes → Bytes → Bytes → Except CryptoError Bytes}
variable {session : LockedSession} {identity : Identity}
variable {entries : List (String × SecretMapping)} {delivered : List (String × Bytes)}

lemma entriesSize_cons (entry : String × Bytes) (entries : List (String × Bytes)) :
    entriesSize (entry :: entries) =
      entry.1.utf8ByteSize + entry.2.length + entriesSize entries := by
  simp [entriesSize]

lemma addProjected_eq_ok {provider : ProjectionProvider} {entry : String × SecretMapping}
    {projected projected' : BTreeMap String Bytes × ℕ} :
    addProjected provider session identity projected entry = .ok projected' ↔
      ∃ bytes, value provider session identity entry.2 = .ok bytes ∧
        projected.2 + entry.1.utf8ByteSize + bytes.length ≤ maxProjectedSecretBytes ∧
        projected' = (projected.1.insert entry.1 bytes,
          projected.2 + entry.1.utf8ByteSize + bytes.length) := by
  simp only [addProjected, bind_eq_ok]
  refine exists_congr fun bytes => and_congr_right fun _ => ?_
  split_ifs with hlarge
  · simp [Nat.not_le.mpr hlarge]
  · simp [Nat.not_lt.mp hlarge, eq_comm]

/-- Projecting entry after entry collects what each delivers, as long as all of it fits. -/
lemma foldlM_addProjected {provider : ProjectionProvider}
    {projected projected' : BTreeMap String Bytes × ℕ}
    (hfits : projected.2 ≤ maxProjectedSecretBytes) :
    entries.foldlM (addProjected provider session identity) projected = .ok projected' ↔
      ∃ delivered, List.Forall₂ (fun entry out => out.1 = entry.1 ∧
          value provider session identity entry.2 = .ok out.2) entries delivered ∧
        projected' = (projected.1.insertMany delivered, projected.2 + entriesSize delivered) ∧
        projected.2 + entriesSize delivered ≤ maxProjectedSecretBytes := by
  induction entries generalizing projected with
  | nil =>
    simp only [List.foldlM_nil, List.forall₂_nil_left_iff, exists_eq_left,
      ExtTreeMap.insertMany_nil]
    constructor
    · intro h
      obtain rfl := Except.ok.inj h
      exact ⟨rfl, hfits⟩
    · rintro ⟨rfl, -⟩
      rfl
  | cons entry entries ih =>
    simp only [List.foldlM_cons, bind_eq_ok, addProjected_eq_ok, List.forall₂_cons_left_iff]
    constructor
    · rintro ⟨_, ⟨bytes, hvalue, hsmall, rfl⟩, hrest⟩
      obtain ⟨rest, hdelivers, rfl, hsize⟩ := (ih hsmall).mp hrest
      refine ⟨(entry.1, bytes) :: rest, ⟨_, rest, ⟨rfl, hvalue⟩, hdelivers, rfl⟩, ?_, ?_⟩
      · rw [ExtTreeMap.insertMany_cons, entriesSize_cons, ← add_assoc, ← add_assoc]
      · rw [entriesSize_cons, ← add_assoc, ← add_assoc]
        exact hsize
    · rintro ⟨_, ⟨⟨_, bytes⟩, rest, ⟨rfl, hvalue⟩, hrest, rfl⟩, rfl, hsize⟩
      rw [entriesSize_cons, ← add_assoc, ← add_assoc] at hsize
      have hsmall : projected.2 + entry.1.utf8ByteSize + bytes.length ≤ maxProjectedSecretBytes :=
        le_of_add_le_left hsize
      refine ⟨_, ⟨bytes, hvalue, hsmall, rfl⟩, (ih hsmall).mpr ⟨rest, hrest, ?_, hsize⟩⟩
      rw [ExtTreeMap.insertMany_cons, entriesSize_cons, ← add_assoc, ← add_assoc]

lemma keys_of_forall₂ {P : SecretMapping → Bytes → Prop}
    (h : List.Forall₂ (fun entry out => out.1 = entry.1 ∧ P entry.2 out.2) entries delivered) :
    delivered.map Prod.fst = entries.map Prod.fst := by
  induction h with
  | nil => rfl
  | cons hentry _ ih => rw [List.map_cons, List.map_cons, ih, hentry.1]

/-- A projection is what the mappings deliver, entry by entry. -/
lemma projects_iff {spec : ThoraxSecretSpec} {data : BTreeMap String Bytes} :
    Projects controller sealing unwrap session identity spec data ↔
      ∃ delivered, List.Forall₂ (fun entry out => out.1 = entry.1 ∧
          Delivers controller sealing unwrap session identity entry.2 out.2)
        spec.data.toList delivered ∧
        data = (∅ : BTreeMap String Bytes).insertMany delivered ∧
        entriesSize delivered ≤ maxProjectedSecretBytes := by
  have hsize : ∀ {delivered : List (String × Bytes)}, (delivered.map Prod.fst).Nodup →
      entriesSize ((∅ : BTreeMap String Bytes).insertMany delivered).toList =
        entriesSize delivered :=
    fun hdistinct => ((toList_insertMany_perm hdistinct).map _).sum_eq
  constructor
  · intro h
    have hshared : ∀ {key : String}, (∃ bytes, data[key]? = some bytes) ↔
        ∃ mapping, spec.data[key]? = some mapping := by
      intro key
      rw [← Option.isSome_iff_exists, ← Option.isSome_iff_exists,
        ExtTreeMap.isSome_getElem?_iff_mem, ExtTreeMap.isSome_getElem?_iff_mem]
      exact h.keys key
    have hdelivers : List.Forall₂ (fun entry out => out.1 = entry.1 ∧
        Delivers controller sealing unwrap session identity entry.2 out.2) spec.data.toList
        (spec.data.toList.map fun entry => (entry.1, (data[entry.1]?).getD [])) := by
      rw [List.forall₂_map_right_iff, List.forall₂_same]
      intro entry hentry
      rw [ExtTreeMap.mem_toList_iff_getElem?_eq_some] at hentry
      obtain ⟨bytes, hbytes⟩ := hshared.mpr ⟨_, hentry⟩
      rw [hbytes]
      exact ⟨rfl, h.delivers _ _ _ hentry hbytes⟩
    have hdistinct := (keys_of_forall₂ hdelivers).symm ▸ nodup_keys_toList spec.data
    have hdata : data = (∅ : BTreeMap String Bytes).insertMany
        (spec.data.toList.map fun entry => (entry.1, (data[entry.1]?).getD [])) := by
      refine ExtTreeMap.ext_getElem? fun key => Option.ext fun bytes => ?_
      rw [getElem?_insertMany_eq_some hdistinct, List.mem_map]
      constructor
      · intro hbytes
        obtain ⟨mapping, hmapping⟩ := hshared.mp ⟨bytes, hbytes⟩
        exact ⟨(key, mapping), ExtTreeMap.mem_toList_iff_getElem?_eq_some.mpr hmapping,
          by simp [hbytes]⟩
      · rintro ⟨entry, hentry, heq⟩
        obtain ⟨rfl, rfl⟩ := Prod.mk.inj heq
        rw [ExtTreeMap.mem_toList_iff_getElem?_eq_some] at hentry
        obtain ⟨bytes, hbytes⟩ := hshared.mpr ⟨_, hentry⟩
        simp [hbytes]
    refine ⟨_, hdelivers, hdata, ?_⟩
    rw [← hsize hdistinct, ← hdata]
    exact h.fits
  · rintro ⟨delivered, hdelivers, rfl, hfits⟩
    have hkeys := keys_of_forall₂ hdelivers
    have hdistinct := hkeys.symm ▸ nodup_keys_toList spec.data
    refine ⟨fun key => ?_, fun key mapping bytes hmapping hbytes => ?_, (hsize hdistinct).trans_le hfits⟩
    · rw [ExtTreeMap.mem_insertMany_list, hkeys, ExtTreeMap.map_fst_toList_eq_keys]
      simp
    · rw [getElem?_insertMany_eq_some hdistinct] at hbytes
      obtain ⟨⟨_, _⟩, hentry, rfl, hdelivered⟩ := (mem_of_forall₂ hdelivers).2 _ hbytes
      rw [ExtTreeMap.mem_toList_iff_getElem?_eq_some] at hentry
      obtain rfl := Option.some.inj (hmapping.symm.trans hentry)
      exact hdelivered

/-- A specification that passes its validation maps something, and its selectors parse. -/
lemma ThoraxSecretSpec.parses {spec : ThoraxSecretSpec}
    (h : spec.validate (readSelector describe) = .ok ()) :
    spec.data.isEmpty = false ∧ ∀ entry ∈ spec.data.toList, ∃ selector,
      Thorax.parseSecretSelector entry.2.selector = .ok selector := by
  simp only [ThoraxSecretSpec.validate, bind_eq_ok] at h
  obtain ⟨_, -, h⟩ := h
  split_ifs at h with hempty
  simp only [bind_eq_ok] at h
  obtain ⟨_, -, _, -, _, -, _, -, _, hmappings, -⟩ := h
  refine ⟨by simpa using hempty, fun entry hentry => ?_⟩
  have hmapping := forM_eq_ok.mp hmappings entry hentry
  simp only [validateMapping] at hmapping
  split at hmapping
  · cases hmapping
  split at hmapping
  · cases hmapping
  cases hfield : entry.2.field <;> simp only [hfield, bind_eq_ok, mapError_eq_ok] at hmapping
  · obtain ⟨_, -, _, -, selector, hselector, -⟩ := hmapping
    exact ⟨selector, mapError_eq_ok.mp hselector⟩
  · obtain ⟨_, -, _, -, selector, hselector, -⟩ := hmapping
    exact ⟨selector, mapError_eq_ok.mp hselector⟩

/-- Neither of the errors that tell of deletions. -/
def RuntimeVaultError.OfSource (error : RuntimeVaultError) : Prop :=
  error ≠ .allSourcesDeleted ∧ error ≠ .sourcesPartiallyDeleted

lemma ofSource_of_check {state : ProjectionSourceState} {error : RuntimeVaultError}
    (h : state.check = .error error) : error.OfSource := by
  cases state <;> cases h <;> exact ⟨nofun, nofun⟩

lemma ofSource_of_value {provider : ProjectionProvider} {mapping : SecretMapping}
    {error : RuntimeVaultError} (h : value provider session identity mapping = .error error) :
    error.OfSource := by
  rcases bind_eq_error.mp h with hparse | ⟨selector, -, h⟩
  · obtain ⟨_, -, rfl⟩ := mapError_eq_error.mp hparse
    exact ⟨nofun, nofun⟩
  rcases bind_eq_error.mp h with hget | ⟨opened, -, h⟩
  · obtain ⟨_, -, rfl⟩ := mapError_eq_error.mp hget
    exact ⟨nofun, nofun⟩
  split at h
  · cases h
  · split at h
    · cases h
    · obtain rfl := Except.error.inj h
      exact ⟨nofun, nofun⟩

lemma ofSource_of_addProjected {provider : ProjectionProvider} {entry : String × SecretMapping}
    {projected : BTreeMap String Bytes × ℕ} {error : RuntimeVaultError}
    (h : addProjected provider session identity projected entry = .error error) :
    error.OfSource := by
  rcases bind_eq_error.mp h with hvalue | ⟨bytes, -, h⟩
  · exact ofSource_of_value hvalue
  · dsimp only at h
    split_ifs at h
    obtain rfl := Except.error.inj h
    exact ⟨nofun, nofun⟩

/-- Sources that are not deleted are checked one by one, and then read one by one. -/
lemma ofSource_of_checked {provider : ProjectionProvider} {states : List ProjectionSourceState}
    {error : RuntimeVaultError}
    (h : (do
      states.forM ProjectionSourceState.check
      let projected ← entries.foldlM (addProjected provider session identity) (∅, 0)
      .ok projected.1 : Except RuntimeVaultError (BTreeMap String Bytes)) = .error error) :
    error.OfSource := by
  rcases bind_eq_error.mp h with hcheck | ⟨_, -, h⟩
  · obtain ⟨state, -, hstate⟩ := exists_of_forM_eq_error hcheck
    exact ofSource_of_check hstate
  rcases bind_eq_error.mp h with hfold | ⟨_, -, h⟩
  · obtain ⟨projected, entry, -, hentry⟩ := exists_of_foldlM_eq_error hfold
    exact ofSource_of_addProjected hentry
  · cases h

lemma projectData_of_states {provider : ProjectionProvider} {spec : ThoraxSecretSpec}
    {states : List ProjectionSourceState} (h : spec.data.toList.mapM (fun entry =>
      sourceState provider session identity entry.2.selector) = .ok states) :
    projectData provider session identity spec =
      (if states.countP (· = .deleted) = states.length then .error .allSourcesDeleted
      else if 0 < states.countP (· = .deleted) then .error .sourcesPartiallyDeleted
      else do
        states.forM ProjectionSourceState.check
        let projected ← spec.data.toList.foldlM (addProjected provider session identity) (∅, 0)
        .ok projected.1) := by
  rw [projectData, h]
  rfl

lemma ProjectionSourceState.check_eq_ok {state : ProjectionSourceState} :
    state.check = .ok () ↔ state = .active ∨ state = .deleted := by
  cases state <;> simp [ProjectionSourceState.check]

/-- Sources of which none is deleted are projected if all are active and what they deliver fits. -/
lemma checked_eq_ok {provider : ProjectionProvider} {states : List ProjectionSourceState}
    {data : BTreeMap String Bytes} (hnone : ∀ state ∈ states, state ≠ .deleted) :
    (do
      states.forM ProjectionSourceState.check
      let projected ← entries.foldlM (addProjected provider session identity) (∅, 0)
      .ok projected.1 : Except RuntimeVaultError (BTreeMap String Bytes)) = .ok data ↔
      (∀ state ∈ states, state = .active) ∧
        ∃ delivered, List.Forall₂ (fun entry out => out.1 = entry.1 ∧
            value provider session identity entry.2 = .ok out.2) entries delivered ∧
          data = (∅ : BTreeMap String Bytes).insertMany delivered ∧
          entriesSize delivered ≤ maxProjectedSecretBytes := by
  have hcheck : states.forM ProjectionSourceState.check = .ok () ↔
      ∀ state ∈ states, state = .active := by
    rw [forM_eq_ok]
    refine forall₂_congr fun state hstate => ?_
    rw [ProjectionSourceState.check_eq_ok, or_iff_left (hnone state hstate)]
  have hstart : ((∅ : BTreeMap String Bytes), 0).2 ≤ maxProjectedSecretBytes := Nat.zero_le _
  simp only [bind_eq_ok, hcheck, exists_const, foldlM_addProjected hstart, zero_add]
  refine and_congr_right fun _ => ?_
  constructor
  · rintro ⟨_, ⟨delivered, hdelivers, rfl, hsize⟩, h⟩
    exact ⟨delivered, hdelivers, (Except.ok.inj h).symm, hsize⟩
  · rintro ⟨delivered, hdelivers, rfl, hsize⟩
    exact ⟨_, ⟨delivered, hdelivers, rfl, hsize⟩, rfl⟩

end Aggregates

/-- How projecting a specification should end: with the whole projection exactly where there is one,
and with a verdict on deletions exactly where it is true. -/
structure EndsTruthfully (controller : ControllerProvider) (sealing : SealProvider)
    (unwrap : Identity → Bytes → Bytes → Bytes → Bytes → Except CryptoError Bytes)
    (session : LockedSession) (identity : Identity) (spec : ThoraxSecretSpec)
    (result : Except RuntimeVaultError (BTreeMap String Bytes)) : Prop where
  projected : ∀ data, result = .ok data ↔
    Projects controller sealing unwrap session identity spec data
  allDeleted : result = .error .allSourcesDeleted ↔
    ∀ entry ∈ spec.data.toList, SourceDeleted controller session identity entry.2
  someDeleted : result = .error .sourcesPartiallyDeleted ↔
    (∃ entry ∈ spec.data.toList, SourceDeleted controller session identity entry.2) ∧
      ∃ entry ∈ spec.data.toList, ¬ SourceDeleted controller session identity entry.2

section Verdicts

variable {controller : ControllerProvider} {sealing : SealProvider}
variable {describe : FrontendError → String}
variable {unwrap : Identity → Bytes → Bytes → Bytes → Bytes → Except CryptoError Bytes}
variable {session : LockedSession} {identity : Identity} {spec : ThoraxSecretSpec}
variable {states : List ProjectionSourceState}
variable (hserves : Serves controller.toStoreProvider identity session)
variable (hparses : ∀ entry ∈ spec.data.toList, ∃ selector,
  Thorax.parseSecretSelector entry.2.selector = .ok selector)
variable (hstates : List.Forall₂ (fun entry state =>
  sourceState (sourceProvider controller sealing describe unwrap) session identity
    entry.2.selector = .ok state) spec.data.toList states)

include hserves hparses

/-- What delivers is not deleted. -/
lemma not_deleted_of_projects {data : BTreeMap String Bytes}
    (h : Projects controller sealing unwrap session identity spec data) :
    ∀ entry ∈ spec.data.toList, ¬ SourceDeleted controller session identity entry.2 := by
  intro entry hentry hdeleted
  obtain ⟨selector, hselector⟩ := hparses entry hentry
  obtain ⟨delivered, hdelivered, -⟩ := projects_iff.mp h
  obtain ⟨out, -, -, hout⟩ := (mem_of_forall₂ hdelivered).1 entry hentry
  have hactive : sourceState (sourceProvider controller sealing (fun _ => "") unwrap) session
      identity entry.2.selector = .ok .active := ((delivers_iff hserves hselector).mpr hout).1
  rw [(sourceState_deleted_iff hserves hselector).mpr hdeleted] at hactive
  cases hactive

include hstates

/-- Sources are told as deleted where they are. -/
lemma forall_deleted_iff : (∀ state ∈ states, state = .deleted) ↔
    ∀ entry ∈ spec.data.toList, SourceDeleted controller session identity entry.2 := by
  refine forall_mem_iff_of_forall₂ hstates fun entry state hentry h => ?_
  obtain ⟨selector, hselector⟩ := hparses entry hentry
  rw [← sourceState_deleted_iff hserves hselector, h, Except.ok.injEq]

lemma forall_not_deleted_iff : (∀ state ∈ states, state ≠ .deleted) ↔
    ∀ entry ∈ spec.data.toList, ¬ SourceDeleted controller session identity entry.2 := by
  refine forall_mem_iff_of_forall₂ hstates fun entry state hentry h => ?_
  obtain ⟨selector, hselector⟩ := hparses entry hentry
  rw [← sourceState_deleted_iff hserves hselector, h, Except.ok.injEq]

/-- Where no source is deleted, what the checks and the reads end with is the projection. -/
lemma projects_iff_checked {data : BTreeMap String Bytes} :
    Projects controller sealing unwrap session identity spec data ↔
      (∀ state ∈ states, state = .active) ∧
        ∃ delivered, List.Forall₂ (fun entry out => out.1 = entry.1 ∧
            value (sourceProvider controller sealing describe unwrap) session identity entry.2 =
              .ok out.2) spec.data.toList delivered ∧
          data = (∅ : BTreeMap String Bytes).insertMany delivered ∧
          entriesSize delivered ≤ maxProjectedSecretBytes := by
  have hdelivers : ∀ entry ∈ spec.data.toList, ∀ bytes, sourceState
        (sourceProvider controller sealing describe unwrap) session identity entry.2.selector =
          .ok .active ∧
      value (sourceProvider controller sealing describe unwrap) session identity entry.2 =
        .ok bytes ↔ Delivers controller sealing unwrap session identity entry.2 bytes := by
    intro entry hentry bytes
    obtain ⟨selector, hselector⟩ := hparses entry hentry
    exact delivers_iff hserves hselector
  have hactive : (∀ state ∈ states, state = .active) ↔
      ∀ entry ∈ spec.data.toList, sourceState (sourceProvider controller sealing describe unwrap)
        session identity entry.2.selector = .ok .active :=
    forall_mem_iff_of_forall₂ hstates fun entry state _ h => by rw [h, Except.ok.injEq]
  rw [projects_iff, hactive]
  constructor
  · rintro ⟨delivered, hdelivered, hdata⟩
    refine ⟨fun entry hentry => ?_, delivered, forall₂_imp_mem hdelivered ?_, hdata⟩
    · obtain ⟨out, -, -, hout⟩ := (mem_of_forall₂ hdelivered).1 entry hentry
      exact ((hdelivers entry hentry out.2).mpr hout).1
    · exact fun entry hentry out hout =>
        ⟨hout.1, ((hdelivers entry hentry out.2).mpr hout.2).2⟩
  · rintro ⟨hactives, delivered, hvalues, hdata⟩
    refine ⟨delivered, forall₂_imp_mem hvalues ?_, hdata⟩
    exact fun entry hentry out hout => ⟨hout.1,
      (hdelivers entry hentry out.2).mp ⟨hactives entry hentry, hout.2⟩⟩

/-- A projection of which every source has a state ends truthfully. -/
lemma endsTruthfully_of_states (hnonempty : ∃ entry, entry ∈ spec.data.toList) :
    EndsTruthfully controller sealing unwrap session identity spec
      (projectData (sourceProvider controller sealing describe unwrap) session identity spec) := by
  have hall := forall_deleted_iff hserves hparses hstates
  have hnone := forall_not_deleted_iff hserves hparses hstates
  have hlive : ∀ data, Projects controller sealing unwrap session identity spec data →
      ∀ entry ∈ spec.data.toList, ¬ SourceDeleted controller session identity entry.2 :=
    fun data => not_deleted_of_projects hserves hparses
  rw [projectData_of_states (mapM_eq_ok.mpr hstates)]
  simp only [List.countP_eq_length, List.countP_pos_iff, decide_eq_true_eq]
  by_cases hdeleted : ∀ state ∈ states, state = .deleted
  · -- every source is deleted
    have hsources := hall.mp hdeleted
    obtain ⟨entry, hentry⟩ := hnonempty
    rw [if_pos hdeleted]
    refine ⟨fun data => ⟨nofun, fun hprojects => ?_⟩, ⟨fun _ => hsources, fun _ => rfl⟩,
      ⟨nofun, ?_⟩⟩
    · exact absurd (hsources entry hentry) (hlive data hprojects entry hentry)
    · rintro ⟨-, other, hother, hkept⟩
      exact absurd (hsources other hother) hkept
  rw [if_neg hdeleted]
  have hkept := hall.not.mp hdeleted
  by_cases hsome : ∃ state ∈ states, state = .deleted
  · -- only some are
    obtain ⟨entry, hentry, hsource⟩ : ∃ entry ∈ spec.data.toList,
        SourceDeleted controller session identity entry.2 := by
      by_contra hnot
      push Not at hnot
      obtain ⟨state, hstate, heq⟩ := hsome
      exact hnone.mpr hnot state hstate heq
    rw [if_pos hsome]
    refine ⟨fun data => ⟨nofun, fun hprojects => ?_⟩, ⟨nofun, fun hsources => ?_⟩,
      ⟨fun _ => ⟨⟨entry, hentry, hsource⟩, by push Not at hkept; exact hkept⟩, fun _ => rfl⟩⟩
    · exact absurd hsource (hlive data hprojects entry hentry)
    · exact absurd hsources hkept
  · -- none is
    rw [if_neg hsome]
    push Not at hsome
    have hlives := hnone.mp hsome
    refine ⟨fun data => ?_, ⟨fun h => ?_, fun hsources => absurd hsources hkept⟩, ⟨fun h => ?_, ?_⟩⟩
    · rw [checked_eq_ok hsome, projects_iff_checked hserves hparses hstates]
    · exact absurd rfl (ofSource_of_checked h).1
    · exact absurd rfl (ofSource_of_checked h).2
    · rintro ⟨⟨entry, hentry, hsource⟩, -⟩
      exact absurd hsource (hlives entry hentry)

end Verdicts

/-- A runtime vault projects a valid specification as a whole or not at all, and tells deletions
truthfully. -/
theorem projectData_endsTruthfully (controller : ControllerProvider) (sealing : SealProvider)
    (describe : FrontendError → String)
    (unwrap : Identity → Bytes → Bytes → Bytes → Bytes → Except CryptoError Bytes)
    {vaultBytes : Bytes} {ratchet : Ratchet} {identity : Identity} {session : LockedSession}
    {spec : ThoraxSecretSpec}
    (hload : RuntimeVault.load controller.toStoreProvider vaultBytes ratchet identity = .ok session)
    (hvalid : spec.validate (readSelector describe) = .ok ()) :
    EndsTruthfully controller sealing unwrap session identity spec
      (projectData (sourceProvider controller sealing describe unwrap) session identity spec) := by
  obtain ⟨hempty, hparses⟩ := ThoraxSecretSpec.parses hvalid
  obtain ⟨states, hstates⟩ : ∃ states, List.Forall₂ (fun entry state =>
      sourceState (sourceProvider controller sealing describe unwrap) session identity
        entry.2.selector = .ok state) spec.data.toList states := by
    refine exists_forall₂ fun entry hentry => ?_
    obtain ⟨selector, hselector⟩ := hparses entry hentry
    exact exists_sourceState (mapError_eq_ok.mpr (mapError_eq_ok.mpr hselector))
  refine endsTruthfully_of_states (serves_of_load hload) hparses hstates ?_
  refine List.exists_mem_of_ne_nil _ fun hnil => ?_
  rw [← List.isEmpty_iff, ExtTreeMap.isEmpty_toList, hempty] at hnil
  contradiction

section Example

open TestSupport

def passwordSelector : SecretSelectorV1 := ⟨["db"], []⟩

def passwordId : SecretId := deriveSecretId transparentCrypto passwordSelector

/-- A password, sealed by the root for itself. -/
def passwordRecord : VaultRecordV1 :=
  let slots : List RecipientSlotV1 := [⟨rootUser.id, rootUser.hpkePublicKey,
    slotBytes ⟨testRoot, passwordId, passwordSelector, rootUser.id⟩ ++ testRandomness.contentKey⟩]
  let aad := contentBytes ⟨testRoot, ⟨.secret passwordId, rootUser.signingPublicKey, 0, passwordId,
    passwordSelector⟩, testRandomness.nonce, slots⟩
  signedRecord rootUser (.secret ⟨passwordId, passwordSelector, ⟨testRandomness.nonce,
    aad ++ (sealedValueV1Magic ++ fieldSeal.serializeValue testValue), slots⟩, 0⟩)

/-- A secret that the root has deleted. -/
def retiredRecord : VaultRecordV1 :=
  signedRecord rootUser (.secretDeleted ⟨deriveSecretId transparentCrypto ⟨["old"], []⟩,
    ⟨["old"], []⟩, 0⟩)

def passwordVault : VaultStore := .v1 ⟨[vaultRootRecord, passwordRecord, retiredRecord]⟩

def passwordTables : Tables where
  vaults := [passwordVault]
  ratchets := [ratchetStore freshRatchet, ratchetStore (TestSupport.raisedBy passwordVault freshRatchet)]
  transactions := []
  caches := []

def passwordIdentity : Identity := ⟨rootUser.signingPublicKey, rootUser.hpkePublicKey, id⟩

/-- Two keys with the same source. -/
def passwordSpec : ThoraxSecretSpec where
  vaultRef := "vault"
  data := (∅ : BTreeMap String SecretMapping).insert "password" ⟨"db", none⟩
    |>.insert "admin-password" ⟨"db", none⟩
  template := ⟨"Opaque", ∅, ∅⟩
  failurePolicy := .retain
  sourceDeletionPolicy := .retain

/-- A third key, whose source is deleted. -/
def retiredSpec : ThoraxSecretSpec :=
  { passwordSpec with data := passwordSpec.data.insert "old-password" ⟨"old", none⟩ }

def passwordProvider : ProjectionProvider :=
  sourceProvider (testController passwordTables) fieldSeal (fun _ => "")
    fun _ => (testIdentity rootUser).unwrapContentKey

example : ((RuntimeVault.load (testController passwordTables).toStoreProvider (vaultFile 0)
    freshRatchet passwordIdentity).toOption.map fun session =>
      ((projectData passwordProvider session passwordIdentity passwordSpec).toOption.map (·.toList),
        (projectData passwordProvider session passwordIdentity retiredSpec).map (·.toList))) =
    some (some [("admin-password", asciiBytes "value"), ("password", asciiBytes "value")],
      .error .sourcesPartiallyDeleted) := by
  decide +kernel

/-- A load of the vault of the password succeeds, and both projections end as they should. -/
theorem projectData_password : ∃ session,
    RuntimeVault.load (testController passwordTables).toStoreProvider (vaultFile 0) freshRatchet
      passwordIdentity = .ok session ∧
    ∀ spec ∈ [passwordSpec, retiredSpec],
      EndsTruthfully (testController passwordTables) fieldSeal
        (fun _ => (testIdentity rootUser).unwrapContentKey) session passwordIdentity spec
        (projectData passwordProvider session passwordIdentity spec) := by
  have hloads : (RuntimeVault.load (testController passwordTables).toStoreProvider (vaultFile 0)
      freshRatchet passwordIdentity).toOption.isSome = true := by decide +kernel
  have hvalid : ∀ spec ∈ [passwordSpec, retiredSpec],
      spec.validate (readSelector fun _ => "") = .ok () := by decide +kernel
  cases hload : RuntimeVault.load (testController passwordTables).toStoreProvider (vaultFile 0)
      freshRatchet passwordIdentity with
  | error e => simp [hload, Except.toOption] at hloads
  | ok session =>
    refine ⟨session, rfl, fun spec hspec => ?_⟩
    exact projectData_endsTruthfully _ _ _ _ hload (hvalid spec hspec)

end Example

end Kubernetes

end Thorax
