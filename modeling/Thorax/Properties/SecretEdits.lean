import Thorax.Library.Edits
import Thorax.Properties.Resting
import Thorax.Properties.SecretReadings
import Thorax.Properties.SecretWrites
import Thorax.TestSecrets

/-!
# Edits that keep each other

Several clients edit one secret, each from its own session and as often as it likes. An edit reads
the value from the report of the session and seals the whole of it again, on top of whatever is
committed by then. It keeps the edits of the others as long as what the session shows, off the
edited part, is what is committed; a session that has become stale undoes them.
-/

namespace Thorax

open Collections Durable Edits

/-! ### What an edit seals -/

/-- What an edit is meant to do: replace one part. -/
def SecretEdit.effect : SecretEdit → Edit SecretPart (Set Bytes)
  | .setPrimary plaintext => ⟨.primary, {plaintext}⟩
  | .setField key value => ⟨.field key, {value}⟩
  | .deleteField key => ⟨.field key, ∅⟩

section Parts

variable {previous : SecretPlaintext} {key : String} {value : Bytes}

lemma parts_toValueWithPrimary : (previous.toValueWithPrimary value).parts =
    (SecretEdit.setPrimary value).effect.apply previous.toValue.parts := by
  funext part
  cases part with
  | primary =>
    rw [SecretEdit.effect, Edit.apply, Function.update_self]
    rfl
  | field key => exact (apply_of_ne (by simp [SecretEdit.effect])).symm

lemma parts_fromPrimary : (SecretValueV1.fromPrimary value).parts =
    (SecretEdit.setPrimary value).effect.apply noParts := by
  funext part
  cases part with
  | primary =>
    rw [SecretEdit.effect, Edit.apply, Function.update_self]
    rfl
  | field key =>
    rw [apply_of_ne (by simp [SecretEdit.effect])]
    simp [SecretValueV1.parts, SecretValueV1.fromPrimary, noParts]

lemma parts_withField : (previous.withField key value).parts =
    (SecretEdit.setField key value).effect.apply previous.toValue.parts := by
  funext part
  by_cases hpart : part = .field key
  · subst hpart
    rw [show SecretPart.field key = (SecretEdit.setField key value).effect.part from rfl, apply_part]
    ext other
    simp [SecretValueV1.parts, SecretPlaintext.withField, SecretEdit.effect]
  · rw [apply_of_ne hpart]
    cases part with
    | primary => rfl
    | field other =>
      have hne : other ≠ key := fun heq => hpart (heq ▸ rfl)
      ext bytes
      simp [SecretValueV1.parts, SecretPlaintext.withField, SecretPlaintext.toValue, hne]

lemma parts_withoutField : (previous.withoutField key).parts =
    (SecretEdit.deleteField key).effect.apply previous.toValue.parts := by
  funext part
  by_cases hpart : part = .field key
  · subst hpart
    rw [show SecretPart.field key = (SecretEdit.deleteField key).effect.part from rfl, apply_part]
    ext other
    simp [SecretValueV1.parts, SecretPlaintext.withoutField, SecretEdit.effect]
  · rw [apply_of_ne hpart]
    cases part with
    | primary => rfl
    | field other =>
      have hne : other ≠ key := fun heq => hpart (heq ▸ rfl)
      ext bytes
      simp [SecretValueV1.parts, SecretPlaintext.withoutField, SecretPlaintext.toValue, hne]

end Parts

section Programs

variable {provider : StoreProvider} {sealing : SealProvider}

/-- The parts of a secret as a session shows them to an identity; none where it cannot be read. -/
def LockedSession.shows (provider : StoreProvider) (sealing : SealProvider) (session : LockedSession)
    (identity : UnlockedIdentity) (selector : SecretSelectorV1) : SecretPart → Set Bytes :=
  match session.getSecret provider sealing identity selector with
  | .ok plaintext => plaintext.toValue.parts
  | .error _ => noParts

variable {contended : Bool} {transactionId : Bytes} {identity : UnlockedIdentity}
variable {selector : SecretSelectorV1} {random : SealRandomness} {disk : Disk}
variable {session : LockedSession} {output : SetSecretOutput} {state : Disk × LockedSession}

@[simp] lemma ends_ops {α : Type} {program : SessionProgram α} {start : Disk × LockedSession}
    {a : α} : (ops program).Ends start a state ↔ program.Ends start a state := by
  simp [ops]

/-- An edit that succeeds has sealed its effect on what the session showed. -/
lemma SecretEdit.ends_program {edit : SecretEdit}
    (h : (edit.program provider sealing contended transactionId identity selector random).Ends
      (disk, session) output state) :
    ∃ value : SecretValueV1,
      value.parts = edit.effect.apply (session.shows provider sealing identity selector) ∧
      (setSecretValue provider sealing contended transactionId identity selector value random).Ends
        (disk, session) output state := by
  cases edit with
  | setPrimary plaintext =>
    simp only [program, cmdSecretWrite, current, Program.ends_bind, ends_ops, Program.ends_read,
      Except.ok.injEq] at h
    obtain ⟨_, _, ⟨rfl, rfl⟩, h⟩ := h
    cases hread : session.getSecret provider sealing identity selector with
    | ok previous =>
      simp only [hread, ends_ops] at h
      refine ⟨previous.toValueWithPrimary plaintext, ?_, h⟩
      rw [parts_toValueWithPrimary, LockedSession.shows, hread]
    | error e =>
      simp only [hread, ends_ops] at h
      refine ⟨.fromPrimary plaintext, ?_, h⟩
      rw [parts_fromPrimary, LockedSession.shows, hread]
  | setField key value =>
    simp only [program, Thorax.setField, current, Program.ends_bind, ends_ops, Program.ends_read,
      Except.ok.injEq, mapError_eq_ok] at h
    obtain ⟨_, _, ⟨rfl, rfl⟩, previous, _, ⟨hread, rfl⟩, h⟩ := h
    refine ⟨previous.withField key value, ?_, h⟩
    rw [parts_withField, LockedSession.shows, hread]
  | deleteField key =>
    simp only [program, Thorax.deleteField, current, Program.ends_bind, ends_ops, Program.ends_read,
      Except.ok.injEq, mapError_eq_ok, Program.ends_ensure] at h
    obtain ⟨_, _, ⟨rfl, rfl⟩, previous, _, ⟨hread, rfl⟩, _, _, ⟨-, rfl⟩, h⟩ := h
    refine ⟨previous.withoutField key, ?_, h⟩
    rw [parts_withoutField, LockedSession.shows, hread]

/-- An edit looks at the session as it stands. -/
lemma meets_ops_current_bind {next : LockedSession → EditProgram SetSecretOutput}
    {crash : Disk × LockedSession → Prop}
    {post : Except EditError SetSecretOutput → Disk × LockedSession → Prop} :
    (ops current >>= next).Meets (disk, session) crash post ↔
      (next session).Meets (disk, session) crash post := by
  simp [ops, current]

/-- A session that is as it was before, or refreshed. -/
def KeptOrRefreshed (provider : StoreProvider) (disk : Disk) (session session' : LockedSession) :
    Prop :=
  session' = session ∨ Refreshes provider disk session session'

/-- A set that fails leaves the session as it was, or refreshed. -/
lemma meets_setSecretValue_error (hlive : session.persistence = .live) (value : SecretValueV1) :
    (setSecretValue provider sealing contended transactionId identity selector value random).Meets
      (disk, session) (fun _ => True) fun result state =>
        ∀ e, result = .error e → KeptOrRefreshed provider disk session state.2 := by
  simp only [setSecretValue, writeSecret, commitRecord, current, onDisk, Program.meets_bind,
    Program.meets_read, Program.meets_zoom, meets_check]
  cases ensureSecretWritable session.report.effective selector identity.userId with
  | error e => exact fun _ _ => Or.inl rfl
  | ok _ =>
    cases Hazmat.ensureIdentityConsistent provider.toCryptoProvider identity.toRecordSigner with
    | error e => exact fun _ _ => Or.inl rfl
    | ok _ =>
      refine (Program.meets_leaves _ _).mono (by simp) ?_
      rintro result state ⟨hresult, rfl⟩
      cases result with
      | error e => exact fun _ _ => session_of_commit_error hlive hresult.symm
      | ok _ => simp

/-- So does an edit. -/
lemma SecretEdit.session_of_error {edit : SecretEdit} {e : EditError}
    (hlive : session.persistence = .live)
    (h : (edit.program provider sealing contended transactionId identity selector random
      (disk, session)).result = .error e) :
    KeptOrRefreshed provider disk session (edit.program provider sealing contended transactionId
      identity selector random (disk, session)).last.2 := by
  have hops : ∀ value, (ops (setSecretValue provider sealing contended transactionId identity selector
      value random)).Meets (disk, session) (fun _ => True) fun result state =>
        ∀ e, result = .error e → KeptOrRefreshed provider disk session state.2 := by
    intro value
    refine Program.meets_zoom.mpr ((meets_setSecretValue_error hlive value).mono (by simp)
      fun result state hstate => ?_)
    cases result with
    | error e => exact fun _ _ => hstate e rfl
    | ok _ => simp
  have hmeets : (edit.program provider sealing contended transactionId identity selector random).Meets
      (disk, session) (fun _ => True) fun result state =>
        ∀ e, result = .error e → KeptOrRefreshed provider disk session state.2 := by
    cases edit with
    | setPrimary plaintext =>
      refine meets_ops_current_bind.mpr ?_
      cases session.getSecret provider sealing identity selector with
      | ok previous => exact hops _
      | error e => exact hops _
    | setField key value =>
      refine meets_ops_current_bind.mpr ?_
      rw [Program.meets_bind, Program.meets_read]
      cases session.getSecret provider sealing identity selector with
      | ok previous => exact hops _
      | error e => exact fun _ _ => Or.inl rfl
    | deleteField key =>
      refine meets_ops_current_bind.mpr ?_
      rw [Program.meets_bind, Program.meets_read]
      cases session.getSecret provider sealing identity selector with
      | ok previous =>
        refine Program.meets_bind.mpr (Program.meets_ensure.mpr ?_)
        cases (previous.field key).isSome with
        | false => exact fun _ _ => Or.inl rfl
        | true => exact hops _
      | error e => exact fun _ _ => Or.inl rfl
  exact hmeets.result e h

end Programs

/-! ### What a set leaves -/

/-- No vault of these envelopes has collisions of hashes. -/
def CollisionFreeEnvelopes (crypto : CryptoProvider) (envelopes : Set VaultRecordV1) : Prop :=
  ∀ vault : VaultStore, vault.Within envelopes → CollisionFree crypto vault.records

/-- Then different envelopes have different hashes. -/
lemma CollisionFreeEnvelopes.identify {crypto : CryptoProvider} {envelopes : Set VaultRecordV1}
    (h : CollisionFreeEnvelopes crypto envelopes) : HashesIdentify crypto envelopes := by
  intro a ha b hb heq
  have hwithin : (VaultStore.v1 ⟨[a, b]⟩).Within envelopes := by
    rintro signed (_ | ⟨_, _ | ⟨_, _ | _⟩⟩)
    · exact ha
    · exact hb
  exact (h _ hwithin).recordHash_inj List.mem_cons_self
    (List.mem_cons_of_mem a List.mem_cons_self) heq

section Sets

variable {provider : StoreProvider} {sealing : SealProvider} {envelopes : Set VaultRecordV1}
variable {paths : WorkspacePaths} {root : HashValue} {disk : Disk} {session : LockedSession}
variable {vaultBytes : Bytes} {vault : VaultStore} {ratchet : Ratchet} {contended : Bool}
variable {transactionId : Bytes} {identity : UnlockedIdentity} {selector : SecretSelectorV1}
variable {value : SecretValueV1} {random : SealRandomness} {output : SetSecretOutput}
variable {state : Disk × LockedSession}

/-- A vault is validated against the root of the ratchet. -/
lemma rootKey_of_validateVault {crypto : CryptoProvider} {key : HashValue}
    (h : (validateVault crypto vault ratchet).effective.rootSigningPublicKeyHash = some key) :
    key = ratchet.trustedRoot := by
  cases hresolved : resolvedRecords crypto vault ratchet with
  | none => simp [(validateVault_of_unresolved hresolved).1, EffectiveState.unresolved] at h
  | some resolved =>
    obtain ⟨selected, records⟩ := resolved
    obtain ⟨-, hroot, -⟩ := resolvedRecords_eq_some.mp hresolved
    rw [(validateVault_of_resolved hresolved).1, rootSigningPublicKeyHash_resolveRecords,
      trustedRoot_of_selectRoot hroot] at h
    exact (Option.some.inj h).symm

/-- Where a secret is shown, so is the root. -/
lemma rootKey_of_secretRecord {crypto : CryptoProvider} {active : ActiveSecretV1}
    (h : (validateVault crypto vault ratchet).effective.secretRecord crypto selector = some active) :
    (validateVault crypto vault ratchet).effective.rootSigningPublicKeyHash =
      some ratchet.trustedRoot := by
  cases hresolved : resolvedRecords crypto vault ratchet with
  | none =>
    rw [(validateVault_of_unresolved hresolved).1] at h
    simp [EffectiveState.secretRecord, EffectiveState.liveSecretWinner,
      EffectiveState.latestAuthorizedSecretRecord, EffectiveState.unresolved] at h
  | some resolved =>
    obtain ⟨selected, records⟩ := resolved
    obtain ⟨-, hroot, -⟩ := resolvedRecords_eq_some.mp hresolved
    rw [(validateVault_of_resolved hresolved).1, rootSigningPublicKeyHash_resolveRecords,
      trustedRoot_of_selectRoot hroot]

/-- A record of the vault whose hash is that of the current record is the live one. -/
lemma secretRecord_of_current {crypto : CryptoProvider} {signed : VaultRecordV1}
    {record : SecretRecordV1} (hidentify : HashesIdentify crypto envelopes)
    (hvault : vault.Within envelopes) (hmem : signed ∈ vault.records)
    (hbody : signed.body = .known (.secret record)) (hid : record.id = deriveSecretId crypto selector)
    (h : (validateVault crypto vault ratchet).effective.secretRecordIsCurrent
      (recordHash crypto signed) = true) :
    (validateVault crypto vault ratchet).effective.secretRecord crypto selector =
      some ⟨signed, record⟩ := by
  have hsettled : SecretsSettled crypto (validateVault crypto vault ratchet).effective :=
    secretsSettled_validate
  obtain ⟨target, htarget, hhash⟩ : ∃ target ∈
      (validateVault crypto vault ratchet).effective.verifiedRecords,
      target.recordHash = recordHash crypto signed := by
    unfold EffectiveState.secretRecordIsCurrent at h
    split at h
    · cases h
    · next target hfind =>
      exact ⟨target, List.mem_of_find?_eq_some hfind, by simpa using List.find?_some hfind⟩
  obtain ⟨hin, hgenuine, -⟩ := genuine_of_validateVault htarget
  obtain rfl := hidentify _ (hvault _ hin) _ (hvault _ hmem) (hgenuine.symm.trans hhash)
  have hrecord : target.body = .secret record :=
    Evolving.known.inj ((body_of_validateVault htarget).symm.trans hbody)
  have hkey : target.key = .secret (deriveSecretId crypto selector) := by
    rw [VerifiedRecord.key, hrecord, ← hid]
    rfl
  rw [← hhash, hsettled.secretRecordIsCurrent_iff htarget hkey] at h
  obtain ⟨hfree, hlatest⟩ := h
  rw [secretRecord_of_free hfree]
  exact live_eq_some.mpr ⟨target, hlatest, activeSecret_eq_some.mpr ⟨hrecord, rfl⟩⟩

/-- A set that succeeds leaves the disk at rest, where the live record of the secret is one that
seals the value. -/
lemma Disk.RestsAt.sets (h : disk.RestsAt provider paths root vaultBytes vault ratchet)
    (hseparate : CollisionFreeEnvelopes provider.toCryptoProvider envelopes)
    (hdisk : disk.Within envelopes provider) (hcaches : CachesGenuine provider envelopes disk)
    (hsession : session.WorksAt provider envelopes paths root)
    (hends : (setSecretValue provider sealing contended transactionId identity selector value
      random).Ends (disk, session) output state)
    (hdisk' : state.1.Within envelopes provider) :
    CachesGenuine provider envelopes state.1 ∧ state.2.WorksAt provider envelopes paths root ∧
    ∃ bytes written stored signed record,
      state.1.RestsAt provider paths root bytes written stored ∧
      (validateVault provider.toCryptoProvider written stored).effective.secretRecord
        provider.toCryptoProvider selector = some ⟨signed, record⟩ ∧
      (validateVault provider.toCryptoProvider written
        stored).effective.rootSigningPublicKeyHash = some root ∧
      Seals sealing root ⟨.secret record.id, signed.signingPublicKey, record.counter, record.id,
        record.selector⟩ value random record.sealed := by
  have hidentify := hseparate.identify
  simp only [setSecretValue, writeSecret, commitRecord, current, onDisk, Program.ends_bind,
    Program.ends_read, Program.ends_zoom, ends_check, Program.ends_pure] at hends
  obtain ⟨_, _, ⟨hcurrent, rfl⟩, _, _, ⟨_, ⟨-, rfl⟩, rfl⟩, _, _, ⟨_, ⟨-, rfl⟩, rfl⟩, ⟨_, hash⟩, _,
    hcommit, rfl, rfl⟩ := hends
  obtain ⟨hcaches', hworks, session', next, written, stored, hfresh, hproject, houtput, hrests, hsame,
    hstored, -⟩ := h.commits hidentify hdisk hcaches hsession hcommit hdisk'
  refine ⟨hcaches', hworks, next.vaultBytes, written, stored, ?_⟩
  obtain ⟨hworks', hratchet, -⟩ := h.refreshed hidentify hdisk hsession hfresh
  obtain ⟨-, _, _, hupdate, hvault, rfl, hreport, -, hcheck, -, hnext⟩ := project_eq_ok.mp hproject
  simp only [RecordChange.toChange, setSecretChange, bind_eq_ok, Prod.exists] at hupdate
  obtain ⟨counter, -, built, _, ⟨signed, payload, hsealed, hbuilt⟩, hupdate⟩ := hupdate
  obtain ⟨hsame', rfl⟩ := Prod.mk.inj (Except.ok.inj hbuilt)
  subst hsame'
  obtain ⟨rfl, hnextOutput⟩ := Prod.mk.inj (Except.ok.inj hupdate)
  obtain ⟨hpayload, hsigned⟩ := sealedSecretRecord_eq_ok.mp hsealed
  obtain ⟨hbody, hsigner⟩ := Hazmat.body_of_signedPayload hsigned
  -- the projection checks every signature itself, and remembers nothing at the vault root
  have hwithin : next.vault.Within envelopes := fun other hother =>
    hrests.within hdisk' other ((hsame other).mpr hother)
  rw [← hvault, hworks'.settled.grounded.validate hidentify hwithin] at hreport
  have hvaultRoot : session'.remembered.watermarks[RecordKey.vaultRoot]? = none := by
    obtain ⟨validated, hdirect⟩ := hworks'.settled.grounded.direct
    rw [LockedSession.remembered, hdirect, getElem?_applyUpdate, validateVault, vaultRoot_not_raised,
      hratchet]
    exact h.vaultRoot
  rw [hreport] at hnext hcheck
  rw [hnext] at hstored
  have hreading : SameReading provider.toCryptoProvider
      (validateVault provider.toCryptoProvider written stored).effective
      (validateVault provider.toCryptoProvider next.vault session'.remembered).effective :=
    (sameReading_of_mem (hseparate _ (hrests.within hdisk')) hsame stored).trans
      (sameReading_of_storedAs hstored hvaultRoot)
  have hcurrent : (validateVault provider.toCryptoProvider next.vault
      session'.remembered).effective.secretRecordIsCurrent
        (recordHash provider.toCryptoProvider signed) = true := by
    rw [← hnextOutput] at hcheck
    simp only [RecordChange.toChange, setSecretChange, currentOr] at hcheck
    split_ifs at hcheck with hcurrent
    exact hcurrent
  have hmem : signed ∈ next.vault.records := hvault ▸ VaultStore.mem_appendRecord.mpr (Or.inr rfl)
  have hlive := secretRecord_of_current hidentify hwithin hmem hbody rfl hcurrent
  -- both what was sealed and what is read are bound to the root of the ratchet
  obtain ⟨key, hkey⟩ : ∃ key, session'.report.effective.rootSigningPublicKeyHash = some key := by
    simp only [sealSecretPayload, effectiveTrustedRoot, bind_eq_ok] at hpayload
    obtain ⟨key, hkey, -⟩ := hpayload
    cases hroot : session'.report.effective.rootSigningPublicKeyHash with
    | none => simp [hroot] at hkey
    | some root => exact ⟨root, rfl⟩
  have hkeyRoot : key = root := by
    rw [hworks'.settled.coherent.1] at hkey
    rw [rootKey_of_validateVault hkey, hworks'.trustedRoot]
  subst hkeyRoot
  have hreadRoot : (validateVault provider.toCryptoProvider next.vault
      session'.remembered).effective.rootSigningPublicKeyHash = some key := by
    rw [rootKey_of_secretRecord hlive]
    exact congrArg some hworks'.trustedRoot
  refine ⟨signed, _, hrests, (hreading.secretRecord selector).trans hlive,
    hreading.rootKey.trans hreadRoot, ?_⟩
  rw [hsigner]
  exact seals_of_sealSecretPayload (by rw [effectiveTrustedRoot, hkey]) hpayload

end Sets

/-! ### Runs -/

/-- A client: its identity, and what it signs caches with. -/
structure Editor where
  identity : UnlockedIdentity
  signCache : Bytes → Bytes

def Editor.toIdentity (self : Editor) : Identity :=
  ⟨self.identity.signingPublicKey, self.identity.hpkePublicKey, self.signCache⟩

/-- The ciphers with the randomness that one operation wraps content keys with. -/
def SealProvider.wrapping (self : SealProvider)
    (wrap : Bytes → Bytes → Bytes → Bytes → Except CryptoError HpkeSealed) : SealProvider :=
  { self with wrapContentKey := wrap }

/-- The disk and the sessions of the clients. The vault files hold only the envelopes of the
world. -/
structure EditingWorld (provider : StoreProvider) (envelopes : Set VaultRecordV1) where
  disk : Disk
  sessions : ℕ → Option LockedSession
  within : disk.Within envelopes provider

section Runs

variable (provider : StoreProvider) (sealing : SealProvider) (envelopes : Set VaultRecordV1)
variable (paths : WorkspacePaths) (root : HashValue) (selector : SecretSelectorV1)
variable (editors : ℕ → Editor) (readers : Set UnlockedIdentity)
variable (wraps : Set (Bytes → Bytes → Bytes → Bytes → Except CryptoError HpkeSealed))

/-- What readers find in a report: nothing where no secret is shown, and otherwise, each reader who
can read it, the parts of its value. -/
structure FindsParts (report : ValidationReport) (contents : SecretPart → Set Bytes) : Prop where
  absent : report.effective.secretRecord provider.toCryptoProvider selector = none →
    contents = noParts
  opened : ∀ reader ∈ readers, ∀ plaintext,
    getSecretFrom provider sealing report reader selector = .ok plaintext →
      plaintext.toValue.parts = contents

/-- What is committed: what readers find in the vault file under the stored ratchet. -/
def Committed (disk : Disk) (contents : SecretPart → Set Bytes) : Prop :=
  ∃ vaultBytes vault ratchet, disk.RestsAt provider paths root vaultBytes vault ratchet ∧
    FindsParts provider sealing selector readers
      (validateVault provider.toCryptoProvider vault ratchet) contents

/-- A session shows, off the part that an edit replaces, what is committed. -/
def UpToDate (disk : Disk) (session : LockedSession) (identity : UnlockedIdentity)
    (edit : SecretEdit) : Prop :=
  ∀ contents, Committed provider sealing paths root selector readers disk contents →
    AgreeOff edit.effect.part (session.shows provider sealing identity selector) contents

/-- One step of one client, with the edits it commits: it loads a session, binds its identity to the
session, edits the secret, or is refused. `permits` says which edits are made. -/
inductive EditingStep (permits : Disk → LockedSession → UnlockedIdentity → SecretEdit → Prop) :
    EditingWorld provider envelopes → List SecretEdit → EditingWorld provider envelopes → Prop
  | loads {world world' : EditingWorld provider envelopes} (i : ℕ) (contended : Bool)
      {session : LockedSession} :
      (load provider contended paths).Ends world.disk session world'.disk →
      world'.sessions = Function.update world.sessions i (some session) →
      EditingStep permits world [] world'
  | unlocks {world world' : EditingWorld provider envelopes} (i : ℕ) {session : LockedSession}
      {state : Disk × LockedSession} :
      world.sessions i = some session →
      (withIdentity provider (editors i).toIdentity (world.disk, session)).last = state →
      world'.disk = state.1 → world'.sessions = Function.update world.sessions i (some state.2) →
      EditingStep permits world [] world'
  | edits {world world' : EditingWorld provider envelopes} (i : ℕ) (edit : SecretEdit)
      (contended : Bool) (transactionId : Bytes) (random : SealRandomness)
      (wrap : Bytes → Bytes → Bytes → Bytes → Except CryptoError HpkeSealed)
      {session session' : LockedSession} {output : SetSecretOutput} :
      world.sessions i = some session → wrap ∈ wraps →
      permits world.disk session (editors i).identity edit →
      (edit.program provider (sealing.wrapping wrap) contended transactionId (editors i).identity
        selector random).Ends (world.disk, session) output (world'.disk, session') →
      world'.sessions = Function.update world.sessions i (some session') →
      EditingStep permits world [edit] world'
  | refuses {world world' : EditingWorld provider envelopes} (i : ℕ) (edit : SecretEdit)
      (contended : Bool) (transactionId : Bytes) (random : SealRandomness)
      (wrap : Bytes → Bytes → Bytes → Bytes → Except CryptoError HpkeSealed)
      {session : LockedSession} {state : Disk × LockedSession} {e : EditError} :
      world.sessions i = some session →
      (edit.program provider (sealing.wrapping wrap) contended transactionId (editors i).identity
        selector random (world.disk, session)).result = .error e →
      (edit.program provider (sealing.wrapping wrap) contended transactionId (editors i).identity
        selector random (world.disk, session)).last = state →
      state.1 = world.disk → world'.disk = world.disk →
      world'.sessions = Function.update world.sessions i (some state.2) →
      EditingStep permits world [] world'

/-- Any interleaving of such steps, with the edits it has committed in their order. -/
inductive EditingRun (permits : Disk → LockedSession → UnlockedIdentity → SecretEdit → Prop)
    (start : EditingWorld provider envelopes) :
    List SecretEdit → EditingWorld provider envelopes → Prop
  | start : EditingRun permits start [] start
  | step {log edits : List SecretEdit} {world world' : EditingWorld provider envelopes} :
      EditingRun permits start log world →
      EditingStep provider sealing envelopes paths selector editors wraps permits world edits world' →
      EditingRun permits start (log ++ edits) world'

/-- Every edit is made, whatever the session shows. -/
def anyEdit : Disk → LockedSession → UnlockedIdentity → SecretEdit → Prop := fun _ _ _ _ => True

/-- The invariant of such runs: what is committed, and sessions at work on the files. -/
structure EditingWorld.Sound (world : EditingWorld provider envelopes)
    (contents : SecretPart → Set Bytes) : Prop where
  committed : Committed provider sealing paths root selector readers world.disk contents
  caches : CachesGenuine provider envelopes world.disk
  sessions : ∀ i session, world.sessions i = some session →
    session.WorksAt provider envelopes paths root

end Runs

section Main

variable {provider : StoreProvider} {sealing : SealProvider} {envelopes : Set VaultRecordV1}
variable {paths : WorkspacePaths} {root : HashValue} {selector : SecretSelectorV1}
variable {editors : ℕ → Editor} {readers : Set UnlockedIdentity}
variable {wraps : Set (Bytes → Bytes → Bytes → Bytes → Except CryptoError HpkeSealed)}
variable {world world' start : EditingWorld provider envelopes} {disk disk' : Disk}
variable {contents contents' initial : SecretPart → Set Bytes} {report report' : ValidationReport}

lemma FindsParts.congr
    (hreading : SameReading provider.toCryptoProvider report.effective report'.effective)
    (h : FindsParts provider sealing selector readers report contents) :
    FindsParts provider sealing selector readers report' contents := by
  refine ⟨fun hnone => h.absent ((hreading.secretRecord selector).trans hnone), ?_⟩
  intro reader hreader plaintext hread
  exact h.opened reader hreader plaintext ((hreading.getSecretFrom_eq reader selector).trans hread)

/-- One client takes a step. -/
lemma EditingWorld.Sound.update
    (h : world.Sound provider sealing envelopes paths root selector readers contents) {i : ℕ}
    {session : LockedSession}
    (hcommitted : Committed provider sealing paths root selector readers world'.disk contents')
    (hcaches : CachesGenuine provider envelopes world'.disk)
    (hsessions : world'.sessions = Function.update world.sessions i (some session))
    (hworks : session.WorksAt provider envelopes paths root) :
    world'.Sound provider sealing envelopes paths root selector readers contents' := by
  refine ⟨hcommitted, hcaches, fun j other hj => ?_⟩
  rw [hsessions] at hj
  by_cases hij : j = i
  · subst hij
    rw [Function.update_self] at hj
    exact Option.some.inj hj ▸ hworks
  · rw [Function.update_of_ne hij] at hj
    exact h.sessions j other hj

/-- Whoever opens what an edit has sealed finds the edit. -/
lemma Committed.edits {wrap : Bytes → Bytes → Bytes → Bytes → Except CryptoError HpkeSealed}
    {session session' : LockedSession} {identity : UnlockedIdentity} {edit : SecretEdit}
    {contended : Bool} {transactionId : Bytes} {random : SealRandomness} {output : SetSecretOutput}
    (h : Committed provider sealing paths root selector readers disk contents)
    (hseparate : CollisionFreeEnvelopes provider.toCryptoProvider envelopes)
    (htrips : sealing.RoundTrips)
    (hunwraps : ∀ reader ∈ readers, reader.Unwraps (sealing.wrapping wrap))
    (hdisk : disk.Within envelopes provider) (hdisk' : disk'.Within envelopes provider)
    (hcaches : CachesGenuine provider envelopes disk)
    (hsession : session.WorksAt provider envelopes paths root)
    (hends : (edit.program provider (sealing.wrapping wrap) contended transactionId identity selector
      random).Ends (disk, session) output (disk', session')) :
    CachesGenuine provider envelopes disk' ∧ session'.WorksAt provider envelopes paths root ∧
      Committed provider sealing paths root selector readers disk'
        (edit.effect.apply (session.shows provider sealing identity selector)) := by
  obtain ⟨vaultBytes, vault, ratchet, hrests, -⟩ := h
  obtain ⟨value, hvalue, hset⟩ := edit.ends_program hends
  obtain ⟨hcaches', hworks, bytes, written, stored, signed, record, hrests', hlive, hroot, hseals⟩ :=
    hrests.sets hseparate hdisk hcaches hsession hset hdisk'
  have hwrapping : (sealing.wrapping wrap).RoundTrips := ⟨htrips.opens, htrips.reads⟩
  refine ⟨hcaches', hworks, bytes, written, stored, hrests', ?_, ?_⟩
  · intro hnone
    rw [hlive] at hnone
    cases hnone
  · intro reader hreader plaintext hread
    obtain ⟨_, -, hread⟩ := bind_eq_ok.mp hread
    simp only [decryptSecretFromReport, hlive, effectiveTrustedRoot, hroot] at hread
    exact (hseals.parts_of_decrypt hwrapping (hunwraps reader hreader) hread).trans hvalue

/-- A step whose edit starts from what is committed replaces one part of it. -/
lemma EditingStep.sound {edits : List SecretEdit}
    (hseparate : CollisionFreeEnvelopes provider.toCryptoProvider envelopes)
    (htrips : sealing.RoundTrips)
    (hunwraps : ∀ reader ∈ readers, ∀ wrap ∈ wraps, reader.Unwraps (sealing.wrapping wrap))
    (hstep : EditingStep provider sealing envelopes paths selector editors wraps
      (UpToDate provider sealing paths root selector readers) world edits world')
    (h : world.Sound provider sealing envelopes paths root selector readers contents) :
    world'.Sound provider sealing envelopes paths root selector readers
      (Edits.run (edits.map SecretEdit.effect) contents) := by
  have hidentify := hseparate.identify
  obtain ⟨vaultBytes, vault, ratchet, hrests, hfinds⟩ := h.committed
  cases hstep with
  | loads i contended hends hsessions =>
    obtain ⟨hworks, hcaches, stored, hstored, hlearned⟩ :=
      hrests.loads hidentify world.within h.caches hends
    refine h.update ⟨vaultBytes, vault, stored, hstored, ?_⟩ hcaches hsessions hworks
    rcases hlearned with rfl | hlearned
    · exact hfinds
    · exact hfinds.congr (sameReading_of_storedAs hlearned hrests.vaultRoot).symm
  | unlocks i hi hstate hdisk hsessions =>
    have hunlocking := (stays_withIdentity (h.sessions i _ hi) h.caches (editors i).toIdentity).result
    rw [hstate] at hunlocking
    refine h.update ⟨vaultBytes, vault, ratchet, ?_, hfinds⟩ (hdisk ▸ hunlocking.caches) hsessions
      hunlocking.works
    exact hdisk ▸ hrests.sameFiles hunlocking.files
  | edits i edit contended transactionId random wrap hi hwrap hpermits hends hsessions =>
    obtain ⟨hcaches, hworks, hcommitted⟩ := h.committed.edits hseparate htrips
      (fun reader hreader => hunwraps reader hreader wrap hwrap) world.within world'.within h.caches
      (h.sessions i _ hi) hends
    rw [apply_eq_apply_iff.mpr (hpermits contents h.committed)] at hcommitted
    exact h.update hcommitted hcaches hsessions hworks
  | refuses i edit contended transactionId random wrap hi hresult hstate hsame hdisk hsessions =>
    have hworks := h.sessions i _ hi
    have hkept := SecretEdit.session_of_error hworks.live hresult
    rw [hstate] at hkept
    refine h.update ⟨vaultBytes, vault, ratchet, hdisk ▸ hrests, hfinds⟩ (hdisk ▸ h.caches) hsessions ?_
    rcases hkept with heq | hfresh
    · rw [heq]
      exact hworks
    · exact (hrests.refreshed hidentify world.within hworks hfresh).1

lemma EditingRun.sound {log : List SecretEdit}
    (hseparate : CollisionFreeEnvelopes provider.toCryptoProvider envelopes)
    (htrips : sealing.RoundTrips)
    (hunwraps : ∀ reader ∈ readers, ∀ wrap ∈ wraps, reader.Unwraps (sealing.wrapping wrap))
    (hrun : EditingRun provider sealing envelopes paths selector editors wraps
      (UpToDate provider sealing paths root selector readers) start log world)
    (h : start.Sound provider sealing envelopes paths root selector readers initial) :
    world.Sound provider sealing envelopes paths root selector readers
      (Edits.run (log.map SecretEdit.effect) initial) := by
  induction hrun with
  | start => exact h
  | step _ hstep ih =>
    rw [List.map_append, run_append]
    exact hstep.sound hseparate htrips hunwraps ih

/-- In every run in which each edit starts from a session that shows, off the edited part, what is
committed, the value in the end holds every edit that was not superseded at its part, and is
otherwise the value of the beginning. -/
theorem edits_kept {log : List SecretEdit}
    (hseparate : CollisionFreeEnvelopes provider.toCryptoProvider envelopes)
    (htrips : sealing.RoundTrips)
    (hunwraps : ∀ reader ∈ readers, ∀ wrap ∈ wraps, reader.Unwraps (sealing.wrapping wrap))
    (hcaches : CachesGenuine provider envelopes start.disk)
    (hstart : Committed provider sealing paths root selector readers start.disk initial)
    (hclosed : ∀ i, start.sessions i = none)
    (hrun : EditingRun provider sealing envelopes paths selector editors wraps
      (UpToDate provider sealing paths root selector readers) start log world) :
    ∃ contents, Committed provider sealing paths root selector readers world.disk contents ∧
      contents = Edits.run (log.map SecretEdit.effect) initial ∧
      (∀ before edit after, log = before ++ edit :: after →
        Untouched edit.effect.part (after.map SecretEdit.effect) →
          contents edit.effect.part = edit.effect.value) ∧
      ∀ part, Untouched part (log.map SecretEdit.effect) → contents part = initial part := by
  have hsound : start.Sound provider sealing envelopes paths root selector readers initial :=
    ⟨hstart, hcaches, by simp [hclosed]⟩
  refine ⟨_, (hrun.sound hseparate htrips hunwraps hsound).committed, rfl, ?_, ?_⟩
  · rintro before edit after rfl huntouched
    rw [List.map_append, List.map_cons]
    exact run_of_last huntouched
  · exact fun part huntouched => run_of_untouched huntouched

end Main

/-! ### Two clients -/

section Example

open TestSupport

def editedField (key value : String) : SecretFieldEntryV1 := ⟨key, asciiBytes value⟩

def fieldsValue (fields : List SecretFieldEntryV1) : SecretValueV1 := ⟨asciiBytes "value", fields⟩

/-- A secret with fields, sealed by the root for itself. -/
def fieldsRecord (fields : List SecretFieldEntryV1) (counter : ℕ) : VaultRecordV1 :=
  let slots : List RecipientSlotV1 := [⟨rootUser.id, rootUser.hpkePublicKey,
    slotBytes ⟨testRoot, testSecretId, testSelector, rootUser.id⟩ ++ testRandomness.contentKey⟩]
  let aad := contentBytes ⟨testRoot, ⟨.secret testSecretId, rootUser.signingPublicKey, counter,
    testSecretId, testSelector⟩, testRandomness.nonce, slots⟩
  signedRecord rootUser (.secret ⟨testSecretId, testSelector, ⟨testRandomness.nonce,
    aad ++ (sealedValueV1Magic ++ fieldSeal.serializeValue (fieldsValue fields)), slots⟩, counter⟩)

def plainVault : VaultStore := .v1 ⟨[vaultRootRecord, fieldsRecord [] 0]⟩

/-- The first client has set its field. -/
def firstVault : VaultStore := plainVault.appendRecord (fieldsRecord [editedField "a" "1"] 1)

/-- The second client has set its field on a value without the first one. -/
def lostVault : VaultStore := firstVault.appendRecord (fieldsRecord [editedField "b" "2"] 2)

/-- The second client has set its field on the value with the first one. -/
def keptVault : VaultStore :=
  firstVault.appendRecord (fieldsRecord [editedField "a" "1", editedField "b" "2"] 2)

def editedRatchet (counter : ℕ) : Ratchet :=
  { ratchetWith [(.secret testSecretId, counter)] with formatVersion := 1 }

/-- The journal of an edit that replaces one vault file by another. -/
def editJournal (before after ratchetBefore : UInt8) : TransactionV1 where
  transactionId := List.replicate 32 7
  trustedRoot := testRoot
  originVaultPath := .fromPath testPaths.vaultPath
  operation := "vault mutation"
  vaultBefore := .hash (fileDigest (vaultFile before))
  ratchetBefore := .hash (fileDigest (ratchetFile ratchetBefore))
  nextVaultBytes := vaultFile after
  nextRatchetBytes := ratchetFile (ratchetBefore + 1)

def editTables : Tables where
  vaults := [plainVault, firstVault, lostVault, keptVault]
  ratchets := [ratchetStore writtenRatchet, ratchetStore (editedRatchet 1),
    ratchetStore (editedRatchet 2)]
  transactions := [editJournal 0 1 0, editJournal 1 2 1, editJournal 1 3 1]
  caches := []

def editProvider : StoreProvider := tableProvider editTables

/-- The envelopes of the vaults in some tables. -/
def TestSupport.Tables.envelopes (tables : Tables) : Set VaultRecordV1 :=
  {signed | ∃ vault ∈ tables.vaults, signed ∈ vault.records}

lemma within_tableProvider (tables : Tables) (disk : Disk) :
    disk.Within tables.envelopes (tableProvider tables) := by
  intro path bytes vault _ hvault signed hsigned
  unfold decodeVault at hvault
  split at hvault
  · cases hvault
  · next payload hpayload =>
    split_ifs at hvault with hlength
    cases hread : (tableProvider tables).vaultCodec.deserialize payload with
    | error source => simp [hread] at hvault
    | ok found =>
      simp only [hread] at hvault
      split_ifs at hvault with hcount
      obtain rfl := Except.ok.inj hvault
      exact ⟨found, (List.mem_filter.mp (mem_of_tableValue hread)).1, hsigned⟩

lemma collisionFree_envelopes {tables : Tables} {records : List VaultRecordV1}
    (hfree : CollisionFree (tableProvider tables).toCryptoProvider records)
    (hmem : ∀ table ∈ tables.vaults, ∀ signed ∈ table.records, signed ∈ records) :
    CollisionFreeEnvelopes (tableProvider tables).toCryptoProvider tables.envelopes := by
  intro vault hvault
  refine hfree.mono fun signed hsigned => ?_
  obtain ⟨table, htable, hin⟩ := hvault signed hsigned
  exact hmem table htable signed hin

/-- No cache is stored. -/
lemma cachesGenuine_testDisk (provider : StoreProvider) (envelopes : Set VaultRecordV1)
    (vault ratchet transaction : Option Bytes) :
    CachesGenuine provider envelopes (testDisk vault ratchet transaction) := by
  intro root user cache hread
  have hnone : ((testDisk vault ratchet transaction).roots root).caches user = none := by
    unfold testDisk
    dsimp only
    split_ifs <;> rfl
  simp [readVerificationCache, hnone, readFileBounded] at hread

def editEnvelopes : Set VaultRecordV1 :=
  {signed | ∃ vault ∈ editTables.vaults, signed ∈ vault.records}

lemma within_editProvider (disk : Disk) : disk.Within editEnvelopes editProvider :=
  within_tableProvider editTables disk

lemma collisionFree_editEnvelopes :
    CollisionFreeEnvelopes editProvider.toCryptoProvider editEnvelopes := by
  have hfree : CollisionFree editProvider.toCryptoProvider
      (lostVault.appendRecord (fieldsRecord [editedField "a" "1", editedField "b" "2"] 2)).records := by
    decide +kernel
  exact collisionFree_envelopes hfree (by decide +kernel)

def editDisk : Disk := testDisk (some (vaultFile 0)) (some (ratchetFile 0)) none

def rootEditor : Editor :=
  ⟨testIdentity rootUser, fun message => rootUser.signingPublicKey ++ message⟩

def setFieldA : SecretEdit := .setField "a" (asciiBytes "1")

def setFieldB : SecretEdit := .setField "b" (asciiBytes "2")

def opening : Program Disk OpsError LockedSession := load editProvider false testPaths

def editing (edit : SecretEdit) : EditProgram SetSecretOutput :=
  edit.program editProvider (fieldSeal.wrapping transparentSeal.wrapContentKey) false
    (List.replicate 32 7) (testIdentity rootUser) testSelector testRandomness

abbrev EditWorld : Type := EditingWorld editProvider editEnvelopes

def editStart : EditWorld := ⟨editDisk, fun _ => none, within_editProvider _⟩

/-- The world after a client has loaded. -/
def EditingWorld.opened (world : EditWorld) (i : ℕ) : EditWorld where
  disk := (opening world.disk).last
  sessions := Function.update world.sessions i (opening world.disk).result.toOption
  within := within_editProvider _

/-- The world after a client has edited. -/
def EditingWorld.edited (world : EditWorld) (i : ℕ) (edit : SecretEdit) : EditWorld :=
  match world.sessions i with
  | none => world
  | some session =>
    let outcome := editing edit (world.disk, session)
    ⟨outcome.last.1, Function.update world.sessions i (some outcome.last.2), within_editProvider _⟩

/-- An edit succeeds. -/
def EditingWorld.canEdit (world : EditWorld) (i : ℕ) (edit : SecretEdit) : Bool :=
  match world.sessions i with
  | none => false
  | some session => (editing edit (world.disk, session)).result.isOk

abbrev EditRun (permits : Disk → LockedSession → UnlockedIdentity → SecretEdit → Prop) :
    List SecretEdit → EditWorld → Prop :=
  EditingRun editProvider fieldSeal editEnvelopes testPaths testSelector (fun _ => rootEditor)
    {transparentSeal.wrapContentKey} permits editStart

section Steps

variable {permits : Disk → LockedSession → UnlockedIdentity → SecretEdit → Prop}
variable {world : EditWorld} {log : List SecretEdit} {edit : SecretEdit}

lemma EditingRun.opens (h : EditRun permits log world) (i : ℕ)
    (hloads : (opening world.disk).result.isOk = true) : EditRun permits log (world.opened i) := by
  cases hresult : (opening world.disk).result with
  | error e => simp [hresult, Except.isOk, Except.toBool] at hloads
  | ok session =>
    rw [← List.append_nil log]
    refine h.step (.loads i false ⟨hresult, rfl⟩ ?_)
    rw [EditingWorld.opened, hresult]
    rfl

lemma EditingRun.edits (h : EditRun permits log world) (i : ℕ)
    (hedits : world.canEdit i edit = true)
    (hpermits : ∀ session, world.sessions i = some session →
      permits world.disk session (testIdentity rootUser) edit) :
    EditRun permits (log ++ [edit]) (world.edited i edit) := by
  unfold EditingWorld.canEdit at hedits
  split at hedits
  · cases hedits
  · next session hsession =>
    cases hresult : (editing edit (world.disk, session)).result with
    | error e => simp [hresult, Except.isOk, Except.toBool] at hedits
    | ok output =>
      have hdisk : (world.edited i edit).disk = (editing edit (world.disk, session)).last.1 := by
        rw [EditingWorld.edited, hsession]
      have hsessions : (world.edited i edit).sessions = Function.update world.sessions i
          (some (editing edit (world.disk, session)).last.2) := by
        rw [EditingWorld.edited, hsession]
      exact h.step (.edits i edit false (List.replicate 32 7) testRandomness
        transparentSeal.wrapContentKey hsession rfl (hpermits session hsession)
        ⟨hresult, Prod.ext hdisk.symm rfl⟩ hsessions)

end Steps

/-! ### What the root finds -/

/-- The root opens a value with some fields. -/
def rootOpens (report : ValidationReport) (fields : List SecretFieldEntryV1) : Prop :=
  getSecretFrom editProvider fieldSeal report (testIdentity rootUser) testSelector =
    .ok ⟨testSelector, asciiBytes "value", fields⟩

instance (report : ValidationReport) (fields : List SecretFieldEntryV1) :
    Decidable (rootOpens report fields) := inferInstanceAs (Decidable (_ = _))

abbrev RootFinds : Disk → (SecretPart → Set Bytes) → Prop :=
  Committed editProvider fieldSeal testPaths testRoot testSelector {testIdentity rootUser}

section Finds

variable {disk : Disk} {vaultBytes : Bytes} {vault : VaultStore} {ratchet : Ratchet}
variable {fields : List SecretFieldEntryV1} {contents : SecretPart → Set Bytes}

lemma rootFinds_fields
    (hrests : disk.RestsAt editProvider testPaths testRoot vaultBytes vault ratchet)
    (hopens : rootOpens (validateVault editProvider.toCryptoProvider vault ratchet) fields) :
    RootFinds disk (fieldsValue fields).parts := by
  refine ⟨vaultBytes, vault, ratchet, hrests, fun hnone => ?_, ?_⟩
  · obtain ⟨_, -, hread⟩ := bind_eq_ok.mp hopens
    rw [decryptSecretFromReport, hnone] at hread
    cases hread
  · rintro reader rfl plaintext hread
    obtain rfl := Except.ok.inj (hopens.symm.trans hread)
    rfl

/-- The root finds one value at a time. -/
lemma rootFinds_iff
    (hrests : disk.RestsAt editProvider testPaths testRoot vaultBytes vault ratchet)
    (hopens : rootOpens (validateVault editProvider.toCryptoProvider vault ratchet) fields) :
    RootFinds disk contents ↔ contents = (fieldsValue fields).parts := by
  constructor
  · rintro ⟨bytes, stored, remembered, hstored, hfinds⟩
    obtain ⟨rfl, rfl, rfl⟩ := hrests.unique hstored
    exact (hfinds.opened _ rfl _ hopens).symm
  · rintro rfl
    exact rootFinds_fields hrests hopens

/-- A session that shows the root what it finds is up to date. -/
lemma upToDate_of_opens {session : LockedSession} (edit : SecretEdit)
    (hrests : disk.RestsAt editProvider testPaths testRoot vaultBytes vault ratchet)
    (hopens : rootOpens (validateVault editProvider.toCryptoProvider vault ratchet) fields)
    (hshows : rootOpens session.report fields) :
    UpToDate editProvider fieldSeal testPaths testRoot testSelector {testIdentity rootUser} disk
      session (testIdentity rootUser) edit := by
  intro contents hcontents other _
  have hshown : session.getSecret editProvider fieldSeal (testIdentity rootUser) testSelector =
      .ok ⟨testSelector, asciiBytes "value", fields⟩ := hshows
  rw [(rootFinds_iff hrests hopens).mp hcontents, LockedSession.shows, hshown]
  rfl

end Finds

/-- Both clients have loaded before either of them edits. -/
def bothLoaded : EditWorld := (editStart.opened 0).opened 1

def firstEdited : EditWorld := bothLoaded.edited 0 setFieldA

def firstLost : EditWorld := firstEdited.edited 1 setFieldB

/-- The second client loads again before it edits. -/
def loadedAgain : EditWorld := firstEdited.opened 1

def bothKept : EditWorld := loadedAgain.edited 1 setFieldB

lemma restsAt_editStart : editStart.disk.RestsAt editProvider testPaths testRoot (vaultFile 0)
    plainVault writtenRatchet :=
  ⟨rfl, rfl, rfl, rfl, rfl, rfl⟩

/-- What the edits of either run leave on disk. -/
lemma restsAt_edited :
    bothLoaded.disk.RestsAt editProvider testPaths testRoot (vaultFile 0) plainVault
        writtenRatchet ∧
      loadedAgain.disk.RestsAt editProvider testPaths testRoot (vaultFile 1) firstVault
        (editedRatchet 1) ∧
      firstLost.disk.RestsAt editProvider testPaths testRoot (vaultFile 2) lostVault
        (editedRatchet 2) := by
  decide +kernel

/-- In either run the clients load, and their edits are made. -/
lemma edits_succeed :
    (opening editStart.disk).result.isOk = true ∧
      (opening (editStart.opened 0).disk).result.isOk = true ∧
      (opening firstEdited.disk).result.isOk = true ∧
      bothLoaded.canEdit 0 setFieldA = true ∧ loadedAgain.canEdit 1 setFieldB = true ∧
      firstEdited.canEdit 1 setFieldB = true := by
  decide +kernel

lemma cachesGenuine_editStart : CachesGenuine editProvider editEnvelopes editStart.disk :=
  cachesGenuine_testDisk _ _ _ _ _

lemma roundTrips_fieldSeal : fieldSeal.RoundTrips where
  opens _ _ _ _ _ h := openContent_fieldSeal h
  reads value := ⟨value, deserializeValue_fieldSeal value, rfl, fun _ => Iff.rfl⟩

lemma unwraps_root : (testIdentity rootUser).Unwraps
    (fieldSeal.wrapping transparentSeal.wrapContentKey) := by
  intro recipient binding key wrapped unwrapped hwrap hunwrap
  obtain rfl := Except.ok.inj hwrap
  simp only [testIdentity] at hunwrap
  split_ifs at hunwrap
  rw [openedUnder_append] at hunwrap
  exact (Except.ok.inj hunwrap).symm

lemma bothLoaded_run (permits : Disk → LockedSession → UnlockedIdentity → SecretEdit → Prop) :
    EditRun permits [] bothLoaded :=
  (EditingRun.start.opens 0 edits_succeed.1).opens 1 edits_succeed.2.1

lemma apart : setFieldB.effect.part ≠ setFieldA.effect.part := by decide

/-- The second client loads between the two edits, and the root finds both. -/
theorem edits_kept_loaded_again :
    ∃ contents, RootFinds bothKept.disk contents ∧
      contents (.field "a") = {asciiBytes "1"} ∧ contents (.field "b") = {asciiBytes "2"} ∧
      contents .primary = {asciiBytes "value"} := by
  obtain ⟨-, -, hloads, hsetA, hsetB, -⟩ := edits_succeed
  obtain ⟨hbefore, hafter, hfirst, hsecond⟩ :
      rootOpens (validateVault editProvider.toCryptoProvider plainVault writtenRatchet) [] ∧
        rootOpens (validateVault editProvider.toCryptoProvider firstVault (editedRatchet 1))
          [editedField "a" "1"] ∧
        (∀ session, bothLoaded.sessions 0 = some session → rootOpens session.report []) ∧
        ∀ session, loadedAgain.sessions 1 = some session →
          rootOpens session.report [editedField "a" "1"] := by
    decide +kernel
  have hrun := (((bothLoaded_run _).edits 0 hsetA fun session hsession =>
      upToDate_of_opens setFieldA restsAt_edited.1 hbefore (hfirst session hsession)).opens 1
    hloads).edits 1 hsetB fun session hsession =>
      upToDate_of_opens setFieldB restsAt_edited.2.1 hafter (hsecond session hsession)
  obtain ⟨contents, hfinds, -, hedits, hrest⟩ := edits_kept collisionFree_editEnvelopes
    roundTrips_fieldSeal (by rintro _ rfl _ rfl; exact unwraps_root) cachesGenuine_editStart
    (rootFinds_fields restsAt_editStart hbefore) (fun _ => rfl) hrun
  exact ⟨contents, hfinds, hedits [] setFieldA [setFieldB] rfl (by simp [Untouched, apart]),
    hedits [setFieldA] setFieldB [] rfl (by simp [Untouched]),
    hrest .primary (by simp [Untouched, setFieldA, setFieldB, SecretEdit.effect])⟩

/-- Without that load, the second edit succeeds as well, and the first is gone. -/
theorem not_edits_kept :
    EditRun anyEdit [setFieldA, setFieldB] firstLost ∧ setFieldB.effect.part ≠ setFieldA.effect.part ∧
      ∃ contents, RootFinds firstLost.disk contents ∧ contents (.field "a") = ∅ ∧
        contents (.field "b") = {asciiBytes "2"} := by
  have hopens : rootOpens (validateVault editProvider.toCryptoProvider lostVault (editedRatchet 2))
      [editedField "b" "2"] := by decide +kernel
  obtain ⟨-, -, -, hsetA, -, hsetB⟩ := edits_succeed
  refine ⟨((bothLoaded_run _).edits 0 hsetA fun _ _ => trivial).edits 1 hsetB fun _ _ => trivial,
    apart, _, rootFinds_fields restsAt_edited.2.2 hopens, ?_, ?_⟩
  · ext bytes
    simp [SecretValueV1.parts, fieldsValue, editedField]
  · ext bytes
    simp [SecretValueV1.parts, fieldsValue, editedField]

end Example

end Thorax
