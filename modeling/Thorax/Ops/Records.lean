import Thorax.Merge
import Thorax.Ops.Session

/-!
# Records and their commit

How a mutation of one record is made: the record is built against the state before it and the next
counter, signed, appended to the vault, and looked for in the state after it.
-/

namespace Thorax

open Collections Durable

/-- An identity that can sign records, under the domain `thorax.signed.v1`. -/
structure RecordSigner where
  userId : UserId
  signingPublicKey : Bytes
  hpkePublicKey : Bytes
  sign : Bytes → Bytes

/-- The records of a vault are a set: a record that is there is not added again. -/
def VaultStore.appendRecord : VaultStore → VaultRecordV1 → VaultStore
  | .v1 store, signed =>
    .v1 ⟨if signed ∈ store.records then store.records else store.records ++ [signed]⟩

/-! ### Building records -/

namespace Hazmat

variable (crypto : CryptoProvider)

def ensureIdentityConsistent (signer : RecordSigner) : Except HazmatError UserId :=
  let derived := deriveUserId crypto signer.signingPublicKey signer.hpkePublicKey
  if derived = signer.userId then .ok derived
  else .error (.invalidSignerIdentity signer.userId derived)

/-- The envelope carries the key the signature verifies under, and no claim to an identity. -/
def signedPayload (signer : RecordSigner) (body : RecordBodyV1) :
    Except HazmatError VaultRecordV1 := do
  let _ ← ensureIdentityConsistent crypto signer
  let unsigned : VaultRecordV1 := ⟨.known body, signer.signingPublicKey, []⟩
  .ok { unsigned with signature := signer.sign (signedRecordMessage crypto unsigned) }

def secretRecord (signer : RecordSigner) (selector : SecretSelectorV1) (payload : SealedPayloadV1)
    (counter : ℕ) : Except HazmatError VaultRecordV1 :=
  signedPayload crypto signer
    (.secret ⟨deriveSecretId crypto selector, selector, payload, counter⟩)

def secretDeletedRecord (signer : RecordSigner) (selector : SecretSelectorV1) (counter : ℕ) :
    Except HazmatError VaultRecordV1 :=
  signedPayload crypto signer (.secretDeleted ⟨deriveSecretId crypto selector, selector, counter⟩)

end Hazmat

/-! ### Commits of one record -/

/-- A mutation of one record: how it is built at a counter, and a check of the state after it,
which is told the hash of the record. -/
structure RecordChange (α : Type) where
  build : ValidationReport → ℕ → Except OpsError (VaultRecordV1 × α)
  effective : α → HashValue → ValidationReport → Except OpsError Unit

/-- The mutation of the vault: build at a counter above the clock and above every suspected
rollback, then append. -/
def RecordChange.toChange {α : Type} (crypto : CryptoProvider) (self : RecordChange α) :
    Change (α × HashValue) where
  update vault report := do
    let counter ← commitCounter report.effective
    let (signed, output) ← self.build report counter
    .ok (vault.appendRecord signed, output, recordHash crypto signed)
  check output report := self.effective output.1 output.2 report

def commitRecord {α : Type} (provider : StoreProvider) (contended : Bool) (transactionId : Bytes)
    (change : RecordChange α) : SessionProgram α := do
  let (output, _) ← commit provider contended transactionId
    (change.toChange provider.toCryptoProvider)
  pure output

/-- A mutation of several records in one commit: how they are built, and a check of the state after
it. -/
structure BatchChange (α : Type) where
  build : ValidationReport → Except OpsError (List VaultRecordV1 × α)
  effective : α → ValidationReport → Except OpsError Unit

def BatchChange.toChange {α : Type} (self : BatchChange α) : Change α where
  update vault report := do
    let (records, output) ← self.build report
    .ok (records.foldl VaultStore.appendRecord vault, output)
  check := self.effective

/-- A mutation of one record is a batch of one. -/
def RecordChange.toBatch {α : Type} (crypto : CryptoProvider) (self : RecordChange α) :
    BatchChange (α × HashValue) where
  build report := do
    let counter ← commitCounter report.effective
    let (signed, output) ← self.build report counter
    .ok ([signed], output, recordHash crypto signed)
  effective output report := self.effective output.1 output.2 report

/-! ### What they do -/

section Records

variable {crypto : CryptoProvider} {vault : VaultStore} {signed : VaultRecordV1}

@[simp] lemma VaultStore.formatVersion_appendRecord :
    (vault.appendRecord signed).formatVersion = vault.formatVersion := by
  cases vault
  rfl

lemma VaultStore.records_appendRecord : (vault.appendRecord signed).records =
    if signed ∈ vault.records then vault.records else vault.records ++ [signed] := by
  cases vault
  rfl

@[simp] lemma VaultStore.mem_appendRecord {other : VaultRecordV1} :
    other ∈ (vault.appendRecord signed).records ↔ other ∈ vault.records ∨ other = signed := by
  rw [VaultStore.records_appendRecord]
  split_ifs with h
  · rw [iff_self_or]
    rintro rfl
    exact h
  · rw [List.mem_append, List.mem_singleton]

/-- A signer whose signatures verify, and whose identifier commits to its keys. -/
structure RecordSigner.Genuine (crypto : CryptoProvider) (signer : RecordSigner) : Prop where
  verifies : ∀ message,
    crypto.verifySignature signer.signingPublicKey message (signer.sign message) = true
  consistent : signer.userId = deriveUserId crypto signer.signingPublicKey signer.hpkePublicKey

namespace Hazmat

variable {signer : RecordSigner} {body : RecordBodyV1}

lemma signedPayload_eq_ok : signedPayload crypto signer body = .ok signed ↔
    deriveUserId crypto signer.signingPublicKey signer.hpkePublicKey = signer.userId ∧
      signed = ⟨.known body, signer.signingPublicKey,
        signer.sign (crypto.serialize (.body (.known body)))⟩ := by
  simp only [signedPayload, ensureIdentityConsistent]
  split_ifs with h <;> simp [bind, Except.bind, h, signedRecordMessage, eq_comm]

/-- The envelope a signer makes of a body. -/
lemma body_of_signedPayload (h : signedPayload crypto signer body = .ok signed) :
    signed.body = .known body ∧ signed.signingPublicKey = signer.signingPublicKey := by
  obtain ⟨-, rfl⟩ := signedPayload_eq_ok.mp h
  exact ⟨rfl, rfl⟩

lemma verifies_of_signedPayload (hsigner : signer.Genuine crypto)
    (h : signedPayload crypto signer body = .ok signed) :
    verifiesEnvelope crypto signed = true := by
  obtain ⟨-, rfl⟩ := signedPayload_eq_ok.mp h
  exact hsigner.verifies _

/-- A genuine signer can sign any body. -/
lemma exists_signedPayload (hsigner : signer.Genuine crypto) (body : RecordBodyV1) :
    ∃ signed, signedPayload crypto signer body = .ok signed :=
  ⟨_, signedPayload_eq_ok.mpr ⟨hsigner.consistent.symm, rfl⟩⟩

end Hazmat

end Records

section Batches

variable {α : Type} {crypto : CryptoProvider}

lemma RecordChange.toChange_toBatch {change : RecordChange α} :
    (change.toBatch crypto).toChange = change.toChange crypto := by
  rw [BatchChange.toChange, RecordChange.toChange, RecordChange.toBatch, Change.mk.injEq]
  refine ⟨?_, rfl⟩
  funext vault report
  cases hcounter : commitCounter report.effective with
  | error e => simp [bind, Except.bind, hcounter]
  | ok counter =>
    cases hbuild : change.build report counter with
    | error e => simp [bind, Except.bind, hcounter, hbuild]
    | ok built => simp [bind, Except.bind, hcounter, hbuild]

end Batches

/-! ### What a commit starts from -/

section Commits

variable {provider : StoreProvider} {disk : Disk} {session : LockedSession} {α : Type}

/-- The session that a commit works on: as it is refreshed under the locks or, where nothing is
written yet, as it is. -/
inductive StartsFrom (provider : StoreProvider) (disk : Disk) (session : LockedSession) :
    LockedSession → Prop
  | locked {session' : LockedSession} : session.persistence = .live →
      Refreshes provider disk session session' → StartsFrom provider disk session session'
  | prepared : session.persistence = .prepared → StartsFrom provider disk session session

lemma StartsFrom.unique {session' session'' : LockedSession}
    (h : StartsFrom provider disk session session')
    (h' : StartsFrom provider disk session session'') : session' = session'' := by
  cases h with
  | locked hlive hrefreshes =>
    cases h' with
    | locked _ hrefreshes' => exact hrefreshes.unique hrefreshes'
    | prepared hprepared => simp [hlive] at hprepared
  | prepared hprepared =>
    cases h' with
    | locked hlive _ => simp [hlive] at hprepared
    | prepared _ => rfl

/-- A commit that succeeds leaves the session at the projection of what it started from. -/
lemma startsFrom_of_commit {contended : Bool} {transactionId : Bytes} {change : Change α}
    {output : α}
    (h : (commit provider contended transactionId change (disk, session)).result = .ok output) :
    ∃ session' next, StartsFrom provider disk session session' ∧
      project provider session' change = .ok next ∧ next.output = output ∧
      (commit provider contended transactionId change (disk, session)).last.2.vault = next.vault ∧
      (commit provider contended transactionId change (disk, session)).last.2.report =
        next.report := by
  have hmeets : (commit provider contended transactionId change).Meets (disk, session)
      (fun _ => True) fun result state => ∀ output, result = .ok output →
        ∃ session' next, StartsFrom provider disk session session' ∧
          project provider session' change = .ok next ∧ next.output = output ∧
          state.2.vault = next.vault ∧ state.2.report = next.report := by
    cases hpersistence : session.persistence with
    | prepared =>
      refine meets_commit_prepared hpersistence (by simp) fun next hproject output houtput => ?_
      exact ⟨session, next, .prepared hpersistence, hproject, Except.ok.inj houtput, rfl, rfl⟩
    | live =>
      refine meets_commit hpersistence (by simp) (by simp) ?_
      intro session' next _ _ _ _ _ hfresh _ hproject _
      refine (Program.meets_leaves _ _).mono (by simp) fun result disk' _ => ?_
      cases result with
      | error e => simp
      | ok done =>
        intro output houtput
        exact ⟨session', next, .locked hpersistence hfresh, hproject, Except.ok.inj houtput, rfl,
          rfl⟩
  exact hmeets.result output h

end Commits

end Thorax
