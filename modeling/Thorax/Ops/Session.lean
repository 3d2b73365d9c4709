import Thorax.Ops.Transaction

/-!
# Sessions

A session is a vault and its local state, read, decoded and validated once. Reads borrow it;
mutations take the locks, look at the disk again, validate the state after the mutation and leave
the session at it. A session operation runs on the disk together with the session; only the disk
survives a crash.
-/

namespace Thorax

open Collections Durable

inductive PersistenceMode where
  | live
  | prepared
  deriving DecidableEq

/-- How the signature checks of a session are vouched for: by the process itself, or by a cache
that some key has signed. -/
inductive Verifications where
  | direct
  | cached (signer : Bytes)
  deriving DecidableEq

structure LockedSession where
  paths : WorkspacePaths
  vault : VaultStore
  vaultBytes : Bytes
  ratchet : Ratchet
  report : ValidationReport
  verifications : Verifications
  pendingTransaction : Option PendingTransaction
  recoveredTransaction : Bool
  persistence : PersistenceMode

/-- An identity whose key is at hand, by its public keys and what it signs caches with. -/
structure Identity where
  signingPublicKey : Bytes
  hpkePublicKey : Bytes
  signCache : Bytes → Bytes

def Identity.userId (crypto : CryptoProvider) (self : Identity) : UserId :=
  deriveUserId crypto self.signingPublicKey self.hpkePublicKey

abbrev SessionProgram (α : Type) := Program (Disk × LockedSession) OpsError α

/-- An operation on the disk within a session operation. -/
def onDisk {α : Type} (program : Program Disk OpsError α) : SessionProgram α :=
  program.zoom Prod.fst (fun disk state => (disk, state.2)) id

/-- Change the session. -/
def update (change : LockedSession → LockedSession) : SessionProgram Unit :=
  .modify fun state => (state.1, change state.2)

/-- The session as it stands. -/
def current : SessionProgram LockedSession := .read fun state => .ok state.2

section Steps

variable {α β : Type} {state : Disk × LockedSession} {P : Disk × LockedSession → Prop}
  {next : α → SessionProgram β}

lemma stays_onDisk {program : Program Disk OpsError α}
    (h : program.Stays (fun disk => P (disk, state.2)) state.1) :
    (onDisk program).Stays P state :=
  Program.stays_zoom h

/-- The session is at hand. -/
lemma stays_current_bind {next : LockedSession → SessionProgram β}
    (h : (next state.2).Stays P state) : (current >>= next).Stays P state := by
  rw [Program.Stays, Program.meets_bind, current, Program.meets_read]
  exact h

/-- A value that is read from the disk is handed on. -/
lemma stays_onDisk_read_bind {reader : Disk → Except OpsError α} (hs : P state)
    (hnext : ∀ value, reader state.1 = .ok value → (next value).Stays P state) :
    (onDisk (.read reader) >>= next).Stays P state := by
  rw [Program.Stays, Program.meets_bind, onDisk, Program.meets_zoom, Program.meets_read]
  cases hread : reader state.1 with
  | error e => exact hs
  | ok value => exact hnext value hread

end Steps

def ensureNoIssues (report : ValidationReport) : Except OpsError Unit :=
  if report.issues = [] then .ok () else .error (.validationFailed report.issues)

/-- A lock that is held for longer than the caller waits. -/
def acquireRootStateLock (contended : Bool) (root : HashValue) : Program Disk OpsError Unit :=
  .ensure (!contended) (.store (.lockAlreadyHeld root))

section Sessions

variable (provider : StoreProvider)

/-! ### Loading -/

/-- The cache of the selected user, if its own key has signed it for this root and format. -/
def readTrustedCache (vault : VaultStore) (root : HashValue) (disk : Disk) :
    Option VerificationCacheV1 := do
  let user ← (disk.roots root).currentUser
  let cache ← readVerificationCache provider root user disk
  if cache.trustedRoot ≠ root ∨ cache.formatVersion ≠ vault.formatVersion then none
  else
    let message := provider.verificationCacheMessage cache.trustedRoot cache.formatVersion
      cache.verifiedRecordHashes
    if provider.verifyCacheSignature cache.signingPublicKey message cache.signature then some cache
    else none

/-- The root of the vault that is there when a load begins. -/
def loadRoot (paths : WorkspacePaths) (disk : Disk) : Except OpsError HashValue := do
  let vaultBytes ← (readVaultBytes paths disk).mapError .store
  let vault ← (decodeVaultAt provider (.vault paths.vaultPath) vaultBytes).mapError .store
  trustedRootCandidate provider.toCryptoProvider vault

/-- The part of a load under the shared lock: read both files and validate. -/
def loadSnapshot (paths : WorkspacePaths) (root : HashValue) (recovery : RecoveryDisposition)
    (disk : Disk) : Except OpsError LockedSession := do
  let vaultBytes ← (readVaultBytes paths disk).mapError .store
  let vault ← (decodeVaultAt provider (.vault paths.vaultPath) vaultBytes).mapError .store
  let (ratchet, pendingTransaction) ← readStrongestRatchet provider paths root disk
  let (verified, verifications) := match readTrustedCache provider vault root disk with
    | some cache => (cache.verifiedRecordHashes, Verifications.cached cache.signingPublicKey)
    | none => (∅, Verifications.direct)
  .ok { paths := paths
        vault := vault
        vaultBytes := vaultBytes
        ratchet := ratchet
        report := validateVaultWithVerified provider.toCryptoProvider vault ratchet verified
        verifications := verifications
        pendingTransaction := pendingTransaction
        recoveredTransaction := recovery = .recovered
        persistence := .live }

/-- Remember in memory what a report has raised. -/
def LockedSession.remember (session : LockedSession) : LockedSession :=
  { session with ratchet := session.ratchet.applyUpdate session.report.ratchetUpdate }

/-- Remember what a clean report has raised, on disk too unless a journal is pending or the lock
cannot be had. The ratchet is read again, since others may have raised it meanwhile. -/
def absorbCleanTrustRaises (contended : Bool) : SessionProgram Unit := do
  let session ← current
  if session.report.issues ≠ [] ∨ session.report.ratchetUpdate.raisedWatermarks.isEmpty then pure ()
  else
    update LockedSession.remember
    if session.pendingTransaction.isSome ∨ contended then pure ()
    else
      let root := session.ratchet.trustedRoot
      onDisk (ensureNoPendingTransaction provider root)
      let found ← onDisk (readStore (readRatchetForRoot provider root))
      let raised := (found.getD (.new root)).applyUpdate session.report.ratchetUpdate
      onDisk (liftStore (writeRatchetAtomic provider raised))
      update fun session => { session with ratchet := raised }

/-- A load that nothing interleaves with. -/
def load (contended : Bool) (paths : WorkspacePaths) : Program Disk OpsError LockedSession := do
  let root ← .read (loadRoot provider paths)
  let recovery ← recoverForRoot provider paths root
  let session ← .read (loadSnapshot provider paths root recovery)
  let (_, session) ← (absorbCleanTrustRaises provider contended).carry session
  pure session

/-! ### Reloading -/

/-- Look at the disk again; if the vault or the ratchet differs, validate anew. Envelopes that the
session has accepted before are not verified again. -/
def reloadIfStale : SessionProgram Bool := do
  let session ← current
  let root := session.ratchet.trustedRoot
  let vaultBytes ← onDisk (readStore (readVaultBytes session.paths))
  let (ratchet, pendingTransaction) ←
    onDisk (.read (readStrongestRatchet provider session.paths root))
  if vaultBytes = session.vaultBytes ∧ ratchet = session.ratchet then
    update fun session => { session with pendingTransaction := pendingTransaction }
    pure false
  else
    let vault ← onDisk (check ((decodeVaultAt provider (.vault session.paths.vaultPath)
      vaultBytes).mapError .store))
    let rereadRoot ← onDisk (check (trustedRootCandidate provider.toCryptoProvider vault))
    .ensure (rereadRoot = root) (.store (.trustRootMismatch rereadRoot root))
    let verified := session.report.effective.verifiedRecordHashes
    let report := validateVaultWithVerified provider.toCryptoProvider vault ratchet verified
    update fun session =>
      { session with
        vault := vault
        vaultBytes := vaultBytes
        ratchet := ratchet
        report := report
        pendingTransaction := pendingTransaction }
    pure true

/-! ### Committing -/

/-- A mutation: the vault it makes of the one before it, and a check of the state after it. -/
structure Change (α : Type) where
  update : VaultStore → ValidationReport → Except OpsError (VaultStore × α)
  check : α → ValidationReport → Except OpsError Unit

/-- The state after a mutation. -/
structure Projection (α : Type) where
  vault : VaultStore
  vaultBytes : Bytes
  ratchet : Ratchet
  report : ValidationReport
  output : α

/-- Apply a mutation to what a session shows, and validate the result. -/
def project {α : Type} (session : LockedSession) (change : Change α) :
    Except OpsError (Projection α) := do
  ensureNoIssues session.report
  let remembered := session.ratchet.applyUpdate session.report.ratchetUpdate
  let (vault, output) ← change.update session.vault session.report
  let verified := session.report.effective.verifiedRecordHashes
  let report := validateVaultWithVerified provider.toCryptoProvider vault remembered verified
  ensureNoIssues report
  change.check output report
  let vaultBytes ← (encodeVault provider vault).mapError .core
  .ok ⟨vault, vaultBytes, remembered.applyUpdate report.ratchetUpdate, report, output⟩

/-- Bring a session to the state after a mutation. -/
def LockedSession.advance {α : Type} (session : LockedSession) (next : Projection α) :
    LockedSession :=
  { session with
    vault := next.vault
    vaultBytes := next.vaultBytes
    ratchet := next.ratchet
    report := next.report }

/-- A mutation in memory only. -/
def applyPreparedMutation {α : Type} (change : Change α) : SessionProgram α := do
  let session ← current
  let next ← onDisk (check (project provider session change))
  update fun session => session.advance next
  pure next.output

/-- Apply a mutation to the current state of the disk and write both files through the journal. -/
def commit {α : Type} (contended : Bool) (transactionId : Bytes) (change : Change α) :
    SessionProgram α := do
  let session ← current
  if session.persistence = .prepared then applyPreparedMutation provider change
  else
    let root := session.ratchet.trustedRoot
    onDisk (acquireRootStateLock contended root)
    onDisk (ensureNoPendingTransaction provider root)
    let _ ← reloadIfStale provider
    let session ← current
    onDisk (check (ensureNoIssues session.report))
    let expectedRatchetBytes ←
      onDisk (check ((encodeRatchet provider session.ratchet).mapError .store))
    let next ← onDisk (check (project provider session change))
    let nextRatchetBytes ← onDisk (check ((encodeRatchet provider next.ratchet).mapError .store))
    onDisk (commitAfterImages provider session.paths root transactionId "vault mutation"
      session.vaultBytes expectedRatchetBytes next.vaultBytes nextRatchetBytes)
    update fun session => { session.advance next with pendingTransaction := none }
    pure next.output

def LockedSession.preparedClone (session : LockedSession) : LockedSession :=
  { session with persistence := .prepared }

/-- Write the state a prepared session has reached, if the disk is still where it started. -/
def commitPrepared (contended : Bool) (transactionId : Bytes) (prepared : LockedSession)
    (operation : String) (expectedVaultBytes expectedRatchetBytes : Bytes) :
    SessionProgram Unit := do
  let session ← current
  let sessionRatchetBytes ← onDisk (check (
    if prepared.persistence ≠ .prepared ∨
        prepared.ratchet.trustedRoot ≠ session.ratchet.trustedRoot ∨
        session.vaultBytes ≠ expectedVaultBytes then
      .error (.transactionPreconditionChanged "prepared session")
    else (encodeRatchet provider session.ratchet).mapError .store))
  .ensure (sessionRatchetBytes = expectedRatchetBytes)
    (.transactionPreconditionChanged "prepared session")
  let root := session.ratchet.trustedRoot
  onDisk (acquireRootStateLock contended root)
  onDisk (ensureNoPendingTransaction provider root)
  let nextRatchetBytes ← onDisk (check ((encodeRatchet provider prepared.ratchet).mapError .store))
  onDisk (commitAfterImages provider session.paths root transactionId operation expectedVaultBytes
    expectedRatchetBytes prepared.vaultBytes nextRatchetBytes)
  update fun _ => { prepared with persistence := .live }

/-- Replace the ratchet on purpose, as accepting a rollback does. -/
def rewriteRatchet (contended : Bool) (mutate : Ratchet → Ratchet) : SessionProgram Unit := do
  let session ← current
  let root := session.ratchet.trustedRoot
  onDisk (acquireRootStateLock contended root)
  onDisk (ensureNoPendingTransaction provider root)
  let _ ← reloadIfStale provider
  let found ← onDisk (readStore (readRatchetForRoot provider root))
  let trust := mutate (found.getD (.new root))
  onDisk (liftStore (writeRatchetAtomic provider trust))
  update fun session =>
    { session with
      report := validateVaultWithVerified provider.toCryptoProvider session.vault trust
        session.report.effective.verifiedRecordHashes
      ratchet := trust }

/-! ### Possession -/

/-- The cache an identity signs for what a session has verified. -/
def LockedSession.verificationCache (session : LockedSession) (identity : Identity) :
    VerificationCacheV1 :=
  let hashes := session.report.effective.verifiedRecordHashes
  { trustedRoot := session.ratchet.trustedRoot
    formatVersion := session.vault.formatVersion
    verifiedRecordHashes := hashes
    signingPublicKey := identity.signingPublicKey
    signature := identity.signCache (provider.verificationCacheMessage session.ratchet.trustedRoot
      session.vault.formatVersion hashes) }

def writeVerificationCache (session : LockedSession) (identity : Identity) :
    Program Disk OpsError Unit :=
  liftStore (writeVerificationCacheAtomic provider (identity.userId provider.toCryptoProvider)
    (session.verificationCache provider identity))

/-- Go on whether a program succeeds or fails. -/
def bestEffort (program : Program Disk OpsError Unit) : Program Disk OpsError Unit := fun disk =>
  ⟨(program disk).passed, (program disk).last, .ok ()⟩

/-- Verify everything directly unless the cache the session leaned on was signed by this identity;
then sign what has been verified. -/
def attestVerifications (identity : Identity) : SessionProgram Unit := do
  let session ← current
  let foreign := match session.verifications with
    | .cached signer => decide (signer ≠ identity.signingPublicKey)
    | .direct => false
  let session := if foreign then
      { session with
        report := validateVaultWithVerified provider.toCryptoProvider session.vault session.ratchet ∅
        verifications := .direct }
    else session
  update fun _ => session
  onDisk (check (if foreign then ensureNoIssues session.report else .ok ()))
  if session.report.issues = [] then
    onDisk (bestEffort (writeVerificationCache provider session identity))
    update fun session => { session with verifications := .direct }
  else pure ()

/-- The identity must be an effective user of a vault without issues. -/
def ensureMember (session : LockedSession) (userId : UserId) : Except OpsError Unit :=
  if session.report.issues = [] ∧ session.report.effective.users.contains userId = false then
    .error (.notAVaultMember userId)
  else .ok ()

/-- Bind a session to an identity at hand. -/
def withIdentity (identity : Identity) : SessionProgram Unit := do
  let session ← current
  onDisk (check (ensureNoIssues session.report))
  attestVerifications provider identity
  let session ← current
  onDisk (check (ensureNoIssues session.report))
  onDisk (check (ensureMember session (identity.userId provider.toCryptoProvider)))

end Sessions

/-! ### What the session operations do -/

section SessionLemmas

variable {provider : StoreProvider} {disk : Disk} {session : LockedSession} {α : Type}

lemma ensureNoIssues_eq_ok {report : ValidationReport} {done : Unit} :
    ensureNoIssues report = .ok done ↔ report.issues = [] := by
  unfold ensureNoIssues
  split_ifs with h <;> simp [h]

/-- What a reload makes of a session: the session as it is, if the disk agrees with it, or the
session at what the disk holds. -/
inductive Refreshes (provider : StoreProvider) (disk : Disk) (session : LockedSession) :
    LockedSession → Prop
  | same {pending : Option PendingTransaction} :
      readVaultBytes session.paths disk = .ok session.vaultBytes →
      readStrongestRatchet provider session.paths session.ratchet.trustedRoot disk =
        .ok (session.ratchet, pending) →
      Refreshes provider disk session { session with pendingTransaction := pending }
  | reload {vaultBytes : Bytes} {vault : VaultStore} {ratchet : Ratchet}
      {pending : Option PendingTransaction} :
      readVaultBytes session.paths disk = .ok vaultBytes →
      decodeVault provider vaultBytes = .ok vault →
      trustedRootCandidate provider.toCryptoProvider vault = .ok session.ratchet.trustedRoot →
      readStrongestRatchet provider session.paths session.ratchet.trustedRoot disk =
        .ok (ratchet, pending) →
      ¬ (vaultBytes = session.vaultBytes ∧ ratchet = session.ratchet) →
      Refreshes provider disk session
        { session with
          vault := vault
          vaultBytes := vaultBytes
          ratchet := ratchet
          report := validateVaultWithVerified provider.toCryptoProvider vault ratchet
            session.report.effective.verifiedRecordHashes
          pendingTransaction := pending }

lemma Refreshes.persistence {session' : LockedSession} (h : Refreshes provider disk session session') :
    session'.persistence = session.persistence := by
  cases h <;> rfl

lemma Refreshes.trustedRoot {session' : LockedSession} (h : Refreshes provider disk session session') :
    session'.ratchet.trustedRoot = session.ratchet.trustedRoot := by
  cases h with
  | same hbytes hratchet => rfl
  | reload hbytes hvault hroot hratchet hstale =>
    exact trustedRoot_of_readStrongestRatchet hratchet

/-- A reload changes nothing on disk. -/
lemma meets_reloadIfStale {crash : Disk × LockedSession → Prop}
    {post : Except OpsError Bool → Disk × LockedSession → Prop}
    (herror : ∀ e, post (.error e) (disk, session))
    (hok : ∀ stale session', Refreshes provider disk session session' →
      post (.ok stale) (disk, session')) :
    (reloadIfStale provider).Meets (disk, session) crash post := by
  simp only [reloadIfStale, current, onDisk, Program.meets_bind, Program.meets_read,
    Program.meets_zoom, meets_readStore]
  cases hbytes : readVaultBytes session.paths disk with
  | error e => exact herror _
  | ok vaultBytes =>
    simp only [mapError_ok]
    cases hratchet : readStrongestRatchet provider session.paths session.ratchet.trustedRoot disk with
    | error e => exact herror _
    | ok found =>
      obtain ⟨ratchet, pending⟩ := found
      simp only [mapError_ok]
      by_cases hstale : vaultBytes = session.vaultBytes ∧ ratchet = session.ratchet
      · obtain ⟨rfl, rfl⟩ := hstale
        simp only [and_self, if_true, Program.meets_bind, update, Program.meets_modify,
          Program.meets_pure]
        exact hok false _ (.same hbytes hratchet)
      · simp only [hstale, if_false, Program.meets_bind, Program.meets_zoom, meets_check]
        cases hvault : decodeVaultAt provider (.vault session.paths.vaultPath) vaultBytes with
        | error e => exact herror _
        | ok vault =>
          simp only [mapError_ok]
          cases hroot : trustedRootCandidate provider.toCryptoProvider vault with
          | error e => exact herror _
          | ok rereadRoot =>
            simp only [mapError_ok, Program.meets_ensure]
            by_cases hsameRoot : rereadRoot = session.ratchet.trustedRoot
            · subst hsameRoot
              simp only [decide_true, if_true, update, Program.meets_modify, Program.meets_pure]
              exact hok true _
                (.reload hbytes (decodeVaultAt_eq_ok.mp hvault) hroot hratchet hstale)
            · simp only [hsameRoot, decide_false, Bool.false_eq_true, if_false]
              exact herror _

/-- What a clean report has raised is remembered in memory, or on disk as well; only then the
session takes over the ratchet that was read again. -/
lemma meets_absorbCleanTrustRaises {contended : Bool} {crash : Disk × LockedSession → Prop}
    {post : Except OpsError Unit → Disk × LockedSession → Prop}
    (hquiet : session.report.issues ≠ [] ∨
        session.report.ratchetUpdate.raisedWatermarks.isEmpty = true →
      post (.ok ()) (disk, session))
    (hmemory : session.report.issues = [] →
      session.report.ratchetUpdate.raisedWatermarks.isEmpty = false →
      session.pendingTransaction.isSome = true ∨ contended = true →
      post (.ok ()) (disk, session.remember))
    (herror : ∀ e, post (.error e) (disk, session.remember))
    (hwrite : ∀ found raised bytes stored, session.report.issues = [] →
      session.report.ratchetUpdate.raisedWatermarks.isEmpty = false →
      session.pendingTransaction = none → contended = false →
      (disk.roots session.ratchet.trustedRoot).joinCommit = none →
      (disk.roots session.ratchet.trustedRoot).transaction = none →
      readRatchetForRoot provider session.ratchet.trustedRoot disk = .ok found →
      raised = (found.getD (.new session.ratchet.trustedRoot)).applyUpdate
        session.report.ratchetUpdate →
      HoldsRatchet provider raised.trustedRoot bytes stored → raised.StoredAs stored →
      crash (disk, session.remember) ∧ post (.ok ())
        (disk.setRatchet raised.trustedRoot bytes, { session.remember with ratchet := raised })) :
    (absorbCleanTrustRaises provider contended).Meets (disk, session) crash post := by
  simp only [absorbCleanTrustRaises, current, Program.meets_bind, Program.meets_read]
  by_cases hraises : session.report.issues ≠ [] ∨
      session.report.ratchetUpdate.raisedWatermarks.isEmpty = true
  · simp only [hraises, if_true, Program.meets_pure]
    exact hquiet hraises
  · simp only [hraises, if_false, Program.meets_bind, update, Program.meets_modify]
    obtain ⟨hissues, hraised⟩ := not_or.mp hraises
    rw [not_not] at hissues
    rw [Bool.not_eq_true] at hraised
    by_cases hlocal : session.pendingTransaction.isSome = true ∨ contended = true
    · simp only [hlocal, if_true, Program.meets_pure]
      exact hmemory hissues hraised hlocal
    · obtain ⟨hpending, hcontended⟩ := not_or.mp hlocal
      simp only [hlocal, if_false, Program.meets_bind, onDisk, Program.meets_zoom]
      apply meets_ensureNoPendingTransaction
      · exact fun e => herror _
      · intro hjoin hnone
        simp only [mapError_ok, meets_readStore]
        cases hfound : readRatchetForRoot provider session.ratchet.trustedRoot disk with
        | error e => exact herror _
        | ok found =>
          simp only [mapError_ok, meets_liftStore]
          apply meets_writeRatchet_of
          · intro bytes stored hholds hstored
            have hdone := hwrite found _ bytes stored hissues hraised (by simpa using hpending)
              (by simpa using hcontended) hjoin hnone hfound rfl hholds hstored
            exact ⟨hdone.1, Program.meets_modify.mpr hdone.2⟩
          · exact fun e => herror _

/-- A mutation is applied to a clean session, and what it makes is clean. -/
lemma project_eq_ok {change : Change α} {next : Projection α} :
    project provider session change = .ok next ↔
      session.report.issues = [] ∧
      ∃ vault output, change.update session.vault session.report = .ok (vault, output) ∧
        next.vault = vault ∧ next.output = output ∧
        next.report = validateVaultWithVerified provider.toCryptoProvider vault
          (session.ratchet.applyUpdate session.report.ratchetUpdate)
          session.report.effective.verifiedRecordHashes ∧
        next.report.issues = [] ∧ change.check output next.report = .ok () ∧
        encodeVault provider vault = .ok next.vaultBytes ∧
        next.ratchet = (session.ratchet.applyUpdate session.report.ratchetUpdate).applyUpdate
          next.report.ratchetUpdate := by
  simp only [project, bind_eq_ok, mapError_eq_ok, ensureNoIssues_eq_ok, Prod.exists]
  constructor
  · rintro ⟨_, hclean, vault, output, hupdate, _, hissues, _, hcheck, vaultBytes, hbytes, h⟩
    obtain rfl := Except.ok.inj h
    exact ⟨hclean, vault, output, hupdate, rfl, rfl, rfl, hissues, hcheck, hbytes, rfl⟩
  · rintro ⟨hclean, vault, output, hupdate, hvault, houtput, hreport, hissues, hcheck, hbytes, hratchet⟩
    refine ⟨(), hclean, vault, output, hupdate, (), hreport ▸ hissues, (), hreport ▸ hcheck,
      next.vaultBytes, hbytes, ?_⟩
    rw [← hreport, ← hratchet, ← hvault, ← houtput]

/-- A mutation keeps what the session remembers. -/
lemma keeps_of_project {change : Change α} {next : Projection α}
    (h : project provider session change = .ok next) : session.ratchet.Keeps next.ratchet := by
  obtain ⟨-, vault, output, -, -, -, -, -, -, -, hratchet⟩ := project_eq_ok.mp h
  rw [hratchet]
  exact (Ratchet.keeps_applyUpdate _ _).trans (Ratchet.keeps_applyUpdate _ _)

/-- A commit of a live session refreshes it under the lock, projects the mutation and hands the
journal both images. -/
lemma meets_commit {contended : Bool} {transactionId : Bytes} {change : Change α}
    {crash : Disk × LockedSession → Prop} {post : Except OpsError α → Disk × LockedSession → Prop}
    (hlive : session.persistence = .live) (herror : ∀ e, post (.error e) (disk, session))
    (hrefresh : ∀ session' e, Refreshes provider disk session session' →
      post (.error e) (disk, session'))
    (hcommit : ∀ session' next expectedRatchetBytes nextRatchetBytes, contended = false →
      (disk.roots session.ratchet.trustedRoot).joinCommit = none →
      (disk.roots session.ratchet.trustedRoot).transaction = none →
      Refreshes provider disk session session' →
      encodeRatchet provider session'.ratchet = .ok expectedRatchetBytes →
      project provider session' change = .ok next →
      encodeRatchet provider next.ratchet = .ok nextRatchetBytes →
      (commitAfterImages provider session'.paths session.ratchet.trustedRoot transactionId
        "vault mutation" session'.vaultBytes expectedRatchetBytes next.vaultBytes
        nextRatchetBytes).Meets disk (fun disk' => crash (disk', session')) fun result disk' =>
          match result with
          | .error e => post (.error e) (disk', session')
          | .ok _ => post (.ok next.output)
              (disk', { session'.advance next with pendingTransaction := none })) :
    (commit provider contended transactionId change).Meets (disk, session) crash post := by
  simp only [commit, current, Program.meets_bind, Program.meets_read, hlive, reduceCtorEq, if_false,
    onDisk, Program.meets_zoom, acquireRootStateLock, Program.meets_ensure]
  cases contended with
  | true => exact herror _
  | false =>
    simp only [Bool.not_false, if_true, mapError_ok]
    refine meets_ensureNoPendingTransaction (fun e => herror _) fun hjoin hnone => ?_
    simp only [mapError_ok]
    refine meets_reloadIfStale (fun e => herror _) fun stale session' hfresh => ?_
    simp only [meets_check]
    cases hclean : ensureNoIssues session'.report with
    | error e => exact hrefresh session' _ hfresh
    | ok _ =>
      simp only [mapError_ok]
      cases hexpected : encodeRatchet provider session'.ratchet with
      | error e => exact hrefresh session' _ hfresh
      | ok expectedRatchetBytes =>
        simp only [mapError_ok]
        cases hproject : project provider session' change with
        | error e => exact hrefresh session' _ hfresh
        | ok next =>
          simp only [mapError_ok]
          cases hnext : encodeRatchet provider next.ratchet with
          | error e => exact hrefresh session' _ hfresh
          | ok nextRatchetBytes =>
            simp only [mapError_ok]
            refine (hcommit session' next _ _ rfl hjoin hnone hfresh hexpected hproject hnext).mono
              (fun _ hd => hd) fun result disk' hd => ?_
            cases result with
            | error e => exact hd
            | ok _ =>
              simp only [mapError_ok, update, Program.meets_modify, Program.meets_pure]
              exact hd

/-- A mutation of a prepared session stays in memory. -/
lemma meets_commit_prepared {contended : Bool} {transactionId : Bytes} {change : Change α}
    {crash : Disk × LockedSession → Prop} {post : Except OpsError α → Disk × LockedSession → Prop}
    (hprepared : session.persistence = .prepared) (herror : ∀ e, post (.error e) (disk, session))
    (hok : ∀ next, project provider session change = .ok next →
      post (.ok next.output) (disk, session.advance next)) :
    (commit provider contended transactionId change).Meets (disk, session) crash post := by
  simp only [commit, applyPreparedMutation, current, Program.meets_bind, Program.meets_read,
    hprepared, if_true, onDisk, Program.meets_zoom, meets_check]
  cases hproject : project provider session change with
  | error e => exact herror _
  | ok next =>
    simp only [mapError_ok, update, Program.meets_modify, Program.meets_pure]
    exact hok next hproject

/-- A prepared commit hands the journal the images it was prepared with. -/
lemma meets_commitPrepared {contended : Bool} {transactionId : Bytes} {prepared : LockedSession}
    {operation : String} {expectedVaultBytes expectedRatchetBytes : Bytes}
    {crash : Disk × LockedSession → Prop} {post : Except OpsError Unit → Disk × LockedSession → Prop}
    (herror : ∀ e, post (.error e) (disk, session))
    (hcommit : ∀ nextRatchetBytes, prepared.persistence = .prepared →
      prepared.ratchet.trustedRoot = session.ratchet.trustedRoot →
      session.vaultBytes = expectedVaultBytes →
      encodeRatchet provider session.ratchet = .ok expectedRatchetBytes → contended = false →
      (disk.roots session.ratchet.trustedRoot).joinCommit = none →
      (disk.roots session.ratchet.trustedRoot).transaction = none →
      encodeRatchet provider prepared.ratchet = .ok nextRatchetBytes →
      (commitAfterImages provider session.paths session.ratchet.trustedRoot transactionId operation
        expectedVaultBytes expectedRatchetBytes prepared.vaultBytes nextRatchetBytes).Meets disk
          (fun disk' => crash (disk', session)) fun result disk' =>
            match result with
            | .error e => post (.error e) (disk', session)
            | .ok _ => post (.ok ()) (disk', { prepared with persistence := .live })) :
    (commitPrepared provider contended transactionId prepared operation expectedVaultBytes
      expectedRatchetBytes).Meets (disk, session) crash post := by
  simp only [commitPrepared, current, Program.meets_bind, Program.meets_read, onDisk,
    Program.meets_zoom, meets_check]
  by_cases hchanged : prepared.persistence ≠ .prepared ∨
      prepared.ratchet.trustedRoot ≠ session.ratchet.trustedRoot ∨
      session.vaultBytes ≠ expectedVaultBytes
  · simp only [hchanged, if_true]
    exact herror _
  · simp only [hchanged, if_false]
    push Not at hchanged
    obtain ⟨hprepared, hroot, hvault⟩ := hchanged
    cases hexpected : encodeRatchet provider session.ratchet with
    | error e => exact herror _
    | ok sessionRatchetBytes =>
      simp only [mapError_ok, Program.meets_ensure, acquireRootStateLock]
      by_cases hsame : sessionRatchetBytes = expectedRatchetBytes
      · subst hsame
        simp only [decide_true, if_true]
        cases contended with
        | true => exact herror _
        | false =>
          simp only [Bool.not_false, if_true]
          refine meets_ensureNoPendingTransaction (fun e => herror _) fun hjoin hnone => ?_
          simp only [mapError_ok]
          cases hnext : encodeRatchet provider prepared.ratchet with
          | error e => exact herror _
          | ok nextRatchetBytes =>
            simp only [mapError_ok]
            refine (hcommit _ hprepared hroot hvault hexpected rfl hjoin hnone hnext).mono
              (fun _ hd => hd) fun result disk' hd => ?_
            cases result with
            | error e => exact hd
            | ok _ =>
              simp only [mapError_ok, update, Program.meets_modify]
              exact hd
      · simp only [hsame, decide_false, Bool.false_eq_true, if_false]
        exact herror _

/-- A rewrite of the ratchet gets to its write: the lock is free, no journal is pending, the reload
succeeds, and the bytes of what becomes of the ratchet that is found fit. -/
structure Rewrites (provider : StoreProvider) (contended : Bool) (mutate : Ratchet → Ratchet)
    (disk : Disk) (session session' : LockedSession) (found : Option Ratchet) (bytes : Bytes) :
    Prop where
  locks : contended = false
  joinCommit : (disk.roots session.ratchet.trustedRoot).joinCommit = none
  transaction : (disk.roots session.ratchet.trustedRoot).transaction = none
  refreshes : Refreshes provider disk session session'
  reads : readRatchetForRoot provider session.ratchet.trustedRoot disk = .ok found
  encodes : encodeRatchet provider (mutate (found.getD (.new session.ratchet.trustedRoot))) = .ok bytes
  length : bytes.length ≤ maxRatchetBytes

/-- The session after a rewrite that left it with a ratchet. -/
def LockedSession.rewritten (provider : StoreProvider) (session : LockedSession) (trust : Ratchet) :
    LockedSession :=
  { session with
    report := validateVaultWithVerified provider.toCryptoProvider session.vault trust
      session.report.effective.verifiedRecordHashes
    ratchet := trust }

/-- A reload is determined by the disk and the session. -/
lemma Refreshes.unique {session' session'' : LockedSession}
    (h : Refreshes provider disk session session') (h' : Refreshes provider disk session session'') :
    session' = session'' := by
  cases h with
  | same hbytes hratchet =>
    cases h' with
    | same hbytes' hratchet' =>
      obtain ⟨-, rfl⟩ := Prod.ext_iff.mp (Except.ok.inj (hratchet.symm.trans hratchet'))
      rfl
    | reload hbytes' hvault hroot hratchet' hstale =>
      obtain ⟨rfl, -⟩ := Prod.ext_iff.mp (Except.ok.inj (hratchet.symm.trans hratchet'))
      exact absurd ⟨Except.ok.inj (hbytes'.symm.trans hbytes), rfl⟩ hstale
  | reload hbytes hvault hroot hratchet hstale =>
    cases h' with
    | same hbytes' hratchet' =>
      obtain ⟨rfl, -⟩ := Prod.ext_iff.mp (Except.ok.inj (hratchet.symm.trans hratchet'))
      exact absurd ⟨Except.ok.inj (hbytes.symm.trans hbytes'), rfl⟩ hstale
    | reload hbytes' hvault' hroot' hratchet' hstale' =>
      obtain rfl := Except.ok.inj (hbytes.symm.trans hbytes')
      obtain rfl := Except.ok.inj (hvault.symm.trans hvault')
      obtain ⟨rfl, rfl⟩ := Prod.ext_iff.mp (Except.ok.inj (hratchet.symm.trans hratchet'))
      rfl

/-- A reload that can succeed does. -/
lemma Refreshes.meets_reloadIfStale {session' : LockedSession}
    (h : Refreshes provider disk session session') {crash : Disk × LockedSession → Prop}
    {post : Except OpsError Bool → Disk × LockedSession → Prop}
    (hpost : ∀ stale, post (.ok stale) (disk, session')) :
    (reloadIfStale provider).Meets (disk, session) crash post := by
  simp only [reloadIfStale, current, onDisk, Program.meets_bind, Program.meets_read,
    Program.meets_zoom, meets_readStore]
  cases h with
  | same hbytes hratchet =>
    simp only [hbytes, hratchet, mapError_ok, and_self, if_true, Program.meets_bind, update,
      Program.meets_modify, Program.meets_pure]
    exact hpost false
  | reload hbytes hvault hroot hratchet hstale =>
    simp only [hbytes, hratchet, mapError_ok, hstale, if_false, Program.meets_bind,
      Program.meets_zoom, meets_check, decodeVaultAt_eq_ok.mpr hvault, hroot, Program.meets_ensure,
      decide_true, if_true, update, Program.meets_modify, Program.meets_pure]
    exact hpost true

/-- What a rewrite gets to is determined by the disk and the session. -/
lemma Rewrites.unique {contended : Bool} {mutate : Ratchet → Ratchet}
    {session' session'' : LockedSession} {found found' : Option Ratchet} {bytes bytes' : Bytes}
    (h : Rewrites provider contended mutate disk session session' found bytes)
    (h' : Rewrites provider contended mutate disk session session'' found' bytes') :
    session' = session'' ∧ found = found' ∧ bytes = bytes' := by
  obtain rfl := Except.ok.inj (h.reads.symm.trans h'.reads)
  exact ⟨h.refreshes.unique h'.refreshes, rfl, Except.ok.inj (h.encodes.symm.trans h'.encodes)⟩

/-- A rewrite that gets to its write leaves what it wrote, and validates under it. -/
lemma Rewrites.meets_rewriteRatchet {contended : Bool} {mutate : Ratchet → Ratchet}
    {session' : LockedSession} {found : Option Ratchet} {bytes : Bytes}
    (h : Rewrites provider contended mutate disk session session' found bytes)
    {crash : Disk × LockedSession → Prop} {post : Except OpsError Unit → Disk × LockedSession → Prop}
    (hcrash : crash (disk, session'))
    (hpost : post (.ok ())
      (disk.setRatchet (mutate (found.getD (.new session.ratchet.trustedRoot))).trustedRoot bytes,
        session'.rewritten provider (mutate (found.getD (.new session.ratchet.trustedRoot))))) :
    (rewriteRatchet provider contended mutate).Meets (disk, session) crash post := by
  obtain ⟨rfl, hjoin, hnone, hfresh, hfound, hbytes, hlen⟩ := h
  simp only [rewriteRatchet, current, Program.meets_bind, Program.meets_read, onDisk,
    Program.meets_zoom, acquireRootStateLock, Program.meets_ensure, Bool.not_false, if_true,
    mapError_ok]
  rw [meets_ensureNoPendingTransaction_of_none hjoin hnone]
  simp only [mapError_ok]
  refine hfresh.meets_reloadIfStale fun stale => ?_
  simp only [meets_readStore, hfound, mapError_ok, meets_liftStore]
  rw [meets_writeRatchet hbytes hlen]
  exact ⟨hcrash, Program.meets_modify.mpr hpost⟩

/-- Rewriting the ratchet writes and validates under what was written, or fails before the write. -/
lemma meets_rewriteRatchet {contended : Bool} {mutate : Ratchet → Ratchet}
    {crash : Disk × LockedSession → Prop} {post : Except OpsError Unit → Disk × LockedSession → Prop}
    (herror : ∀ e, post (.error e) (disk, session))
    (hrefresh : ∀ session' e, Refreshes provider disk session session' →
      post (.error e) (disk, session'))
    (hwrite : ∀ session' found bytes,
      Rewrites provider contended mutate disk session session' found bytes →
      crash (disk, session') ∧ post (.ok ())
        (disk.setRatchet (mutate (found.getD (.new session.ratchet.trustedRoot))).trustedRoot bytes,
          session'.rewritten provider (mutate (found.getD (.new session.ratchet.trustedRoot))))) :
    (rewriteRatchet provider contended mutate).Meets (disk, session) crash post := by
  by_cases h : ∃ session' found bytes,
      Rewrites provider contended mutate disk session session' found bytes
  · obtain ⟨session', found, bytes, h⟩ := h
    obtain ⟨hcrash, hpost⟩ := hwrite session' found bytes h
    exact h.meets_rewriteRatchet hcrash hpost
  · simp only [rewriteRatchet, current, Program.meets_bind, Program.meets_read, onDisk,
      Program.meets_zoom, acquireRootStateLock, Program.meets_ensure]
    cases contended with
    | true => exact herror _
    | false =>
      simp only [Bool.not_false, if_true, mapError_ok]
      refine meets_ensureNoPendingTransaction (fun e => herror _) fun hjoin hnone => ?_
      simp only [mapError_ok]
      refine Thorax.meets_reloadIfStale (fun e => herror _) fun stale session' hfresh => ?_
      simp only [meets_readStore]
      cases hfound : readRatchetForRoot provider session.ratchet.trustedRoot disk with
      | error e => exact hrefresh session' _ hfresh
      | ok found =>
        simp only [mapError_ok, meets_liftStore, writeRatchetAtomic, writeRatchetBytesAtomic,
          Program.meets_bind, Program.meets_read]
        cases hbytes : encodeRatchet provider
            (mutate (found.getD (.new session.ratchet.trustedRoot))) with
        | error e => exact hrefresh session' _ hfresh
        | ok bytes =>
          have hlen : ¬ bytes.length ≤ maxRatchetBytes := fun hlen =>
            h ⟨session', found, bytes, rfl, hjoin, hnone, hfresh, hfound, hbytes, hlen⟩
          simp only [hlen, decide_false, Program.meets_ensure, Bool.false_eq_true, if_false]
          exact hrefresh session' _ hfresh

lemma meets_bestEffort {program : Program Disk OpsError Unit} {crash : Disk → Prop}
    {post : Except OpsError Unit → Disk → Prop} :
    (bestEffort program).Meets disk crash post ↔
      program.Meets disk crash fun _ disk' => post (.ok ()) disk' := Iff.rfl

/-- The session after an attestation: verified directly unless the cache was the identity's own. -/
def LockedSession.attested (provider : StoreProvider) (session : LockedSession)
    (identity : Identity) : LockedSession :=
  if session.verifications = .direct ∨
      session.verifications = .cached identity.signingPublicKey then session
  else
    { session with
      report := validateVaultWithVerified provider.toCryptoProvider session.vault session.ratchet ∅
      verifications := .direct }

/-- An attestation leaves the attested session, and signs what it has verified if it is clean. -/
lemma meets_attestVerifications {identity : Identity} {crash : Disk × LockedSession → Prop}
    {post : Except OpsError Unit → Disk × LockedSession → Prop}
    (herror : ∀ e, (session.attested provider identity).report.issues ≠ [] →
      post (.error e) (disk, session.attested provider identity))
    (hissues : (session.attested provider identity).report.issues ≠ [] →
      post (.ok ()) (disk, session.attested provider identity))
    (hclean : (session.attested provider identity).report.issues = [] →
      (writeVerificationCache provider (session.attested provider identity) identity).Meets disk
        (fun disk' => crash (disk', session.attested provider identity)) fun _ disk' =>
          post (.ok ())
            (disk', { session.attested provider identity with verifications := .direct })) :
    (attestVerifications provider identity).Meets (disk, session) crash post := by
  simp only [attestVerifications, current, Program.meets_bind, Program.meets_read, update,
    Program.meets_modify, onDisk, Program.meets_zoom, meets_check]
  generalize hforeign : (match session.verifications with
    | .cached signer => decide (signer ≠ identity.signingPublicKey)
    | .direct => false) = foreign
  have hattested : session.attested provider identity = if foreign = true then
      { session with
        report := validateVaultWithVerified provider.toCryptoProvider session.vault session.ratchet ∅
        verifications := .direct }
      else session := by
    rw [← hforeign, LockedSession.attested]
    cases session.verifications with
    | direct => simp
    | cached signer => by_cases hsigner : signer = identity.signingPublicKey <;> simp [hsigner]
  rw [← hattested]
  by_cases hempty : (session.attested provider identity).report.issues = []
  · have hchecked : (if foreign = true then
        ensureNoIssues (session.attested provider identity).report else .ok ()) = .ok () := by
      split_ifs
      · exact ensureNoIssues_eq_ok.mpr hempty
      · rfl
    simp only [hchecked, mapError_ok, hempty, if_true, Program.meets_bind, Program.meets_zoom]
    rw [meets_bestEffort]
    refine (hclean hempty).mono (fun _ hd => hd) fun _ disk' hd => ?_
    exact Program.meets_modify.mpr hd
  · cases hchecked : (if foreign = true then
        ensureNoIssues (session.attested provider identity).report else .ok ()) with
    | error e => exact herror _ hempty
    | ok _ =>
      simp only [mapError_ok, hempty, if_false, Program.meets_pure]
      exact hissues hempty

/-- The sessions that mutations in memory lead to from a prepared copy of a session. -/
inductive PreparedFrom (provider : StoreProvider) (session : LockedSession) : LockedSession → Prop
  | clone : PreparedFrom provider session session.preparedClone
  | mutate {prepared : LockedSession} {α : Type} (change : Change α) {next : Projection α} :
      PreparedFrom provider session prepared → project provider prepared change = .ok next →
      PreparedFrom provider session (prepared.advance next)

/-- A prepared session keeps what the session it came from remembers. -/
lemma PreparedFrom.keeps {prepared : LockedSession} (h : PreparedFrom provider session prepared) :
    session.ratchet.Keeps prepared.ratchet := by
  induction h with
  | clone => exact .refl session.ratchet
  | mutate change hprepared hproject ih => exact ih.trans (keeps_of_project hproject)

end SessionLemmas

end Thorax
