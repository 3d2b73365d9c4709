import Thorax.Ops.Grounding
import Thorax.Properties.Rollback
import Thorax.TestStore

/-!
# Session coherence

Any number of processes share the vault files and the state of their roots. Each loads a session
and works with it; between the critical sections of one process the others take theirs. A session
is coherent when its report is the verdict on its own vault under its own ratchet. A load validates
under the shared lock, drops it, and takes over the ratchet it finds when it has the exclusive lock
to remember what it raised: if that is another ratchet than it validated under, the report no
longer describes the session.
-/

namespace Thorax

open Collections Durable

/-! ### Worlds -/

/-- What a process holds: nothing, a session whose load has validated but not yet remembered, or a
session it works with. -/
inductive Holding where
  | idle
  | loading (session : LockedSession)
  | opened (session : LockedSession)

/-- The disk and the processes. The vault files hold only the envelopes of the world. -/
structure World (provider : StoreProvider) (envelopes : Set VaultRecordV1) where
  disk : Disk
  holds : ℕ → Holding
  within : disk.Within envelopes provider

/-- What becomes of a process that runs an operation on its session. -/
inductive Performs {α : Type} (operation : SessionProgram α) (disk : Disk) (session : LockedSession) :
    Disk → Holding → Prop
  | ends : Performs operation disk session (operation (disk, session)).last.1
      (.opened (operation (disk, session)).last.2)
  | crashes {state : Disk × LockedSession} : state ∈ (operation (disk, session)).passed →
      Performs operation disk session state.1 .idle

/-- What becomes of a load that remembers what it raised. -/
inductive Remembering (operation : SessionProgram Unit) (disk : Disk) (session : LockedSession) :
    Disk → Holding → Prop
  | returns : (operation (disk, session)).result = .ok () →
      Remembering operation disk session (operation (disk, session)).last.1
        (.opened (operation (disk, session)).last.2)
  | fails {e : OpsError} : (operation (disk, session)).result = .error e →
      Remembering operation disk session (operation (disk, session)).last.1 .idle
  | crashes {state : Disk × LockedSession} : state ∈ (operation (disk, session)).passed →
      Remembering operation disk session state.1 .idle

section Steps

variable (provider : StoreProvider) (envelopes : Set VaultRecordV1)

/-- A mutation whose records are envelopes of the world. -/
def Change.Within {α : Type} (change : Change α) : Prop :=
  ∀ vault report result, change.update vault report = .ok result → vault.Within envelopes →
    result.1.Within envelopes

/-- One critical section of one process, or a change from elsewhere: of vault files, ratchets,
journals and selected users. Only attestations write caches. `admits` says which loads may
remember what they raised, in which state of the disk. -/
inductive WorldStep (admits : Bool → Disk → LockedSession → Prop) :
    World provider envelopes → World provider envelopes → Prop
  | elsewhere {world world' : World provider envelopes} :
      (∀ root user, (world'.disk.roots root).caches user = (world.disk.roots root).caches user) →
      world'.holds = world.holds → WorldStep admits world world'
  | snapshot {world world' : World provider envelopes} (i : ℕ) (paths : WorkspacePaths)
      (root : HashValue) (recovery : RecoveryDisposition) {session : LockedSession} :
      loadSnapshot provider paths root recovery world.disk = .ok session →
      world'.disk = world.disk →
      world'.holds = Function.update world.holds i (.loading session) → WorldStep admits world world'
  | remember {world world' : World provider envelopes} (i : ℕ) (contended : Bool)
      {session : LockedSession} {holding : Holding} :
      world.holds i = .loading session → admits contended world.disk session →
      Remembering (absorbCleanTrustRaises provider contended) world.disk session world'.disk
        holding →
      world'.holds = Function.update world.holds i holding → WorldStep admits world world'
  | reload {world world' : World provider envelopes} (i : ℕ) {session : LockedSession}
      {holding : Holding} :
      world.holds i = .opened session →
      Performs (reloadIfStale provider) world.disk session world'.disk holding →
      world'.holds = Function.update world.holds i holding → WorldStep admits world world'
  | commit {world world' : World provider envelopes} (i : ℕ) {α : Type} (contended : Bool)
      (transactionId : Bytes) (change : Change α) {session : LockedSession} {holding : Holding} :
      world.holds i = .opened session → change.Within envelopes →
      Performs (commit provider contended transactionId change) world.disk session world'.disk
        holding →
      world'.holds = Function.update world.holds i holding → WorldStep admits world world'
  | rewrite {world world' : World provider envelopes} (i : ℕ) (contended : Bool)
      (mutate : Ratchet → Ratchet) {session : LockedSession} {holding : Holding} :
      world.holds i = .opened session →
      Performs (rewriteRatchet provider contended mutate) world.disk session world'.disk holding →
      world'.holds = Function.update world.holds i holding → WorldStep admits world world'
  | attest {world world' : World provider envelopes} (i : ℕ) (identity : Identity)
      {session : LockedSession} {holding : Holding} :
      world.holds i = .opened session →
      Performs (attestVerifications provider identity) world.disk session world'.disk holding →
      world'.holds = Function.update world.holds i holding → WorldStep admits world world'

/-- Any interleaving of such steps. -/
abbrev WorldRun (admits : Bool → Disk → LockedSession → Prop) :
    World provider envelopes → World provider envelopes → Prop :=
  Relation.ReflTransGen (WorldStep provider envelopes admits)

/-- Whatever a load finds when it remembers. -/
def anyRatchet : Bool → Disk → LockedSession → Prop := fun _ _ _ => True

/-- A load that writes what it raised finds the ratchet it validated under. -/
def validatedRatchet : Bool → Disk → LockedSession → Prop := fun contended disk session =>
  contended = false → session.pendingTransaction = none → session.report.issues = [] →
    session.report.ratchetUpdate.raisedWatermarks.isEmpty = false →
    ∀ found, readRatchetForRoot provider session.ratchet.trustedRoot disk = .ok found →
      found.getD (.new session.ratchet.trustedRoot) = session.ratchet

/-- Every cache on disk lists hashes of genuine envelopes only. -/
def CachesGenuine (disk : Disk) : Prop :=
  ∀ root user cache, readVerificationCache provider root user disk = some cache →
    GenuineHashes provider.toCryptoProvider envelopes cache.verifiedRecordHashes

/-- The report is the verdict on the session's own vault under its own ratchet. -/
def LockedSession.Coherent (session : LockedSession) : Prop :=
  SameVerdict session.report
    (validateVault provider.toCryptoProvider session.vault session.ratchet)

/-- The session serves nothing below a watermark of the ratchet it carries. -/
def LockedSession.ServesAboveWatermarks (session : LockedSession) : Prop :=
  ∀ key remembered, session.ratchet.watermarks[key]? = some remembered →
    key ∉ session.report.effective.conflicted →
    ∀ counter, session.report.effective.Serves provider.toCryptoProvider key counter →
      remembered ≤ counter

end Steps

/-! ### What each step keeps -/

section Invariant

variable {provider : StoreProvider} {envelopes : Set VaultRecordV1} {disk disk' : Disk}
  {session session' : LockedSession} {holding : Holding}

/-- A session that is grounded and coherent. -/
structure LockedSession.Settled (provider : StoreProvider) (envelopes : Set VaultRecordV1)
    (session : LockedSession) : Prop where
  grounded : session.Grounded provider envelopes
  coherent : session.Coherent provider

/-- The invariant of worlds. -/
structure World.Sound (world : World provider envelopes) : Prop where
  caches : CachesGenuine provider envelopes world.disk
  loading : ∀ i session, world.holds i = .loading session →
    session.vault.Within envelopes ∧ session.report =
      validateVault provider.toCryptoProvider session.vault session.ratchet
  opened : ∀ i session, world.holds i = .opened session → session.Settled provider envelopes

lemma cachesGenuine_congr
    (h : ∀ root user, (disk'.roots root).caches user = (disk.roots root).caches user)
    (hcaches : CachesGenuine provider envelopes disk) : CachesGenuine provider envelopes disk' := by
  intro root user cache hread
  apply hcaches root user cache
  rw [readVerificationCache, ← h root user]
  exact hread

/-- Writes to one root's ratchet or journal leave all caches alone. -/
lemma caches_modifyRoot {root : HashValue} {change : RootState → RootState}
    (h : ∀ state, (change state).caches = state.caches) (root' : HashValue) :
    ((disk.modifyRoot root change).roots root').caches = (disk.roots root').caches := by
  by_cases hroot : root' = root
  · subst hroot
    rw [Disk.roots_modifyRoot, h]
  · rw [Disk.roots_modifyRoot_of_ne hroot]

lemma CachesGenuine.setRatchet (h : CachesGenuine provider envelopes disk) (root : HashValue)
    (bytes : Bytes) : CachesGenuine provider envelopes (disk.setRatchet root bytes) := by
  refine cachesGenuine_congr (fun root' user => ?_) h
  rw [Disk.setRatchet, caches_modifyRoot]
  exact fun _ => rfl

lemma survivesCommits_cachesGenuine (paths : WorkspacePaths) (root : HashValue) :
    SurvivesCommits paths root (CachesGenuine provider envelopes) where
  vault := fun _ _ h => cachesGenuine_congr (fun _ _ => rfl) h
  ratchet := fun _ bytes h => h.setRatchet root bytes
  transaction := by
    intro disk bytes h
    refine cachesGenuine_congr (fun root' user => ?_) h
    rw [Disk.setTransaction, caches_modifyRoot]
    exact fun _ => rfl

/-- A load reads a cache only if it lists genuine envelopes, so its report checks every
signature. -/
lemma report_of_loadSnapshot (hidentify : HashesIdentify provider.toCryptoProvider envelopes)
    (hdisk : disk.Within envelopes provider) (hcaches : CachesGenuine provider envelopes disk)
    {paths : WorkspacePaths} {root : HashValue} {recovery : RecoveryDisposition}
    (h : loadSnapshot provider paths root recovery disk = .ok session) :
    session.vault.Within envelopes ∧ session.report =
      validateVault provider.toCryptoProvider session.vault session.ratchet := by
  simp only [loadSnapshot, bind_eq_ok, mapError_eq_ok, decodeVaultAt_eq_ok, Prod.exists] at h
  obtain ⟨vaultBytes, hbytes, vault, hvault, ratchet, pending, hratchet, h⟩ := h
  have hwithin := hdisk _ _ _ (readVaultBytes_eq_ok.mp hbytes).1 hvault
  obtain rfl := Except.ok.inj h
  refine ⟨hwithin, ?_⟩
  cases hcache : readTrustedCache provider vault root disk with
  | none => rfl
  | some cache =>
    have hread : ∃ user, readVerificationCache provider root user disk = some cache := by
      simp only [readTrustedCache, Option.bind_eq_bind, Option.bind_eq_some_iff] at hcache
      obtain ⟨user, -, found, hfound, hcache⟩ := hcache
      split_ifs at hcache
      obtain rfl := Option.some.inj hcache
      exact ⟨user, hfound⟩
    obtain ⟨user, hread⟩ := hread
    exact validateVaultWithVerified_of_genuineHashes hidentify (hcaches root user cache hread)
      hwithin ratchet

/-- A refreshed session is coherent. -/
lemma Refreshes.settled (hidentify : HashesIdentify provider.toCryptoProvider envelopes)
    (hdisk : disk.Within envelopes provider) (h : Refreshes provider disk session session')
    (hsession : session.Settled provider envelopes) : session'.Settled provider envelopes := by
  refine ⟨h.grounded hidentify hdisk hsession.grounded, ?_⟩
  cases h with
  | same hbytes hratchet => exact hsession.coherent
  | reload hbytes hvault hroot hratchet hstale =>
    have hwithin := hdisk _ _ _ (readVaultBytes_eq_ok.mp hbytes).1 hvault
    rw [LockedSession.Coherent, hsession.grounded.validate hidentify hwithin]
    exact .refl _

/-- A mutation leaves a session coherent: what it raises changes nothing of its verdict. -/
lemma LockedSession.Settled.advance_within {α : Type} {change : Change α} {next : Projection α}
    (hidentify : HashesIdentify provider.toCryptoProvider envelopes)
    (h : session.Settled provider envelopes)
    (hproject : project provider session change = .ok next) (hwithin : next.vault.Within envelopes) :
    (session.advance next).Settled provider envelopes := by
  obtain ⟨-, vault, output, -, hvault, -, hreport, -, -, -, hratchet⟩ := project_eq_ok.mp hproject
  refine ⟨h.grounded.advance hidentify hproject hwithin, ?_⟩
  rw [← hvault, h.grounded.validate hidentify hwithin] at hreport
  have hsame := sameVerdict_applyUpdate provider.toCryptoProvider next.vault
    (session.ratchet.applyUpdate session.report.ratchetUpdate) ∅
  rw [LockedSession.Coherent, LockedSession.advance, hratchet, hreport]
  exact hsame.symm

lemma LockedSession.Settled.advance {α : Type} {change : Change α} {next : Projection α}
    (hidentify : HashesIdentify provider.toCryptoProvider envelopes)
    (h : session.Settled provider envelopes) (hchange : change.Within envelopes)
    (hproject : project provider session change = .ok next) :
    (session.advance next).Settled provider envelopes := by
  obtain ⟨-, vault, output, hupdate, hvault, -⟩ := project_eq_ok.mp hproject
  refine h.advance_within hidentify hproject ?_
  rw [hvault]
  exact hchange _ _ _ hupdate h.grounded.within

/-- What a process is left with, when every end and every crash is accounted for. -/
lemma Performs.of_meets {α : Type} {operation : SessionProgram α}
    (h : Performs operation disk session disk' holding)
    (hmeets : operation.Meets (disk, session)
      (fun state => CachesGenuine provider envelopes state.1)
      fun _ state => CachesGenuine provider envelopes state.1 ∧
        state.2.Settled provider envelopes) :
    CachesGenuine provider envelopes disk' ∧
      ∀ session', holding = .opened session' → session'.Settled provider envelopes := by
  cases h with
  | ends =>
    refine ⟨hmeets.result.1, fun session' hsession' => ?_⟩
    obtain rfl := Holding.opened.inj hsession'
    exact hmeets.result.2
  | crashes hstate => exact ⟨hmeets.passed hstate, by simp⟩

/-- An operation does not bring a process back into a load. -/
lemma Performs.ne_loading {α : Type} {operation : SessionProgram α}
    (h : Performs operation disk session disk' holding) (session' : LockedSession) :
    holding ≠ .loading session' := by
  cases h <;> simp

lemma meets_reload_settled (hidentify : HashesIdentify provider.toCryptoProvider envelopes)
    (hdisk : disk.Within envelopes provider) (hcaches : CachesGenuine provider envelopes disk)
    (h : session.Settled provider envelopes) :
    (reloadIfStale provider).Meets (disk, session)
      (fun state => CachesGenuine provider envelopes state.1)
      fun _ state => CachesGenuine provider envelopes state.1 ∧
        state.2.Settled provider envelopes :=
  meets_reloadIfStale (fun _ => ⟨hcaches, h⟩) fun _ _ hfresh =>
    ⟨hcaches, hfresh.settled hidentify hdisk h⟩

lemma meets_commit_settled {α : Type} {contended : Bool} {transactionId : Bytes}
    {change : Change α} (hidentify : HashesIdentify provider.toCryptoProvider envelopes)
    (hdisk : disk.Within envelopes provider) (hcaches : CachesGenuine provider envelopes disk)
    (h : session.Settled provider envelopes) (hchange : change.Within envelopes) :
    (commit provider contended transactionId change).Meets (disk, session)
      (fun state => CachesGenuine provider envelopes state.1)
      fun _ state => CachesGenuine provider envelopes state.1 ∧
        state.2.Settled provider envelopes := by
  cases hpersistence : session.persistence with
  | prepared =>
    refine meets_commit_prepared hpersistence (fun _ => ⟨hcaches, h⟩) fun next hproject => ?_
    exact ⟨hcaches, h.advance hidentify hchange hproject⟩
  | live =>
    refine meets_commit hpersistence (fun _ => ⟨hcaches, h⟩)
      (fun _ _ hfresh => ⟨hcaches, hfresh.settled hidentify hdisk h⟩) ?_
    intro session' next expectedRatchetBytes nextRatchetBytes _ _ _ hfresh _ hproject _
    have hsettled := hfresh.settled hidentify hdisk h
    refine ((survivesCommits_cachesGenuine _ _).stays_commitAfterImages hcaches).mono
      (fun _ hd => hd) fun result disk' hd => ?_
    cases result with
    | error e => exact ⟨hd, hsettled⟩
    | ok _ =>
      have hadvanced := hsettled.advance hidentify hchange hproject
      exact ⟨hd, ⟨hadvanced.grounded.within, hadvanced.grounded.direct⟩, hadvanced.coherent⟩

lemma meets_rewrite_settled {contended : Bool} {mutate : Ratchet → Ratchet}
    (hidentify : HashesIdentify provider.toCryptoProvider envelopes)
    (hdisk : disk.Within envelopes provider) (hcaches : CachesGenuine provider envelopes disk)
    (h : session.Settled provider envelopes) :
    (rewriteRatchet provider contended mutate).Meets (disk, session)
      (fun state => CachesGenuine provider envelopes state.1)
      fun _ state => CachesGenuine provider envelopes state.1 ∧
        state.2.Settled provider envelopes := by
  refine meets_rewriteRatchet (fun _ => ⟨hcaches, h⟩)
    (fun _ _ hfresh => ⟨hcaches, hfresh.settled hidentify hdisk h⟩) ?_
  intro session' found bytes hrewrites
  have hgrounded := hrewrites.refreshes.grounded hidentify hdisk h.grounded
  have hreport := hgrounded.validate hidentify hgrounded.within
    (mutate (found.getD (.new session.ratchet.trustedRoot)))
  refine ⟨hcaches, hcaches.setRatchet _ _, ⟨hgrounded.within, _, hreport⟩, ?_⟩
  simp only [LockedSession.Coherent, LockedSession.rewritten, hreport]
  exact .refl _

/-- An attested session is coherent, whoever has signed the cache it leaned on. -/
lemma LockedSession.Settled.attested (h : session.Settled provider envelopes) (identity : Identity) :
    (session.attested provider identity).Settled provider envelopes := by
  rw [LockedSession.attested]
  split_ifs
  · exact h
  · exact ⟨⟨h.grounded.within, _, rfl⟩, .refl _⟩

/-- A cache that lists genuine envelopes is written. -/
lemma CachesGenuine.setCache (h : CachesGenuine provider envelopes disk)
    {cache : VerificationCacheV1} {user : UserId} {bytes : Bytes}
    (hgenuine : GenuineHashes provider.toCryptoProvider envelopes cache.verifiedRecordHashes)
    (hread : ∀ disk' : Disk, (disk'.roots cache.trustedRoot).caches user = some bytes →
      readVerificationCache provider cache.trustedRoot user disk' = some cache) :
    CachesGenuine provider envelopes (disk.setCache cache.trustedRoot user bytes) := by
  intro root' user' cache' hread'
  by_cases hsame : root' = cache.trustedRoot ∧ user' = user
  · obtain ⟨rfl, rfl⟩ := hsame
    rw [hread _ (by simp)] at hread'
    obtain rfl := Option.some.inj hread'
    exact hgenuine
  · apply h root' user' cache'
    rw [← hread', readVerificationCache, readVerificationCache]
    have hfile : ((disk.setCache cache.trustedRoot user bytes).roots root').caches user' =
        (disk.roots root').caches user' := by
      by_cases hroot : root' = cache.trustedRoot
      · subst hroot
        have huser : user' ≠ user := fun heq => hsame ⟨rfl, heq⟩
        simp [huser]
      · rw [Disk.setCache, Disk.roots_modifyRoot_of_ne hroot]
    rw [hfile]

lemma meets_attest_settled {identity : Identity}
    (hcaches : CachesGenuine provider envelopes disk) (h : session.Settled provider envelopes) :
    (attestVerifications provider identity).Meets (disk, session)
      (fun state => CachesGenuine provider envelopes state.1)
      fun _ state => CachesGenuine provider envelopes state.1 ∧
        state.2.Settled provider envelopes := by
  have hattested := h.attested identity
  refine meets_attestVerifications (fun _ _ => ⟨hcaches, hattested⟩)
    (fun _ => ⟨hcaches, hattested⟩) fun _ => ?_
  have hdirect : LockedSession.Settled provider envelopes
      { session.attested provider identity with verifications := .direct } :=
    ⟨⟨hattested.grounded.within, hattested.grounded.direct⟩, hattested.coherent⟩
  refine meets_liftStore.mpr (meets_writeVerificationCache_of (fun bytes hread => ?_) fun _ => ?_)
  · exact ⟨hcaches, hcaches.setCache hattested.grounded.genuineHashes hread, hdirect⟩
  · exact ⟨hcaches, hdirect⟩

/-- A load that finds the ratchet it validated under is left with a coherent session. -/
lemma Remembering.settled {contended : Bool}
    (h : Remembering (absorbCleanTrustRaises provider contended) disk session disk' holding)
    (hcaches : CachesGenuine provider envelopes disk)
    (hadmits : validatedRatchet provider contended disk session)
    (hwithin : session.vault.Within envelopes)
    (hreport : session.report =
      validateVault provider.toCryptoProvider session.vault session.ratchet) :
    CachesGenuine provider envelopes disk' ∧ (∀ session', holding ≠ .loading session') ∧
      ∀ session', holding = .opened session' → session'.Settled provider envelopes := by
  have hraised : SameVerdict session.report (validateVault provider.toCryptoProvider session.vault
      (session.ratchet.applyUpdate session.report.ratchetUpdate)) := by
    rw [hreport]
    exact (sameVerdict_applyUpdate _ _ _ _).symm
  have hcoherent : session.Coherent provider := by
    rw [LockedSession.Coherent, hreport]
    exact .refl _
  have hmeets : (absorbCleanTrustRaises provider contended).Meets (disk, session)
      (fun state => CachesGenuine provider envelopes state.1)
      fun result state => CachesGenuine provider envelopes state.1 ∧
        (result = .ok () → state.2.Settled provider envelopes) := by
    apply meets_absorbCleanTrustRaises
    · exact fun _ => ⟨hcaches, fun _ => ⟨⟨hwithin, _, hreport⟩, hcoherent⟩⟩
    · exact fun _ _ _ => ⟨hcaches, fun _ => ⟨⟨hwithin, _, hreport⟩, hraised⟩⟩
    · exact fun _ => ⟨hcaches, by simp⟩
    · rintro found raised bytes stored hclean hraises hpending hcontended - - hfound rfl - -
      have hsame := hadmits hcontended hpending hclean hraises found hfound
      refine ⟨hcaches, hcaches.setRatchet _ _, fun _ => ⟨⟨hwithin, _, hreport⟩, ?_⟩⟩
      rw [hsame]
      exact hraised
  cases h with
  | returns hresult =>
    refine ⟨hmeets.result.1, by simp, fun session' hsession' => ?_⟩
    obtain rfl := Holding.opened.inj hsession'
    exact hmeets.result.2 hresult
  | fails => exact ⟨hmeets.result.1, by simp, by simp⟩
  | crashes hstate => exact ⟨hmeets.passed hstate, by simp, by simp⟩

end Invariant

/-! ### Runs -/

section Main

variable {provider : StoreProvider} {envelopes : Set VaultRecordV1}
  {world world' : World provider envelopes}

/-- One process changes what it holds. -/
lemma World.Sound.update (h : world.Sound) {i : ℕ} {holding : Holding}
    (hcaches : CachesGenuine provider envelopes world'.disk)
    (hholds : world'.holds = Function.update world.holds i holding)
    (hloading : ∀ session, holding = .loading session → session.vault.Within envelopes ∧
      session.report = validateVault provider.toCryptoProvider session.vault session.ratchet)
    (hopened : ∀ session, holding = .opened session → session.Settled provider envelopes) :
    world'.Sound := by
  refine ⟨hcaches, fun j session hj => ?_, fun j session hj => ?_⟩ <;> rw [hholds] at hj <;>
    by_cases hij : j = i
  · subst hij
    exact hloading session (by simpa using hj)
  · exact h.loading j session (by simpa [hij] using hj)
  · subst hij
    exact hopened session (by simpa using hj)
  · exact h.opened j session (by simpa [hij] using hj)

/-- An operation on an open session keeps the invariant. -/
lemma World.Sound.performs (h : world.Sound) {i : ℕ} {α : Type} {operation : SessionProgram α}
    {session : LockedSession} {holding : Holding}
    (hperforms : Performs operation world.disk session world'.disk holding)
    (hholds : world'.holds = Function.update world.holds i holding)
    (hmeets : operation.Meets (world.disk, session)
      (fun state => CachesGenuine provider envelopes state.1)
      fun _ state => CachesGenuine provider envelopes state.1 ∧
        state.2.Settled provider envelopes) : world'.Sound := by
  obtain ⟨hcaches, hopened⟩ := hperforms.of_meets hmeets
  exact h.update hcaches hholds
    (fun session' hloading => absurd hloading (hperforms.ne_loading session')) hopened

lemma WorldStep.sound (hidentify : HashesIdentify provider.toCryptoProvider envelopes)
    (hstep : WorldStep provider envelopes (validatedRatchet provider) world world')
    (h : world.Sound) : world'.Sound := by
  cases hstep with
  | elsewhere hcaches hholds =>
    exact ⟨cachesGenuine_congr hcaches h.caches, hholds ▸ h.loading, hholds ▸ h.opened⟩
  | snapshot i paths root recovery hsnapshot hdisk hholds =>
    refine h.update (hdisk ▸ h.caches) hholds (fun session hloading => ?_) (by simp)
    obtain rfl := Holding.loading.inj hloading
    exact report_of_loadSnapshot hidentify world.within h.caches hsnapshot
  | remember i contended hi hadmits hremembers hholds =>
    obtain ⟨hwithin, hreport⟩ := h.loading i _ hi
    obtain ⟨hcaches, hnot, hopened⟩ := hremembers.settled h.caches hadmits hwithin hreport
    exact h.update hcaches hholds (fun session hloading => absurd hloading (hnot session)) hopened
  | reload i hi hperforms hholds =>
    exact h.performs hperforms hholds
      (meets_reload_settled hidentify world.within h.caches (h.opened i _ hi))
  | commit i contended transactionId change hi hchange hperforms hholds =>
    exact h.performs hperforms hholds
      (meets_commit_settled hidentify world.within h.caches (h.opened i _ hi) hchange)
  | rewrite i contended mutate hi hperforms hholds =>
    exact h.performs hperforms hholds
      (meets_rewrite_settled hidentify world.within h.caches (h.opened i _ hi))
  | attest i identity hi hperforms hholds =>
    exact h.performs hperforms hholds (meets_attest_settled h.caches (h.opened i _ hi))

lemma WorldRun.sound (hidentify : HashesIdentify provider.toCryptoProvider envelopes)
    (hrun : WorldRun provider envelopes (validatedRatchet provider) world world')
    (h : world.Sound) : world'.Sound := by
  induction hrun with
  | refl => exact h
  | tail _ hstep ih => exact hstep.sound hidentify ih

/-- A coherent session serves nothing below its watermarks exactly when these hold in its vault. -/
lemma LockedSession.Coherent.serves_iff {session : LockedSession} (h : session.Coherent provider) :
    session.ServesAboveWatermarks provider ↔
      ∀ root records,
        resolvedRecords provider.toCryptoProvider session.vault session.ratchet =
          some (root, records) →
        WatermarksHold provider.toCryptoProvider session.ratchet root records := by
  rw [LockedSession.ServesAboveWatermarks, h.1]
  cases hres : resolvedRecords provider.toCryptoProvider session.vault session.ratchet with
  | none =>
    simp only [reduceCtorEq, false_imp_iff, implies_true, iff_true]
    intro key remembered _ _ counter hserves
    rw [(validateVault_of_unresolved hres).1] at hserves
    exact absurd hserves (not_serves_unresolved key counter)
  | some resolved =>
    obtain ⟨root, records⟩ := resolved
    simp only [(validateVault_of_resolved hres).1, Option.some.injEq, Prod.mk.injEq, and_imp,
      forall_apply_eq_imp_iff, forall_eq']
    exact servesAbove_resolveRecords_iff

end Main

/-! ### A raise between validation and absorption -/

section Raced

open TestSupport

/-- The vault of one workspace, and a newer one of the same root in another. -/
def olderVault : VaultStore := .v1 ⟨[vaultRootRecord, secretRecord rootUser [rootUser] 1]⟩

def newerVault : VaultStore :=
  .v1 ⟨[vaultRootRecord, secretRecord rootUser [rootUser] 1, secretRecord rootUser [rootUser] 2]⟩

def raisedBy (vault : VaultStore) : Ratchet :=
  freshRatchet.applyUpdate (validateVault transparentCrypto vault freshRatchet).ratchetUpdate

def racedTables : Tables where
  vaults := [olderVault, newerVault]
  ratchets := [ratchetStore freshRatchet, ratchetStore (raisedBy newerVault)]
  transactions := []
  caches := []

def newerPaths : WorkspacePaths := ⟨.unix (asciiBytes "/clone/.thorax/vault.cord")⟩

def racedDisk : Disk where
  vaults path :=
    if path = testPaths.vaultPath then some (vaultFile 0)
    else if path = newerPaths.vaultPath then some (vaultFile 1)
    else none
  roots root :=
    if root = testRoot then ⟨some (ratchetFile 0), none, none, fun _ => none, none⟩
    else ⟨none, none, none, fun _ => none, none⟩

/-- What a load of a vault on this disk has in hand after its validation. -/
def racedSession (paths : WorkspacePaths) (vault : VaultStore) (bytes : Bytes) : LockedSession where
  paths := paths
  vault := vault
  vaultBytes := bytes
  ratchet := freshRatchet
  report := validateVault (tableProvider racedTables).toCryptoProvider vault freshRatchet
  verifications := .direct
  pendingTransaction := none
  recoveredTransaction := false
  persistence := .live

def olderSession : LockedSession := racedSession testPaths olderVault (vaultFile 0)

def newerSession : LockedSession := racedSession newerPaths newerVault (vaultFile 1)

def remembering : SessionProgram Unit := absorbCleanTrustRaises (tableProvider racedTables) false

def racedEnvelopes : Set VaultRecordV1 := {signed | signed ∈ newerVault.records}

lemma within_racedDisk {disk : Disk} (h : disk.vaults = racedDisk.vaults) :
    disk.Within racedEnvelopes (tableProvider racedTables) := by
  intro path bytes vault hfile hvault
  have hold : decodeVault (tableProvider racedTables) (vaultFile 0) = .ok olderVault := by decide
  have hnew : decodeVault (tableProvider racedTables) (vaultFile 1) = .ok newerVault := by decide
  rw [h] at hfile
  simp only [racedDisk] at hfile
  split_ifs at hfile
  · obtain rfl := Option.some.inj hfile
    obtain rfl := Except.ok.inj (hold.symm.trans hvault)
    intro signed hsigned
    have hsub : ∀ signed ∈ olderVault.records, signed ∈ newerVault.records := by decide
    exact hsub signed hsigned
  · obtain rfl := Option.some.inj hfile
    obtain rfl := Except.ok.inj (hnew.symm.trans hvault)
    exact fun signed hsigned => hsigned

lemma hashesIdentify_raced :
    HashesIdentify (tableProvider racedTables).toCryptoProvider racedEnvelopes := by
  have h : ∀ a ∈ newerVault.records, ∀ b ∈ newerVault.records,
      recordHash (tableProvider racedTables).toCryptoProvider a =
        recordHash (tableProvider racedTables).toCryptoProvider b → a = b := by decide
  exact h

/-- Remembering leaves the vault files alone. -/
lemma vaults_remembering (disk : Disk) (session : LockedSession) :
    (remembering (disk, session)).last.1.vaults = disk.vaults := by
  have h : remembering.Meets (disk, session) (fun _ => True)
      fun _ state => state.1.vaults = disk.vaults :=
    meets_absorbCleanTrustRaises (fun _ => rfl) (fun _ _ _ => rfl) (fun _ => rfl)
      fun _ _ _ _ _ _ _ _ _ _ _ _ _ _ => ⟨trivial, rfl⟩
  exact h.result

abbrev RacedWorld : Type := World (tableProvider racedTables) racedEnvelopes

def racedStart : RacedWorld := ⟨racedDisk, fun _ => .idle, within_racedDisk rfl⟩

/-- Both loads have validated. -/
def racedLoads : RacedWorld where
  disk := racedDisk
  holds := Function.update (Function.update (fun _ => .idle) 0 (.loading olderSession))
    1 (.loading newerSession)
  within := within_racedDisk rfl

/-- The load of the newer vault has remembered what it raised. -/
def racedRaise : RacedWorld where
  disk := (remembering (racedDisk, newerSession)).last.1
  holds := Function.update racedLoads.holds 1
    (.opened (remembering (racedDisk, newerSession)).last.2)
  within := within_racedDisk (vaults_remembering _ _)

/-- The session of the older vault once its load returns. -/
def racedSessionOpened : LockedSession := (remembering (racedRaise.disk, olderSession)).last.2

def racedWorld : RacedWorld where
  disk := (remembering (racedRaise.disk, olderSession)).last.1
  holds := Function.update racedRaise.holds 0 (.opened racedSessionOpened)
  within := within_racedDisk ((vaults_remembering _ _).trans (vaults_remembering _ _))

lemma racedLoads_run (admits : Bool → Disk → LockedSession → Prop) :
    WorldRun (tableProvider racedTables) racedEnvelopes admits racedStart racedLoads := by
  refine .tail (b := ⟨racedDisk, Function.update (fun _ => .idle) 0 (.loading olderSession),
    within_racedDisk rfl⟩) (.single ?_) ?_
  · exact .snapshot 0 testPaths testRoot .none rfl rfl rfl
  · exact .snapshot 1 newerPaths testRoot .none rfl rfl rfl

lemma racedRaise_step {admits : Bool → Disk → LockedSession → Prop}
    (hadmits : admits false racedDisk newerSession) :
    WorldStep (tableProvider racedTables) racedEnvelopes admits racedLoads racedRaise :=
  .remember 1 false rfl hadmits (.returns (by decide +kernel)) rfl

lemma racedRun : WorldRun (tableProvider racedTables) racedEnvelopes anyRatchet racedStart
    racedWorld := by
  refine .tail (.tail (racedLoads_run anyRatchet) (racedRaise_step trivial)) ?_
  exact .remember 0 false rfl trivial (.returns (by decide +kernel)) rfl

lemma cachesGenuine_racedStart :
    CachesGenuine (tableProvider racedTables) racedEnvelopes racedStart.disk := by
  intro root user cache hread
  have hnone : (racedDisk.roots root).caches user = none := by
    unfold racedDisk
    dsimp only
    split_ifs <;> rfl
  simp [racedStart, readVerificationCache, hnone, readFileBounded] at hread

end Raced

end Thorax
