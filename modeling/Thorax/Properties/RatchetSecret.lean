import Thorax.Kubernetes.RatchetHistory
import Thorax.TestCluster

/-!
# The ratchet in a Secret never regresses

Any number of reconciliations load the ratchet of one identity, validate the source against it and
swap it for the raised one, or start it from an approved baseline, while the server answers, refuses
or loses their calls. As long as nobody else writes the Secret, every write keeps what it replaced.
A write whose answer was lost may still arrive: then its caller has seen an error, and the Secret
has changed.
-/

namespace Thorax.Kubernetes

open Collections Remote Versioned

section Reconcilers

variable {provider : StoreProvider} {managed : ManagedCrypto} {scope : RatchetScope}
  {initial : Option Secret} {run : ℕ} {subject : Subject} {server server' : ApiServer}
  {ratchet : Ratchet} {secret : Secret}

/-! ### Before and after the swap -/

variable (provider scope run) in
/-- Nothing has been heard of the run. -/
structure Unheard (server : ApiServer) : Prop where
  untouched : Untouched provider scope run server
  unreported : ∀ outcome, (run, outcome) ∉ server.outcomes

variable (provider managed scope initial run) in
/-- The run has not come to its swap. -/
structure Before (server : ApiServer) : Prop extends Unheard provider scope run server where
  sound : Sound provider managed scope initial server

lemma Unheard.leaves (h : Unheard provider scope run server)
    (hleaves : Leaves provider managed scope initial run server server') :
    Unheard provider scope run server' where
  untouched := by
    obtain ⟨hidle, hold⟩ := hleaves.idle h.untouched.1
    refine ⟨hidle, fun write hwrite hrun => ?_⟩
    exact h.untouched.2 write (hold write hwrite hrun) hrun
  unreported outcome hreported := h.unreported outcome ((hleaves.outcomes outcome).mp hreported)

lemma Before.leaves (h : Before provider managed scope initial run server)
    (hleaves : Leaves provider managed scope initial run server server') :
    Before provider managed scope initial run server' :=
  ⟨h.toUnheard.leaves hleaves, hleaves.sound h.sound⟩

lemma Before.reported (h : Before provider managed scope initial run server) :
    Reported provider managed scope run server := by
  intro write hwrite hcaller
  exact absurd (congrArg Caller.run hcaller) (h.untouched.2 write hwrite)

lemma Reported.leaves (h : Reported provider managed scope run server)
    (hleaves : Leaves provider managed scope initial run server server') :
    Reported provider managed scope run server' := by
  intro write hwrite hcaller
  obtain ⟨ratchet, revision, hstored, hsaved⟩ :=
    h write ((hleaves.answered write hcaller).mp hwrite) hcaller
  exact ⟨ratchet, revision, (hleaves.outcomes _).mpr hstored, hsaved⟩

/-- At every point of the history the Secret was authentic. -/
lemma Sound.authentic_current (h : Sound provider managed scope initial server)
    {writes : List SecretWrite} (hwrites : ∀ write ∈ writes,
      write ∈ server.writes (scope.secretName provider))
    (hcurrent : currentSecret initial writes = some secret) :
    Authentic provider managed scope secret := by
  cases writes with
  | nil => exact h.initial secret hcurrent
  | cons write earlier =>
    obtain rfl := Option.some.inj hcurrent
    exact (h.written write (hwrites write List.mem_cons_self)).1

lemma Sound.authentic (h : Sound provider managed scope initial server) {stored : Stored Secret}
    (hstored : (server.secrets (scope.secretName provider)).stored = some stored) :
    Authentic provider managed scope stored.value := by
  have hcurrent := h.stored
  rw [hstored] at hcurrent
  exact h.authentic_current (fun _ hwrite => hwrite) hcurrent.symm

/-! ### Programs that leave the Secret alone -/

variable {ε α : Type}

/-- A program of harmless calls leaves what others may leave. -/
lemma upholds_harmless {program : Program Op Op.Reply ε α} (h : program.Asks Op.Harmless)
    (server : ApiServer) :
    program.Upholds (reconcilerRules provider managed scope initial run subject) server
      fun _ server' => Leaves provider managed scope initial run server server' := by
  apply Program.upholds_of_asks h
  · exact fun server => .refl server
  · exact fun h h' => Leaves.trans h h'
  · exact fun h => h
  · exact fun server op _ hop => hop.permits
  · exact fun server op reply server' hop hserves => (sameSecret_serves hop hserves).leaves

/-- A harmless request of the backend is answered by the server as others have left it, or
fails. -/
lemma upholds_request {op : Op} (hop : op.Harmless)
    {post : Except RatchetStateError op.Answer → ApiServer → Prop}
    (hanswered : ∀ server', Leaves provider managed scope initial run server server' →
      Leaves provider managed scope initial run server (server'.handle ⟨run, true⟩ op).1 →
        post ((server'.handle ⟨run, true⟩ op).2.mapError .kube) (server'.handle ⟨run, true⟩ op).1)
    (hfailed : ∀ server', Leaves provider managed scope initial run server server' →
      post (.error (.kube .unavailable)) server') :
    (Backend.request op).Upholds (reconcilerRules provider managed scope initial run subject) server post := by
  intro server' hrely
  refine ⟨hop.permits, fun reply next hserves => ?_⟩
  have hleaves : Leaves provider managed scope initial run server next :=
    Leaves.trans hrely (sameSecret_serves hop hserves).leaves
  cases hserves with
  | answered => exact hanswered server' hrely hleaves
  | failed => exact hfailed _ hleaves

/-! ### Loading -/

/-- What a Secret that passes the checks of a load passes first. -/
lemma Authentic.metadata {secret : Secret} (h : Authentic provider managed scope secret) :
    validateMetadata secret.metadata scope.credential.ownerReferences = .ok () := by
  have hvalid := h.valid
  unfold validateSecret at hvalid
  cases hmetadata : validateMetadata secret.metadata scope.credential.ownerReferences with
  | ok _ => rfl
  | error error => simp [hmetadata, bind, Except.bind] at hvalid

variable (provider managed scope) in
/-- A ratchet that was read, and can only have been read under this version. -/
structure Loaded (ratchet : Ratchet) (version : ℕ) (server : ApiServer) : Prop where
  exists_secret : ∃ secret, scope.reads provider managed secret = .ok ratchet
  seen : (server.secrets (scope.secretName provider)).Seen
    (fun secret => scope.reads provider managed secret = .ok ratchet) version

/-- A load that succeeds returns what is stored, and one that fails was not answered. -/
lemma upholds_loadSnapshot (h : Before provider managed scope initial run server) :
    (loadSnapshot provider managed scope.credential scope.trustedRoot
        (scope.identity.userId provider)).Upholds
      (reconcilerRules provider managed scope initial run subject) server fun result server' =>
        Before provider managed scope initial run server' ∧
          match result with
          | .ok (some (ratchet, version)) => Loaded provider managed scope ratchet version server'
          | .ok none => True
          | .error error => ∃ source, error = .kube source := by
  have hidentity : scope.credential.identity = scope.identity := rfl
  simp only [loadSnapshot, hidentity, ne_eq, not_true_eq_false, if_false, loadRatchet,
    Program.upholds_bind]
  apply upholds_request
  · trivial
  · intro server' hleaves _
    have hbefore := h.leaves hleaves
    cases hstored : (server'.secrets (scope.credential.secretName provider
        scope.trustedRoot)).stored with
    | none => simpa [ApiServer.handle, hstored, Except.mapError] using hbefore
    | some stored =>
      have hauthentic := hbefore.sound.authentic hstored
      simp only [ApiServer.handle, hstored, Option.map_some, Except.mapError, hauthentic.metadata,
        Program.upholds_lift, Program.upholds_bind]
      apply upholds_request
      · trivial
      · intro later hlater _
        have hbefore' := hbefore.leaves hlater
        cases hnow : (later.secrets (scope.credential.secretName provider
            scope.trustedRoot)).stored with
        | none => simpa [ApiServer.handle, hnow, Except.mapError] using hbefore'
        | some stored' =>
          have hauthentic' := hbefore'.sound.authentic hnow
          obtain ⟨ratchet, hreads⟩ := hauthentic'.reads
          have hdecode : decodeSecret provider managed stored'.value scope.identity
              scope.trustedRoot = .ok ratchet := hreads
          simp only [ApiServer.handle, hnow, Except.mapError, hauthentic'.valid, hdecode,
            Program.upholds_pure]
          exact ⟨hbefore', ⟨_, hreads⟩, Slot.seen_of_stored hbefore'.sound.fresh hnow hreads⟩
      · exact fun later hlater => ⟨hbefore.leaves hlater, .unavailable, rfl⟩
  · exact fun server' hleaves => ⟨h.leaves hleaves, .unavailable, rfl⟩

/-! ### Swapping -/

/-- What is saved passes the checks of a load, and is read back as it was saved. -/
lemma authentic_savedSecret (hroot : ratchet.trustedRoot = scope.trustedRoot)
    (h : savedSecret provider managed scope.credential ratchet = .ok secret) :
    Authentic provider managed scope secret ∧
      ∃ stored, scope.reads provider managed secret = .ok stored ∧ ratchet.StoredAs stored := by
  obtain ⟨stored, hread, hstored⟩ := decodeSecret_savedSecret h
  rw [hroot] at hread
  have hreads : scope.reads provider managed secret = .ok stored := hread
  exact ⟨⟨validateSecret_savedSecret rfl h, stored, hreads⟩, stored, hreads, hstored⟩

variable (provider managed scope run ratchet) in
/-- The run has written the ratchet, and nothing else. -/
structure Written (server : ApiServer) : Prop where
  exists_write : ∃ write ∈ server.writes (scope.secretName provider), write.caller = ⟨run, true⟩
  saved : ∀ write ∈ server.writes (scope.secretName provider), write.caller = ⟨run, true⟩ →
    savedSecret provider managed scope.credential ratchet = .ok write.written

lemma Written.leaves (h : Written provider managed scope run ratchet server)
    (hleaves : Leaves provider managed scope initial run server server') :
    Written provider managed scope run ratchet server' where
  exists_write := by
    obtain ⟨write, hwrite, hcaller⟩ := h.exists_write
    exact ⟨write, (hleaves.answered write hcaller).mpr hwrite, hcaller⟩
  saved write hwrite hcaller := h.saved write ((hleaves.answered write hcaller).mp hwrite) hcaller

variable (provider managed scope initial run ratchet) in
/-- How a save ends: the ratchet is written, or it is not, or its caller does not learn which. -/
def Saved (result : Except RatchetStateError ℕ) (server : ApiServer) : Prop :=
  match result with
  | .ok _ => Written provider managed scope run ratchet server
  | .error (.kube .unavailable) => Reported provider managed scope run server
  | .error _ => Before provider managed scope initial run server

lemma Before.saved (h : Before provider managed scope initial run server)
    (error : RatchetStateError) :
    Saved provider managed scope initial run ratchet (.error error) server := by
  unfold Saved
  split
  · contradiction
  · exact h.reported
  · exact h

lemma Saved.reported {error : RatchetStateError}
    (h : Saved provider managed scope initial run ratchet (.error error) server) :
    Reported provider managed scope run server := by
  unfold Saved at h
  split at h
  · contradiction
  · exact h
  · exact h.reported

lemma upholds_writeSecret (h : Before provider managed scope initial run server) {name : String}
    {write : Write Secret} (hname : name = scope.secretName provider)
    (hroot : ratchet.trustedRoot = scope.trustedRoot)
    (hsaved : savedSecret provider managed scope.credential ratchet = .ok write.value)
    (hfounded : (server.secrets (scope.secretName provider)).Founded
      (KeepsSecret provider managed scope) write) :
    (Backend.request (.writeSecret name write)).Upholds
      (reconcilerRules provider managed scope initial run subject) server
      (Saved provider managed scope initial run ratchet) := by
  subst hname
  intro server' hleaves
  have hbefore : Before provider managed scope initial run server' := h.leaves hleaves
  have hpermits : Permits provider managed scope run server'
      (.writeSecret (scope.secretName provider) write) :=
    ⟨⟨rfl, (authentic_savedSecret hroot hsaved).1, hfounded.advances hleaves.advances⟩,
      hbefore.unreported⟩
  refine ⟨hpermits, fun reply next hserves => ?_⟩
  cases hserves with
  | answered =>
    rcases writeSecret_cases server' ⟨run, true⟩ (scope.secretName provider) write with
      ⟨-, hanswer, -, hwrites, -, -⟩ | ⟨-, hsame, error, hanswer⟩
    · show Saved provider managed scope initial run ratchet
        ((server'.writeSecret ⟨run, true⟩ (scope.secretName provider) write).2.mapError .kube) _
      rw [hanswer]
      refine ⟨⟨_, hwrites ▸ List.mem_cons_self, rfl⟩, fun other hother hcaller => ?_⟩
      rw [ApiServer.handle, hwrites] at hother
      rcases List.mem_cons.mp hother with rfl | hold
      · exact hsaved
      · exact absurd (congrArg Caller.run hcaller) (hbefore.untouched.2 other hold)
    · show Saved provider managed scope initial run ratchet
        ((server'.writeSecret ⟨run, true⟩ (scope.secretName provider) write).2.mapError .kube)
        (server'.writeSecret ⟨run, true⟩ (scope.secretName provider) write).1
      rw [hanswer, hsame]
      exact hbefore.saved _
  | failed => exact hbefore.reported

/-- A save under a version that was read is carried out, or the run learns that it was not, or it
does not learn what became of it. -/
lemma upholds_saveRatchet (h : Before provider managed scope initial run server)
    {expected : Option ℕ} (hroot : ratchet.trustedRoot = scope.trustedRoot)
    (hbased : ∀ secret, savedSecret provider managed scope.credential ratchet = .ok secret →
      ∀ version, expected = some version → (server.secrets (scope.secretName provider)).Seen
        (KeepsSecret provider managed scope · secret) version) :
    (saveRatchet provider managed scope.credential ratchet expected).Upholds
      (reconcilerRules provider managed scope initial run subject) server
      (Saved provider managed scope initial run ratchet) := by
  have hname : scope.credential.secretName provider ratchet.trustedRoot =
      scope.secretName provider := by
    rw [hroot]
    rfl
  unfold saveRatchet
  cases hsaved : savedSecret provider managed scope.credential ratchet with
  | error error => exact h.saved error
  | ok secret =>
    cases expected with
    | some version =>
      exact upholds_writeSecret h hname hroot hsaved
        (Slot.founded_replace_iff.mpr (hbased secret hsaved version rfl))
    | none => exact upholds_writeSecret h hname hroot hsaved trivial

/-- An outcome is reported: a conflict by a run that has written nothing, a stored ratchet by the
run that has written it. -/
lemma upholds_concludeSwap {outcome : RatchetCasOutcome}
    (h : match outcome with
      | .conflict => Before provider managed scope initial run server
      | .stored ratchet _ => ratchet.trustedRoot = scope.trustedRoot ∧
          ratchet.watermarks[RecordKey.vaultRoot]? = none ∧
            Written provider managed scope run ratchet server) :
    (concludeSwap outcome).Upholds (reconcilerRules provider managed scope initial run subject) server
      fun _ => Reported provider managed scope run := by
  unfold concludeSwap
  simp only [Program.upholds_bind, Program.upholds_ask, Program.upholds_pure]
  intro server' hleaves
  cases outcome with
  | conflict =>
    have hbefore := Before.leaves h hleaves
    refine ⟨hbefore.untouched, fun reply next hserves => ?_⟩
    cases hserves with
    | answered =>
      obtain ⟨hwrites, -⟩ :=
        handle_swapped server' ⟨run, true⟩ (scope.secretName provider) .conflict
      intro write hwrite hcaller
      rw [hwrites] at hwrite
      exact absurd (congrArg Caller.run hcaller) (hbefore.untouched.2 write hwrite)
    | failed hmark => exact absurd rfl (hmark _)
  | stored ratchet revision =>
    obtain ⟨hroot, hvaultRoot, hwritten⟩ := h
    replace hwritten := hwritten.leaves hleaves
    have hreports : Reports provider managed scope run ratchet server' := by
      obtain ⟨write, hwrite, hcaller⟩ := hwritten.exists_write
      exact ⟨hroot, hvaultRoot, write, hwrite, congrArg Caller.run hcaller,
        hwritten.saved write hwrite hcaller⟩
    refine ⟨hreports, fun reply next hserves => ?_⟩
    cases hserves with
    | answered =>
      obtain ⟨hwrites, houtcomes⟩ :=
        handle_swapped server' ⟨run, true⟩ (scope.secretName provider) (.stored ratchet revision)
      intro write hwrite hcaller
      rw [hwrites] at hwrite
      refine ⟨ratchet, revision, ?_, hwritten.saved write hwrite hcaller⟩
      rw [houtcomes]
      exact List.mem_cons_self
    | failed hmark => exact absurd rfl (hmark _)

/-- Whatever the outcome of a swap, what the run got an answer for it has reported. -/
lemma upholds_compareAndSwap (h : Before provider managed scope initial run server)
    {userId : UserId} {expected : Option ℕ}
    (hvaultRoot : ratchet.watermarks[RecordKey.vaultRoot]? = none)
    (hbased : ∀ secret, savedSecret provider managed scope.credential ratchet = .ok secret →
      ∀ version, expected = some version → (server.secrets (scope.secretName provider)).Seen
        (KeepsSecret provider managed scope · secret) version) :
    (compareAndSwap provider managed scope.credential scope.trustedRoot userId expected
        ratchet).Upholds (reconcilerRules provider managed scope initial run subject) server
      fun _ => Reported provider managed scope run := by
  unfold compareAndSwap
  split_ifs with hscope
  · exact h.reported
  · push Not at hscope
    rw [Program.upholds_bind]
    have hasks : (getRevision provider scope.credential scope.trustedRoot).Asks Op.Harmless :=
      asks_getRevision.mono fun _ => Op.Reads.harmless
    refine (upholds_harmless hasks server).mono fun previous later hlater => ?_
    have hlaterBefore := h.leaves hlater
    cases previous with
    | error error => exact hlaterBefore.reported
    | ok previous =>
      simp only
      split_ifs with hrevision
      · exact upholds_concludeSwap hlaterBefore
      · push Not at hrevision
        subst hrevision
        simp only [Program.upholds_bind, Program.upholds_attempt]
        have hseen : ∀ secret, savedSecret provider managed scope.credential ratchet = .ok secret →
            ∀ version, expected = some version → (later.secrets (scope.secretName provider)).Seen
              (KeepsSecret provider managed scope · secret) version :=
          fun secret hsaved version hversion =>
            (hbased secret hsaved version hversion).advances hlater.advances
        refine (upholds_saveRatchet hlaterBefore hscope.2 hseen).mono fun result last hlast => ?_
        split
        · exact upholds_concludeSwap ⟨hscope.2, hvaultRoot, hlast⟩
        · exact upholds_concludeSwap hlast
        · exact hlast.reported

/-- What is read is for the root of the scope and has no counter at the vault root. -/
lemma of_reads (h : scope.reads provider managed secret = .ok ratchet) :
    ratchet.trustedRoot = scope.trustedRoot ∧
      ratchet.watermarks[RecordKey.vaultRoot]? = none := by
  obtain ⟨bytes, hbytes, hroot⟩ := decodeSecret_eq_ok h
  exact ⟨hroot, vaultRoot_of_decodeRatchet hbytes⟩

/-- A ratchet raised from the one that was loaded may replace it. -/
lemma Loaded.keeps {version : ℕ} (h : Loaded provider managed scope ratchet version server)
    {update : RatchetUpdate}
    (hsaved : savedSecret provider managed scope.credential (ratchet.applyUpdate update) =
      .ok secret) :
    (server.secrets (scope.secretName provider)).Seen
      (KeepsSecret provider managed scope · secret) version := by
  refine h.seen.mono fun older holder before hbefore => ?_
  obtain rfl : before = ratchet := by simpa [holder] using hbefore.symm
  obtain ⟨hroot, hvaultRoot⟩ := of_reads holder
  have hraised : (before.applyUpdate update).trustedRoot = scope.trustedRoot := hroot
  obtain ⟨-, stored, hreads, hstored⟩ := authentic_savedSecret hraised hsaved
  exact ⟨stored, hreads, hstored.keeps_from hvaultRoot (before.keeps_applyUpdate update)⟩

end Reconcilers

/-! ### Reconciliations -/

section Reconciliation

variable {provider : ControllerProvider} {scope : RatchetScope} {initial : Option Secret} {run : ℕ}
  {subject : Subject} {server : ApiServer} {vault : ThoraxVault} {source : Source}

variable (provider scope initial run subject) in
/-- The discipline of a reconciliation of the scope. -/
abbrev trustRules : Discipline ApiServer Op Op.Reply :=
  reconcilerRules provider.toStoreProvider provider.toManagedCrypto scope initial run subject

variable (provider scope run) in
/-- What the run got an answer for it has reported. -/
abbrev Settled (server : ApiServer) : Prop :=
  Reported provider.toStoreProvider provider.toManagedCrypto scope run server

lemma upholds_reported {α : Type} {program : Controller α} (h : Settled provider scope run server)
    (hasks : program.Asks (Op.ReportsOn vault)) :
    program.Upholds (trustRules provider scope initial run subject) server
      fun _ => Settled provider scope run :=
  (upholds_harmless (hasks.mono fun _ => Op.ReportsOn.harmless) server).mono fun _ _ hleaves => h.leaves hleaves

/-- Harmless calls first: the run has still not come to its swap. -/
lemma upholds_then {α : Type} {program : Controller α} {next : α → Controller ℕ}
    (h : Before provider.toStoreProvider provider.toManagedCrypto scope initial run server)
    (hasks : program.Asks Op.Harmless)
    (hnext : ∀ a server',
      Before provider.toStoreProvider provider.toManagedCrypto scope initial run server' →
        (next a).Upholds (trustRules provider scope initial run subject) server'
          fun _ => Settled provider scope run) :
    (program >>= next).Upholds (trustRules provider scope initial run subject) server
      fun _ => Settled provider scope run := by
  rw [Program.upholds_bind]
  refine (upholds_harmless hasks server).mono fun result server' hleaves => ?_
  cases result with
  | error error => exact (h.leaves hleaves).reported
  | ok a => exact hnext a server' (h.leaves hleaves)

/-- A swap, and the report that follows its outcome. -/
lemma upholds_swap (h : Before provider.toStoreProvider provider.toManagedCrypto scope initial run
      server) {userId : UserId} {expected : Option ℕ} {ratchet : Ratchet}
    {next : RatchetCasOutcome → Controller ℕ}
    (hvaultRoot : ratchet.watermarks[RecordKey.vaultRoot]? = none)
    (hbased : ∀ secret, savedSecret provider.toStoreProvider provider.toManagedCrypto
        scope.credential ratchet = .ok secret →
      ∀ version, expected = some version →
        (server.secrets (scope.secretName provider.toStoreProvider)).Seen
          (KeepsSecret provider.toStoreProvider provider.toManagedCrypto scope · secret) version)
    (hnext : ∀ outcome, (next outcome).Asks (Op.ReportsOn vault)) :
    (do next (← Controller.backend (compareAndSwap provider.toStoreProvider
        provider.toManagedCrypto scope.credential scope.trustedRoot userId expected ratchet)) :
      Controller ℕ).Upholds (trustRules provider scope initial run subject) server
      fun _ => Settled provider scope run := by
  simp only [Controller.backend, Program.upholds_bind, Program.upholds_attempt,
    Program.upholds_lift]
  refine (upholds_compareAndSwap h hvaultRoot hbased).mono fun result server' hsettled => ?_
  cases result with
  | error error => exact hsettled
  | ok outcome => exact upholds_reported hsettled (hnext outcome)

/-- A raised ratchet has no counter at the vault root if its base has none. -/
lemma vaultRoot_applyUpdate {ratchet : Ratchet}
    (h : ratchet.watermarks[RecordKey.vaultRoot]? = none) (store : VaultStore) :
    (ratchet.applyUpdate (validateVault provider.toCryptoProvider store
      ratchet).ratchetUpdate).watermarks[RecordKey.vaultRoot]? = none := by
  rw [getElem?_applyUpdate, vaultRoot_ratchetUpdate]
  exact h

/-- Going on from the ratchet that was loaded. -/
lemma upholds_finishVerifiedVault
    (h : Before provider.toStoreProvider provider.toManagedCrypto scope initial run server)
    {ratchet : Ratchet} {version : ℕ}
    (hloaded : Loaded provider.toStoreProvider provider.toManagedCrypto scope ratchet version server)
    (hroot : source.trustedRoot = scope.trustedRoot) :
    (finishVerifiedVault provider vault source scope.credential ratchet (some version)).Upholds
      (trustRules provider scope initial run subject) server fun _ => Settled provider scope run := by
  obtain ⟨secret, hreads⟩ := hloaded.exists_secret
  unfold finishVerifiedVault
  rw [hroot]
  simp only
  split_ifs
  · exact upholds_reported h.reported asks_report
  · exact upholds_reported h.reported asks_report
  · apply upholds_swap h (vaultRoot_applyUpdate (of_reads hreads).2 _)
    · intro secret hsaved other hother
      obtain rfl := Option.some.inj hother
      exact hloaded.keeps hsaved
    · exact fun outcome => asks_concludeVerified

/-- Starting from an approved baseline where there is no Secret. -/
lemma upholds_establishTrust
    (h : Before provider.toStoreProvider provider.toManagedCrypto scope initial run server)
    {approved : Approved} {baseline : List RatchetRecordV1}
    (hroot : source.trustedRoot = scope.trustedRoot) :
    (establishTrust provider vault source scope.credential approved baseline none).Upholds
      (trustRules provider scope initial run subject) server fun _ => Settled provider scope run := by
  have hempty : (Ratchet.new scope.trustedRoot).watermarks[RecordKey.vaultRoot]? = none := by
    simp [Ratchet.new]
  have hbaseline : (ratchetFromBaseline scope.trustedRoot baseline).watermarks[RecordKey.vaultRoot]? =
      none := Ratchet.vaultRoot_absorbRecords hempty
  unfold establishTrust
  rw [hroot]
  simp only
  split
  · exact upholds_reported h.reported asks_report
  split
  · cases approved.purpose with
    | enroll => exact upholds_reported h.reported asks_report
    | restoreTrust => exact upholds_reported h.reported asks_report
  refine upholds_then h Program.asks_lift fun _ _ h => ?_
  refine upholds_then h Program.asks_lift fun _ _ h => ?_
  refine upholds_then h (Program.asks_ask.mpr ?_) fun _ _ h => ?_
  · trivial
  apply upholds_swap h (vaultRoot_applyUpdate hbaseline _)
  · exact fun _ _ _ hnone => absurd hnone (by simp)
  · exact fun outcome => asks_concludeEstablished

/-- Asking for trust where there is no Secret. -/
lemma upholds_requestTrust
    (h : Before provider.toStoreProvider provider.toManagedCrypto scope initial run server)
    {random : Randomness} (hroot : source.trustedRoot = scope.trustedRoot) :
    (requestTrust provider vault source scope.credential .absent random).Upholds
      (trustRules provider scope initial run subject) server fun _ => Settled provider scope run := by
  refine upholds_then h (asks_ensureJoinRequest.mono fun _ => Op.ReportsOn.harmless)
    fun request _ h => ?_
  have hasks : (Controller.request (.getApproval request.name)).Asks (Op.ReportsOn vault) :=
    asks_controllerRequest trivial
  refine upholds_then h (hasks.mono fun _ => Op.ReportsOn.harmless) fun found _ h => ?_
  cases found with
  | none => exact upholds_reported h.reported asks_report
  | some object =>
    refine upholds_then h Program.asks_lift fun approved _ h => ?_
    refine upholds_then h Program.asks_lift fun baseline _ h => ?_
    exact upholds_establishTrust h hroot

/-- A reconciliation reports as stored whatever it has written and got an answer for, and asks for
no write but one that keeps what it names. -/
theorem upholds_reconcileTrust
    (h : Before provider.toStoreProvider provider.toManagedCrypto scope initial run server)
    {random : Randomness} (hvault : vault.uid = scope.vaultUid)
    (hroot : source.trustedRoot = scope.trustedRoot) :
    (reconcileTrust provider vault source scope.identity random).Upholds
      (trustRules provider scope initial run subject) server fun _ => Settled provider scope run := by
  have hcredential : (⟨scope.identity, [ownerReference vault.uid]⟩ : RatchetCredential) =
      scope.credential := by
    rw [hvault]
    rfl
  unfold reconcileTrust
  simp only [hcredential, Program.upholds_bind, Program.upholds_attempt]
  rw [hroot]
  refine (upholds_loadSnapshot h).mono fun result later hlater => ?_
  obtain ⟨hbefore, hresult⟩ := hlater
  cases result with
  | error e =>
    obtain ⟨_, rfl⟩ := hresult
    exact upholds_reported hbefore.reported asks_report
  | ok loaded =>
    cases loaded with
    | none => exact upholds_requestTrust hbefore hroot
    | some loaded =>
      obtain ⟨ratchet, version⟩ := loaded
      exact upholds_finishVerifiedVault hbefore hresult hroot

end Reconciliation

/-! ### Runs -/

section Runs

variable (provider : ProjectionProvider) (scope : RatchetScope)

/-- How reconciliations of one scope conduct themselves while nobody else writes the Secret. -/
def ratchetConduct (initial : Option Secret) : Conduct where
  rules := trustRules provider.toControllerProvider scope initial
  inv := Sound provider.toStoreProvider provider.toManagedCrypto scope initial
  ends run _ _ := Settled provider.toControllerProvider scope run
  unused run _ := Unheard provider.toStoreProvider scope run
  admitted := Spares provider.toStoreProvider scope
  compatible := compatible_reconcilerRules _ _ _ _
  serves _ _ _ := rfl
  arrive {_ _ _ _} h hflight := by
    obtain ⟨hsound, hleaves⟩ := h.arrive hflight
    exact ⟨hsound, fun run _ => hleaves run⟩
  change {_ _} h hspares :=
    ⟨h.of_same (sameSecret_change hspares), fun _ _ => (sameSecret_change hspares).leaves⟩
  ends_rely {_ _ _ _ _} hleaves h := Reported.leaves h hleaves
  unused_rely {_ _ _ _} hleaves h := Unheard.leaves h hleaves

/-- Before any of the reconciliations: the Secret is absent or authentic, and nothing is under way. -/
structure Quiet (state : System) : Prop where
  fresh : (state.server.secrets (scope.secretName provider.toStoreProvider)).Fresh
  authentic : ∀ stored,
    (state.server.secrets (scope.secretName provider.toStoreProvider)).stored = some stored →
      Authentic provider.toStoreProvider provider.toManagedCrypto scope stored.value
  inFlight : state.server.inFlight = []
  log : state.server.log = []
  runs : ∀ id, state.runs id = none

/-- A reconciliation of the scope starts, from any version of its vault and any source of its root,
or the system goes on while nobody else writes the Secret. -/
inductive RatchetStep : System → System → Prop
  | start {state : System} (vault : ThoraxVault) (source : Source) (random : Randomness)
      (hvault : vault.uid = scope.vaultUid) (hroot : source.trustedRoot = scope.trustedRoot) :
      RatchetStep state (state.start (.vault vault) (reconcileTrust provider.toControllerProvider
        vault source scope.identity random))
  | goes {state state' : System} {action : System.Action}
      (hgoes : action.Goes (Spares provider.toStoreProvider scope) state.server)
      (h : state.step provider action = some state') : RatchetStep state state'

variable {provider scope} {start state state' : System} {initial : Option Secret}

lemma Quiet.holds (h : Quiet provider scope state) :
    (ratchetConduct provider scope ((state.server.secrets
      (scope.secretName provider.toStoreProvider)).stored.map Stored.value)).Holds state where
  guarded := by
    have hwrites : state.server.writes (scope.secretName provider.toStoreProvider) = [] := by
      simp [ApiServer.writes, h.log]
    have houtcomes : state.server.outcomes = [] := by simp [ApiServer.outcomes, h.log]
    refine ⟨?_, fun id subject program hprogram => ?_⟩
    · constructor
      · exact h.fresh
      · rw [hwrites]
        rfl
      · rw [hwrites]
        trivial
      · intro secret hsecret
        obtain ⟨stored, hstored, rfl⟩ := Option.map_eq_some_iff.mp hsecret
        exact h.authentic stored hstored
      · simp [hwrites]
      · simp [houtcomes]
      · simp [houtcomes]
      · simp [h.inFlight]
    · simp [System.programs, h.runs] at hprogram
  unused id _ := by
    refine ⟨h.runs id, fun _ => ⟨⟨fun op hop => ?_, ?_⟩, ?_⟩⟩
    · simp [h.inFlight] at hop
    · simp [ApiServer.writes, h.log]
    · simp [ApiServer.outcomes, h.log]

/-- One step keeps the disciplines. -/
lemma RatchetStep.holds (h : RatchetStep provider scope state state')
    (hstate : (ratchetConduct provider scope initial).Holds state) :
    (ratchetConduct provider scope initial).Holds state' := by
  cases h with
  | start vault source random hvault hroot =>
    obtain ⟨-, hunheard⟩ := hstate.unused state.nextRun (le_refl _)
    have hprogram : (reconcileTrust provider.toControllerProvider vault source scope.identity
        random).Upholds (trustRules provider.toControllerProvider scope initial state.nextRun
          (.vault vault)) state.server
          fun _ => Settled provider.toControllerProvider scope state.nextRun :=
      upholds_reconcileTrust ⟨hunheard (.vault vault), hstate.guarded.1⟩ hvault hroot
    exact hstate.start hprogram
  | goes hgoes hstep => exact hstate.step hgoes hstep

/-! ### The history -/

variable (provider scope) in
/-- A reported ratchet was written by its run. What the write replaced, the ratchet keeps; what was
written later, and what is stored now, keeps the ratchet. -/
def Lasting (run : ℕ) (ratchet : Ratchet) (server : ApiServer) : Prop :=
  ∃ later write earlier,
    server.writes (scope.secretName provider.toStoreProvider) = later ++ write :: earlier ∧
      write.caller.run = run ∧
      (∀ older, write.replaced = some older →
        ∃ before, scope.reads provider.toStoreProvider provider.toManagedCrypto older = .ok before ∧
          before.Keeps ratchet) ∧
      (∀ next ∈ later,
        ∃ after, scope.reads provider.toStoreProvider provider.toManagedCrypto next.written =
          .ok after ∧ ratchet.Keeps after) ∧
      ∃ stored after,
        (server.secrets (scope.secretName provider.toStoreProvider)).stored = some stored ∧
          scope.reads provider.toStoreProvider provider.toManagedCrypto stored.value = .ok after ∧
            ratchet.Keeps after

variable (provider scope) in
/-- What is known of the Secret in the middle of any number of reconciliations. -/
structure NeverRegresses (initial : Option Secret) (state : System) : Prop where
  /-- Nothing but the accepted writes changes the Secret. -/
  history : Linked initial (state.server.writes (scope.secretName provider.toStoreProvider)) ∧
    (state.server.secrets (scope.secretName provider.toStoreProvider)).stored.map Stored.value =
      currentSecret initial (state.server.writes (scope.secretName provider.toStoreProvider))
  /-- Every accepted write keeps what it replaces, whether or not its caller learns of it. -/
  kept : ∀ write ∈ state.server.writes (scope.secretName provider.toStoreProvider),
    ∀ older, write.replaced = some older →
      KeepsSecret provider.toStoreProvider provider.toManagedCrypto scope older write.written
  stored : ∀ run ratchet revision, (run, .stored ratchet revision) ∈ state.server.outcomes →
    Lasting provider scope run ratchet state.server
  conflict : ∀ run, (run, .conflict) ∈ state.server.outcomes →
    ∀ write ∈ state.server.writes (scope.secretName provider.toStoreProvider),
      write.caller.run ≠ run
  /-- A reconciliation that ends without having stored a ratchet has made no write that it was
  answered for. -/
  error : ∀ id run, state.runs id = some run → (∃ result, run.program = .done result) →
    (∀ ratchet revision, (id, .stored ratchet revision) ∉ state.server.outcomes) →
      ∀ write ∈ state.server.writes (scope.secretName provider.toStoreProvider),
        write.caller ≠ ⟨id, true⟩

end Runs

section History

variable {provider : StoreProvider} {managed : ManagedCrypto} {scope : RatchetScope}
  {initial : Option Secret} {write : SecretWrite} {earlier : List SecretWrite}

lemma keepsSecret_refl (secret : Secret) : KeepsSecret provider managed scope secret secret :=
  fun before hbefore => ⟨before, hbefore, .refl before⟩

lemma KeepsSecret.trans {a b c : Secret} (h : KeepsSecret provider managed scope a b)
    (h' : KeepsSecret provider managed scope b c) : KeepsSecret provider managed scope a c := by
  intro before hbefore
  obtain ⟨between, hbetween, hkeeps⟩ := h before hbefore
  obtain ⟨after, hafter, hkeeps'⟩ := h' between hbetween
  exact ⟨after, hafter, hkeeps.trans hkeeps'⟩

lemma replaced_of_linked {later : List SecretWrite}
    (h : Linked initial (later ++ write :: earlier)) :
    write.replaced = currentSecret initial earlier := by
  induction later with
  | nil => exact h.1
  | cons next later ih => exact ih h.2

/-- Later writes keep earlier ones, and so does what is stored after them. -/
lemma keepsSecret_of_linked {later : List SecretWrite}
    (hlinked : Linked initial (later ++ write :: earlier))
    (hkept : ∀ other ∈ later ++ write :: earlier, ∀ older, other.replaced = some older →
      KeepsSecret provider managed scope older other.written) :
    (∀ next ∈ later, KeepsSecret provider managed scope write.written next.written) ∧
      ∃ current, currentSecret initial (later ++ write :: earlier) = some current ∧
        KeepsSecret provider managed scope write.written current := by
  induction later with
  | nil => exact ⟨by simp, write.written, rfl, keepsSecret_refl _⟩
  | cons next later ih =>
    obtain ⟨hreplaced, hlinked'⟩ := hlinked
    obtain ⟨hlater, current, hcurrent, hkeeps⟩ :=
      ih hlinked' fun other hother => hkept other (List.mem_cons_of_mem _ hother)
    have hnext : KeepsSecret provider managed scope write.written next.written :=
      hkeeps.trans (hkept next List.mem_cons_self current (hreplaced.trans hcurrent))
    refine ⟨fun other hother => ?_, next.written, rfl, hnext⟩
    rcases List.mem_cons.mp hother with rfl | hold
    · exact hnext
    · exact hlater other hold

end History

section Main

variable {provider : ProjectionProvider} {scope : RatchetScope} {initial : Option Secret}
  {start state : System}

lemma Sound.lasting {server : ApiServer}
    (h : Sound provider.toStoreProvider provider.toManagedCrypto scope initial server) {run : ℕ}
    {ratchet : Ratchet} {revision : ℕ} (hstored : (run, .stored ratchet revision) ∈ server.outcomes) :
    Lasting provider scope run ratchet server := by
  obtain ⟨hroot, hvaultRoot, write, hwrite, hrun, hsaved⟩ := h.reported run ratchet revision hstored
  obtain ⟨-, written, hwritten, hstoredAs⟩ := authentic_savedSecret hroot hsaved
  obtain ⟨hkeeps, hkept⟩ := hstoredAs.keeps_of_decoded hvaultRoot
  obtain ⟨later, earlier, hsplit⟩ := List.append_of_mem hwrite
  have hlinked := h.linked
  have hall := h.written
  rw [hsplit] at hlinked hall
  obtain ⟨hlater, current, hcurrent, hnow⟩ :=
    keepsSecret_of_linked hlinked fun other hother => (hall other hother).2
  refine ⟨later, write, earlier, hsplit, hrun, fun older holder => ?_, fun next hnext => ?_, ?_⟩
  · have hearlier : ∀ other ∈ earlier,
        other ∈ server.writes (scope.secretName provider.toStoreProvider) := by
      intro other hother
      rw [hsplit]
      exact List.mem_append_right later (List.mem_cons_of_mem write hother)
    have hreplaced := (replaced_of_linked hlinked).symm.trans holder
    obtain ⟨before, hbefore⟩ := (h.authentic_current hearlier hreplaced).reads
    obtain ⟨after, hafter, hle⟩ := (h.written write hwrite).2 older holder before hbefore
    obtain rfl : after = written := by simpa [hwritten] using hafter.symm
    exact ⟨before, hbefore, hle.trans hkept⟩
  · obtain ⟨after, hafter, hle⟩ := hlater next hnext written hwritten
    exact ⟨after, hafter, hkeeps.trans hle⟩
  · have hslot := h.stored
    rw [hsplit, hcurrent] at hslot
    obtain ⟨stored, hstored', rfl⟩ := Option.map_eq_some_iff.mp hslot
    obtain ⟨after, hafter, hle⟩ := hnow written hwritten
    exact ⟨stored, after, hstored', hafter, hkeeps.trans hle⟩

/-- Reconciliations of one scope never lose what was stored, in any order of their calls. -/
theorem ratchetSecret_never_regresses (hquiet : Quiet provider scope start)
    (hrun : Relation.ReflTransGen (RatchetStep provider scope) start state) :
    NeverRegresses provider scope ((start.server.secrets
      (scope.secretName provider.toStoreProvider)).stored.map Stored.value) state := by
  have hholds : (ratchetConduct provider scope ((start.server.secrets
      (scope.secretName provider.toStoreProvider)).stored.map Stored.value)).Holds state := by
    induction hrun with
    | refl => exact hquiet.holds
    | tail _ hstep ih => exact hstep.holds ih
  obtain ⟨hsound, hends⟩ := hholds.guarded
  constructor
  · exact ⟨hsound.linked, hsound.stored⟩
  · exact fun write hwrite => (hsound.written write hwrite).2
  · exact fun run ratchet revision hstored => hsound.lasting hstored
  · exact fun run hconflict => (hsound.conflict run hconflict).2
  · rintro id run hrun ⟨result, hresult⟩ hunreported write hwrite hcaller
    have hprogram : state.programs id = some (run.subject, .done result) := by
      simp [System.programs, hrun, hresult]
    obtain ⟨ratchet, revision, hstored, -⟩ := hends id _ _ hprogram write hwrite hcaller
    exact hunreported ratchet revision hstored

/-! ### Two runs -/

/-- A run in which reconciliations only call, fail to call, stop, or have their requests arrive. -/
lemma ratchetRun_of_calls {actions : List System.Action}
    (hcalls : ∀ action ∈ actions, ∀ server,
      action.Goes (Spares provider.toStoreProvider scope) server)
    (h : actions.foldlM (System.step provider) start = some state) :
    Relation.ReflTransGen (RatchetStep provider scope) start state := by
  induction actions generalizing start with
  | nil =>
    obtain rfl := Option.some.inj h
    exact .refl
  | cons action actions ih =>
    obtain ⟨next, hnext, hrest⟩ := Option.bind_eq_some_iff.mp h
    apply Relation.ReflTransGen.head
    · exact .goes (hcalls action List.mem_cons_self start.server) hnext
    · exact ih (fun other hother => hcalls other (List.mem_cons_of_mem _ hother)) hrest

open TestSupport

def testScope : RatchetScope := ⟨managedIdentity, testRoot, testVault.uid⟩

/-- The Secret holds a fresh ratchet. -/
def freshSystem : System :=
  testSystem (testServer managedTables testVault (vaultFile 0)
    (testRatchetSecret managedTables freshRatchet))

/-- A reconciliation of the test vault makes some calls. -/
def reconciledSystem (actions : List System.Action) : Option System :=
  actions.foldlM (System.step (testProjections managedTables))
    (freshSystem.start (.vault testVault) (reconcileTrust (testController managedTables) testVault
      ⟨managedVault, testRoot, rootUser.id, "1"⟩ managedIdentity ⟨[], managedIdentity.keys, []⟩))

def Run.error? (run : Run) : Option ControllerError :=
  match run.program with
  | .done (.error error) => some error
  | _ => none

lemma quiet_freshSystem : Quiet (testProjections managedTables) testScope freshSystem := by
  have hname : testRatchetName managedTables ≠ "identity" := by decide
  have hsecrets : freshSystem.server.secrets (testScope.secretName
      (testProjections managedTables).toStoreProvider) =
      ⟨(testRatchetSecret managedTables freshRatchet).map (⟨·, 0⟩), 1⟩ := by
    show (testServer managedTables testVault (vaultFile 0)
      (testRatchetSecret managedTables freshRatchet)).secrets (testRatchetName managedTables) = _
    simp [testServer, hname]
  constructor
  · rw [hsecrets]
    intro stored hstored
    simp only [Option.map_eq_some_iff] at hstored
    obtain ⟨secret, -, rfl⟩ := hstored
    exact Nat.zero_lt_one
  · rw [hsecrets]
    intro stored hstored
    simp only [Option.map_eq_some_iff] at hstored
    obtain ⟨secret, hsecret, rfl⟩ := hstored
    unfold testRatchetSecret at hsecret
    cases hsaved : savedSecret (tableProvider managedTables)
        (testController managedTables).toManagedCrypto testCredential freshRatchet with
    | error error => simp [hsaved, Except.toOption] at hsecret
    | ok saved =>
      obtain rfl : saved = secret := by simpa [hsaved, Except.toOption] using hsecret
      have hroot : freshRatchet.trustedRoot = testScope.trustedRoot := rfl
      exact (authentic_savedSecret hroot hsaved).1
  · rfl
  · rfl
  · exact fun _ => rfl

lemma run_reconciledSystem {actions : List System.Action}
    (hcalls : ∀ action ∈ actions, ∀ server,
      action.Goes (Spares (tableProvider managedTables) testScope) server)
    (h : reconciledSystem actions = some state) :
    Relation.ReflTransGen (RatchetStep (testProjections managedTables) testScope) freshSystem state :=
  .head (.start _ _ _ rfl rfl) (ratchetRun_of_calls hcalls h)

/-- What a run of calls shows of its first reconciliation and of the Secret. -/
def System.observed (self : System) : Option (Option ControllerError) × Option ℕ × ℕ :=
  ((self.runs 0).map Run.error?,
    (self.server.secrets (testRatchetName managedTables)).stored.map Stored.version,
    self.server.outcomes.length)

/-- A swap whose answer is lost ends in an error, and its write arrives later. -/
theorem lost_answer_changes_secret :
    ∃ start state,
      Quiet (testProjections managedTables) testScope start ∧
        Relation.ReflTransGen (RatchetStep (testProjections managedTables) testScope) start state ∧
        (∃ run, state.runs 0 = some run ∧ run.error? = some (.ratchet (.kube .unavailable))) ∧
        (state.server.secrets (testRatchetName managedTables)).stored ≠
          (start.server.secrets (testRatchetName managedTables)).stored := by
  have hobserved : (reconciledSystem [.serve 0, .serve 0, .serve 0, .fail 0, .arrive 0]).map
      System.observed = some (some (some (.ratchet (.kube .unavailable))), some 1, 0) := by
    decide +kernel
  have hbefore : (freshSystem.server.secrets (testRatchetName managedTables)).stored.map
      Stored.version = some 0 := rfl
  obtain ⟨state, hstate, hobserved⟩ := Option.map_eq_some_iff.mp hobserved
  obtain ⟨herror, hversion, -⟩ : _ ∧ _ ∧ _ := by simpa [System.observed] using hobserved
  refine ⟨freshSystem, state, quiet_freshSystem, run_reconciledSystem ?_ hstate, herror, ?_⟩
  · simp [System.Action.Goes]
  · intro hsame
    obtain ⟨stored, hstored, hversion⟩ := hversion
    rw [← hsame, hstored, Option.map_some, hversion] at hbefore
    contradiction

/-- A reconciliation of a fresh ratchet stores the raised one. -/
theorem ratchetSecret_never_regresses_stored :
    ∃ start state : System, state.server.outcomes.length = 1 ∧
      NeverRegresses (testProjections managedTables) testScope ((start.server.secrets
        (testScope.secretName (tableProvider managedTables))).stored.map Stored.value) state := by
  have hobserved : (reconciledSystem [.serve 0, .serve 0, .serve 0, .serve 0, .serve 0]).map
      System.observed = some (some none, some 1, 1) := by decide +kernel
  obtain ⟨state, hstate, hobserved⟩ := Option.map_eq_some_iff.mp hobserved
  obtain ⟨-, -, houtcomes⟩ : _ ∧ _ ∧ _ := by simpa [System.observed] using hobserved
  refine ⟨freshSystem, state, houtcomes, ratchetSecret_never_regresses quiet_freshSystem ?_⟩
  refine run_reconciledSystem ?_ hstate
  simp [System.Action.Goes]

end Main

end Thorax.Kubernetes
