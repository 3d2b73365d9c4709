import Thorax.Kubernetes.Calls
import Thorax.TestCluster

/-!
# Whose Secrets are written

Any object of the namespace may be a Secret of someone else, under the very name that a
reconciliation writes to. A reconciliation reads the metadata first, and writes or deletes under the
version that it has read. So whatever happens between the two, and however late its request
arrives, it only ever touches a Secret that its own object controls.
-/

namespace Thorax.Kubernetes

open Collections Remote Versioned

/-! ### What belongs to an object -/

/-- The identifier of the object that a reconciliation is for. -/
def Subject.uid : Subject → Uid
  | .vault observed => observed.uid
  | .projection observed => observed.uid

/-- The Secret says that it holds a ratchet. -/
def Secret.labelledRatchet (self : Secret) : Prop :=
  self.metadata.labels.any (fun labels =>
    labels["thorax.backbone.dev/component"]? = some "ratchet") = true

/-- What a reconciliation may replace: the destination that its projection controls, or a ratchet
that its vault controls. -/
def Subject.Owns (subject : Subject) (secret : Secret) : Prop :=
  ownsDestination secret.metadata subject.uid = true ∧
    match subject with
    | .vault _ => secret.labelledRatchet
    | .projection _ => True

/-- What a reconciliation makes of a Secret. -/
structure Subject.Touches (subject : Subject) (name : String) (before after : Option Secret) :
    Prop where
  owned : ∀ secret, before = some secret → subject.Owns secret
  written : ∀ secret, after = some secret →
    secret.metadata.ownerReferences = some [ownerReference subject.uid]
  /-- A reconciliation of a vault deletes nothing. -/
  deleted : after = none → ∃ observed, subject = .projection observed
  destination : ∀ observed, subject = .projection observed → name = observed.name

/-- The call touches no Secret but those of the object, whenever it is carried out. -/
def Subject.Fits (subject : Subject) (server : ApiServer) : Op → Prop
  | .writeSecret name write =>
    (∀ projection, subject = .projection projection → name = projection.name) ∧
      write.value.metadata.ownerReferences = some [ownerReference subject.uid] ∧
        (server.secrets name).Founded (fun before _ => subject.Owns before) write
  | .deleteSecret name version =>
    (∃ projection, subject = .projection projection ∧ name = projection.name) ∧
      (server.secrets name).Seen subject.Owns version
  | _ => True

/-- Whatever the server stores. -/
def Subject.Suits (subject : Subject) (op : Op) : Prop := ∀ server, subject.Fits server op

variable {subject : Subject} {server server' : ApiServer} {op : Op}

lemma Op.Reads.suits (h : op.Reads) : subject.Suits op := by
  intro server
  cases op with
  | writeSecret _ _ => exact h.elim
  | deleteSecret _ _ => exact h.elim
  | _ => trivial

lemma Op.ReportsOn.suits {vault : ThoraxVault} (h : op.ReportsOn vault) : subject.Suits op := by
  intro server
  cases op with
  | writeSecret _ _ => exact h.elim
  | deleteSecret _ _ => exact h.elim
  | _ => trivial

/-! ### The Secrets of the server -/

/-- Every stored version has been handed out. -/
def ApiServer.FreshSecrets (self : ApiServer) : Prop := ∀ name, (self.secrets name).Fresh

/-- No version is stored anew, and every stored version has been handed out if that was so. -/
structure KeepsVersions (server server' : ApiServer) : Prop where
  advances : ∀ name, (server.secrets name).Advances (server'.secrets name)
  fresh : server.FreshSecrets → server'.FreshSecrets

lemma KeepsVersions.of_secrets (h : server'.secrets = server.secrets) :
    KeepsVersions server server' where
  advances _ := h ▸ Slot.Advances.refl _
  fresh hfresh name := h ▸ hfresh name

lemma KeepsVersions.trans {server'' : ApiServer} (h : KeepsVersions server server')
    (h' : KeepsVersions server' server'') : KeepsVersions server server'' where
  advances name := (h.advances name).trans (h'.advances name)
  fresh hfresh := h'.fresh (h.fresh hfresh)

/-- One Secret is written or removed. -/
lemma KeepsVersions.of_update {slot : Slot Secret} {name : String}
    (hsecrets : server'.secrets = Function.update server.secrets name slot)
    (hadvances : (server.secrets name).Advances slot) (hfresh : (server.secrets name).Fresh → slot.Fresh) :
    KeepsVersions server server' where
  advances other := by
    by_cases hother : other = name
    · subst hother
      simpa [hsecrets] using hadvances
    · simpa [hsecrets, hother] using Slot.Advances.refl _
  fresh h other := by
    by_cases hother : other = name
    · subst hother
      simpa [hsecrets] using hfresh (h other)
    · simpa [hsecrets, hother] using h other

lemma advances_removed (slot : Slot Secret) : slot.Advances { slot with stored := none } :=
  ⟨le_refl _, fun _ h _ => by simp at h⟩

lemma keepsVersions_handle (server : ApiServer) (caller : Caller) (op : Op) :
    KeepsVersions server (server.handle caller op).1 := by
  have hhandles := server.handles_handle caller op
  generalize (server.handle caller op).1 = server' at hhandles ⊢
  cases hhandles with
  | @wrote name write haccepts =>
    apply KeepsVersions.of_update rfl
    · exact (server.secrets name).advances_put _
    · exact fun _ => (server.secrets name).fresh_put _
  | @removed name version =>
    apply KeepsVersions.of_update rfl
    · exact advances_removed _
    · intro _ stored hstored
      simp at hstored
  | _ => exact .of_secrets rfl

lemma keepsVersions_change (server : ApiServer) (change : Change) :
    KeepsVersions server (server.change change) := by
  cases change with
  | setSecret name secret =>
    cases secret with
    | some secret =>
      apply KeepsVersions.of_update rfl
      · exact (server.secrets name).advances_put _
      · exact fun _ => (server.secrets name).fresh_put _
    | none =>
      apply KeepsVersions.of_update rfl
      · exact advances_removed _
      · intro _ stored hstored
        simp at hstored
  | approve name ownerReferences spec =>
    simp only [ApiServer.change]
    split
    · exact .of_secrets rfl
    · exact .of_secrets rfl
  | _ => exact .of_secrets rfl

lemma keepsVersions_serves {run : ℕ} {reply : op.Reply} (h : server.Serves run op reply server') :
    KeepsVersions server server' := by
  cases h with
  | answered => exact keepsVersions_handle server _ op
  | failed => exact .of_secrets rfl

/-- A call that fits goes on fitting. -/
lemma Subject.Fits.keeps (h : subject.Fits server op) (hkeeps : KeepsVersions server server') :
    subject.Fits server' op := by
  cases op with
  | writeSecret name write => exact ⟨h.1, h.2.1, h.2.2.advances (hkeeps.advances name)⟩
  | deleteSecret name version => exact ⟨h.1, h.2.advances (hkeeps.advances name)⟩
  | _ => trivial

/-- A deletion removes what is stored under the version it names, or nothing. -/
lemma deleteSecret_cases (server : ApiServer) (name : String) (version : ℕ) :
    (server.deleteSecret name version).1 = server ∨
      ∃ stored, (server.secrets name).stored = some stored ∧ stored.version = version ∧
        (server.deleteSecret name version).1.secrets =
          Function.update server.secrets name { server.secrets name with stored := none } := by
  unfold ApiServer.deleteSecret
  cases hstored : (server.secrets name).stored with
  | none => exact Or.inl rfl
  | some stored =>
    by_cases hversion : stored.version = version
    · refine Or.inr ⟨stored, rfl, hversion, ?_⟩
      simp [hversion]
    · exact Or.inl (by simp [hversion])

/-- Other calls leave every Secret. -/
lemma secrets_handle {caller : Caller} (hwrite : ∀ name write, op ≠ .writeSecret name write)
    (hdelete : ∀ name version, op ≠ .deleteSecret name version) :
    (server.handle caller op).1.secrets = server.secrets := by
  have hhandles := server.handles_handle caller op
  generalize (server.handle caller op).1 = server' at hhandles ⊢
  cases hhandles with
  | wrote _ => exact absurd rfl (hwrite _ _)
  | removed => exact absurd rfl (hdelete _ _)
  | _ => rfl

/-- A call that fits touches only what belongs to its object. -/
lemma Subject.Fits.touches (h : subject.Fits server op) {caller : Caller} {name : String}
    (hchanged : ((server.handle caller op).1.secrets name).stored ≠ (server.secrets name).stored) :
    subject.Touches name ((server.secrets name).stored.map (·.value))
      (((server.handle caller op).1.secrets name).stored.map (·.value)) := by
  cases op with
  | writeSecret written write =>
    obtain ⟨hname, howner, hfounded⟩ := h
    have hhandles := server.handles_handle caller (.writeSecret written write)
    generalize (server.handle caller (.writeSecret written write)).1 = server' at hhandles hchanged ⊢
    cases hhandles with
    | nothing => exact absurd rfl hchanged
    | wrote haccepts =>
      by_cases hother : name = written
      · subst hother
        constructor
        · intro secret hsecret
          obtain ⟨stored, hstored, rfl⟩ := Option.map_eq_some_iff.mp hsecret
          exact hfounded.of_accepts haccepts hstored
        · intro secret hsecret
          obtain rfl : write.value = secret := by simpa [Slot.put] using hsecret
          exact howner
        · intro hnone
          simp [Slot.put] at hnone
        · exact hname
      · exact absurd (by simp [hother]) hchanged
  | deleteSecret removed version =>
    obtain ⟨⟨projection, rfl, rfl⟩, hseen⟩ := h
    rcases deleteSecret_cases server projection.name version with
      hsame | ⟨stored, hstored, hversion, hsecrets⟩
    · exact absurd (congrArg (fun server : ApiServer => (server.secrets name).stored) hsame) hchanged
    · have hafter : (server.handle caller (.deleteSecret projection.name version)).1.secrets =
          Function.update server.secrets projection.name
            { server.secrets projection.name with stored := none } := hsecrets
      rw [hafter] at hchanged ⊢
      by_cases hother : name = projection.name
      · subst hother
        constructor
        · intro secret hsecret
          rw [hstored] at hsecret
          obtain rfl := Option.some.inj hsecret
          exact hseen.2 stored hstored hversion
        · intro secret hsecret
          simp at hsecret
        · exact fun _ => ⟨projection, rfl⟩
        · intro observed hobserved
          obtain rfl := Subject.projection.inj hobserved
          rfl
      · exact absurd (by simp [hother]) hchanged
  | _ =>
    refine absurd ?_ hchanged
    rw [secrets_handle (by simp) (by simp)]

/-! ### How reconciliations go about it -/

section Conduct

variable (subjects : ℕ → Option Subject)

/-- A run is for the object it was started for, and its calls fit it. -/
def ownDiscipline (run : ℕ) (subject : Subject) : Discipline ApiServer Op Op.Reply where
  serves server := server.Serves run
  rely := KeepsVersions
  allowed server op := subjects run = some subject ∧ subject.Fits server op

/-- Every request that is still on its way fits what its run was started for. -/
structure OwnInvariant (server : ApiServer) : Prop where
  fresh : server.FreshSecrets
  inFlight : ∀ request ∈ server.inFlight,
    ∃ subject, subjects request.1 = some subject ∧ subject.Fits server request.2

lemma inFlight_handle (server : ApiServer) (caller : Caller) (op : Op) :
    (server.handle caller op).1.inFlight = server.inFlight := by
  have hhandles := server.handles_handle caller op
  generalize (server.handle caller op).1 = server' at hhandles ⊢
  cases hhandles <;> rfl

lemma inFlight_change (server : ApiServer) (change : Change) :
    (server.change change).inFlight = server.inFlight := by
  cases change with
  | approve name ownerReferences spec =>
    simp only [ApiServer.change]
    split <;> rfl
  | _ => rfl

variable {subjects}

/-- Requests on their way go on fitting. -/
lemma OwnInvariant.keeps (h : OwnInvariant subjects server) (hkeeps : KeepsVersions server server')
    (hflight : ∀ request ∈ server'.inFlight, request ∈ server.inFlight) :
    OwnInvariant subjects server' where
  fresh := hkeeps.fresh h.fresh
  inFlight request hrequest := by
    obtain ⟨subject, hsubject, hfits⟩ := h.inFlight request (hflight request hrequest)
    exact ⟨subject, hsubject, hfits.keeps hkeeps⟩

variable (subjects) in
/-- Reconciliations touch what belongs to their objects. -/
def ownConduct : Conduct where
  rules := ownDiscipline subjects
  inv := OwnInvariant subjects
  ends _ _ _ _ := True
  unused _ _ _ := True
  admitted _ _ := True
  compatible :=
    { refl := fun _ _ _ => .of_secrets rfl
      trans := fun _ _ {_ _ _} => KeepsVersions.trans
      own := fun {run subject server op reply server'} hinv hallowed hserves => by
        refine ⟨?_, fun _ _ _ => keepsVersions_serves hserves⟩
        cases hserves with
        | answered =>
          apply hinv.keeps (keepsVersions_handle server _ op)
          rw [inFlight_handle]
          exact fun _ hrequest => hrequest
        | failed =>
          refine ⟨hinv.fresh, fun request hrequest => ?_⟩
          rcases List.mem_cons.mp hrequest with rfl | hold
          · exact ⟨subject, hallowed⟩
          · exact hinv.inFlight request hold }
  serves _ _ _ := rfl
  arrive {server position id op} hinv hflight := by
    have herased : KeepsVersions server
        { server with inFlight := server.inFlight.eraseIdx position } := .of_secrets rfl
    have hkeeps := herased.trans (keepsVersions_handle _ ⟨id, false⟩ op)
    refine ⟨hinv.keeps hkeeps fun request hrequest => ?_, fun _ _ => hkeeps⟩
    rw [inFlight_handle] at hrequest
    exact List.mem_of_mem_eraseIdx hrequest
  change {server change} hinv _ := by
    have hkeeps := keepsVersions_change server change
    refine ⟨hinv.keeps hkeeps fun request hrequest => ?_, fun _ _ => hkeeps⟩
    rwa [inFlight_change] at hrequest
  ends_rely _ _ := trivial
  unused_rely _ _ := trivial

end Conduct

/-! ### What reconciliations ask for -/

section Programs

variable {subjects : ℕ → Option Subject} {run : ℕ} {ε α β : Type}

variable (subjects run subject) in
/-- From any server, the program touches only what belongs to its object. -/
def Confined (program : Program Op Op.Reply ε α) : Prop :=
  ∀ server : ApiServer, server.FreshSecrets →
    program.Upholds (ownDiscipline subjects run subject) server fun _ later => later.FreshSecrets

lemma confined_of_suits (hrun : subjects run = some subject) {program : Program Op Op.Reply ε α}
    (h : program.Asks subject.Suits) : Confined subject subjects run program := by
  intro server hfresh
  have hkeeps : program.Upholds (ownDiscipline subjects run subject) server
      fun _ later => KeepsVersions server later := by
    apply Program.upholds_of_asks h
    · exact fun _ => .of_secrets rfl
    · exact fun {_ _ _} => KeepsVersions.trans
    · exact fun hrely => hrely
    · exact fun server _ _ hsuits => ⟨hrun, hsuits server⟩
    · exact fun _ _ _ _ _ hserves => keepsVersions_serves hserves
  exact hkeeps.mono fun _ _ hlater => hlater.fresh hfresh

lemma confined_pure {a : α} :
    Confined subject subjects run (pure a : Program Op Op.Reply ε α) := fun _ hfresh => hfresh

lemma confined_fail {error : ε} :
    Confined subject subjects run (Program.fail error : Program Op Op.Reply ε α) :=
  fun _ hfresh => hfresh

lemma confined_lift {result : Except ε α} :
    Confined subject subjects run (Program.lift result : Program Op Op.Reply ε α) :=
  fun _ hfresh => hfresh

lemma confined_bind {program : Program Op Op.Reply ε α} {next : α → Program Op Op.Reply ε β}
    (h : Confined subject subjects run program)
    (hnext : ∀ a, Confined subject subjects run (next a)) :
    Confined subject subjects run (program >>= next) := by
  intro server hfresh
  rw [Program.upholds_bind]
  refine (h server hfresh).mono fun result later hlater => ?_
  cases result with
  | ok a => exact hnext a later hlater
  | error error => exact hlater

lemma confined_attempt {program : Program Op Op.Reply ε α}
    (h : Confined subject subjects run program) :
    Confined subject subjects run
      (program.attempt : Program Op Op.Reply β (Except ε α)) := by
  intro server hfresh
  rw [Program.upholds_attempt]
  exact h server hfresh

lemma confined_backend {program : Backend α} (h : Confined subject subjects run program) :
    Confined subject subjects run (Controller.backend program) :=
  confined_bind (confined_attempt h) fun _ => confined_lift

/-! ### A vault -/

section Vault

variable {provider : ControllerProvider} {managed : ManagedCrypto} {vault : ThoraxVault}
  {credential : RatchetCredential} {trustedRoot : HashValue} {source : Source}
  {random : Randomness}

/-- What a ratchet Secret must look like makes it one of the vault. -/
lemma owns_of_validateMetadata {secret : Secret}
    (h : validateMetadata secret.metadata [ownerReference vault.uid] = .ok ()) :
    (Subject.vault vault).Owns secret := by
  unfold validateMetadata at h
  dsimp only at h
  split at h
  · cases h
  · next hvalid =>
    simp only [Bool.or_eq_true, Bool.not_eq_true', not_or, Bool.not_eq_false] at hvalid
    obtain ⟨howned, hlabelled⟩ := hvalid
    refine ⟨?_, hlabelled⟩
    obtain ⟨owners, howners, howned⟩ := (Option.any_eq_true _ _).mp howned
    refine (Option.any_eq_true _ _).mpr ⟨owners, howners, ?_⟩
    obtain ⟨owner, howner, hcontrols⟩ := List.any_eq_true.mp howned
    have hcontrols : owner.controller = some true ∧ owner.uid = vault.uid := by
      simpa [ownerReference] using hcontrols
    exact List.any_eq_true.mpr ⟨owner, howner, Bool.and_eq_true_iff.mpr
      ⟨decide_eq_true hcontrols.1, decide_eq_true hcontrols.2⟩⟩

/-- The revision that is found is one of a ratchet of the vault. -/
lemma seen_getRevision {store : StoreProvider} (hrun : subjects run = some (.vault vault))
    (howners : credential.ownerReferences = [ownerReference vault.uid]) (hfresh : server.FreshSecrets) :
    (getRevision store credential trustedRoot).Upholds (ownDiscipline subjects run (.vault vault))
      server fun result later => later.FreshSecrets ∧ ∀ version, result = .ok (some version) →
        (later.secrets (credential.secretName store trustedRoot)).Seen
          (Subject.vault vault).Owns version := by
  unfold getRevision Backend.request
  simp only [Program.upholds_bind, Program.upholds_ask]
  intro before hrely
  have hbefore : before.FreshSecrets := hrely.fresh hfresh
  refine ⟨⟨hrun, trivial⟩, fun reply later hserves => ?_⟩
  cases hserves with
  | failed => exact ⟨hbefore, fun version hversion => by cases hversion⟩
  | answered =>
    simp only [ApiServer.handle]
    cases hstored : (before.secrets (credential.secretName store trustedRoot)).stored with
    | none => exact ⟨hbefore, fun version hversion => by cases hversion⟩
    | some stored =>
      show Program.Upholds _ (Program.lift (validateMetadata stored.value.metadata
        credential.ownerReferences) >>= fun _ => pure (some stored.version)) before _
      cases hvalid : validateMetadata stored.value.metadata credential.ownerReferences with
      | error error => exact ⟨hbefore, fun version hversion => by cases hversion⟩
      | ok _ =>
        refine ⟨hbefore, fun version hversion => ?_⟩
        obtain rfl : stored.version = version := Option.some.inj (Except.ok.inj hversion)
        rw [howners] at hvalid
        exact Slot.seen_of_stored (hbefore _) hstored (owns_of_validateMetadata hvalid)

/-- A save replaces the ratchet whose revision was found, or creates one. -/
lemma confined_saveRatchet {store : StoreProvider} {ratchet : Ratchet} {revision : Option ℕ}
    (hrun : subjects run = some (.vault vault))
    (howners : credential.ownerReferences = [ownerReference vault.uid]) (hfresh : server.FreshSecrets)
    (hseen : ∀ version, revision = some version →
      (server.secrets (credential.secretName store ratchet.trustedRoot)).Seen
        (Subject.vault vault).Owns version) :
    (saveRatchet store managed credential ratchet revision).Upholds
      (ownDiscipline subjects run (.vault vault)) server fun _ later => later.FreshSecrets := by
  unfold saveRatchet
  rw [Program.upholds_bind, Program.upholds_lift]
  cases hsaved : savedSecret store managed credential ratchet with
  | error error => exact hfresh
  | ok secret =>
    have howner : secret.metadata.ownerReferences = some [ownerReference vault.uid] := by
      rw [ownerReferences_savedSecret hsaved, howners]
    have hwrite : ∀ {write : Write Secret}, write.value = secret →
        (∀ later : ApiServer, KeepsVersions server later →
          (later.secrets (credential.secretName store ratchet.trustedRoot)).Founded
            (fun before _ => (Subject.vault vault).Owns before) write) →
        (Backend.request (.writeSecret (credential.secretName store ratchet.trustedRoot)
          write)).Upholds (ownDiscipline subjects run (.vault vault)) server
            fun _ later => later.FreshSecrets := by
      intro write hvalue hfounded
      refine Program.upholds_bind.mpr fun before hrely => ⟨⟨hrun, ?_, ?_, hfounded before hrely⟩,
        fun reply later hserves => ?_⟩
      · exact fun _ hprojection => by cases hprojection
      · rw [hvalue]
        exact howner
      · exact (hrely.trans (keepsVersions_serves hserves)).fresh hfresh
    cases revision with
    | none => exact hwrite rfl fun _ _ => trivial
    | some version =>
      exact hwrite rfl fun later hkeeps =>
        Slot.founded_replace_iff.mpr ((hseen version rfl).advances (hkeeps.advances _))

/-- A swap touches only the ratchet of the vault. -/
lemma confined_compareAndSwap {store : StoreProvider} {user : UserId} {expected : Option ℕ}
    {ratchet : Ratchet} (hrun : subjects run = some (.vault vault))
    (howners : credential.ownerReferences = [ownerReference vault.uid]) :
    Confined (.vault vault) subjects run
      (compareAndSwap store managed credential trustedRoot user expected ratchet) := by
  have hconclude : ∀ outcome,
      Confined (.vault vault) subjects run (concludeSwap outcome) := fun outcome =>
    confined_of_suits hrun (Program.asks_bind (Program.asks_ask.mpr fun _ => trivial) fun _ =>
      Program.asks_pure)
  intro server hfresh
  unfold compareAndSwap
  split
  · exact hfresh
  · next hscope =>
    push Not at hscope
    rw [Program.upholds_bind]
    refine (seen_getRevision hrun howners hfresh).mono fun result later hlater => ?_
    obtain ⟨hlater, hseen⟩ := hlater
    cases result with
    | error error => exact hlater
    | ok revision =>
      simp only
      split
      · exact hconclude _ later hlater
      · rw [Program.upholds_bind, Program.upholds_attempt]
        have hsave : (saveRatchet store managed credential ratchet revision).Upholds
            (ownDiscipline subjects run (.vault vault)) later fun _ last => last.FreshSecrets := by
          apply confined_saveRatchet hrun howners hlater
          intro version hversion
          rw [hscope.2]
          exact hseen version (congrArg Except.ok hversion)
        refine hsave.mono fun saved last hlast => ?_
        simp only
        split
        · exact hconclude _ last hlast
        · exact hconclude _ last hlast
        · exact hlast

lemma confined_finishVerifiedVault {ratchet : Ratchet} {expected : Option ℕ}
    (hrun : subjects run = some (.vault vault))
    (howners : credential.ownerReferences = [ownerReference vault.uid]) :
    Confined (.vault vault) subjects run
      (finishVerifiedVault provider vault source credential ratchet expected) := by
  unfold finishVerifiedVault
  simp only
  split_ifs
  · exact confined_of_suits hrun (asks_report.mono fun _ => Op.ReportsOn.suits)
  · exact confined_of_suits hrun (asks_report.mono fun _ => Op.ReportsOn.suits)
  · refine confined_bind (confined_backend (confined_compareAndSwap hrun howners)) fun outcome => ?_
    exact confined_of_suits hrun (asks_concludeVerified.mono fun _ => Op.ReportsOn.suits)

lemma confined_establishTrust {approved : Approved} {baseline : List RatchetRecordV1}
    {expected : Option ℕ} (hrun : subjects run = some (.vault vault))
    (howners : credential.ownerReferences = [ownerReference vault.uid]) :
    Confined (.vault vault) subjects run
      (establishTrust provider vault source credential approved baseline expected) := by
  unfold establishTrust
  simp only
  split
  · exact confined_of_suits hrun (asks_report.mono fun _ => Op.ReportsOn.suits)
  split
  · cases approved.purpose with
    | enroll => exact confined_of_suits hrun (asks_report.mono fun _ => Op.ReportsOn.suits)
    | restoreTrust => exact confined_of_suits hrun (asks_report.mono fun _ => Op.ReportsOn.suits)
  refine confined_bind confined_lift fun _ => confined_bind confined_lift fun _ => ?_
  refine confined_bind (confined_of_suits hrun (Program.asks_ask.mpr fun _ => trivial)) fun _ => ?_
  refine confined_bind (confined_backend (confined_compareAndSwap hrun howners)) fun outcome => ?_
  exact confined_of_suits hrun (asks_concludeEstablished.mono fun _ => Op.ReportsOn.suits)

lemma confined_requestTrust {missing : Missing} (hrun : subjects run = some (.vault vault))
    (howners : credential.ownerReferences = [ownerReference vault.uid]) :
    Confined (.vault vault) subjects run
      (requestTrust provider vault source credential missing random) := by
  refine confined_bind (confined_of_suits hrun (asks_ensureJoinRequest.mono fun _ =>
    Op.ReportsOn.suits)) fun request => ?_
  refine confined_bind (confined_of_suits hrun (Program.asks_bind (Program.asks_ask.mpr fun _ =>
    trivial) fun _ => Program.asks_lift)) fun found => ?_
  cases found with
  | none => exact confined_of_suits hrun (asks_report.mono fun _ => Op.ReportsOn.suits)
  | some object =>
    refine confined_bind confined_lift fun approved => confined_bind confined_lift fun baseline => ?_
    refine confined_bind (confined_of_suits hrun (asks_previousRevision.mono
      fun _ (hop : Op.ReportsOn vault _) => hop.suits)) fun revision => ?_
    exact confined_establishTrust hrun howners

lemma confined_reconcileTrust {identity : ManagedIdentity}
    (hrun : subjects run = some (.vault vault)) :
    Confined (.vault vault) subjects run
      (reconcileTrust provider vault source identity random) := by
  unfold reconcileTrust
  refine confined_bind (confined_attempt (confined_of_suits hrun (asks_loadSnapshot.mono fun _ =>
    Op.Reads.suits))) fun loaded => ?_
  split
  · exact confined_finishVerifiedVault hrun rfl
  · exact confined_of_suits hrun (asks_report.mono fun _ => Op.ReportsOn.suits)
  · exact confined_requestTrust hrun rfl
  · split
    · exact confined_requestTrust hrun rfl
    · exact confined_of_suits hrun (asks_report.mono fun _ => Op.ReportsOn.suits)

/-- An identity is created for the vault, or read. -/
lemma suits_loadOrCreateIdentity :
    (loadOrCreateIdentity provider vault random).Asks (Subject.vault vault).Suits := by
  have hread : ∀ {op : Op}, op.Reads →
      (Controller.request op).Asks (Subject.vault vault).Suits := fun h =>
    Program.asks_bind (Program.asks_ask.mpr h.suits) fun _ => Program.asks_lift
  refine Program.asks_bind (hread ?_) fun found => ?_
  · trivial
  cases found with
  | some metadata =>
    simp only
    split
    · refine Program.asks_bind (hread ?_) fun secret => Program.asks_pure
      trivial
    · exact Program.asks_pure
  | none =>
    simp only
    split
    · exact Program.asks_pure
    · refine Program.asks_bind (Program.asks_ask.mpr fun server => ?_) fun reply => ?_
      · refine ⟨fun _ hprojection => ?_, rfl, trivial⟩
        cases hprojection
      split
      · exact Program.asks_pure
      · exact Program.asks_pure
      · exact Program.asks_fail

/-- A report of a status, with what is left to wait. -/
lemma confined_setVaultStatus {root revision identityUserId : Option String} {condition : Condition}
    {delay : ℕ} (hrun : subjects run = some subject) :
    Confined subject subjects run (do
      setVaultStatus vault root revision identityUserId condition
      pure delay : Controller ℕ) :=
  confined_of_suits hrun ((Program.asks_bind asks_setVaultStatusWithExtra fun _ =>
    Program.asks_pure).mono fun _ => Op.ReportsOn.suits)

lemma confined_reconcileVaultInner (hrun : subjects run = some (.vault vault)) :
    Confined (.vault vault) subjects run (reconcileVaultInner provider vault random) := by
  refine confined_bind confined_lift fun _ => ?_
  refine confined_bind (confined_of_suits hrun (Program.asks_bind (Program.asks_ask.mpr fun _ =>
    trivial) fun _ => Program.asks_lift)) fun found => ?_
  cases found with
  | none => exact confined_setVaultStatus hrun
  | some configMap =>
    simp only
    split
    · exact confined_setVaultStatus hrun
    · split
      · exact confined_setVaultStatus hrun
      · refine confined_bind confined_lift fun source => ?_
        refine confined_bind (confined_of_suits hrun suits_loadOrCreateIdentity) fun outcome => ?_
        cases outcome with
        | ready identity => exact confined_reconcileTrust hrun
        | recoveryRequired => exact confined_setVaultStatus hrun
        | unavailable => exact confined_setVaultStatus hrun

/-- A reconciliation of a vault touches only what belongs to the vault. -/
theorem confined_reconcileVault (hrun : subjects run = some (.vault vault)) :
    Confined (.vault vault) subjects run (reconcileVault provider vault random) := by
  refine confined_bind (confined_attempt (confined_reconcileVaultInner hrun)) fun result => ?_
  cases result with
  | ok delay => exact confined_pure
  | error error => exact confined_setVaultStatus hrun

end Vault

/-! ### A projection -/

section Projection

variable {provider : ProjectionProvider} {projection : ThoraxSecret}

lemma suits_projectionRequest (hop : subject.Suits op) :
    (Controller.request op).Asks subject.Suits :=
  Program.asks_bind (Program.asks_ask.mpr hop) fun _ => Program.asks_lift

lemma suits_setSecretStatus {revision : Option String} {condition : Condition} :
    (setSecretStatus projection revision condition).Asks subject.Suits := by
  unfold setSecretStatus
  by_cases hsame : projection.status = some ⟨projection.generation, revision, [condition]⟩
  · simp [hsame]
  · simp only [hsame]
    exact suits_projectionRequest fun _ => trivial

/-- After the metadata has been read, what belongs to the object is seen under its version. -/
lemma upholds_getSecretMetadata {name : String}
    {next : Option (Stored ObjectMeta) → Controller α} (hrun : subjects run = some subject)
    (hfresh : server.FreshSecrets)
    (hnext : ∀ found (later : ApiServer), later.FreshSecrets →
      (∀ existing, found = some existing → ∀ P : Secret → Prop,
        (∀ secret, secret.metadata = existing.value → P secret) →
          (later.secrets name).Seen P existing.version) →
      (next found).Upholds (ownDiscipline subjects run subject) later
        fun _ last => last.FreshSecrets) :
    (do next (← Controller.request (.getSecretMetadata name)) : Controller α).Upholds
      (ownDiscipline subjects run subject) server fun _ later => later.FreshSecrets := by
  rw [Program.upholds_bind]
  refine Program.upholds_bind.mpr fun before hrely => ⟨⟨hrun, trivial⟩, fun reply later hserves => ?_⟩
  have hbefore : before.FreshSecrets := hrely.fresh hfresh
  cases hserves with
  | failed => exact hbefore
  | answered =>
    refine hnext ((before.secrets name).stored.map fun stored =>
      ⟨stored.value.metadata, stored.version⟩) before hbefore fun existing hexisting P hP => ?_
    obtain ⟨stored, hstored, rfl⟩ := Option.map_eq_some_iff.mp hexisting
    exact Slot.seen_of_stored (hbefore name) hstored (hP stored.value rfl)

/-- What the metadata says about the destination, the object controls. -/
lemma owns_of_ownsDestination {existing : ObjectMeta} {secret : Secret}
    (howned : ownsDestination existing projection.uid = true) (hsame : secret.metadata = existing) :
    (Subject.projection projection).Owns secret :=
  ⟨hsame ▸ howned, trivial⟩

lemma confined_deleteOwnedProjection (hrun : subjects run = some (.projection projection)) :
    Confined (.projection projection) subjects run (deleteOwnedProjection projection) := by
  intro server hfresh
  refine upholds_getSecretMetadata hrun hfresh fun found later hlater hseen => ?_
  cases found with
  | none => exact hlater
  | some existing =>
    by_cases howned : ownsDestination existing.value projection.uid = true
    · have hdelete := hseen existing rfl _ fun secret hsame => owns_of_ownsDestination howned hsame
      simp only [howned]
      refine Program.upholds_bind.mpr fun before hrely => ⟨⟨hrun, ?_⟩, fun reply last hserves => ?_⟩
      · exact ⟨⟨projection, rfl, rfl⟩, hdelete.advances (hrely.advances _)⟩
      · exact (hrely.trans (keepsVersions_serves hserves)).fresh hlater
    · simp only [howned]
      exact hlater

lemma confined_failProjection {reason message : String}
    (hrun : subjects run = some (.projection projection)) :
    Confined (.projection projection) subjects run
      (failProjection projection reason message) := by
  unfold failProjection
  split_ifs
  · exact confined_bind (confined_deleteOwnedProjection hrun) fun _ =>
      confined_of_suits hrun suits_setSecretStatus
  · exact confined_of_suits hrun suits_setSecretStatus

lemma confined_handleProjectionSourceError {error : RuntimeVaultError}
    (hrun : subjects run = some (.projection projection)) :
    Confined (.projection projection) subjects run
      (handleProjectionSourceError projection error) := by
  unfold handleProjectionSourceError
  split_ifs
  · exact confined_bind (confined_deleteOwnedProjection hrun) fun _ =>
      confined_of_suits hrun suits_setSecretStatus
  · exact confined_of_suits hrun suits_setSecretStatus
  · exact confined_failProjection hrun

/-- A write to a destination names the version that was seen, if there was one. -/
lemma founded_destination {slot : Slot Secret} {P : Secret → Prop} (secret : Secret)
    (existing : Option (Stored ObjectMeta)) :
    (∀ found, existing = some found → slot.Seen P found.version) →
      slot.Founded (fun before _ => P before) (match existing with
        | some existing => .replace existing.version secret
        | none => .create secret) := by
  intro hseen
  cases existing with
  | none => trivial
  | some existing => exact Slot.founded_replace_iff.mpr (hseen existing rfl)

lemma confined_writeProjection {vaultBytes : Bytes} {data : BTreeMap String Bytes}
    {revision : String} (hrun : subjects run = some (.projection projection)) :
    Confined (.projection projection) subjects run
      (writeProjection projection vaultBytes data revision) := by
  intro server hfresh
  refine upholds_getSecretMetadata hrun hfresh fun existing later hlater hseen => ?_
  split
  · exact confined_bind (confined_of_suits hrun suits_setSecretStatus) (fun _ => confined_pure)
      later hlater
  · next howned =>
    have howned : ∀ found, existing = some found →
        (later.secrets projection.name).Seen (Subject.projection projection).Owns found.version := by
      rintro found rfl
      exact hseen found rfl _ fun secret hsame =>
        owns_of_ownsDestination (by simpa using howned) hsame
    simp only
    rw [Program.upholds_bind]
    intro marking hmarking
    refine ⟨⟨hrun, trivial⟩, fun _ marked hserves => ?_⟩
    have hmarked := hmarking.trans (keepsVersions_serves hserves)
    simp only [Program.upholds_done]
    rw [Program.upholds_bind]
    intro before hrely
    have hbefore := hmarked.trans hrely
    have hfounded := founded_destination (projectedSecret projection data revision) existing
      fun found hfound => (howned found hfound).advances (hbefore.advances _)
    refine ⟨⟨hrun, ?_, ?_, ?_⟩, fun reply last hserves => ?_⟩
    · intro observed hobserved
      obtain rfl := Subject.projection.inj hobserved
      rfl
    · cases existing <;> rfl
    · cases existing with
      | none => exact hfounded
      | some existing => exact hfounded
    · have hlast := (hbefore.trans (keepsVersions_serves hserves)).fresh hlater
      cases reply with
      | ok version => exact hlast
      | error error =>
        exact confined_bind (confined_failProjection hrun) (fun _ => confined_pure) last hlast

lemma confined_loadReadyVault {vault : ThoraxVault} (hrun : subjects run = some subject) :
    Confined subject subjects run (loadReadyVault provider vault) := by
  have hread : ∀ {op : Op}, op.Reads → Confined subject subjects run (Controller.request op) :=
    fun h => confined_of_suits hrun (suits_projectionRequest h.suits)
  refine confined_bind (hread ?_) fun _ => ?_
  · trivial
  refine confined_bind confined_lift fun _ => confined_bind confined_lift fun _ => ?_
  refine confined_bind confined_lift fun _ => confined_bind (hread ?_) fun _ => ?_
  · trivial
  refine confined_bind confined_lift fun _ => ?_
  split_ifs
  · refine confined_bind (hread ?_) fun _ => confined_bind confined_lift fun _ => ?_
    · trivial
    refine confined_bind (confined_of_suits hrun (asks_backend (asks_loadRatchet.mono fun _ =>
      Op.Reads.suits))) fun loaded => ?_
    cases loaded with
    | none => exact confined_fail
    | some loaded => exact confined_pure
  · exact confined_fail

lemma confined_projectVault {vault : ThoraxVault}
    (hrun : subjects run = some (.projection projection)) :
    Confined (.projection projection) subjects run (projectVault provider projection vault) := by
  refine confined_bind (confined_loadReadyVault hrun) fun ready => ?_
  refine confined_bind confined_lift fun session => ?_
  split
  · exact confined_bind (confined_handleProjectionSourceError hrun) fun _ => confined_pure
  · refine confined_bind (confined_writeProjection hrun) fun written => ?_
    cases written with
    | true =>
      exact confined_bind (confined_of_suits hrun suits_setSecretStatus) fun _ => confined_pure
    | false => exact confined_pure

/-- A reconciliation of a projection touches only what belongs to the projection. -/
theorem confined_reconcileSecret (hrun : subjects run = some (.projection projection)) :
    Confined (.projection projection) subjects run (reconcileSecret provider projection) := by
  have hfail : ∀ {reason message : String} {delay : ℕ},
      Confined (.projection projection) subjects run (do
        failProjection projection reason message
        pure delay : Controller ℕ) := fun {_ _ _} =>
    confined_bind (confined_failProjection hrun) fun _ => confined_pure
  refine confined_bind (confined_attempt ?_) fun result => ?_
  · refine confined_bind confined_lift fun _ => ?_
    refine confined_bind (confined_of_suits hrun (suits_projectionRequest fun _ => trivial))
      fun found => ?_
    cases found with
    | none => exact hfail
    | some vault =>
      simp only
      split_ifs
      · exact confined_projectVault hrun
      · exact hfail
  · cases result with
    | ok delay => exact confined_pure
    | error error => exact hfail

end Projection

end Programs

/-! ### Every run -/

section Runs

variable {provider : ProjectionProvider} {initial : ApiServer} {state state' : System}
  {subjects : ℕ → Option Subject} {action : System.Action}

/-- What a step starts a reconciliation for, if it starts one. -/
def System.Action.subject? : System.Action → Option Subject
  | .reconcileVault vault _ => some (.vault vault)
  | .reconcileSecret projection => some (.projection projection)
  | _ => none

/-- A system, with what each of its reconciliations was started for. -/
structure History where
  system : System
  subjects : ℕ → Option Subject

/-- Nothing has been started. -/
def History.of (server : ApiServer) : History := ⟨⟨server, fun _ => none, 0⟩, fun _ => none⟩

/-- One step, of a kind that is admitted. -/
inductive History.Step (provider : ProjectionProvider) (admitted : System.Action → Prop) :
    History → History → Prop
  | goes {state state' : System} {subjects : ℕ → Option Subject} {action : System.Action}
      (hadmitted : admitted action) (hnone : action.subject? = none)
      (hstep : state.step provider action = some state') :
      History.Step provider admitted ⟨state, subjects⟩ ⟨state', subjects⟩
  | starts {state state' : System} {subjects : ℕ → Option Subject} {action : System.Action}
      {subject : Subject} (hadmitted : admitted action) (hsubject : action.subject? = some subject)
      (hstep : state.step provider action = some state') :
      History.Step provider admitted ⟨state, subjects⟩
        ⟨state', Function.update subjects state.nextRun (some subject)⟩

/-- The reconciliation whose call a step carries out, at once or late. -/
def System.Action.carriesOut (state : System) : System.Action → Option ℕ
  | .serve id => some id
  | .arrive position => (state.server.inFlight[position]?).map Prod.fst
  | _ => none

lemma nextRun_of_goes (hnone : action.subject? = none)
    (hstep : state.step provider action = some state') : state'.nextRun = state.nextRun := by
  cases moves_of_step hstep with
  | reconcileVault vault random hversion => simp [System.Action.subject?] at hnone
  | reconcileSecret projection => simp [System.Action.subject?] at hnone
  | _ => rfl

/-- A reconciliation that is started touches only what belongs to what it is started for. -/
lemma starts_confined {subject : Subject} (hsubject : action.subject? = some subject)
    (hstep : state.step provider action = some state') :
    ∃ program, state' = state.start subject program ∧
      ∀ {final : ℕ → Option Subject} {run : ℕ}, final run = some subject →
        Confined subject final run program := by
  cases moves_of_step hstep with
  | reconcileVault vault random hversion =>
    obtain rfl := Option.some.inj hsubject
    exact ⟨_, rfl, fun hrun => confined_reconcileVault hrun⟩
  | reconcileSecret projection =>
    obtain rfl := Option.some.inj hsubject
    exact ⟨_, rfl, fun hrun => confined_reconcileSecret hrun⟩
  | _ => simp [System.Action.subject?] at hsubject

/-- What holds of a reached state: every reconciliation and every late request touches only what
belongs to the object it was started for. -/
structure History.Kept (history : History) : Prop where
  unused : ∀ id, history.system.nextRun ≤ id → history.subjects id = none
  holds : ∀ final : ℕ → Option Subject,
    (∀ id subject, history.subjects id = some subject → final id = some subject) →
      (ownConduct final).Holds history.system

variable {history later : History} {admitted : System.Action → Prop}

lemma kept_of (hfresh : initial.FreshSecrets) (hflight : initial.inFlight = []) :
    (History.of initial).Kept where
  unused _ _ := rfl
  holds final _ := by
    refine ⟨⟨⟨hfresh, ?_⟩, ?_⟩, fun _ _ => ⟨rfl, fun _ => trivial⟩⟩
    · simp [History.of, hflight]
    · intro _ _ _ hprogram
      simp [History.of, System.programs] at hprogram

/-- The subjects of a history outlast a step. -/
lemma History.Step.keepsSubjects (h : History.Step provider admitted history later)
    (hkept : history.Kept) {id : ℕ} {subject : Subject}
    (hsubject : history.subjects id = some subject) : later.subjects id = some subject := by
  cases h with
  | goes _ _ _ => exact hsubject
  | @starts state _ subjects _ _ _ _ _ =>
    have hne : id ≠ state.nextRun := by
      rintro rfl
      have hnone : subjects state.nextRun = none := hkept.unused _ (le_refl _)
      rw [show subjects state.nextRun = some subject from hsubject] at hnone
      contradiction
    exact (Function.update_of_ne hne _ _).trans hsubject

lemma History.Step.kept (h : History.Step provider admitted history later)
    (hkept : history.Kept) : later.Kept := by
  have hbefore := fun (final : ℕ → Option Subject)
      (hfinal : ∀ id subject, later.subjects id = some subject → final id = some subject) =>
    hkept.holds final fun id subject hsubject => hfinal id subject (h.keepsSubjects hkept hsubject)
  cases h with
  | @goes state state' subjects action _ hnone hstep =>
    refine ⟨fun id hid => hkept.unused id ?_, fun final hfinal => ?_⟩
    · rwa [← nextRun_of_goes hnone hstep]
    · refine (hbefore final hfinal).step ?_ hstep
      cases action with
      | reconcileVault vault random => simp [System.Action.subject?] at hnone
      | reconcileSecret projection => simp [System.Action.subject?] at hnone
      | _ => trivial
  | @starts state state' subjects action subject _ hsubject hstep =>
    obtain ⟨program, rfl, hconfined⟩ := starts_confined hsubject hstep
    refine ⟨fun id hid => ?_, fun final hfinal => ?_⟩
    · have hlt : state.nextRun < id := hid
      exact (Function.update_of_ne hlt.ne' _ _).trans (hkept.unused id hlt.le)
    · have hstate := hbefore final hfinal
      have hrun : final state.nextRun = some subject := hfinal _ _ (Function.update_self ..)
      refine hstate.start ?_
      exact (hconfined hrun state.server hstate.guarded.1.fresh).mono fun _ _ _ => trivial

lemma History.Kept.steps (h : history.Kept)
    (hsteps : Relation.ReflTransGen (History.Step provider admitted) history later) :
    later.Kept := by
  induction hsteps with
  | refl => exact h
  | tail _ hstep ih => exact hstep.kept ih

lemma secrets_abandon (server : ApiServer) (run : ℕ) (program : Controller ℕ) :
    (server.abandon run program).secrets = server.secrets := by
  cases program with
  | done result => rfl
  | call op next => cases op <;> rfl

/-- A step of the controller that changes a Secret carries out the call of a reconciliation, and
touches what belongs to its object. -/
lemma History.Kept.touches (h : history.Kept)
    (hstep : history.system.step provider action = some state')
    (hinside : ∀ change, action ≠ .change change) {name : String}
    (hchanged : (state'.server.secrets name).stored ≠ (history.system.server.secrets name).stored) :
    ∃ id subject, action.carriesOut history.system = some id ∧ history.subjects id = some subject ∧
      subject.Touches name ((history.system.server.secrets name).stored.map (·.value))
        ((state'.server.secrets name).stored.map (·.value)) := by
  have hholds := h.holds history.subjects fun _ _ hsubject => hsubject
  cases moves_of_step hstep with
  | reconcileVault vault random hversion => exact absurd rfl hchanged
  | reconcileSecret projection => exact absurd rfl hchanged
  | @serve id subject op next hrun =>
    obtain ⟨⟨hsubject, hfits⟩, -⟩ := hholds.call hrun
    exact ⟨id, subject, rfl, hsubject, hfits.touches hchanged⟩
  | fail hrun hmark => exact absurd rfl hchanged
  | @stop id run hrun =>
    refine absurd ?_ hchanged
    exact congrArg (fun secrets => (secrets name).stored) (secrets_abandon _ id run.program)
  | @arrive position id op hflight =>
    obtain ⟨subject, hsubject, hfits⟩ :=
      hholds.guarded.1.inFlight _ (List.mem_of_getElem? hflight)
    have herased : subject.Fits
        { history.system.server with inFlight := history.system.server.inFlight.eraseIdx position }
          op := hfits.keeps (.of_secrets rfl)
    exact ⟨id, subject, by simp [System.Action.carriesOut, hflight], hsubject,
      herased.touches hchanged⟩
  | change change => exact absurd rfl (hinside change)

/-- In every state that is reached, whatever else goes on: a step of the controller that changes a
Secret carries out the call of some reconciliation, and the object of that reconciliation controls
what was there before and what is there now. -/
theorem reconciliations_touchOwnSecrets (hfresh : initial.FreshSecrets)
    (hflight : initial.inFlight = [])
    (hreaches : Relation.ReflTransGen (History.Step provider fun _ => True) (.of initial) history)
    (hstep : history.system.step provider action = some state')
    (hinside : ∀ change, action ≠ .change change) {name : String}
    (hchanged : (state'.server.secrets name).stored ≠ (history.system.server.secrets name).stored) :
    ∃ id subject, action.carriesOut history.system = some id ∧ history.subjects id = some subject ∧
      subject.Touches name ((history.system.server.secrets name).stored.map (·.value))
        ((state'.server.secrets name).stored.map (·.value)) :=
  ((kept_of hfresh hflight).steps hreaches).touches hstep hinside hchanged

/-- Nobody else changes the Secret. -/
def System.Action.SparesSecret (name : String) (action : System.Action) : Prop :=
  ∀ secret, action ≠ .change (.setSecret name secret)

/-- A change of something else leaves the Secret. -/
lemma stored_change {server : ApiServer} {change : Change} {name : String}
    (hspares : (System.Action.change change).SparesSecret name) :
    ((server.change change).secrets name).stored = (server.secrets name).stored := by
  cases change with
  | setSecret other secret =>
    have hne : name ≠ other := by
      rintro rfl
      exact hspares secret rfl
    simp [ApiServer.change, ApiServer.setSecret, hne]
  | approve other ownerReferences spec =>
    simp only [ApiServer.change]
    split <;> rfl
  | _ => rfl

/-- A Secret that none of the reconciled objects owns outlasts a step. -/
lemma History.Step.survives {name : String} {stored : Stored Secret} (hkept : history.Kept)
    (h : History.Step provider (System.Action.SparesSecret name) history later)
    (hstored : (history.system.server.secrets name).stored = some stored)
    (hothers : ∀ id subject, later.subjects id = some subject → ¬ subject.Owns stored.value) :
    (later.system.server.secrets name).stored = some stored := by
  by_contra hchanged
  rw [← hstored] at hchanged
  obtain ⟨action, hspares, hstep⟩ : ∃ action : System.Action, action.SparesSecret name ∧
      history.system.step provider action = some later.system := by
    cases h with
    | goes hadmitted _ hstep => exact ⟨_, hadmitted, hstep⟩
    | starts hadmitted _ hstep => exact ⟨_, hadmitted, hstep⟩
  have hinside : ∀ change, action ≠ .change change := by
    rintro change rfl
    have hlater : later.system = { history.system with
        server := history.system.server.change change } := (Option.some.inj hstep).symm
    rw [hlater] at hchanged
    exact hchanged (stored_change hspares)
  obtain ⟨id, subject, -, hsubject, htouches⟩ := hkept.touches hstep hinside hchanged
  refine hothers id subject (h.keepsSubjects hkept hsubject) (htouches.owned _ ?_)
  rw [hstored, Option.map_some]

/-- Whatever has gone on before, and as long as nobody else changes it: a Secret that none of the
reconciled objects owns is never replaced and never deleted. -/
theorem secretsOfOthers_survive (hfresh : initial.FreshSecrets) (hflight : initial.inFlight = [])
    {name : String} {stored : Stored Secret}
    (hreaches : Relation.ReflTransGen (History.Step provider fun _ => True) (.of initial) history)
    (hstored : (history.system.server.secrets name).stored = some stored)
    (hlater : Relation.ReflTransGen
      (History.Step provider (System.Action.SparesSecret name)) history later)
    (hothers : ∀ id subject, later.subjects id = some subject → ¬ subject.Owns stored.value) :
    (later.system.server.secrets name).stored = some stored := by
  have hkept := (kept_of hfresh hflight).steps hreaches
  induction hlater with
  | refl => exact hstored
  | @tail middle last hmiddle hstep ih =>
    have hmiddleKept := hkept.steps hmiddle
    refine hstep.survives hmiddleKept (ih fun id subject hsubject => ?_) hothers
    exact hothers id subject (hstep.keepsSubjects hmiddleKept hsubject)

/-- Neither a vault nor the projections of others own the identity of a vault. -/
lemma not_owns_identitySecret {vault : ThoraxVault} {seed : Bytes} {subject : Subject}
    (huid : ∀ projection, subject = .projection projection → projection.uid ≠ vault.uid) :
    ¬ subject.Owns (identitySecret vault seed) := by
  rintro ⟨hcontrols, hkind⟩
  cases subject with
  | vault observed => simp [Secret.labelledRatchet, identitySecret] at hkind
  | projection observed =>
    simp [ownsDestination, identitySecret, isControlledBy, ownerReference, Subject.uid]
      at hcontrols
    exact huid observed rfl (of_decide_eq_true hcontrols).symm

/-! ### A destination that is given up -/

open TestSupport

/-- A projection whose vault is gone, and whose destination goes with it. -/
def strandedProjection : ThoraxSecret where
  name := "copy"
  uid := 5
  generation := none
  spec := ⟨"gone", ∅, ⟨"Opaque", ∅, ∅⟩, .delete, .retain⟩
  status := none

/-- The destination is there, beside the identity of a vault. -/
def strandedServer : ApiServer :=
  { testServer managedTables testVault (vaultFile 0) none with
    vaults := fun _ => none
    secrets := fun name =>
      if name = "copy" then ⟨some ⟨projectedSecret strandedProjection ∅ "", 0⟩, 1⟩
      else if name = "identity" then ⟨some ⟨identitySecret testVault [1], 0⟩, 1⟩
      else ⟨none, 0⟩ }

lemma freshSecrets_strandedServer : strandedServer.FreshSecrets := by
  intro name stored hstored
  simp only [strandedServer] at hstored ⊢
  split_ifs at hstored ⊢
  · obtain rfl := Option.some.inj hstored
    exact Nat.zero_lt_one
  · obtain rfl := Option.some.inj hstored
    exact Nat.zero_lt_one

/-- Calls go on with what has been started. -/
lemma steps_of_calls {subjects : ℕ → Option Subject} {actions : List System.Action}
    {state state' : System} (hcalls : ∀ action ∈ actions, action.subject? = none ∧ admitted action)
    (h : actions.foldlM (System.step provider) state = some state') :
    Relation.ReflTransGen (History.Step provider admitted) ⟨state, subjects⟩ ⟨state', subjects⟩ := by
  induction actions generalizing state with
  | nil =>
    obtain rfl := Option.some.inj h
    exact .refl
  | cons action actions ih =>
    obtain ⟨next, hnext, hrest⟩ := Option.bind_eq_some_iff.mp h
    obtain ⟨hnone, hadmitted⟩ := hcalls action List.mem_cons_self
    refine .head (.goes hadmitted hnone hnext) (ih ?_ hrest)
    exact fun other hother => hcalls other (List.mem_cons_of_mem _ hother)

/-- The history of the projection, after some calls. -/
def strandedRun (actions : List System.Action) : Option System :=
  actions.foldlM (System.step (testProjections managedTables))
    ((History.of strandedServer).system.start (.projection strandedProjection)
      (reconcileSecret (testProjections managedTables) strandedProjection))

def strandedSubjects : ℕ → Option Subject :=
  Function.update (fun _ => none) 0 (some (.projection strandedProjection))

lemma steps_strandedRun {actions : List System.Action} {state : System}
    (hstart : admitted (.reconcileSecret strandedProjection))
    (hcalls : ∀ action ∈ actions, action.subject? = none ∧ admitted action)
    (h : strandedRun actions = some state) :
    Relation.ReflTransGen (History.Step (testProjections managedTables) admitted)
      (.of strandedServer) ⟨state, strandedSubjects⟩ :=
  .head (.starts hstart rfl rfl) (steps_of_calls hcalls h)

/-- Whether there are a destination and an identity. -/
def System.kept (self : System) : Bool × Bool :=
  ((self.server.secrets "copy").stored.isSome, (self.server.secrets "identity").stored.isSome)

/-- The third call deletes the destination of the projection. -/
theorem reconciliations_touchOwnSecrets_stranded :
    ∃ state state' : System, (state.server.secrets "copy").stored.isSome = true ∧
      (state'.server.secrets "copy").stored = none ∧
      ∃ id subject, System.Action.carriesOut state (.serve 0) = some id ∧
        strandedSubjects id = some subject ∧
        subject.Touches "copy" ((state.server.secrets "copy").stored.map (·.value))
          ((state'.server.secrets "copy").stored.map (·.value)) := by
  have hbefore : (strandedRun [.serve 0, .serve 0]).map System.kept = some (true, true) := rfl
  have hafter : (strandedRun [.serve 0, .serve 0, .serve 0]).map System.kept =
      some (false, true) := rfl
  obtain ⟨state, hstate, hkept⟩ := Option.map_eq_some_iff.mp hbefore
  obtain ⟨state', hstate', hkept'⟩ := Option.map_eq_some_iff.mp hafter
  have hcopy : (state.server.secrets "copy").stored.isSome = true := congrArg Prod.fst hkept
  have hcopy' : (state'.server.secrets "copy").stored = none := by
    simpa [System.kept] using congrArg Prod.fst hkept'
  have hstep : state.step (testProjections managedTables) (.serve 0) = some state' := by
    have hsplit : strandedRun ([.serve 0, .serve 0] ++ [.serve 0]) = some state' := hstate'
    rw [strandedRun, List.foldlM_append] at hsplit
    obtain ⟨middle, hmiddle, hlast⟩ := Option.bind_eq_some_iff.mp hsplit
    obtain rfl := Option.some.inj (hstate.symm.trans hmiddle)
    simpa using hlast
  have hreaches : Relation.ReflTransGen
      (History.Step (testProjections managedTables) fun _ => True) (.of strandedServer)
        ⟨state, strandedSubjects⟩ :=
    steps_strandedRun trivial (by simp [System.Action.subject?]) hstate
  refine ⟨state, state', hcopy, hcopy', ?_⟩
  refine reconciliations_touchOwnSecrets freshSecrets_strandedServer rfl hreaches hstep (by simp) ?_
  rw [hcopy']
  intro hnone
  have hsame : (state.server.secrets "copy").stored = none := hnone.symm
  simp [hsame] at hcopy

/-- Meanwhile the identity of the vault stays. -/
theorem secretsOfOthers_survive_stranded :
    ∃ state : System, (state.server.secrets "copy").stored = none ∧
      (state.server.secrets "identity").stored = some ⟨identitySecret testVault [1], 0⟩ := by
  have hafter : (strandedRun [.serve 0, .serve 0, .serve 0]).map System.kept =
      some (false, true) := rfl
  obtain ⟨state, hstate, hkept⟩ := Option.map_eq_some_iff.mp hafter
  have hlater : Relation.ReflTransGen
      (History.Step (testProjections managedTables) (System.Action.SparesSecret "identity"))
        (.of strandedServer) ⟨state, strandedSubjects⟩ :=
    steps_strandedRun (by simp [System.Action.SparesSecret])
      (by simp [System.Action.subject?, System.Action.SparesSecret]) hstate
  refine ⟨state, by simpa [System.kept] using congrArg Prod.fst hkept, ?_⟩
  refine secretsOfOthers_survive freshSecrets_strandedServer rfl .refl rfl hlater
    fun id subject hsubject => ?_
  obtain rfl : subject = .projection strandedProjection := by
    by_cases hid : id = 0
    · subst hid
      exact (Option.some.inj hsubject).symm
    · simp [strandedSubjects, hid] at hsubject
  apply not_owns_identitySecret
  intro projection hprojection
  obtain rfl := Subject.projection.inj hprojection
  decide

end Runs

end Thorax.Kubernetes
