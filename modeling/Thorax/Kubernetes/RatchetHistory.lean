import Thorax.Kubernetes.Calls
import Thorax.Resolution.Report

/-!
# The history of a ratchet Secret

The writes of one Secret and the outcomes that were reported for it, read off the log of the
server, and what holds of them while nobody but reconcilers of one identity, root and vault writes
it: each write keeps what its predecessor remembered, and each reported outcome is a write.
-/

namespace Thorax.Kubernetes

open Collections Remote Versioned

/-! ### What is remembered -/

/-- The identity, root and vault whose rollback state a Secret holds. -/
structure RatchetScope where
  identity : ManagedIdentity
  trustedRoot : HashValue
  vaultUid : Uid

/-- An accepted write of a Secret, with the value it replaced. -/
structure SecretWrite where
  caller : Caller
  replaced : Option Secret
  written : Secret

/-- The value after some writes, the latest first. -/
def currentSecret (initial : Option Secret) : List SecretWrite → Option Secret
  | [] => initial
  | write :: _ => some write.written

/-- Each write replaced what the writes before it had left. -/
def Linked (initial : Option Secret) : List SecretWrite → Prop
  | [] => True
  | write :: earlier => write.replaced = currentSecret initial earlier ∧ Linked initial earlier

namespace ApiServer

/-- The writes of a Secret, the latest first. -/
def writes (self : ApiServer) (name : String) : List SecretWrite :=
  self.log.filterMap fun event =>
    match event with
    | .wroteSecret caller other replaced written =>
      if other = name then some ⟨caller, replaced, written⟩ else none
    | .sawApproval _ _ | .passed _ _ => none

/-- The reported outcomes, with the runs that reported them. -/
def outcomes (self : ApiServer) : List (ℕ × RatchetCasOutcome) :=
  self.log.filterMap fun event =>
    match event with
    | .passed run (.swapped outcome) => some (run, outcome)
    | _ => none

end ApiServer

/-- A call that leaves every Secret alone and reports no outcome. -/
def Op.Harmless : Op → Prop
  | .writeSecret _ _ | .deleteSecret _ _ | .mark (.swapped _) => False
  | _ => True

lemma Op.Reads.harmless {op : Op} (h : op.Reads) : op.Harmless := by
  cases op <;> trivial

lemma Op.ReportsOn.harmless {vault : ThoraxVault} {op : Op} (h : op.ReportsOn vault) :
    op.Harmless := by
  cases op <;> trivial

/-- The calls that are not harmless. -/
lemma Op.harmless_or (op : Op) : op.Harmless ∨ (∃ name write, op = .writeSecret name write) ∨
    (∃ name version, op = .deleteSecret name version) ∨ ∃ outcome, op = .mark (.swapped outcome) := by
  cases op with
  | writeSecret name write => exact Or.inr (Or.inl ⟨name, write, rfl⟩)
  | deleteSecret name version => exact Or.inr (Or.inr (Or.inl ⟨name, version, rfl⟩))
  | mark mark =>
    cases mark with
    | swapped outcome => exact Or.inr (Or.inr (Or.inr ⟨outcome, rfl⟩))
    | basedOn approval => exact Or.inl trivial
    | derivedFrom vaultBytes => exact Or.inl trivial
  | _ => exact Or.inl trivial

section Scope

variable (provider : StoreProvider) (managed : ManagedCrypto) (scope : RatchetScope)

def RatchetScope.credential : RatchetCredential := ⟨scope.identity, [ownerReference scope.vaultUid]⟩

def RatchetScope.secretName : String := scope.credential.secretName provider scope.trustedRoot

/-- What a Secret of the scope decodes to. -/
def RatchetScope.reads (secret : Secret) : Except RatchetStateError Ratchet :=
  decodeSecret provider managed secret scope.identity scope.trustedRoot

/-- The Secret passes every check of a load. -/
structure Authentic (secret : Secret) : Prop where
  valid : validateSecret scope.credential secret = .ok ()
  reads : ∃ ratchet, scope.reads provider managed secret = .ok ratchet

/-- What the older Secret remembers, the newer one remembers. -/
def KeepsSecret (older newer : Secret) : Prop :=
  ∀ before, scope.reads provider managed older = .ok before →
    ∃ after, scope.reads provider managed newer = .ok after ∧ before.Keeps after

/-- Nothing of a run is in flight that could write a Secret. -/
def Idle (run : ℕ) (server : ApiServer) : Prop :=
  ∀ op, (run, op) ∈ server.inFlight → op.Harmless

/-- The run has not written the Secret, and no write of it is in flight. -/
def Untouched (run : ℕ) (server : ApiServer) : Prop :=
  Idle run server ∧ ∀ write ∈ server.writes (scope.secretName provider), write.caller.run ≠ run

/-- A write of the run is what an outcome reports. -/
def Reports (run : ℕ) (ratchet : Ratchet) (server : ApiServer) : Prop :=
  ratchet.trustedRoot = scope.trustedRoot ∧ ratchet.watermarks[RecordKey.vaultRoot]? = none ∧
    ∃ write ∈ server.writes (scope.secretName provider), write.caller.run = run ∧
      savedSecret provider managed scope.credential ratchet = .ok write.written

/-- A write that keeps the value it names, and nothing else that touches a Secret. -/
def Safe (server : ApiServer) : Op → Prop
  | .writeSecret name write => name = scope.secretName provider ∧
      Authentic provider managed scope write.value ∧
      (server.secrets name).Founded (KeepsSecret provider managed scope) write
  | .deleteSecret _ _ | .mark (.swapped _) => False
  | _ => True

/-- The Secret is what its history says, every write keeps what it replaced, and what was reported
is so. -/
structure Sound (initial : Option Secret) (server : ApiServer) : Prop where
  fresh : (server.secrets (scope.secretName provider)).Fresh
  stored : (server.secrets (scope.secretName provider)).stored.map Stored.value =
    currentSecret initial (server.writes (scope.secretName provider))
  linked : Linked initial (server.writes (scope.secretName provider))
  initial : ∀ secret, initial = some secret → Authentic provider managed scope secret
  written : ∀ write ∈ server.writes (scope.secretName provider),
    Authentic provider managed scope write.written ∧
      ∀ older, write.replaced = some older → KeepsSecret provider managed scope older write.written
  reported : ∀ run ratchet revision, (run, .stored ratchet revision) ∈ server.outcomes →
    Reports provider managed scope run ratchet server
  conflict : ∀ run, (run, .conflict) ∈ server.outcomes → Untouched provider scope run server
  inFlight : ∀ request ∈ server.inFlight, Safe provider managed scope server request.2

/-- What the others leave of the server between two calls of a run. -/
structure Leaves (initial : Option Secret) (run : ℕ) (server server' : ApiServer) : Prop where
  sound : Sound provider managed scope initial server →
    Sound provider managed scope initial server'
  advances : (server.secrets (scope.secretName provider)).Advances
    (server'.secrets (scope.secretName provider))
  outcomes : ∀ outcome, (run, outcome) ∈ server'.outcomes ↔ (run, outcome) ∈ server.outcomes
  answered : ∀ write : SecretWrite, write.caller = ⟨run, true⟩ →
    (write ∈ server'.writes (scope.secretName provider) ↔
      write ∈ server.writes (scope.secretName provider))
  idle : Idle run server → Idle run server' ∧
    ∀ write ∈ server'.writes (scope.secretName provider), write.caller.run = run →
      write ∈ server.writes (scope.secretName provider)

/-- What a run may ask for. -/
def Permits (run : ℕ) (server : ApiServer) : Op → Prop
  | .writeSecret name write => Safe provider managed scope server (.writeSecret name write) ∧
      ∀ outcome, (run, outcome) ∉ server.outcomes
  | .mark (.swapped (.stored ratchet _)) => Reports provider managed scope run ratchet server
  | .mark (.swapped .conflict) => Untouched provider scope run server
  | .deleteSecret _ _ => False
  | _ => True

/-- The discipline of a reconciler. -/
def reconcilerRules (initial : Option Secret) (run : ℕ) (_ : Subject) :
    Discipline ApiServer Op Op.Reply where
  serves server := server.Serves run
  rely := Leaves provider managed scope initial run
  allowed := Permits provider managed scope run

/-- Every write that the run has got an answer for is one it has reported as stored. -/
def Reported (run : ℕ) (server : ApiServer) : Prop :=
  ∀ write ∈ server.writes (scope.secretName provider), write.caller = ⟨run, true⟩ →
    ∃ ratchet revision, (run, .stored ratchet revision) ∈ server.outcomes ∧
      savedSecret provider managed scope.credential ratchet = .ok write.written

end Scope

/-! ### What the server does -/

/-- A harmless call changes no Secret, no write, no outcome and nothing in flight. -/
lemma handle_harmless (server : ApiServer) (caller : Caller) (name : String) {op : Op}
    (h : op.Harmless) :
    (server.handle caller op).1.secrets = server.secrets ∧
      (server.handle caller op).1.writes name = server.writes name ∧
      (server.handle caller op).1.outcomes = server.outcomes ∧
      (server.handle caller op).1.inFlight = server.inFlight := by
  have hhandles := server.handles_handle caller op
  generalize (server.handle caller op).1 = server' at hhandles ⊢
  cases hhandles with
  | wrote haccepts => exact h.elim
  | removed => exact h.elim
  | marked mark =>
    cases mark with
    | swapped outcome => exact h.elim
    | basedOn approval => exact ⟨rfl, rfl, rfl, rfl⟩
    | derivedFrom vaultBytes => exact ⟨rfl, rfl, rfl, rfl⟩
  | _ => exact ⟨rfl, rfl, rfl, rfl⟩

/-- A write of a Secret is accepted and entered into the history, or changes nothing. -/
lemma writeSecret_cases (server : ApiServer) (caller : Caller) (name : String)
    (write : Write Secret) :
    ((server.secrets name).Accepts write ∧
      (server.writeSecret caller name write).2 = .ok (server.secrets name).issued ∧
      (server.writeSecret caller name write).1.secrets =
        Function.update server.secrets name ((server.secrets name).put write.value) ∧
      (server.writeSecret caller name write).1.writes name =
        ⟨caller, (server.secrets name).stored.map Stored.value, write.value⟩ :: server.writes name ∧
      (server.writeSecret caller name write).1.outcomes = server.outcomes ∧
      (server.writeSecret caller name write).1.inFlight = server.inFlight) ∨
    (¬ (server.secrets name).Accepts write ∧
      (server.writeSecret caller name write).1 = server ∧
      ∃ error, (server.writeSecret caller name write).2 = .error error) := by
  unfold ApiServer.writeSecret
  rcases (server.secrets name).handle_cases write with ⟨haccepts, hdone⟩ | ⟨hrefused, -, hanswer⟩
  · left
    simp [hdone, haccepts, ApiServer.writes, ApiServer.outcomes]
  · right
    cases hresult : (server.secrets name).handle write with
    | mk slot answer =>
      rw [hresult] at hanswer
      cases answer with
      | done => exact absurd rfl hanswer
      | conflict => simp [hresult, hrefused]
      | missing => simp [hresult, hrefused]

/-- A reported outcome changes nothing else. -/
lemma handle_swapped (server : ApiServer) (caller : Caller) (name : String)
    (outcome : RatchetCasOutcome) :
    (server.handle caller (.mark (.swapped outcome))).1.writes name = server.writes name ∧
      (server.handle caller (.mark (.swapped outcome))).1.outcomes =
        (caller.run, outcome) :: server.outcomes := by
  constructor
  · simp [ApiServer.handle, ApiServer.writes]
  · simp [ApiServer.handle, ApiServer.outcomes]

section Steps

variable {provider : StoreProvider} {managed : ManagedCrypto} {scope : RatchetScope}
  {initial : Option Secret} {run : ℕ} {server server' : ApiServer} {caller : Caller}
  {name : String} {write : Write Secret}

lemma Op.Harmless.safe {op : Op} (h : op.Harmless) : Safe provider managed scope server op := by
  cases op with
  | writeSecret name write => exact h.elim
  | deleteSecret name version => exact h.elim
  | mark mark =>
    cases mark with
    | swapped outcome => exact h.elim
    | basedOn approval => trivial
    | derivedFrom vaultBytes => trivial
  | _ => trivial

lemma Op.Harmless.permits {op : Op} (h : op.Harmless) :
    Permits provider managed scope run server op := by
  cases op with
  | writeSecret name write => exact h.elim
  | deleteSecret name version => exact h.elim
  | mark mark =>
    cases mark with
    | swapped outcome => exact h.elim
    | basedOn approval => trivial
    | derivedFrom vaultBytes => trivial
  | _ => trivial

/-- What a request in flight is founded on outlasts the writes of others. -/
lemma Safe.advances {op : Op} (h : Safe provider managed scope server op)
    (hadvances : (server.secrets (scope.secretName provider)).Advances
      (server'.secrets (scope.secretName provider))) : Safe provider managed scope server' op := by
  rcases op.harmless_or with hop | ⟨name, write, rfl⟩ | ⟨name, version, rfl⟩ | ⟨outcome, rfl⟩
  · exact hop.safe
  · obtain ⟨rfl, hauthentic, hfounded⟩ := h
    exact ⟨rfl, hauthentic, hfounded.advances hadvances⟩
  · exact h.elim
  · exact h.elim

variable (provider scope) in
/-- The Secret, its history and the outcomes are the same, and nothing new in flight can touch a
Secret. -/
structure SameSecret (server server' : ApiServer) : Prop where
  secrets : server'.secrets (scope.secretName provider) = server.secrets (scope.secretName provider)
  writes : server'.writes (scope.secretName provider) = server.writes (scope.secretName provider)
  outcomes : server'.outcomes = server.outcomes
  inFlight : ∀ request ∈ server'.inFlight, request ∈ server.inFlight ∨ request.2.Harmless

lemma Idle.of_same (h : Idle run server) (hsame : SameSecret provider scope server server') :
    Idle run server' := by
  intro op hop
  rcases hsame.inFlight _ hop with hop' | hharmless
  · exact h op hop'
  · exact hharmless

lemma Untouched.of_same (h : Untouched provider scope run server)
    (hsame : SameSecret provider scope server server') : Untouched provider scope run server' := by
  refine ⟨h.1.of_same hsame, ?_⟩
  rw [hsame.writes]
  exact h.2

lemma Sound.of_same (h : Sound provider managed scope initial server)
    (hsame : SameSecret provider scope server server') :
    Sound provider managed scope initial server' where
  fresh := by
    rw [hsame.secrets]
    exact h.fresh
  stored := by
    rw [hsame.secrets, hsame.writes]
    exact h.stored
  linked := by
    rw [hsame.writes]
    exact h.linked
  initial := h.initial
  written := by
    rw [hsame.writes]
    exact h.written
  reported := by
    intro run ratchet revision hreported
    rw [hsame.outcomes] at hreported
    rw [Reports, hsame.writes]
    exact h.reported run ratchet revision hreported
  conflict := by
    intro run hconflict
    rw [hsame.outcomes] at hconflict
    exact (h.conflict run hconflict).of_same hsame
  inFlight := by
    intro request hrequest
    rcases hsame.inFlight request hrequest with hold | hharmless
    · apply (h.inFlight request hold).advances
      rw [hsame.secrets]
      exact .refl _
    · exact hharmless.safe

lemma SameSecret.leaves (hsame : SameSecret provider scope server server') :
    Leaves provider managed scope initial run server server' where
  sound h := h.of_same hsame
  advances := by
    rw [hsame.secrets]
    exact .refl _
  outcomes outcome := by rw [hsame.outcomes]
  answered write _ := by rw [hsame.writes]
  idle h := by
    refine ⟨h.of_same hsame, fun write hwrite _ => ?_⟩
    rw [hsame.writes] at hwrite
    exact hwrite

lemma sameSecret_refl : SameSecret provider scope server server :=
  ⟨rfl, rfl, rfl, fun _ h => Or.inl h⟩

lemma Leaves.refl (server : ApiServer) :
    Leaves provider managed scope initial run server server := sameSecret_refl.leaves

lemma Leaves.trans {a b c : ApiServer} (h : Leaves provider managed scope initial run a b)
    (h' : Leaves provider managed scope initial run b c) :
    Leaves provider managed scope initial run a c where
  sound hsound := h'.sound (h.sound hsound)
  advances := h.advances.trans h'.advances
  outcomes outcome := (h'.outcomes outcome).trans (h.outcomes outcome)
  answered write hwrite := (h'.answered write hwrite).trans (h.answered write hwrite)
  idle hidle := by
    obtain ⟨hidleB, hold⟩ := h.idle hidle
    obtain ⟨hidleC, hold'⟩ := h'.idle hidleB
    exact ⟨hidleC, fun write hwrite hrun => hold write (hold' write hwrite hrun) hrun⟩

/-- Whoever calls it and however it ends, a harmless call leaves the Secret the same. -/
lemma sameSecret_serves {op : Op} {reply : op.Reply} (hop : op.Harmless)
    (h : server.Serves run op reply server') : SameSecret provider scope server server' := by
  cases h with
  | answered =>
    obtain ⟨hsecrets, hwrites, houtcomes, hflight⟩ :=
      handle_harmless server ⟨run, true⟩ (scope.secretName provider) hop
    exact ⟨by rw [hsecrets], hwrites, houtcomes, fun _ h => Or.inl (hflight ▸ h)⟩
  | failed =>
    refine ⟨rfl, rfl, rfl, fun request hrequest => ?_⟩
    rcases List.mem_cons.mp hrequest with rfl | hold
    · exact Or.inr hop
    · exact Or.inl hold

/-- An accepted write keeps what it replaces, and is the latest of the history. -/
lemma Sound.writeSecret (h : Sound provider managed scope initial server)
    (hsafe : Safe provider managed scope server (.writeSecret name write))
    (hconflict : (caller.run, RatchetCasOutcome.conflict) ∉ server.outcomes) :
    Sound provider managed scope initial (server.writeSecret caller name write).1 := by
  obtain ⟨rfl, hauthentic, hfounded⟩ := hsafe
  rcases writeSecret_cases server caller (scope.secretName provider) write with
    ⟨haccepts, -, hsecrets, hwrites, houtcomes, hflight⟩ | ⟨-, hsame, -⟩
  · have hslot := congrFun hsecrets (scope.secretName provider)
    rw [Function.update_self] at hslot
    constructor
    · rw [hslot]
      exact Slot.fresh_put _ _
    · rw [hslot, hwrites]
      rfl
    · rw [hwrites]
      exact ⟨h.stored, h.linked⟩
    · exact h.initial
    · rw [hwrites]
      intro other hother
      rcases List.mem_cons.mp hother with rfl | hold
      · refine ⟨hauthentic, fun older holder => ?_⟩
        obtain ⟨stored, hstored, rfl⟩ := Option.map_eq_some_iff.mp holder
        exact hfounded.of_accepts haccepts hstored
      · exact h.written other hold
    · intro run ratchet revision hreported
      rw [houtcomes] at hreported
      obtain ⟨hroot, hvaultRoot, other, hother, hrun, hsaved⟩ :=
        h.reported run ratchet revision hreported
      refine ⟨hroot, hvaultRoot, other, ?_, hrun, hsaved⟩
      rw [hwrites]
      exact List.mem_cons_of_mem _ hother
    · intro run hconflicted
      rw [houtcomes] at hconflicted
      obtain ⟨hidle, huntouched⟩ := h.conflict run hconflicted
      refine ⟨fun op hop => hidle op (hflight ▸ hop), ?_⟩
      rw [hwrites]
      intro other hother
      rcases List.mem_cons.mp hother with rfl | hold
      · rintro rfl
        exact hconflict hconflicted
      · exact huntouched other hold
    · intro request hrequest
      rw [hflight] at hrequest
      apply (h.inFlight request hrequest).advances
      rw [hslot]
      exact Slot.advances_put _ _
  · rw [hsame]
    exact h

/-- A run may rely on what a write of another run leaves, and on what a late write of its own
leaves, of which it knows that it is in flight. -/
lemma leaves_writeSecret {before : ApiServer} (hbefore : SameSecret provider scope before server)
    (hsafe : Safe provider managed scope server (.writeSecret name write))
    (hconflict : Sound provider managed scope initial before →
      (caller.run, RatchetCasOutcome.conflict) ∉ server.outcomes)
    (hcaller : caller ≠ ⟨run, true⟩) (hidle : Idle run before → caller.run ≠ run) :
    Leaves provider managed scope initial run before (server.writeSecret caller name write).1 := by
  have hsound : Sound provider managed scope initial before →
      Sound provider managed scope initial (server.writeSecret caller name write).1 :=
    fun h => (h.of_same hbefore).writeSecret hsafe (hconflict h)
  obtain rfl : name = scope.secretName provider := hsafe.1
  have hleaves : Leaves provider managed scope initial run before server := hbefore.leaves
  rcases writeSecret_cases server caller (scope.secretName provider) write with
    ⟨-, -, hsecrets, hwrites, houtcomes, hflight⟩ | ⟨-, hsame, -⟩
  · have hslot := congrFun hsecrets (scope.secretName provider)
    rw [Function.update_self] at hslot
    constructor
    · exact hsound
    · rw [hslot]
      exact hleaves.advances.trans (Slot.advances_put _ _)
    · rw [houtcomes]
      exact hleaves.outcomes
    · intro other hother
      rw [hwrites, ← hleaves.answered other hother, List.mem_cons]
      have hne : other ≠ ⟨caller, (server.secrets (scope.secretName provider)).stored.map
          Stored.value, write.value⟩ := by
        rintro rfl
        exact hcaller hother
      simp [hne]
    · intro h
      obtain ⟨hidle', hold⟩ := hleaves.idle h
      refine ⟨fun op hop => hidle' op (hflight ▸ hop), fun other hother hrun => ?_⟩
      rw [hwrites] at hother
      rcases List.mem_cons.mp hother with rfl | hother'
      · exact absurd hrun (hidle h)
      · exact hold other hother' hrun
  · rw [hsame]
    exact hleaves

/-- A run that permits itself a write has reported no conflict. -/
lemma Permits.not_conflict {run : ℕ}
    (h : Permits provider managed scope run server (.writeSecret name write)) :
    (run, RatchetCasOutcome.conflict) ∉ server.outcomes := h.2 .conflict

/-- A report of an outcome that the run may give. -/
lemma Sound.swapped (h : Sound provider managed scope initial server)
    {outcome : RatchetCasOutcome}
    (hpermits : Permits provider managed scope caller.run server (.mark (.swapped outcome))) :
    Sound provider managed scope initial
      (server.handle caller (.mark (.swapped outcome))).1 := by
  obtain ⟨hwrites, houtcomes⟩ := handle_swapped server caller (scope.secretName provider) outcome
  constructor
  · exact h.fresh
  · rw [hwrites]
    exact h.stored
  · rw [hwrites]
    exact h.linked
  · exact h.initial
  · rw [hwrites]
    exact h.written
  · intro run ratchet revision hreported
    rw [houtcomes] at hreported
    rw [Reports, hwrites]
    rcases List.mem_cons.mp hreported with heq | hold
    · obtain ⟨rfl, rfl⟩ := Prod.mk.inj heq
      exact hpermits
    · exact h.reported run ratchet revision hold
  · intro run hconflict
    rw [houtcomes] at hconflict
    have huntouched : Untouched provider scope run server := by
      rcases List.mem_cons.mp hconflict with heq | hold
      · obtain ⟨rfl, rfl⟩ := Prod.mk.inj heq
        exact hpermits
      · exact h.conflict run hold
    refine ⟨huntouched.1, ?_⟩
    rw [hwrites]
    exact huntouched.2
  · exact fun request hrequest => (h.inFlight request hrequest).advances (.refl _)

lemma leaves_swapped {outcome : RatchetCasOutcome}
    (hpermits : Permits provider managed scope caller.run server (.mark (.swapped outcome)))
    (hne : run ≠ caller.run) :
    Leaves provider managed scope initial run server
      (server.handle caller (.mark (.swapped outcome))).1 := by
  obtain ⟨hwrites, houtcomes⟩ := handle_swapped server caller (scope.secretName provider) outcome
  constructor
  · exact fun h => h.swapped hpermits
  · exact .refl _
  · intro other
    rw [houtcomes, List.mem_cons]
    simp [hne]
  · exact fun other _ => by rw [hwrites]
  · refine fun h => ⟨h, fun other hother _ => ?_⟩
    rwa [hwrites] at hother

/-- A write that its run may ask for is given up: it can still arrive. -/
lemma Sound.giveUp (h : Sound provider managed scope initial server)
    (hpermits : Permits provider managed scope run server (.writeSecret name write)) :
    Sound provider managed scope initial (server.giveUp run (.writeSecret name write)) where
  fresh := h.fresh
  stored := h.stored
  linked := h.linked
  initial := h.initial
  written := h.written
  reported := h.reported
  conflict := by
    intro other hconflict
    obtain ⟨hidle, huntouched⟩ := h.conflict other hconflict
    refine ⟨fun op hop => ?_, huntouched⟩
    rcases List.mem_cons.mp hop with heq | hold
    · obtain ⟨rfl, -⟩ := Prod.mk.inj heq
      exact absurd hconflict hpermits.not_conflict
    · exact hidle op hold
  inFlight := by
    intro request hrequest
    rcases List.mem_cons.mp hrequest with rfl | hold
    · exact hpermits.1
    · exact h.inFlight request hold

lemma leaves_giveUp {other : ℕ}
    (hpermits : Permits provider managed scope other server (.writeSecret name write))
    (hne : run ≠ other) :
    Leaves provider managed scope initial run server
      (server.giveUp other (.writeSecret name write)) := by
  constructor
  · exact fun h => h.giveUp hpermits
  · exact .refl _
  · exact fun _ => Iff.rfl
  · exact fun _ _ => Iff.rfl
  · refine fun h => ⟨fun op hop => ?_, fun _ hwrite _ => hwrite⟩
    rcases List.mem_cons.mp hop with heq | hold
    · exact absurd (Prod.mk.inj heq).1 hne
    · exact h op hold

/-! ### The disciplines fit -/

variable (provider scope) in
/-- Others change anything but the Secret. -/
def Spares (_ : ApiServer) (change : Change) : Prop :=
  ∀ secret, change ≠ .setSecret (scope.secretName provider) secret

lemma sameSecret_change {change : Change} (h : Spares provider scope server change) :
    SameSecret provider scope server (server.change change) := by
  cases change with
  | setSecret other secret =>
    have hne : scope.secretName provider ≠ other := by
      rintro rfl
      exact h secret rfl
    refine ⟨?_, rfl, rfl, fun _ h => Or.inl h⟩
    show Function.update server.secrets other _ (scope.secretName provider) = _
    rw [Function.update_of_ne hne]
  | approve other ownerReferences spec =>
    simp only [ApiServer.change]
    split <;> exact ⟨rfl, rfl, rfl, fun _ h => Or.inl h⟩
  | setConfigMap _ _ | withdrawApproval _ | withdrawRequest _ =>
    exact ⟨rfl, rfl, rfl, fun _ h => Or.inl h⟩

variable (provider managed scope initial) in
theorem compatible_reconcilerRules :
    Compatible (reconcilerRules provider managed scope initial)
      (Sound provider managed scope initial) where
  refl _ _ server := .refl server
  trans _ _ {_ _ _} h h' := Leaves.trans h h'
  own {run _ server op reply server'} h hpermits hserves := by
    rcases op.harmless_or with hop | ⟨name, write, rfl⟩ | ⟨name, version, rfl⟩ | ⟨outcome, rfl⟩
    · have hsame : SameSecret provider scope server server' := sameSecret_serves hop hserves
      exact ⟨h.of_same hsame, fun _ _ _ => hsame.leaves⟩
    · replace hpermits : Permits provider managed scope run server (.writeSecret name write) :=
        hpermits
      cases hserves with
      | answered =>
        refine ⟨h.writeSecret hpermits.1 hpermits.not_conflict, fun other _ hother => ?_⟩
        apply leaves_writeSecret sameSecret_refl hpermits.1 fun _ => hpermits.not_conflict
        · rintro heq
          exact hother (Caller.mk.inj heq).1.symm
        · exact fun _ => hother.symm
      | failed => exact ⟨h.giveUp hpermits, fun _ _ hother => leaves_giveUp hpermits hother⟩
    · exact hpermits.elim
    · cases hserves with
      | answered =>
        let caller : Caller := ⟨run, true⟩
        have hpermits' : Permits provider managed scope caller.run server
            (.mark (.swapped outcome)) := hpermits
        exact ⟨h.swapped hpermits', fun _ _ hother => leaves_swapped hpermits' hother⟩
      | failed hmark => exact absurd rfl (hmark _)

/-- A late request is one that was safe to make. -/
theorem Sound.arrive (h : Sound provider managed scope initial server) {position id : ℕ} {op : Op}
    (hflight : server.inFlight[position]? = some (id, op)) :
    let server' := { server with inFlight := server.inFlight.eraseIdx position }
    Sound provider managed scope initial (server'.handle ⟨id, false⟩ op).1 ∧
      ∀ run, Leaves provider managed scope initial run server
        (server'.handle ⟨id, false⟩ op).1 := by
  intro server'
  have hmem : (id, op) ∈ server.inFlight := List.mem_of_getElem? hflight
  have hsame : SameSecret provider scope server server' :=
    ⟨rfl, rfl, rfl, fun _ hrequest => Or.inl (List.mem_of_mem_eraseIdx hrequest)⟩
  have hsafe : Safe provider managed scope server' op := h.inFlight _ hmem
  rcases op.harmless_or with hop | ⟨name, write, rfl⟩ | ⟨name, version, rfl⟩ | ⟨outcome, rfl⟩
  · obtain ⟨hsecrets, hwrites, houtcomes, hflights⟩ :=
      handle_harmless server' ⟨id, false⟩ (scope.secretName provider) hop
    have hlate : SameSecret provider scope server (server'.handle ⟨id, false⟩ op).1 :=
      ⟨by rw [hsecrets], hwrites, houtcomes, fun request hrequest =>
        hsame.inFlight request (hflights ▸ hrequest)⟩
    exact ⟨h.of_same hlate, fun _ => hlate.leaves⟩
  · -- a run with a write in flight is not idle, so it has reported no conflict
    have hnotIdle : ¬ Idle id server := fun hidle => hidle _ hmem
    have hconflict : (id, RatchetCasOutcome.conflict) ∉ server'.outcomes :=
      fun hconflict => hnotIdle (h.conflict id hconflict).1
    refine ⟨(h.of_same hsame).writeSecret hsafe hconflict, fun run => ?_⟩
    apply leaves_writeSecret hsame hsafe fun _ => hconflict
    · simp
    · rintro hidle rfl
      exact hnotIdle hidle
  · exact hsafe.elim
  · exact hsafe.elim

end Steps

end Thorax.Kubernetes
