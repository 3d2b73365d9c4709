import Thorax.Kubernetes.System

/-!
# Interleavings

What holds of a server whatever the reconciliations that share it do next. Each reconciliation
keeps to a discipline; where the disciplines fit each other, late requests and the changes of
others, the invariant of the server survives every step of the system.
-/

namespace Thorax.Kubernetes

open Remote

/-- Only a mark waits for no one. -/
lemma abandon_call {server : ApiServer} {id : ℕ} {op : Op} {next : op.Reply → Controller ℕ}
    (hmark : ∀ mark, op ≠ .mark mark) :
    server.abandon id (.call op next) = server.giveUp id op := by
  cases op <;> first | rfl | exact absurd rfl (hmark _)

lemma failedCall_call {op : Op} {next : op.Reply → Controller ℕ} (hmark : ∀ mark, op ≠ .mark mark) :
    failedCall (.call op next) = some (next (.error .unavailable)) := by
  cases op <;> first | rfl | exact absurd rfl (hmark _)

/-- What a step does. -/
inductive Moves (provider : ProjectionProvider) (state : System) : System.Action → System → Prop
  | reconcileVault (vault : ThoraxVault) (random : Randomness)
      (hversion : vault ∈ state.server.versions) :
      Moves provider state (.reconcileVault vault random) (state.start (.vault vault)
        (Kubernetes.reconcileVault provider.toControllerProvider vault random))
  | reconcileSecret (projection : ThoraxSecret) :
      Moves provider state (.reconcileSecret projection)
        (state.start (.projection projection) (Kubernetes.reconcileSecret provider projection))
  | serve {id : ℕ} {subject : Subject} {op : Op} {next : op.Reply → Controller ℕ}
      (hrun : state.runs id = some ⟨subject, .call op next⟩) :
      Moves provider state (.serve id) (state.goOn id ⟨subject, .call op next⟩
        (state.server.handle ⟨id, true⟩ op).1 (next (state.server.handle ⟨id, true⟩ op).2))
  | fail {id : ℕ} {subject : Subject} {op : Op} {next : op.Reply → Controller ℕ}
      (hrun : state.runs id = some ⟨subject, .call op next⟩) (hmark : ∀ mark, op ≠ .mark mark) :
      Moves provider state (.fail id) (state.goOn id ⟨subject, .call op next⟩
        (state.server.giveUp id op) (next (.error .unavailable)))
  | stop {id : ℕ} {run : Run} (hrun : state.runs id = some run) :
      Moves provider state (.stop id) (state.drop id (state.server.abandon id run.program))
  | arrive {position id : ℕ} {op : Op} (hflight : state.server.inFlight[position]? = some (id, op)) :
      Moves provider state (.arrive position) { state with server :=
        ({ state.server with inFlight := state.server.inFlight.eraseIdx position }.handle
          ⟨id, false⟩ op).1 }
  | change (change : Change) :
      Moves provider state (.change change) { state with server := state.server.change change }

/-- Every step is one of these. -/
lemma moves_of_step {provider : ProjectionProvider} {state state' : System}
    {action : System.Action} (h : state.step provider action = some state') :
    Moves provider state action state' := by
  cases action with
  | reconcileVault vault random =>
    simp only [System.step] at h
    split_ifs at h with hversion
    obtain rfl := Option.some.inj h
    exact .reconcileVault vault random hversion
  | reconcileSecret projection =>
    obtain rfl := Option.some.inj h
    exact .reconcileSecret projection
  | serve id =>
    cases hrun : state.runs id with
    | none => simp [System.step, hrun] at h
    | some run =>
      obtain ⟨subject, program⟩ := run
      cases program with
      | done result => simp [System.step, hrun] at h
      | call op next =>
        simp only [System.step, hrun, Option.some.injEq] at h
        subst h
        exact .serve hrun
  | fail id =>
    cases hrun : state.runs id with
    | none => simp [System.step, hrun] at h
    | some run =>
      obtain ⟨subject, program⟩ := run
      cases program with
      | done result => simp [System.step, hrun, failedCall] at h
      | call op next =>
        by_cases hmark : ∀ mark, op ≠ .mark mark
        · simp only [System.step, hrun, Option.bind_eq_bind, Option.bind_some,
            failedCall_call hmark, abandon_call hmark, Option.some.injEq] at h
          subst h
          exact .fail hrun hmark
        · push Not at hmark
          obtain ⟨mark, rfl⟩ := hmark
          simp [System.step, hrun, failedCall] at h
  | stop id =>
    cases hrun : state.runs id with
    | none => simp [System.step, hrun] at h
    | some run =>
      simp only [System.step, hrun, Option.bind_eq_bind, Option.bind_some, Option.some.injEq] at h
      subst h
      exact .stop hrun
  | arrive position =>
    cases hflight : state.server.inFlight[position]? with
    | none => simp [System.step, hflight] at h
    | some request =>
      obtain ⟨id, op⟩ := request
      simp only [System.step, hflight, Option.bind_eq_bind, Option.bind_some, Option.some.injEq] at h
      subst h
      exact .arrive hflight
  | change change =>
    obtain rfl := Option.some.inj h
    exact .change change

/-- How the reconciliations conduct themselves: the discipline of each, what then holds of the
server, what holds of the server where one has ended, and where one has not begun. The disciplines
fit each other, late requests and the admitted changes of others. -/
structure Conduct where
  rules : ℕ → Subject → Discipline ApiServer Op Op.Reply
  inv : ApiServer → Prop
  ends : ℕ → Subject → Except ControllerError ℕ → ApiServer → Prop
  unused : ℕ → Subject → ApiServer → Prop
  admitted : ApiServer → Change → Prop
  compatible : Compatible rules inv
  serves : ∀ i subject server, (rules i subject).serves server = server.Serves i
  arrive : ∀ {server position id op}, inv server → server.inFlight[position]? = some (id, op) →
    let server' := { server with inFlight := server.inFlight.eraseIdx position }
    inv (server'.handle ⟨id, false⟩ op).1 ∧
      ∀ i subject, (rules i subject).rely server (server'.handle ⟨id, false⟩ op).1
  change : ∀ {server change}, inv server → admitted server change →
    inv (server.change change) ∧
      ∀ i subject, (rules i subject).rely server (server.change change)
  ends_rely : ∀ {i subject result server server'}, (rules i subject).rely server server' →
    ends i subject result server → ends i subject result server'
  unused_rely : ∀ {i subject server server'}, (rules i subject).rely server server' →
    unused i subject server → unused i subject server'

/-- What is left of each reconciliation, beside what it was started for. -/
def System.programs (self : System) (id : ℕ) : Option (Subject × Controller ℕ) :=
  (self.runs id).map fun run => (run.subject, run.program)

/-- A step other than the start of a reconciliation; of the changes of others, an admitted one. -/
def System.Action.Goes (admitted : ApiServer → Change → Prop) (server : ApiServer) :
    System.Action → Prop
  | .reconcileVault .. | .reconcileSecret _ => False
  | .serve _ | .fail _ | .stop _ | .arrive _ => True
  | .change other => admitted server other

namespace Conduct

/-- The invariant holds, each reconciliation keeps to its discipline, and no identifier is used
before its time. -/
structure Holds (conduct : Conduct) (state : System) : Prop where
  guarded : Guarded conduct.rules conduct.inv conduct.ends state.programs state.server
  unused : ∀ id, state.nextRun ≤ id →
    state.runs id = none ∧ ∀ subject, conduct.unused id subject state.server

variable {conduct : Conduct} {provider : ProjectionProvider} {state state' : System}
  {action : System.Action}

/-- A reconciliation starts. -/
lemma Holds.start (h : conduct.Holds state) {subject : Subject} {program : Controller ℕ}
    (hprogram : program.Upholds (conduct.rules state.nextRun subject) state.server
      (conduct.ends state.nextRun subject)) : conduct.Holds (state.start subject program) where
  guarded := by
    have hprograms : (state.start subject program).programs =
        Function.update state.programs state.nextRun (some (subject, program)) := by
      funext id
      by_cases hid : id = state.nextRun
      · subst hid
        simp [System.programs, System.start]
      · simp [System.programs, System.start, hid]
    rw [hprograms]
    refine h.guarded.update conduct.compatible (fun _ _ _ _ _ => conduct.ends_rely) h.guarded.1
      (fun i k _ => conduct.compatible.refl i k _) fun k p hp => ?_
    obtain ⟨rfl, rfl⟩ := Prod.mk.inj (Option.some.inj hp)
    exact hprogram
  unused id hid := by
    have hlt : state.nextRun < id := hid
    obtain ⟨hnone, hunused⟩ := h.unused id hlt.le
    refine ⟨?_, hunused⟩
    show Function.update state.runs state.nextRun _ id = none
    rw [Function.update_of_ne hlt.ne']
    exact hnone

/-- One reconciliation goes on, or ends, and the others find what they rely on. -/
lemma Holds.act (h : conduct.Holds state) {id : ℕ} {run : Run} (hrun : state.runs id = some run)
    {server : ApiServer} {left : Option Run} (hinv : conduct.inv server)
    (hrely : ∀ i subject, i ≠ id → (conduct.rules i subject).rely state.server server)
    (hleft : ∀ run', left = some run' →
      run'.program.Upholds (conduct.rules id run'.subject) server
        (conduct.ends id run'.subject)) :
    conduct.Holds { state with server := server, runs := Function.update state.runs id left } where
  guarded := by
    have hprograms : System.programs
        { state with server := server, runs := Function.update state.runs id left } =
        Function.update state.programs id (left.map fun run => (run.subject, run.program)) := by
      funext other
      by_cases hother : other = id
      · subst hother
        simp [System.programs]
      · simp [System.programs, hother]
    rw [hprograms]
    refine h.guarded.update conduct.compatible (fun _ _ _ _ _ => conduct.ends_rely) hinv hrely
      fun k p hp => ?_
    obtain ⟨run', hrun', heq⟩ := Option.map_eq_some_iff.mp hp
    obtain ⟨rfl, rfl⟩ := Prod.mk.inj heq
    exact hleft run' hrun'
  unused other hother := by
    obtain ⟨hnone, hunused⟩ := h.unused other hother
    have hne : other ≠ id := by
      rintro rfl
      rw [hrun] at hnone
      contradiction
    refine ⟨?_, fun subject => conduct.unused_rely (hrely other subject hne) (hunused subject)⟩
    show Function.update state.runs id left other = none
    rw [Function.update_of_ne hne]
    exact hnone

/-- What a call may leave, if it is answered and if it is given up. -/
lemma Holds.call (h : conduct.Holds state) {id : ℕ} {subject : Subject} {op : Op}
    {next : op.Reply → Controller ℕ} (hrun : state.runs id = some ⟨subject, .call op next⟩) :
    (conduct.rules id subject).allowed state.server op ∧
      ∀ reply server, state.server.Serves id op reply server →
        conduct.inv server ∧
          (∀ i other, i ≠ id → (conduct.rules i other).rely state.server server) ∧
          (next reply).Upholds (conduct.rules id subject) server (conduct.ends id subject) := by
  have hprogram : state.programs id = some (subject, .call op next) := by
    simp [System.programs, hrun]
  obtain ⟨hallowed, hnext⟩ := h.guarded.next conduct.compatible hprogram
  refine ⟨hallowed, fun reply server hserves => hnext reply server ?_⟩
  rw [conduct.serves]
  exact hserves

/-- A reconciliation that is stopped leaves its call behind. -/
lemma Holds.stop (h : conduct.Holds state) {id : ℕ} {run : Run} (hrun : state.runs id = some run) :
    conduct.Holds (state.drop id (state.server.abandon id run.program)) := by
  obtain ⟨subject, program⟩ := run
  have hsame : conduct.Holds (state.drop id state.server) :=
    h.act hrun h.guarded.1 (fun i k _ => conduct.compatible.refl i k _) fun _ hnone =>
      absurd hnone (by simp)
  cases program with
  | done result => exact hsame
  | call op next =>
    by_cases hmark : ∀ mark, op ≠ .mark mark
    · obtain ⟨hinv, hrely, -⟩ := (h.call hrun).2 _ _ (.failed op hmark)
      rw [abandon_call hmark]
      exact h.act hrun hinv hrely fun _ hnone => absurd hnone (by simp)
    · push Not at hmark
      obtain ⟨mark, rfl⟩ := hmark
      exact hsame

/-- A reconciliation goes on after its call was answered, or has failed. -/
lemma Holds.goOn (h : conduct.Holds state) {id : ℕ} {subject : Subject} {op : Op}
    {next : op.Reply → Controller ℕ} (hrun : state.runs id = some ⟨subject, .call op next⟩)
    {reply : op.Reply} {server : ApiServer} (hserves : state.server.Serves id op reply server) :
    conduct.Holds (state.goOn id ⟨subject, .call op next⟩ server (next reply)) := by
  obtain ⟨hinv, hrely, hnext⟩ := (h.call hrun).2 reply server hserves
  refine h.act hrun hinv hrely fun run' hrun' => ?_
  obtain rfl := Option.some.inj hrun'
  exact hnext

/-- Others act on the server. -/
lemma Holds.others (h : conduct.Holds state) {server : ApiServer} (hinv : conduct.inv server)
    (hrely : ∀ i subject, (conduct.rules i subject).rely state.server server) :
    conduct.Holds { state with server := server } where
  guarded := h.guarded.others conduct.compatible (fun _ _ _ _ _ => conduct.ends_rely) hinv hrely
  unused id hid := ⟨(h.unused id hid).1, fun subject =>
    conduct.unused_rely (hrely id subject) ((h.unused id hid).2 subject)⟩

/-- Every step but a start keeps the invariant and the disciplines. -/
theorem Holds.step (h : conduct.Holds state) (hgoes : action.Goes conduct.admitted state.server)
    (hstep : state.step provider action = some state') : conduct.Holds state' := by
  cases moves_of_step hstep with
  | reconcileVault vault random hversion => exact hgoes.elim
  | reconcileSecret projection => exact hgoes.elim
  | serve hrun => exact h.goOn hrun (.answered _)
  | fail hrun hmark => exact h.goOn hrun (.failed _ hmark)
  | stop hrun => exact h.stop hrun
  | arrive hflight =>
    obtain ⟨hinv, hrely⟩ := conduct.arrive h.guarded.1 hflight
    exact h.others hinv hrely
  | change change =>
    obtain ⟨hinv, hrely⟩ := conduct.change h.guarded.1 hgoes
    exact h.others hinv hrely

end Conduct

end Thorax.Kubernetes
