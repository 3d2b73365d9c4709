import Thorax.Kubernetes.Leader
import Mathlib.Tactic.Linarith

/-!
# One leader at a time

A leader trusts its Lease until a renewal fails, and looks at its deadline only then. As long as
calls return, sleepers wake and renewals succeed within delays that add up to less than the
duration of a Lease, nobody else can take the Lease while its holder leads. A single call that
hangs is enough for two processes to lead.
-/

namespace Thorax.Kubernetes

open Versioned

/-! ### What is promised -/

/-- No two processes lead while one of them holds the Lease, and a leader stops when the Lease it
last had confirmed runs out. -/
structure Cluster.Exclusive (cluster : Cluster) : Prop where
  single : ∀ holder other, holder ≠ other →
    (∃ term renewal, cluster.phase holder = .leading term renewal) →
    (∃ term renewal, cluster.phase other = .leading term renewal) →
    ∀ stored, cluster.lease.stored = some stored → stored.value.expired cluster.clock = false →
      stored.value.holderIdentity ≠ some holder ∧ stored.value.holderIdentity ≠ some other
  deadline : ∀ holder term renewal, cluster.phase holder = .leading term renewal →
    cluster.clock ≤ term.confirmed + leaseDuration

/-! ### Delays -/

/-- How long a call may take, how late a sleeper may wake, and how many renewals in a row may
fail. -/
structure Delays where
  call : ℕ
  wake : ℕ
  failures : ℕ

/-- The time from one attempt to the end of the next, pause included. -/
def Delays.round (self : Delays) : ℕ := renewInterval + self.wake + self.call

/-- The longest time a leader goes by one confirmed call. -/
def Delays.term (self : Delays) : ℕ := self.call + (self.failures + 1) * self.round

/-- An action within the delays. -/
def Timely (delays : Delays) (cluster : Cluster) : Action → Prop
  | .tick elapsed => ∀ holder,
      (∀ call, (cluster.phase holder).call? = some call →
        cluster.clock + elapsed ≤ call.now + delays.call) ∧
      ∀ term wake, cluster.phase holder = .leading term (.sleeping wake) →
        cluster.clock + elapsed ≤ wake + delays.wake
  | .fail holder => ∀ term call, cluster.phase holder = .leading term (.calling call) →
      term.failures < delays.failures
  | .reply holder => ∀ term now,
      cluster.phase holder = .leading term (.calling ⟨now, .answered .error⟩) →
        term.failures < delays.failures
  | _ => True

/-- A run whose actions are all within the delays. -/
inductive TimelyRun (delays : Delays) (start : Cluster) : Cluster → Prop where
  | refl : TimelyRun delays start start
  | step {cluster next : Cluster} (run : TimelyRun delays start cluster) (action : Action)
      (timely : Timely delays cluster action) (taken : cluster.step action = some next) :
      TimelyRun delays start next

/-! ### The invariant -/

/-- Since when a process relies on the Lease: from the confirmed call of its term, or from a call
that has succeeded and whose answer is on its way. -/
def Phase.claim : Phase → Option ℕ
  | .acquiring call => if call.stage = .answered (.ok true) then some call.now else none
  | .leading term (.sleeping _) => some term.confirmed
  | .leading term (.calling call) =>
    some (if call.stage = .answered (.ok true) then call.now else term.confirmed)
  | _ => none

/-- A process is where the delays allow it to be. -/
def Phase.Paced (delays : Delays) (clock : ℕ) : Phase → Prop
  | .acquiring call => call.now ≤ clock ∧ clock ≤ call.now + delays.call
  | .leading term renewal =>
    term.failures ≤ delays.failures ∧ term.confirmed ≤ clock ∧
      match renewal with
      | .sleeping wake =>
        wake ≤ term.confirmed + delays.call + term.failures * delays.round + renewInterval ∧
          clock ≤ wake + delays.wake
      | .calling call => term.confirmed ≤ call.now ∧ call.now ≤ clock ∧
          call.now ≤ term.confirmed + delays.call + term.failures * delays.round + renewInterval +
            delays.wake ∧ clock ≤ call.now + delays.call
  | _ => True

def LeaseSpec.WrittenBy (spec : LeaseSpec) (holder : Holder) (now : ℕ) : Prop :=
  spec.holderIdentity = some holder ∧ spec.renewTime = some now ∧
    spec.leaseDurationSeconds = some Kubernetes.leaseDurationSeconds

/-- A process may write over its own Lease or over one that has expired. -/
def Request.Entitled (request : Request) (old _new : LeaseSpec) : Prop :=
  old.holderIdentity = some request.owner ∨ old.expired request.now = true

structure Cluster.Invariant (delays : Delays) (cluster : Cluster) : Prop where
  fresh : cluster.lease.Fresh
  /-- Whoever relies on the Lease holds it. -/
  held : ∀ holder since, (cluster.phase holder).claim = some since → ∃ stored renewed,
    cluster.lease.stored = some stored ∧ stored.value.WrittenBy holder renewed ∧ since ≤ renewed
  requests : ∀ request ∈ cluster.inFlight, request.id < cluster.nextRequest ∧
    request.now ≤ cluster.clock ∧ request.write.value.WrittenBy request.owner request.now ∧
    cluster.lease.Founded request.Entitled request.write
  /-- A request that can still go through does not set its sender's own claim back. -/
  forward : ∀ request ∈ cluster.inFlight, cluster.lease.Accepts request.write → ∀ since,
    (cluster.phase request.owner).claim = some since → since ≤ request.now
  awaited : ∀ request ∈ cluster.inFlight, ∀ call, (cluster.phase request.owner).call? = some call →
    call.stage = .writing request.id → call.now = request.now
  numbered : ∀ holder call id, (cluster.phase holder).call? = some call →
    call.stage = .writing id → id < cluster.nextRequest
  paced : ∀ holder, (cluster.phase holder).Paced delays cluster.clock

variable {delays : Delays} {cluster next : Cluster}

/-! ### Claims -/

/-- A leader relies on the Lease from its confirmed call at least. -/
lemma Phase.claim_leading {term : Term} {renewal : Renewal} {clock : ℕ}
    (h : (Phase.leading term renewal).Paced delays clock) :
    ∃ since, (Phase.leading term renewal).claim = some since ∧ term.confirmed ≤ since := by
  cases renewal with
  | sleeping wake => exact ⟨_, rfl, le_refl _⟩
  | calling call =>
    refine ⟨_, rfl, ?_⟩
    split_ifs
    · exact h.2.2.1
    · exact le_refl _

/-- How far a leader gets on its confirmed call. -/
lemma Phase.Paced.clock_le {term : Term} {renewal : Renewal} {clock : ℕ}
    (h : (Phase.leading term renewal).Paced delays clock) :
    clock ≤ term.confirmed + delays.term := by
  obtain ⟨hfailures, -, hrenewal⟩ := h
  have hrounds : term.failures * delays.round ≤ delays.failures * delays.round :=
    Nat.mul_le_mul_right _ hfailures
  have hterm : delays.term = delays.call + (delays.failures * delays.round + delays.round) := by
    rw [Delays.term, Nat.succ_mul]
  have hround : delays.round = renewInterval + delays.wake + delays.call := rfl
  cases renewal with
  | sleeping wake =>
    obtain ⟨hwake, hclock⟩ := hrenewal
    omega
  | calling call =>
    obtain ⟨-, -, hnow, hclock⟩ := hrenewal
    omega

/-- A process relies on the Lease for no longer than a term. -/
lemma Phase.Paced.claim_le {phase : Phase} {clock since : ℕ} (h : phase.Paced delays clock)
    (hclaim : phase.claim = some since) : clock ≤ since + delays.term := by
  have hcall : delays.call ≤ delays.term := Nat.le_add_right _ _
  cases phase with
  | stopped => cases hclaim
  | waiting wake => cases hclaim
  | acquiring call =>
    simp only [claim, Option.ite_none_right_eq_some, Option.some.injEq] at hclaim
    have hclock := h.2
    omega
  | leading term renewal =>
    have hclock := h.clock_le
    cases renewal with
    | sleeping wake =>
      obtain rfl := Option.some.inj hclaim
      exact hclock
    | calling call =>
      obtain ⟨-, -, -, -, -, hcalling⟩ := h
      simp only [claim, Option.some.injEq] at hclaim
      split_ifs at hclaim <;> omega

/-- Nobody may take a Lease that its holder still relies on. -/
lemma not_expired_of_claim {spec : LeaseSpec} {holder : Holder} {since renewed now clock : ℕ}
    (hterm : delays.term + second ≤ leaseDuration) (hwritten : spec.WrittenBy holder renewed)
    (hsince : since ≤ renewed) (hnow : now ≤ clock) (hclock : clock ≤ since + delays.term) :
    spec.expired now = false := by
  obtain ⟨-, hrenew, hduration⟩ := hwritten
  simp only [LeaseSpec.expired, hrenew, Option.some_or, hduration, Option.getD_some,
    decide_eq_false_iff_not, not_le, leaseDurationSeconds]
  simp only [leaseDuration, second] at hterm ⊢
  omega

/-! ### One step -/

/-- A phase that claims no more than the one before and waits for no request. -/
lemma Cluster.Invariant.setPhase (h : cluster.Invariant delays) {holder : Holder} {phase : Phase}
    (hclaim : ∀ since, phase.claim = some since → ∃ before,
      (cluster.phase holder).claim = some before ∧ since ≤ before)
    (hcall : ∀ call id, phase.call? = some call → call.stage ≠ .writing id)
    (hpaced : phase.Paced delays cluster.clock) :
    (cluster.setPhase holder phase).Invariant delays := by
  have hother : ∀ {other}, other ≠ holder →
      (cluster.setPhase holder phase).phase other = cluster.phase other :=
    fun hne => Function.update_of_ne hne _ _
  have hown : (cluster.setPhase holder phase).phase holder = phase := Function.update_self _ _ _
  -- a claim after the change was a claim before, from no earlier moment
  have hback : ∀ other since, ((cluster.setPhase holder phase).phase other).claim = some since →
      ∃ before, (cluster.phase other).claim = some before ∧ since ≤ before := by
    intro other since hsince
    by_cases hne : other = holder
    · subst hne
      rw [hown] at hsince
      exact hclaim since hsince
    · rw [hother hne] at hsince
      exact ⟨since, hsince, le_refl _⟩
  have hwaits : ∀ other call id, ((cluster.setPhase holder phase).phase other).call? = some call →
      call.stage = .writing id → (cluster.phase other).call? = some call := by
    intro other call id hsome hstage
    by_cases hne : other = holder
    · subst hne
      rw [hown] at hsome
      exact absurd hstage (hcall call id hsome)
    · rwa [hother hne] at hsome
  constructor
  case fresh => exact h.fresh
  case held =>
    intro other since hsince
    obtain ⟨before, hbefore, hle⟩ := hback other since hsince
    obtain ⟨stored, renewed, hstored, hwritten, hrenewed⟩ := h.held other before hbefore
    exact ⟨stored, renewed, hstored, hwritten, hle.trans hrenewed⟩
  case requests => exact h.requests
  case forward =>
    intro request hmem haccepts since hsince
    obtain ⟨before, hbefore, hle⟩ := hback request.owner since hsince
    exact hle.trans (h.forward request hmem haccepts before hbefore)
  case awaited =>
    intro request hmem call hsome hstage
    exact h.awaited request hmem call (hwaits _ call _ hsome hstage) hstage
  case numbered =>
    intro other call id hsome hstage
    exact h.numbered other call id (hwaits _ call _ hsome hstage) hstage
  case paced =>
    intro other
    by_cases hne : other = holder
    · subst hne
      rw [hown]
      exact hpaced
    · rw [hother hne]
      exact h.paced other

/-- A call may fail for a leader as long as its failures are within the delays. -/
def Phase.MayFail (delays : Delays) (phase : Phase) (outcome : Outcome) : Prop :=
  outcome = .error → ∀ term call, phase = .leading term (.calling call) →
    term.failures < delays.failures

lemma Phase.paced_confirm {call : Call} {clock : ℕ} (hnow : call.now ≤ clock)
    (hclock : clock ≤ call.now + delays.call) : (confirm call clock).Paced delays clock := by
  refine ⟨Nat.zero_le _, hnow, ?_, ?_⟩
  · simp only [Nat.zero_mul]
    omega
  · omega

lemma Phase.Paced.conclude {phase : Phase} {clock : ℕ} {outcome : Outcome}
    (h : phase.Paced delays clock) (hfail : phase.MayFail delays outcome) :
    (phase.conclude clock outcome).Paced delays clock := by
  cases phase with
  | stopped => exact h
  | waiting wake => exact h
  | acquiring call =>
    cases outcome with
    | ok result => cases result with
      | true => exact paced_confirm h.1 h.2
      | false => trivial
    | error => trivial
  | leading term renewal =>
    cases renewal with
    | sleeping wake => exact h
    | calling call =>
      obtain ⟨-, hconfirmed, -, hnow, hbound, hclock⟩ := h
      cases outcome with
      | ok result => cases result with
        | true => exact paced_confirm hnow hclock
        | false => exact ⟨le_refl _, Nat.le_add_right _ _⟩
      | error =>
        simp only [Phase.conclude]
        split_ifs
        · have hround : delays.round = renewInterval + delays.wake + delays.call := rfl
          refine ⟨hfail rfl term call rfl, hconfirmed, ?_, by omega⟩
          simp only [Nat.succ_mul]
          omega
        · trivial

/-- The end of a call claims nothing that an answer on its way did not claim. -/
lemma Phase.claim_conclude {phase : Phase} {call : Call} {clock since : ℕ} {outcome : Outcome}
    (hpaced : phase.Paced delays clock) (hcall : phase.call? = some call)
    (hok : outcome = .ok true → call.stage = .answered (.ok true))
    (hclaim : (phase.conclude clock outcome).claim = some since) :
    ∃ before, phase.claim = some before ∧ since ≤ before := by
  cases phase with
  | stopped => cases hcall
  | waiting wake => cases hcall
  | acquiring own =>
    obtain rfl := Option.some.inj hcall
    cases outcome with
    | ok result => cases result with
      | true =>
        obtain rfl := Option.some.inj hclaim
        exact ⟨own.now, by simp [claim, hok], le_refl _⟩
      | false => cases hclaim
    | error => cases hclaim
  | leading term renewal =>
    cases renewal with
    | sleeping wake => cases hcall
    | calling own =>
      obtain rfl := Option.some.inj hcall
      obtain ⟨before, hbefore, hconfirmed⟩ := claim_leading hpaced
      cases outcome with
      | ok result => cases result with
        | true =>
          obtain rfl := Option.some.inj hclaim
          exact ⟨own.now, by simp [claim, hok], le_refl _⟩
        | false => simp [Phase.conclude, claim] at hclaim
      | error =>
        simp only [Phase.conclude] at hclaim
        split_ifs at hclaim
        · obtain rfl := Option.some.inj hclaim
          exact ⟨before, hbefore, hconfirmed⟩
        · cases hclaim

/-- No process waits for a request when its call has just ended. -/
lemma Phase.call_conclude {phase : Phase} {call : Call} {clock id : ℕ} {outcome : Outcome}
    (hcall : phase.call?.isSome) (h : (phase.conclude clock outcome).call? = some call) :
    call.stage ≠ .writing id := by
  cases phase with
  | stopped => cases hcall
  | waiting wake => cases hcall
  | acquiring own => cases outcome with
    | ok result => cases result <;> cases h
    | error => cases h
  | leading term renewal => cases renewal with
    | sleeping wake => cases hcall
    | calling own => cases outcome with
      | ok result => cases result with
        | true => cases h
        | false =>
          obtain rfl := Option.some.inj h
          simp
      | error =>
        simp only [Phase.conclude] at h
        split_ifs at h <;> cases h

lemma Cluster.Invariant.conclude (h : cluster.Invariant delays) {holder : Holder} {call : Call}
    {outcome : Outcome} (hcall : (cluster.phase holder).call? = some call)
    (hok : outcome = .ok true → call.stage = .answered (.ok true))
    (hfail : (cluster.phase holder).MayFail delays outcome) :
    (cluster.conclude holder outcome).Invariant delays :=
  h.setPhase (fun _ hsince => Phase.claim_conclude (h.paced holder) hcall hok hsince)
    (fun _ _ => Phase.call_conclude (by rw [hcall]; rfl)) ((h.paced holder).conclude hfail)

lemma Cluster.Invariant.tick (h : cluster.Invariant delays) {elapsed : ℕ}
    (htimely : Timely delays cluster (.tick elapsed)) :
    Cluster.Invariant delays { cluster with clock := cluster.clock + elapsed } where
  fresh := h.fresh
  held := h.held
  requests request hmem := by
    obtain ⟨hid, hnow, hrest⟩ := h.requests request hmem
    exact ⟨hid, hnow.trans (Nat.le_add_right _ _), hrest⟩
  forward := h.forward
  awaited := h.awaited
  numbered := h.numbered
  paced holder := by
    obtain ⟨hcall, hsleep⟩ := htimely holder
    have hpaced := h.paced holder
    have hlater : cluster.clock ≤ cluster.clock + elapsed := Nat.le_add_right _ _
    simp only
    cases hphase : cluster.phase holder with
    | stopped => trivial
    | waiting wake => trivial
    | acquiring call =>
      rw [hphase] at hpaced hcall
      exact ⟨hpaced.1.trans hlater, hcall call rfl⟩
    | leading term renewal =>
      rw [hphase] at hpaced hcall
      obtain ⟨hfailures, hconfirmed, hrenewal⟩ := hpaced
      refine ⟨hfailures, hconfirmed.trans hlater, ?_⟩
      cases renewal with
      | sleeping wake => exact ⟨hrenewal.1, hsleep term wake hphase⟩
      | calling call =>
        obtain ⟨hterm, hnow, hbound, -⟩ := hrenewal
        exact ⟨hterm, hnow.trans hlater, hbound, hcall call rfl⟩

lemma Cluster.Invariant.wake (h : cluster.Invariant delays) {holder : Holder} {phase : Phase}
    (hwake : (cluster.phase holder).wake cluster.clock = some phase) :
    (cluster.setPhase holder phase).Invariant delays := by
  have hpaced := h.paced holder
  cases hphase : cluster.phase holder with
  | stopped => simp [hphase, Phase.wake] at hwake
  | acquiring call => simp [hphase, Phase.wake] at hwake
  | waiting wake =>
    simp only [hphase, Phase.wake, Option.ite_none_right_eq_some, Option.some.injEq] at hwake
    obtain ⟨-, rfl⟩ := hwake
    refine h.setPhase (by simp [Phase.claim]) ?_ ⟨le_refl _, Nat.le_add_right _ _⟩
    intro call id hcall
    obtain rfl := Option.some.inj hcall
    simp
  | leading term renewal =>
    cases renewal with
    | calling call => simp [hphase, Phase.wake] at hwake
    | sleeping wake =>
      simp only [hphase, Phase.wake, Option.ite_none_right_eq_some, Option.some.injEq] at hwake
      obtain ⟨-, rfl⟩ := hwake
      rw [hphase] at hpaced
      obtain ⟨hfailures, hconfirmed, hwake, hclock⟩ := hpaced
      have hbound : cluster.clock ≤ term.confirmed + delays.call + term.failures * delays.round +
          renewInterval + delays.wake := by omega
      refine h.setPhase ?_ ?_ ⟨hfailures, hconfirmed, hconfirmed, le_refl _, hbound,
        Nat.le_add_right _ _⟩
      · intro since hsince
        obtain rfl := Option.some.inj hsince
        exact ⟨term.confirmed, by rw [hphase]; rfl, by simp⟩
      · intro call id hcall
        obtain rfl := Option.some.inj hcall
        simp

/-! ### Reads and writes of the Lease -/

lemma Phase.call_withStage (stage : Stage) (phase : Phase) :
    (phase.withStage stage).call? = phase.call?.map fun call => { call with stage := stage } := by
  cases phase with
  | stopped => rfl
  | waiting wake => rfl
  | acquiring call => rfl
  | leading term renewal => cases renewal <;> rfl

lemma Phase.paced_withStage {stage : Stage} {phase : Phase} {clock : ℕ}
    (h : phase.Paced delays clock) : (phase.withStage stage).Paced delays clock := by
  unfold withStage
  split <;> exact h

/-- What a process claims depends on whether its call has succeeded. -/
lemma Phase.claim_withStage {stage : Stage} {phase : Phase} {call : Call}
    (hcall : phase.call? = some call) (hbefore : call.stage ≠ .answered (.ok true))
    (hafter : stage ≠ .answered (.ok true)) : (phase.withStage stage).claim = phase.claim := by
  cases phase with
  | stopped => rfl
  | waiting wake => rfl
  | acquiring own =>
    obtain rfl := Option.some.inj hcall
    simp [withStage, claim, hbefore, hafter]
  | leading term renewal => cases renewal with
    | sleeping wake => rfl
    | calling own =>
      obtain rfl := Option.some.inj hcall
      simp [withStage, claim, hbefore, hafter]

lemma Phase.claim_withStage_ok {phase : Phase} {call : Call} (hcall : phase.call? = some call) :
    (phase.withStage (.answered (.ok true))).claim = some call.now := by
  cases phase with
  | stopped => cases hcall
  | waiting wake => cases hcall
  | acquiring own =>
    obtain rfl := Option.some.inj hcall
    simp [withStage, claim]
  | leading term renewal => cases renewal with
    | sleeping wake => cases hcall
    | calling own =>
      obtain rfl := Option.some.inj hcall
      simp [withStage, claim]

/-- What a process decides on the Lease it has read. -/
lemma decideLease_cases (holder : Holder) (now : ℕ) (lease : Option (Stored LeaseSpec)) :
    decideLease holder now lease = .answer false ∨
      ∃ write, decideLease holder now lease = .write write ∧ write.value.WrittenBy holder now ∧
        ((lease = none ∧ ∃ spec, write = .create spec) ∨ ∃ stored spec, lease = some stored ∧
          write = .replace stored.version spec ∧ (stored.value.holderIdentity = some holder ∨
            stored.value.expired now = true)) := by
  cases lease with
  | none => exact Or.inr ⟨_, rfl, ⟨rfl, rfl, rfl⟩, Or.inl ⟨rfl, _, rfl⟩⟩
  | some stored =>
    by_cases hrefused : stored.value.holderIdentity ≠ some holder ∧
        stored.value.expired now = false
    · exact Or.inl (if_pos hrefused)
    · refine Or.inr ⟨_, if_neg hrefused, ⟨rfl, rfl, rfl⟩, Or.inr ⟨stored, _, rfl, rfl, ?_⟩⟩
      by_contra hneither
      rw [not_or, Bool.not_eq_true] at hneither
      exact hrefused hneither

/-- A read that leads to no write changes nothing that matters. -/
lemma Cluster.Invariant.answer (h : cluster.Invariant delays) {holder : Holder} {call : Call}
    {outcome : Outcome} (hcall : (cluster.phase holder).call? = some call)
    (hstage : call.stage ≠ .answered (.ok true)) (houtcome : outcome ≠ .ok true) :
    (cluster.setPhase holder
      ((cluster.phase holder).withStage (.answered outcome))).Invariant delays := by
  refine h.setPhase ?_ ?_ (Phase.paced_withStage (h.paced holder))
  · intro since hsince
    rw [Phase.claim_withStage hcall hstage (by simpa using houtcome)] at hsince
    exact ⟨since, hsince, le_refl _⟩
  · intro own id hown
    rw [Phase.call_withStage, hcall] at hown
    obtain rfl := Option.some.inj hown
    simp

/-- A write that is sent off is founded on the Lease that was read. -/
lemma Cluster.Invariant.send (h : cluster.Invariant delays) {holder : Holder} {now : ℕ}
    {write : Write LeaseSpec} (hcall : (cluster.phase holder).call? = some ⟨now, .reading⟩)
    (hdecided : decideLease holder now cluster.lease.stored = .write write) :
    Cluster.Invariant delays
      { cluster.setPhase holder
          ((cluster.phase holder).withStage (.writing cluster.nextRequest)) with
        inFlight := ⟨cluster.nextRequest, holder, now, write⟩ :: cluster.inFlight
        nextRequest := cluster.nextRequest + 1 } := by
  obtain hanswer | ⟨write', hwrite', hwritten, hbase⟩ :=
    decideLease_cases holder now cluster.lease.stored
  · rw [hdecided] at hanswer
    cases hanswer
  obtain rfl : write = write' := Decision.write.inj (hdecided.symm.trans hwrite')
  set phase' := Function.update cluster.phase holder
    ((cluster.phase holder).withStage (.writing cluster.nextRequest)) with hphase'
  have hown : phase' holder = _ := Function.update_self _ _ _
  have hother : ∀ {other}, other ≠ holder → phase' other = cluster.phase other :=
    fun hne => Function.update_of_ne hne _ _
  have hclaim : ∀ other, (phase' other).claim = (cluster.phase other).claim := by
    intro other
    by_cases hne : other = holder
    · rw [hne, hown]
      exact Phase.claim_withStage hcall (by simp) (by simp)
    · rw [hother hne]
  have hpaced := h.paced holder
  -- the claim of the sender is no later than the moment its call started
  have hnow : now ≤ cluster.clock ∧ ∀ since, (cluster.phase holder).claim = some since →
      since ≤ now := by
    cases hphase : cluster.phase holder with
    | stopped => simp [hphase, Phase.call?] at hcall
    | waiting wake => simp [hphase, Phase.call?] at hcall
    | acquiring call =>
      rw [hphase] at hcall hpaced
      obtain rfl := Option.some.inj hcall
      exact ⟨hpaced.1, by simp [Phase.claim]⟩
    | leading term renewal => cases renewal with
      | sleeping wake => simp [hphase, Phase.call?] at hcall
      | calling call =>
        rw [hphase] at hcall hpaced
        obtain rfl := Option.some.inj hcall
        obtain ⟨-, -, hconfirmed, hclock, -⟩ := hpaced
        exact ⟨hclock, by simpa [Phase.claim] using hconfirmed⟩
  -- who waits for a request is the sender, or waited before
  have hstages : ∀ other call id, (phase' other).call? = some call → call.stage = .writing id →
      (other = holder ∧ id = cluster.nextRequest ∧ call.now = now) ∨
        (cluster.phase other).call? = some call := by
    intro other call id hsome hstage
    by_cases hne : other = holder
    · rw [hne, hown, Phase.call_withStage, hcall] at hsome
      obtain rfl := Option.some.inj hsome
      exact Or.inl ⟨hne, (Stage.writing.inj hstage).symm, rfl⟩
    · rw [hother hne] at hsome
      exact Or.inr hsome
  constructor
  case fresh => exact h.fresh
  case held =>
    intro other since hsince
    exact h.held other since ((hclaim other).symm.trans hsince)
  case requests =>
    intro request hmem
    rcases List.mem_cons.mp hmem with rfl | hmem
    · refine ⟨Nat.lt_succ_self _, hnow.1, hwritten, ?_⟩
      rcases hbase with ⟨-, spec, rfl⟩ | ⟨stored, spec, hstored, rfl, hentitled⟩
      · trivial
      · exact Slot.founded_replace h.fresh hstored hentitled
    · obtain ⟨hid, hrest⟩ := h.requests request hmem
      exact ⟨Nat.lt_succ_of_lt hid, hrest⟩
  case forward =>
    intro request hmem haccepts since hsince
    have hbefore := (hclaim request.owner).symm.trans hsince
    rcases List.mem_cons.mp hmem with rfl | hmem
    · exact hnow.2 since hbefore
    · exact h.forward request hmem haccepts since hbefore
  case awaited =>
    intro request hmem call hsome hstage
    rcases List.mem_cons.mp hmem with rfl | hmem
    · exact (hstages _ call _ hsome hstage).elim (fun hnew => hnew.2.2) fun hold =>
        absurd (h.numbered _ call _ hold hstage) (lt_irrefl _)
    · rcases hstages _ call _ hsome hstage with ⟨-, hid, -⟩ | hold
      · exact absurd (h.requests request hmem).1 (by simp [hid])
      · exact h.awaited request hmem call hold hstage
  case numbered =>
    intro other call id hsome hstage
    rcases hstages _ call id hsome hstage with ⟨-, rfl, -⟩ | hold
    · exact Nat.lt_succ_self _
    · exact Nat.lt_succ_of_lt (h.numbered other call id hold hstage)
  case paced =>
    intro other
    show (phase' other).Paced delays cluster.clock
    by_cases hne : other = holder
    · rw [hne, hown]
      exact Phase.paced_withStage hpaced
    · rw [hother hne]
      exact h.paced other

/-- Requests may be lost. -/
lemma Cluster.Invariant.drop (h : cluster.Invariant delays) (keep : Request → Bool) :
    Cluster.Invariant delays { cluster with inFlight := cluster.inFlight.filter keep } where
  fresh := h.fresh
  held := h.held
  requests request hmem := h.requests request (List.mem_filter.mp hmem).1
  forward request hmem := h.forward request (List.mem_filter.mp hmem).1
  awaited request hmem := h.awaited request (List.mem_filter.mp hmem).1
  numbered := h.numbered
  paced := h.paced

/-- Only the sender of an accepted write may rely on the Lease. -/
lemma Cluster.Invariant.owner_of_claim (h : cluster.Invariant delays)
    (hterm : delays.term + second ≤ leaseDuration) {request : Request}
    (hmem : request ∈ cluster.inFlight) (haccepts : cluster.lease.Accepts request.write)
    {holder : Holder} {since : ℕ} (hclaim : (cluster.phase holder).claim = some since) :
    holder = request.owner := by
  obtain ⟨stored, renewed, hstored, hwritten, hsince⟩ := h.held holder since hclaim
  obtain ⟨-, hnow, -, hfounded⟩ := h.requests request hmem
  rcases hfounded.of_accepts haccepts hstored with hown | hexpired
  · exact Option.some.inj (hwritten.1.symm.trans hown)
  · have hlive := not_expired_of_claim hterm hwritten hsince hnow
      ((h.paced holder).claim_le hclaim)
    rw [hexpired] at hlive
    cases hlive

/-- A write that goes through leaves the Lease with its sender. -/
lemma Cluster.Invariant.write (h : cluster.Invariant delays)
    (hterm : delays.term + second ≤ leaseDuration) {request : Request}
    (hmem : request ∈ cluster.inFlight) (haccepts : cluster.lease.Accepts request.write)
    {phase : Phase}
    (hphase : phase = cluster.phase request.owner ∨ ∃ call,
      (cluster.phase request.owner).call? = some call ∧ call.stage = .writing request.id ∧
        phase = (cluster.phase request.owner).withStage (.answered (.ok true))) :
    Cluster.Invariant delays
      { cluster.setPhase request.owner phase with
        lease := cluster.lease.put request.write.value
        inFlight := cluster.inFlight.filter (·.id ≠ request.id) } := by
  obtain ⟨-, -, hwritten, -⟩ := h.requests request hmem
  set phase' := Function.update cluster.phase request.owner phase
  have hown : phase' request.owner = phase := Function.update_self _ _ _
  have hother : ∀ {other}, other ≠ request.owner → phase' other = cluster.phase other :=
    fun hne => Function.update_of_ne hne _ _
  have hstages : ∀ other call id, (phase' other).call? = some call → call.stage = .writing id →
      (cluster.phase other).call? = some call := by
    intro other call id hsome hstage
    by_cases hne : other = request.owner
    · rw [hne, hown] at hsome
      rw [hne]
      rcases hphase with rfl | ⟨own, hcall, -, rfl⟩
      · exact hsome
      · rw [Phase.call_withStage, hcall] at hsome
        obtain rfl := Option.some.inj hsome
        cases hstage
    · rwa [hother hne] at hsome
  constructor
  case fresh => exact cluster.lease.fresh_put _
  case held =>
    intro other since hsince
    -- only the sender can have a claim, and none from later than its call
    have hclaim : other = request.owner ∧ since ≤ request.now := by
      by_cases hne : other = request.owner
      · refine ⟨hne, ?_⟩
        rw [show Cluster.phase _ other = phase' other from rfl, hne, hown] at hsince
        rcases hphase with rfl | ⟨call, hcall, hstage, rfl⟩
        · exact h.forward request hmem haccepts since hsince
        · rw [Phase.claim_withStage_ok hcall] at hsince
          rw [← Option.some.inj hsince, h.awaited request hmem call hcall hstage]
      · rw [show Cluster.phase _ other = phase' other from rfl, hother hne] at hsince
        exact absurd (h.owner_of_claim hterm hmem haccepts hsince) hne
    exact ⟨_, request.now, rfl, hclaim.1 ▸ hwritten, hclaim.2⟩
  case requests =>
    intro other hother
    obtain ⟨hid, hnow, hvalue, hfounded⟩ := h.requests other (List.mem_filter.mp hother).1
    refine ⟨hid, hnow, hvalue, ?_⟩
    have hhandled := hfounded.handle request.write
    rcases cluster.lease.handle_cases request.write with ⟨_, hdone⟩ | ⟨hnot, _⟩
    · rwa [hdone] at hhandled
    · exact absurd haccepts hnot
  case forward =>
    intro other hother hagain
    exact absurd hagain (Slot.not_accepts_put (h.requests other (List.mem_filter.mp hother).1).2.2.2)
  case awaited =>
    intro other hother call hsome hstage
    exact h.awaited other (List.mem_filter.mp hother).1 call (hstages _ call _ hsome hstage) hstage
  case numbered =>
    intro other call id hsome hstage
    exact h.numbered other call id (hstages _ call _ hsome hstage) hstage
  case paced =>
    intro other
    show (phase' other).Paced delays cluster.clock
    by_cases hne : other = request.owner
    · rw [hne, hown]
      rcases hphase with rfl | ⟨-, -, -, rfl⟩
      · exact h.paced _
      · exact Phase.paced_withStage (h.paced _)
    · rw [hother hne]
      exact h.paced other

lemma Cluster.Invariant.handle (h : cluster.Invariant delays)
    (hterm : delays.term + second ≤ leaseDuration) {id : ℕ}
    (hhandle : cluster.handle id = some next) : next.Invariant delays := by
  simp only [Cluster.handle] at hhandle
  split at hhandle
  · cases hhandle
  next request hfind =>
  have hmem := List.mem_of_find?_eq_some hfind
  obtain rfl : request.id = id := by simpa using List.find?_some hfind
  rcases cluster.lease.handle_cases request.write with ⟨haccepts, hdone⟩ | ⟨_, hsame, hnot⟩
  · split_ifs at hhandle with hwaiting
    · obtain ⟨call, hcall, hstage⟩ := Option.map_eq_some_iff.mp hwaiting
      obtain rfl := Option.some.inj hhandle
      simp only [hdone]
      exact h.write hterm hmem haccepts (Or.inr ⟨call, hcall, hstage, rfl⟩)
    · obtain rfl := Option.some.inj hhandle
      simp only [hdone]
      have hwritten := h.write hterm hmem haccepts (Or.inl rfl)
      simpa [Cluster.setPhase] using hwritten
  · have hdropped := h.drop (·.id ≠ request.id)
    split_ifs at hhandle with hwaiting
    · obtain ⟨call, hcall, hstage⟩ := Option.map_eq_some_iff.mp hwaiting
      obtain rfl := Option.some.inj hhandle
      simp only [hsame]
      have hrefused : Outcome.ofAnswer (cluster.lease.handle request.write).2 ≠ .ok true := by
        cases hanswer : (cluster.lease.handle request.write).2 with
        | done => exact absurd hanswer hnot
        | conflict => simp [Outcome.ofAnswer]
        | missing => simp [Outcome.ofAnswer]
      exact hdropped.answer hcall (by simp [hstage]) hrefused
    · obtain rfl := Option.some.inj hhandle
      simp only [hsame]
      exact hdropped

/-- An action within the delays keeps the invariant. -/
lemma Cluster.Invariant.step (h : cluster.Invariant delays)
    (hterm : delays.term + second ≤ leaseDuration) {action : Action}
    (htimely : Timely delays cluster action) (hstep : cluster.step action = some next) :
    next.Invariant delays := by
  cases action with
  | tick elapsed =>
    obtain rfl := Option.some.inj hstep
    exact h.tick htimely
  | start holder =>
    simp only [Cluster.step, Option.ite_none_right_eq_some, Option.some.injEq] at hstep
    obtain ⟨-, rfl⟩ := hstep
    exact h.setPhase (by simp [Phase.claim]) (by simp [Phase.call?]) trivial
  | wake holder =>
    obtain ⟨phase, hwake, rfl⟩ := Option.map_eq_some_iff.mp hstep
    exact h.wake hwake
  | read holder =>
    simp only [Cluster.step, Cluster.read] at hstep
    split at hstep
    · next now hcall =>
      rcases decideLease_cases holder now cluster.lease.stored with hanswer | ⟨write, hwrite, -⟩
      · rw [hanswer] at hstep
        obtain rfl := Option.some.inj hstep
        exact h.answer hcall (by simp) (by simp)
      · rw [hwrite] at hstep
        obtain rfl := Option.some.inj hstep
        exact h.send hcall hwrite
    · cases hstep
  | handle request => exact h.handle hterm hstep
  | reply holder =>
    simp only [Cluster.step] at hstep
    split at hstep
    · next now outcome hcall =>
      obtain rfl := Option.some.inj hstep
      refine h.conclude hcall (by simp) ?_
      rintro rfl term call hphase
      rw [hphase] at hcall
      obtain rfl := Option.some.inj hcall
      exact htimely term now hphase
    · cases hstep
  | fail holder =>
    simp only [Cluster.step, Option.ite_none_right_eq_some, Option.some.injEq] at hstep
    obtain ⟨hsome, rfl⟩ := hstep
    obtain ⟨call, hcall⟩ := Option.isSome_iff_exists.mp hsome
    exact h.conclude hcall (by simp) fun _ => htimely
  | stop holder =>
    obtain rfl := Option.some.inj hstep
    exact h.setPhase (by simp [Phase.claim]) (by simp [Phase.call?]) trivial

lemma Cluster.Initial.invariant (h : cluster.Initial) : cluster.Invariant delays := by
  have hcall : ∀ holder, (cluster.phase holder).call? = none := by
    intro holder
    rw [h.stopped holder]
    rfl
  have hclaim : ∀ holder, (cluster.phase holder).claim = none := by
    intro holder
    rw [h.stopped holder]
    rfl
  constructor
  case fresh => exact h.fresh
  case held => simp [hclaim]
  case requests => simp [h.idle]
  case forward => simp [h.idle]
  case awaited => simp [h.idle]
  case numbered => simp [hcall]
  case paced =>
    intro holder
    rw [h.stopped holder]
    trivial

/-- The invariant leaves room for one leader. -/
lemma Cluster.Invariant.exclusive (h : cluster.Invariant delays)
    (hterm : delays.term + second ≤ leaseDuration) : cluster.Exclusive where
  single := by
    rintro holder other hne ⟨term, renewal, hleads⟩ ⟨term', renewal', hleads'⟩
    have hpaced := h.paced holder
    have hpaced' := h.paced other
    rw [hleads] at hpaced
    rw [hleads'] at hpaced'
    obtain ⟨since, hclaim, -⟩ := Phase.claim_leading hpaced
    obtain ⟨since', hclaim', -⟩ := Phase.claim_leading hpaced'
    obtain ⟨stored, -, hstored, ⟨hholder, -⟩, -⟩ := h.held holder since (hleads ▸ hclaim)
    obtain ⟨stored', -, hstored', ⟨hholder', -⟩, -⟩ := h.held other since' (hleads' ▸ hclaim')
    obtain rfl := Option.some.inj (hstored.symm.trans hstored')
    exact absurd (Option.some.inj (hholder.symm.trans hholder')) hne
  deadline := by
    intro holder term renewal hleads
    have hpaced := h.paced holder
    rw [hleads] at hpaced
    have hclock := hpaced.clock_le
    omega

/-- As long as calls, wake-ups and failures are within delays that add up to less than a Lease,
at most one process leads and none leads past the Lease it has confirmed. -/
theorem exclusive_of_timelyRun (delays : Delays) (start cluster : Cluster)
    (hterm : delays.term + second ≤ leaseDuration) (hstart : start.Initial)
    (hrun : TimelyRun delays start cluster) : cluster.Exclusive := by
  have hinvariant : cluster.Invariant delays := by
    induction hrun with
    | refl => exact hstart.invariant
    | step _ action timely taken ih => exact ih.step hterm timely taken
  exact hinvariant.exclusive hterm

/-! ### Runs -/

/-- Take actions one after another. -/
def Cluster.run (cluster : Cluster) (actions : List Action) : Option Cluster :=
  actions.foldlM Cluster.step cluster

/-- A cluster without a Lease in which no process has started. -/
def idleCluster : Cluster where
  clock := 0
  lease := ⟨none, 0⟩
  inFlight := []
  nextRequest := 0
  phase _ := .stopped

lemma initial_idleCluster : idleCluster.Initial where
  stopped _ := rfl
  idle := rfl
  fresh := by simp [Slot.Fresh, idleCluster]

/-- A process acquires the Lease. -/
def acquisition (holder : Holder) (request : ℕ) : List Action :=
  [.start holder, .wake holder, .read holder, .handle request, .reply holder]

/-- The first renewal of a leader hangs for twenty seconds, in which its Lease expires. -/
def hangingRenewal : List Action :=
  acquisition "a" 0 ++ [.tick (10 * second), .wake "a", .tick (20 * second)] ++ acquisition "b" 1

/-- Two processes lead while one of them holds a Lease that has just been renewed. -/
theorem two_leaders_hangingRenewal :
    idleCluster.Initial ∧ ∃ cluster, idleCluster.run hangingRenewal = some cluster ∧
      ¬ cluster.Exclusive := by
  refine ⟨initial_idleCluster, (idleCluster.run hangingRenewal).get (by decide +kernel),
    by simp, fun hexclusive => ?_⟩
  refine (hexclusive.single "a" "b" (by decide) ⟨⟨0, 0, 0⟩, .calling ⟨10 * second, .reading⟩, ?_⟩
    ⟨⟨30 * second, 30 * second, 0⟩, .sleeping (40 * second), ?_⟩
    ⟨⟨some (30 * second), some (30 * second), some "b", some 30, some 1⟩, 1⟩ ?_ ?_).2 rfl
  all_goals decide +kernel

/-- Calls within five seconds, wake-ups within one, and no failed renewal. -/
def promptDelays : Delays := ⟨5 * second, second, 0⟩

/-- A cluster of two processes that have started. -/
def pairCluster (clock : ℕ) (lease : Slot LeaseSpec) (inFlight : List Request) (nextRequest : ℕ)
    (phaseA phaseB : Phase) : Cluster where
  clock := clock
  lease := lease
  inFlight := inFlight
  nextRequest := nextRequest
  phase holder := if holder = "a" then phaseA else if holder = "b" then phaseB else .stopped

section Pair

variable {clock next : ℕ} {lease : Slot LeaseSpec} {inFlight : List Request}
  {phaseA phaseB phase : Phase}

@[simp] lemma pairCluster_phase_a :
    (pairCluster clock lease inFlight next phaseA phaseB).phase "a" = phaseA := rfl

@[simp] lemma pairCluster_phase_b :
    (pairCluster clock lease inFlight next phaseA phaseB).phase "b" = phaseB := rfl

@[simp] lemma pairCluster_clock :
    (pairCluster clock lease inFlight next phaseA phaseB).clock = clock := rfl

@[simp] lemma pairCluster_lease :
    (pairCluster clock lease inFlight next phaseA phaseB).lease = lease := rfl

@[simp] lemma pairCluster_inFlight :
    (pairCluster clock lease inFlight next phaseA phaseB).inFlight = inFlight := rfl

@[simp] lemma pairCluster_nextRequest :
    (pairCluster clock lease inFlight next phaseA phaseB).nextRequest = next := rfl

/-- What changes beside the phases. -/
@[simp] lemma mk_pairCluster {clock' next' : ℕ} {lease' : Slot LeaseSpec}
    {inFlight' : List Request} :
    Cluster.mk clock' lease' inFlight' next'
      (pairCluster clock lease inFlight next phaseA phaseB).phase =
        pairCluster clock' lease' inFlight' next' phaseA phaseB := rfl

@[simp] lemma setPhase_pairCluster_a :
    (pairCluster clock lease inFlight next phaseA phaseB).setPhase "a" phase =
      pairCluster clock lease inFlight next phase phaseB := by
  simp only [Cluster.setPhase, pairCluster, Cluster.mk.injEq, true_and]
  funext holder
  by_cases h : holder = "a"
  · subst h
    rfl
  · simp [h]

@[simp] lemma setPhase_pairCluster_b :
    (pairCluster clock lease inFlight next phaseA phaseB).setPhase "b" phase =
      pairCluster clock lease inFlight next phaseA phase := by
  simp only [Cluster.setPhase, pairCluster, Cluster.mk.injEq, true_and]
  funext holder
  by_cases h : holder = "b"
  · subst h
    rfl
  · simp [h]

lemma timely_tick_pairCluster {delays : Delays} {elapsed : ℕ}
    (h : ∀ phase ∈ [phaseA, phaseB],
      (∀ call, phase.call? = some call → clock + elapsed ≤ call.now + delays.call) ∧
        ∀ term wake, phase = .leading term (.sleeping wake) →
          clock + elapsed ≤ wake + delays.wake) :
    Timely delays (pairCluster clock lease inFlight next phaseA phaseB) (.tick elapsed) := by
  intro holder
  simp only [pairCluster]
  split_ifs with ha hb
  · exact h _ (by simp)
  · exact h _ (by simp)
  · exact ⟨fun _ hcall => by simp [Phase.call?] at hcall, fun _ _ hphase => by cases hphase⟩

end Pair

/-- The Lease as its first holder creates it, and as the next one takes it over. -/
def firstLease : LeaseSpec := ⟨some 0, some 0, some "a", some 30, some 0⟩
def secondLease : LeaseSpec := ⟨some (30 * second), some (30 * second), some "b", some 30, some 1⟩

/-- Actions that are within any delays are taken one after another. -/
lemma TimelyRun.run {delays : Delays} {start cluster next : Cluster} {actions : List Action}
    (h : TimelyRun delays start cluster)
    (htimely : ∀ action ∈ actions, ∀ cluster, Timely delays cluster action)
    (hrun : cluster.run actions = some next) : TimelyRun delays start next := by
  induction actions generalizing cluster with
  | nil =>
    obtain rfl := Option.some.inj hrun
    exact h
  | cons action actions ih =>
    rw [Cluster.run, List.foldlM_cons, Option.bind_eq_bind, Option.bind_eq_some_iff] at hrun
    obtain ⟨between, hstep, hrest⟩ := hrun
    refine ih (h.step action (htimely _ (by simp) _) hstep) (fun later hlater => ?_) hrest
    exact htimely later (List.mem_cons_of_mem _ hlater)

/-- Both processes find no Lease and create one: the second creation is refused. -/
lemma timelyRun_contended : TimelyRun promptDelays idleCluster
    (pairCluster 0 ⟨some ⟨firstLease, 0⟩, 1⟩ [] 2
      (.leading ⟨0, 0, 0⟩ (.sleeping (10 * second))) (.waiting (3 * second))) := by
  have hidle : idleCluster = pairCluster 0 ⟨none, 0⟩ [] 0 .stopped .stopped := by
    simp only [idleCluster, pairCluster, ite_self]
  have hrun : idleCluster.run [.start "a", .start "b", .wake "a", .wake "b", .read "a", .read "b",
      .handle 0, .handle 1] =
        some (pairCluster 0 ⟨some ⟨firstLease, 0⟩, 1⟩ [] 2 (.acquiring ⟨0, .answered (.ok true)⟩)
          (.acquiring ⟨0, .answered (.ok false)⟩)) := by
    rw [hidle]
    simp [Cluster.run, List.foldlM_cons, Cluster.step, Phase.wake, Cluster.read, Phase.call?,
      decideLease, Phase.withStage, Cluster.handle, Slot.handle, Slot.put, Outcome.ofAnswer,
      firstLease, leaseDurationSeconds]
  have hanswered : TimelyRun promptDelays idleCluster _ :=
    TimelyRun.refl.run (by simp [Timely]) hrun
  have hreplied : TimelyRun promptDelays idleCluster
      (pairCluster 0 ⟨some ⟨firstLease, 0⟩, 1⟩ [] 2
        (.leading ⟨0, 0, 0⟩ (.sleeping (10 * second))) (.acquiring ⟨0, .answered (.ok false)⟩)) := by
    refine .step hanswered (.reply "a") (by simp [Timely]) ?_
    simp [Cluster.step, Phase.call?, Cluster.conclude, Phase.conclude, Phase.confirm, renewInterval]
  refine .step hreplied (.reply "b") (by simp [Timely]) ?_
  simp [Cluster.step, Phase.call?, Cluster.conclude, Phase.conclude, retryInterval]

/-- The leader stops, and once its Lease has run out the other process takes it over. -/
lemma timelyRun_takenOver : TimelyRun promptDelays idleCluster
    (pairCluster (30 * second) ⟨some ⟨secondLease, 1⟩, 2⟩ [] 3 .stopped
      (.leading ⟨30 * second, 30 * second, 0⟩ (.sleeping (40 * second)))) := by
  have hstopped := timelyRun_contended.step (.stop "a") trivial rfl
  simp only [setPhase_pairCluster_a] at hstopped
  have hexpired : TimelyRun promptDelays idleCluster
      (pairCluster (30 * second) ⟨some ⟨firstLease, 0⟩, 1⟩ [] 2 .stopped
        (.waiting (3 * second))) := by
    refine .step hstopped (.tick (30 * second)) (timely_tick_pairCluster ?_) ?_
    · simp [Phase.call?]
    · simp [Cluster.step]
  have hrun : (pairCluster (30 * second) ⟨some ⟨firstLease, 0⟩, 1⟩ [] 2 .stopped
      (.waiting (3 * second))).run [.wake "b", .read "b", .handle 2] =
        some (pairCluster (30 * second) ⟨some ⟨secondLease, 1⟩, 2⟩ [] 3 .stopped
          (.acquiring ⟨30 * second, .answered (.ok true)⟩)) := by
    have hwake : 3 * second ≤ 30 * second := by decide
    have hholder : firstLease.holderIdentity = some "a" := rfl
    have htransitions : firstLease.leaseTransitions = some 0 := rfl
    have hrunOut : firstLease.expired (30 * second) = true := by decide
    simp [Cluster.run, List.foldlM_cons, Cluster.step, Phase.wake, Cluster.read, Phase.call?,
      decideLease, Phase.withStage, Cluster.handle, Slot.handle, Slot.put, Outcome.ofAnswer, hwake,
      hrunOut, hholder, htransitions, secondLease, leaseDurationSeconds, saturatingSucc]
  refine .step (hexpired.run (by simp [Timely]) hrun) (.reply "b") (by simp [Timely]) ?_
  simp [Cluster.step, Phase.call?, Cluster.conclude, Phase.conclude, Phase.confirm, renewInterval,
    second]

/-- Two processes contend for the Lease: one leads, and the other one after it. -/
theorem exclusive_of_prompt_acquisition :
    promptDelays.term + second ≤ leaseDuration ∧
      (∃ cluster, TimelyRun promptDelays idleCluster cluster ∧
        cluster.phase "a" = .leading ⟨0, 0, 0⟩ (.sleeping (10 * second)) ∧
        cluster.phase "b" = .waiting (3 * second) ∧ cluster.Exclusive) ∧
      ∃ cluster, TimelyRun promptDelays idleCluster cluster ∧ cluster.phase "a" = .stopped ∧
        cluster.phase "b" = .leading ⟨30 * second, 30 * second, 0⟩ (.sleeping (40 * second)) ∧
        cluster.Exclusive := by
  have hterm : promptDelays.term + second ≤ leaseDuration := by decide
  refine ⟨hterm, ⟨_, timelyRun_contended, rfl, rfl, ?_⟩, _, timelyRun_takenOver, rfl, rfl, ?_⟩
  · exact exclusive_of_timelyRun _ _ _ hterm initial_idleCluster timelyRun_contended
  · exact exclusive_of_timelyRun _ _ _ hterm initial_idleCluster timelyRun_takenOver

end Thorax.Kubernetes
