import Mathlib
import Thorax.Library.Versioned

/-!
# Leader election

Processes that compete for one Lease and run the controllers while they hold it. A process reads
the clock, reads the Lease, and writes it back if it is its own or has expired; a leader renews
after a pause and gives up when a renewal fails past its own deadline. Every call to the API
server can take any time, and can fail whether or not the server has carried it out.
-/

namespace Thorax.Kubernetes

open Versioned

/-- Moments and durations are counted in microseconds, the resolution of the times in a Lease. -/
def second : ℕ := 1000000

/-- The name under which a process holds the Lease; distinct processes have distinct names. -/
abbrev Holder := String

def leaseDurationSeconds : ℤ := 30

def leaseDuration : ℕ := 30 * second

def renewInterval : ℕ := 10 * second

def retryInterval : ℕ := 3 * second

structure LeaseSpec where
  acquireTime : Option ℕ
  renewTime : Option ℕ
  holderIdentity : Option Holder
  leaseDurationSeconds : Option ℤ
  leaseTransitions : Option ℤ
  deriving DecidableEq

/-- Transitions are counted in 32 bits. -/
def saturatingSucc (transitions : ℤ) : ℤ := min (transitions + 1) (2 ^ 31 - 1)

/-- Whether a Lease has expired: whole seconds are compared. A Lease that was never renewed
counts as renewed at the least representable second. -/
def LeaseSpec.expired (spec : LeaseSpec) (now : ℕ) : Bool :=
  match spec.renewTime.or spec.acquireTime with
  | none => true
  | some renewedAt =>
    decide (spec.leaseDurationSeconds.getD Kubernetes.leaseDurationSeconds ≤
      ((now / second : ℕ) : ℤ) - ((renewedAt / second : ℕ) : ℤ))

/-- What a process does with the Lease it has read. -/
inductive Decision where
  | answer (result : Bool)
  | write (write : Write LeaseSpec)

/-- The body of `acquire_or_renew` between its two calls. -/
def decideLease (holder : Holder) (now : ℕ) (lease : Option (Stored LeaseSpec)) : Decision :=
  match lease with
  | none =>
    .write (.create
      { acquireTime := some now
        renewTime := some now
        holderIdentity := some holder
        leaseDurationSeconds := some leaseDurationSeconds
        leaseTransitions := some 0 })
  | some stored =>
    let spec := stored.value
    if spec.holderIdentity ≠ some holder ∧ spec.expired now = false then .answer false
    else
      .write (.replace stored.version
        { acquireTime := if spec.holderIdentity ≠ some holder then some now else spec.acquireTime
          renewTime := some now
          holderIdentity := some holder
          leaseDurationSeconds := some leaseDurationSeconds
          leaseTransitions :=
            if spec.holderIdentity ≠ some holder then
              some (saturatingSucc (spec.leaseTransitions.getD 0))
            else spec.leaseTransitions })

/-! ### Processes -/

/-- How a call to `acquire_or_renew` ends. -/
inductive Outcome where
  | ok (result : Bool)
  | error
  deriving DecidableEq

/-- A write that was done holds the Lease, a conflict does not, and anything else is an error. -/
def Outcome.ofAnswer : Answer → Outcome
  | .done => .ok true
  | .conflict => .ok false
  | .missing => .error

inductive Stage where
  | reading
  | writing (request : ℕ)
  | answered (outcome : Outcome)
  deriving DecidableEq

/-- A call under way; `now` was read when it started. -/
structure Call where
  now : ℕ
  stage : Stage
  deriving DecidableEq

/-- What a leader goes by. The program keeps `lastSuccess` only; `confirmed` is the renew time of
the last confirmed call and `failures` counts the failed renewals since. -/
structure Term where
  confirmed : ℕ
  lastSuccess : ℕ
  failures : ℕ
  deriving DecidableEq

inductive Renewal where
  | sleeping (wake : ℕ)
  | calling (call : Call)
  deriving DecidableEq

/-- Where a process is in `run_leader_elected`; the controllers run while it is `leading`. -/
inductive Phase where
  | stopped
  | waiting (wake : ℕ)
  | acquiring (call : Call)
  | leading (term : Term) (renewal : Renewal)
  deriving DecidableEq

namespace Phase

def call? : Phase → Option Call
  | .acquiring call => some call
  | .leading _ (.calling call) => some call
  | _ => none

def withStage (stage : Stage) : Phase → Phase
  | .acquiring call => .acquiring { call with stage := stage }
  | .leading term (.calling call) => .leading term (.calling { call with stage := stage })
  | phase => phase

/-- A confirmed call starts a term, and the pause before the next renewal. -/
def confirm (call : Call) (clock : ℕ) : Phase :=
  .leading ⟨call.now, clock, 0⟩ (.sleeping (clock + renewInterval))

/-- What a process does when its call ends. -/
def conclude (clock : ℕ) (outcome : Outcome) : Phase → Phase
  | .acquiring call =>
    match outcome with
    | .ok true => confirm call clock
    | .ok false => .waiting (clock + retryInterval)
    | .error => .stopped
  | .leading term (.calling call) =>
    match outcome with
    | .ok true => confirm call clock
    -- the lease is lost: the controllers are dropped and acquisition starts over
    | .ok false => .acquiring ⟨clock, .reading⟩
    | .error =>
      if clock - term.lastSuccess < leaseDuration then
        .leading { term with failures := term.failures + 1 } (.sleeping (clock + renewInterval))
      else .stopped
  | phase => phase

/-- A sleep that is over is followed by a call. -/
def wake (clock : ℕ) : Phase → Option Phase
  | .waiting wake => if wake ≤ clock then some (.acquiring ⟨clock, .reading⟩) else none
  | .leading term (.sleeping wake) =>
    if wake ≤ clock then some (.leading term (.calling ⟨clock, .reading⟩)) else none
  | _ => none

end Phase

/-! ### The cluster -/

/-- A write on its way to the API server, whether or not its sender still waits for it. -/
structure Request where
  id : ℕ
  owner : Holder
  now : ℕ
  write : Write LeaseSpec

structure Cluster where
  clock : ℕ
  lease : Slot LeaseSpec
  inFlight : List Request
  nextRequest : ℕ
  phase : Holder → Phase

inductive Action where
  | tick (elapsed : ℕ)
  | start (holder : Holder)
  | wake (holder : Holder)
  | read (holder : Holder)
  | handle (request : ℕ)
  | reply (holder : Holder)
  | fail (holder : Holder)
  | stop (holder : Holder)

namespace Cluster

def setPhase (self : Cluster) (holder : Holder) (phase : Phase) : Cluster :=
  { self with phase := Function.update self.phase holder phase }

/-- The read of the Lease returns, and the process writes it or is done. -/
def read (self : Cluster) (holder : Holder) : Option Cluster :=
  match (self.phase holder).call? with
  | some ⟨now, .reading⟩ =>
    match decideLease holder now self.lease.stored with
    | .answer result => some (self.setPhase holder
        ((self.phase holder).withStage (.answered (.ok result))))
    | .write write => some
        { self.setPhase holder ((self.phase holder).withStage (.writing self.nextRequest)) with
          inFlight := ⟨self.nextRequest, holder, now, write⟩ :: self.inFlight
          nextRequest := self.nextRequest + 1 }
  | _ => none

/-- The server carries out a request; its sender is answered if it still waits. -/
def handle (self : Cluster) (request : ℕ) : Option Cluster :=
  match self.inFlight.find? (·.id = request) with
  | none => none
  | some found =>
    let handled := self.lease.handle found.write
    let served := { self with
      lease := handled.1
      inFlight := self.inFlight.filter (·.id ≠ request) }
    if ((self.phase found.owner).call?.map Call.stage) = some (.writing request) then
      some (served.setPhase found.owner
        ((self.phase found.owner).withStage (.answered (.ofAnswer handled.2))))
    else some served

/-- A call ends for its caller, in the given way. -/
def conclude (self : Cluster) (holder : Holder) (outcome : Outcome) : Cluster :=
  self.setPhase holder ((self.phase holder).conclude self.clock outcome)

def step (self : Cluster) : Action → Option Cluster
  | .tick elapsed => some { self with clock := self.clock + elapsed }
  | .start holder =>
    if self.phase holder = .stopped then some (self.setPhase holder (.waiting self.clock)) else none
  | .wake holder => ((self.phase holder).wake self.clock).map (self.setPhase holder)
  | .read holder => self.read holder
  | .handle request => self.handle request
  | .reply holder =>
    match (self.phase holder).call? with
    | some ⟨_, .answered outcome⟩ => some (self.conclude holder outcome)
    | _ => none
  -- the caller sees an error whatever became of its request
  | .fail holder =>
    if (self.phase holder).call?.isSome then some (self.conclude holder .error) else none
  -- the controllers end by themselves, or the process is shut down
  | .stop holder => some (self.setPhase holder .stopped)

/-- No process runs yet and nothing is under way; the Lease may have a past. -/
structure Initial (cluster : Cluster) : Prop where
  stopped : ∀ holder, cluster.phase holder = .stopped
  idle : cluster.inFlight = []
  fresh : cluster.lease.Fresh

end Cluster

end Thorax.Kubernetes
