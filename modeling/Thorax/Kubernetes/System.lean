import Thorax.Kubernetes.Projection

/-!
# The system

The reconciliations that are under way, the API server they share, and everyone else who changes
the cluster. A step lets one reconciliation go on by one call, fails its call, lets a request arrive
whose sender has given it up, starts or stops a reconciliation, or changes the cluster from
outside. A reconciliation of a vault starts from any version of the object that was ever stored.
-/

namespace Thorax.Kubernetes

open Remote Versioned

/-- The version of an object that a reconciliation was started for. -/
inductive Subject where
  | vault (observed : ThoraxVault)
  | projection (observed : ThoraxSecret)

/-- A reconciliation: what it is for, and what is left of it. -/
structure Run where
  subject : Subject
  program : Controller ℕ

structure System where
  server : ApiServer
  runs : ℕ → Option Run
  /-- The identifier of the next reconciliation. -/
  nextRun : ℕ

/-- A change at the server by someone else. The specification of a vault cannot be changed. -/
inductive Change where
  | setConfigMap (name : String) (configMap : Option ConfigMap)
  | setSecret (name : String) (secret : Option Secret)
  | approve (name : String) (ownerReferences : List OwnerReference) (spec : ThoraxJoinApprovalSpec)
  | withdrawApproval (uid : Uid)
  | withdrawRequest (uid : Uid)

inductive System.Action where
  | reconcileVault (vault : ThoraxVault) (random : Randomness)
  | reconcileSecret (projection : ThoraxSecret)
  | serve (run : ℕ)
  | fail (run : ℕ)
  | stop (run : ℕ)
  | arrive (position : ℕ)
  | change (change : Change)

namespace ApiServer

def setSecret (self : ApiServer) (name : String) (secret : Option Secret) : ApiServer :=
  let slot := self.secrets name
  { self with secrets := Function.update self.secrets name (match secret with
      | some secret => slot.put secret
      | none => { slot with stored := none }) }

def change (self : ApiServer) : Change → ApiServer
  | .setConfigMap name configMap =>
    { self with configMaps := Function.update self.configMaps name configMap }
  | .setSecret name secret => self.setSecret name secret
  | .approve name ownerReferences spec =>
    if self.approvals.any (·.name = name) then self
    else
      { self with
        approvals := ⟨name, self.nextUid, ownerReferences, spec⟩ :: self.approvals
        nextUid := self.nextUid + 1 }
  | .withdrawApproval uid =>
    { self with approvals := self.approvals.filter (·.uid ≠ uid) }
  | .withdrawRequest uid => { self with requests := self.requests.filter (·.uid ≠ uid) }

/-- A call whose caller no longer waits for it; a mark waits for no one. -/
def abandon (self : ApiServer) (run : ℕ) (program : Controller ℕ) : ApiServer :=
  match program with
  | .call (.mark _) _ | .done _ => self
  | .call op _ => self.giveUp run op

end ApiServer

/-- What is left of a program after its call has failed. -/
def failedCall : Controller ℕ → Option (Controller ℕ)
  | .call (.mark _) _ | .done _ => none
  | .call _ next => some (next (.error .unavailable))

namespace System

def start (self : System) (subject : Subject) (program : Controller ℕ) : System :=
  { self with
    runs := Function.update self.runs self.nextRun (some ⟨subject, program⟩)
    nextRun := self.nextRun + 1 }

/-- A run goes on with what is left of it. -/
def goOn (self : System) (id : ℕ) (run : Run) (server : ApiServer) (program : Controller ℕ) : System :=
  { self with
    server := server
    runs := Function.update self.runs id (some { run with program := program }) }

/-- Nothing is left of a run. -/
def drop (self : System) (id : ℕ) (server : ApiServer) : System :=
  { self with server := server, runs := Function.update self.runs id none }

def step (provider : ProjectionProvider) (self : System) : Action → Option System
  | .reconcileVault vault random =>
    if vault ∈ self.server.versions then
      some (self.start (.vault vault) (reconcileVault provider.toControllerProvider vault random))
    else none
  | .reconcileSecret projection =>
    some (self.start (.projection projection) (reconcileSecret provider projection))
  | .serve id =>
    match self.runs id with
    | some ⟨subject, .call op next⟩ =>
      let (server, reply) := self.server.handle ⟨id, true⟩ op
      some (self.goOn id ⟨subject, .call op next⟩ server (next reply))
    | _ => none
  | .fail id => do
    let run ← self.runs id
    let program ← failedCall run.program
    some (self.goOn id run (self.server.abandon id run.program) program)
  | .stop id => do
    let run ← self.runs id
    some (self.drop id (self.server.abandon id run.program))
  | .arrive position => do
    let (id, op) ← self.server.inFlight[position]?
    let server := { self.server with inFlight := self.server.inFlight.eraseIdx position }
    some { self with server := (server.handle ⟨id, false⟩ op).1 }
  | .change change => some { self with server := self.server.change change }

end System

end Thorax.Kubernetes
