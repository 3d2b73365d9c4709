import Mathlib.Logic.Function.Basic
import Thorax.Errors
import Thorax.Library.Remote
import Thorax.Library.Versioned

/-!
# The API server

The objects of one namespace that the controller reads and writes, and the calls by which it does
so. The server hands out a new version with every write of a Secret and refuses a write that names
another version. A call can fail for its caller whether or not the server carries it out; a request
that has been given up can still arrive.
-/

namespace Thorax.Kubernetes

open Collections Versioned

abbrev Uid := ℕ

structure OwnerReference where
  uid : Uid
  controller : Option Bool
  deriving DecidableEq

/-- What the controller reads and writes of the metadata of a Secret. -/
structure ObjectMeta where
  ownerReferences : Option (List OwnerReference)
  labels : Option (BTreeMap String String)
  annotations : Option (BTreeMap String String)
  deriving DecidableEq

structure Secret where
  metadata : ObjectMeta
  type : Option String
  immutable : Option Bool
  data : Option (BTreeMap String Bytes)
  deriving DecidableEq

structure ConfigMap where
  data : Option (BTreeMap String String)
  binaryData : Option (BTreeMap String Bytes)
  deriving DecidableEq

/-- A condition of a status; its time of transition is not compared by the controller. -/
structure Condition where
  type : String
  status : String
  reason : String
  message : String
  deriving DecidableEq

/-! ### Vaults -/

structure ConfigMapKeyRef where
  name : String
  key : String
  deriving DecidableEq

structure ThoraxVaultSpec where
  configMapRef : ConfigMapKeyRef
  managedSecretName : String
  deriving DecidableEq

structure ThoraxVaultStatus where
  trustedRoot : Option String
  vaultRevision : Option String
  identityUserId : Option String
  joinRequestName : Option String
  conditions : List Condition
  deriving DecidableEq

structure ThoraxVault where
  name : String
  objectNamespace : String
  uid : Uid
  spec : ThoraxVaultSpec
  status : Option ThoraxVaultStatus
  deriving DecidableEq

/-- A JSON merge patch: a field that is absent from the patch stays as it was. -/
def ThoraxVaultStatus.merge (patch : ThoraxVaultStatus) (stored : Option ThoraxVaultStatus) :
    ThoraxVaultStatus where
  trustedRoot := patch.trustedRoot.or (stored.bind (·.trustedRoot))
  vaultRevision := patch.vaultRevision.or (stored.bind (·.vaultRevision))
  identityUserId := patch.identityUserId.or (stored.bind (·.identityUserId))
  joinRequestName := patch.joinRequestName.or (stored.bind (·.joinRequestName))
  conditions :=
    if patch.conditions = [] then (stored.map (·.conditions)).getD [] else patch.conditions

/-! ### Enrollment -/

inductive JoinPurpose where
  | enroll
  | restoreTrust
  deriving DecidableEq

/-- A join request; what its other fields say is in the signed artifact. -/
structure ThoraxJoinRequestSpec where
  vaultRef : String
  purpose : JoinPurpose
  userId : String
  artifact : Bytes
  deriving DecidableEq

structure ThoraxJoinRequest where
  name : String
  uid : Uid
  ownerReferences : List OwnerReference
  spec : ThoraxJoinRequestSpec
  deriving DecidableEq

structure ObjectReference where
  name : String
  uid : Uid
  deriving DecidableEq

structure ThoraxJoinApprovalSpec where
  requestRef : ObjectReference
  artifact : Bytes
  deriving DecidableEq

structure ThoraxJoinApproval where
  name : String
  uid : Uid
  ownerReferences : List OwnerReference
  spec : ThoraxJoinApprovalSpec
  deriving DecidableEq

/-! ### Projections -/

inductive ProjectionPolicy where
  | delete
  | retain
  deriving DecidableEq

structure SecretMapping where
  selector : String
  field : Option String
  deriving DecidableEq

structure SecretTemplate where
  secretType : String
  labels : BTreeMap String String
  annotations : BTreeMap String String
  deriving DecidableEq

structure ThoraxSecretSpec where
  vaultRef : String
  data : BTreeMap String SecretMapping
  template : SecretTemplate
  failurePolicy : ProjectionPolicy
  sourceDeletionPolicy : ProjectionPolicy
  deriving DecidableEq

structure ThoraxSecretStatus where
  observedGeneration : Option ℕ
  observedVaultRevision : Option String
  conditions : List Condition
  deriving DecidableEq

structure ThoraxSecret where
  name : String
  uid : Uid
  generation : Option ℕ
  spec : ThoraxSecretSpec
  status : Option ThoraxSecretStatus
  deriving DecidableEq

/-! ### Calls -/

/-- An error of the client: the two answers the controller tells apart, and everything else. -/
inductive KubeError where
  | notFound
  | conflict
  | unavailable
  deriving DecidableEq

/-- How a compare-and-swap of a ratchet ended. -/
inductive RatchetCasOutcome where
  | stored (ratchet : Ratchet) (revision : ℕ)
  | conflict
  deriving DecidableEq

/-- A point that a program has passed. -/
inductive Mark where
  | swapped (outcome : RatchetCasOutcome)
  | basedOn (approval : ThoraxJoinApproval)
  | derivedFrom (vaultBytes : Bytes)
  deriving DecidableEq

/-- The calls of the controller. A mark is not sent to anyone: it records what the program has
come to, so that runs can be spoken about. -/
inductive Op where
  | getConfigMap (name : String)
  | getSecretMetadata (name : String)
  | getSecret (name : String)
  | writeSecret (name : String) (write : Write Secret)
  | deleteSecret (name : String) (version : ℕ)
  | getVault (name : String)
  | patchVaultStatus (name : String) (status : ThoraxVaultStatus)
  | patchSecretStatus (name : String) (status : ThoraxSecretStatus)
  | getRequest (name : String)
  | listRequests
  | createRequest (name : String) (owner : OwnerReference) (spec : ThoraxJoinRequestSpec)
  | deleteRequest (name : String) (uid : Uid)
  | getApproval (name : String)
  | deleteApproval (name : String) (uid : Uid)
  | mark (mark : Mark)

def Op.Answer : Op → Type
  | .getConfigMap _ => Option ConfigMap
  | .getSecretMetadata _ => Option (Stored ObjectMeta)
  | .getSecret _ => Stored Secret
  | .writeSecret _ _ => ℕ
  | .getVault _ => Option ThoraxVault
  | .getRequest _ => Option ThoraxJoinRequest
  | .listRequests => List ThoraxJoinRequest
  | .createRequest _ _ _ => ThoraxJoinRequest
  | .getApproval _ => Option ThoraxJoinApproval
  | .deleteSecret _ _ | .patchVaultStatus _ _ | .patchSecretStatus _ _ | .deleteRequest _ _
  | .deleteApproval _ _ | .mark _ => Unit

abbrev Op.Reply (op : Op) : Type := Except KubeError op.Answer

/-! ### The server -/

/-- A run that has called, and whether it still waits for the answer. -/
@[ext]
structure Caller where
  run : ℕ
  waits : Bool
  deriving DecidableEq

/-- What has happened, with the run that did it. -/
inductive Event where
  | wroteSecret (caller : Caller) (name : String) (replaced : Option Secret) (written : Secret)
  | sawApproval (run : ℕ) (approval : ThoraxJoinApproval)
  | passed (run : ℕ) (mark : Mark)
  deriving DecidableEq

structure ApiServer where
  configMaps : String → Option ConfigMap
  secrets : String → Slot Secret
  vaults : String → Option ThoraxVault
  /-- Every version of a vault object so far; a watch delivers any of them. -/
  versions : List ThoraxVault
  requests : List ThoraxJoinRequest
  approvals : List ThoraxJoinApproval
  nextUid : Uid
  /-- Requests whose senders no longer wait for them. -/
  inFlight : List (ℕ × Op)
  log : List Event

namespace ApiServer

def writeSecret (self : ApiServer) (caller : Caller) (name : String) (write : Write Secret) :
    ApiServer × Except KubeError ℕ :=
  let slot := self.secrets name
  match slot.handle write with
  | (next, .done) =>
    ({ self with
        secrets := Function.update self.secrets name next
        log := .wroteSecret caller name (slot.stored.map (·.value)) write.value :: self.log },
      .ok slot.issued)
  | (_, .conflict) => (self, .error .conflict)
  | (_, .missing) => (self, .error .notFound)

def deleteSecret (self : ApiServer) (name : String) (version : ℕ) : ApiServer × Except KubeError Unit :=
  match (self.secrets name).stored with
  | none => (self, .error .notFound)
  | some stored =>
    if stored.version = version then
      ({ self with
          secrets := Function.update self.secrets name { self.secrets name with stored := none } },
        .ok ())
    else (self, .error .conflict)

def patchVaultStatus (self : ApiServer) (name : String) (status : ThoraxVaultStatus) :
    ApiServer × Except KubeError Unit :=
  match self.vaults name with
  | none => (self, .error .notFound)
  | some vault =>
    let patched := { vault with status := some (status.merge vault.status) }
    ({ self with
        vaults := Function.update self.vaults name (some patched)
        versions := patched :: self.versions },
      .ok ())

def createRequest (self : ApiServer) (name : String) (owner : OwnerReference)
    (spec : ThoraxJoinRequestSpec) : ApiServer × Except KubeError ThoraxJoinRequest :=
  if self.requests.any (·.name = name) then (self, .error .conflict)
  else
    let request := ⟨name, self.nextUid, [owner], spec⟩
    ({ self with requests := request :: self.requests, nextUid := self.nextUid + 1 }, .ok request)

def deleteRequest (self : ApiServer) (name : String) (uid : Uid) : ApiServer × Except KubeError Unit :=
  match self.requests.find? (·.name = name) with
  | none => (self, .error .notFound)
  | some request =>
    if request.uid = uid then
      ({ self with requests := self.requests.filter (·.uid ≠ uid) }, .ok ())
    else (self, .error .conflict)

def deleteApproval (self : ApiServer) (name : String) (uid : Uid) : ApiServer × Except KubeError Unit :=
  match self.approvals.find? (·.name = name) with
  | none => (self, .error .notFound)
  | some approval =>
    if approval.uid = uid then
      ({ self with approvals := self.approvals.filter (·.uid ≠ uid) }, .ok ())
    else (self, .error .conflict)

/-- An approval that is handed out to a run is remembered. -/
def getApproval (self : ApiServer) (caller : Caller) (name : String) :
    ApiServer × Except KubeError (Option ThoraxJoinApproval) :=
  let found := self.approvals.find? (·.name = name)
  match found, caller.waits with
  | some approval, true => ({ self with log := .sawApproval caller.run approval :: self.log }, .ok found)
  | _, _ => (self, .ok found)

/-- The server carries out a call of a run. -/
def handle (self : ApiServer) (caller : Caller) : (op : Op) → ApiServer × op.Reply
  | .getConfigMap name => (self, .ok (self.configMaps name))
  | .getSecretMetadata name =>
    (self, .ok ((self.secrets name).stored.map fun stored =>
      ⟨stored.value.metadata, stored.version⟩))
  | .getSecret name =>
    (self, match (self.secrets name).stored with
      | some stored => .ok stored
      | none => .error .notFound)
  | .writeSecret name write => self.writeSecret caller name write
  | .deleteSecret name version => self.deleteSecret name version
  | .getVault name => (self, .ok (self.vaults name))
  | .patchVaultStatus name status => self.patchVaultStatus name status
  -- a projection is reconciled from an observed version, and nothing else reads its status
  | .patchSecretStatus _ _ => (self, .ok ())
  | .getRequest name => (self, .ok (self.requests.find? (·.name = name)))
  | .listRequests => (self, .ok self.requests)
  | .createRequest name owner spec => self.createRequest name owner spec
  | .deleteRequest name uid => self.deleteRequest name uid
  | .getApproval name => self.getApproval caller name
  | .deleteApproval name uid => self.deleteApproval name uid
  | .mark mark => ({ self with log := .passed caller.run mark :: self.log }, .ok ())

/-- What a call leaves of the server: nothing has changed, or one thing has. -/
inductive Handles (self : ApiServer) (caller : Caller) : Op → ApiServer → Prop
  | nothing (op : Op) : Handles self caller op self
  | wrote {name : String} {write : Write Secret} (haccepts : (self.secrets name).Accepts write) :
      Handles self caller (.writeSecret name write)
        { self with
          secrets := Function.update self.secrets name ((self.secrets name).put write.value)
          log := .wroteSecret caller name ((self.secrets name).stored.map (·.value)) write.value ::
            self.log }
  | removed {name : String} {version : ℕ} :
      Handles self caller (.deleteSecret name version)
        { self with
          secrets := Function.update self.secrets name { self.secrets name with stored := none } }
  | patched {name : String} {status : ThoraxVaultStatus} {vault : ThoraxVault}
      (hvault : self.vaults name = some vault) :
      Handles self caller (.patchVaultStatus name status)
        { self with
          vaults := Function.update self.vaults name
            (some { vault with status := some (status.merge vault.status) })
          versions := { vault with status := some (status.merge vault.status) } :: self.versions }
  | requested {name : String} {owner : OwnerReference} {spec : ThoraxJoinRequestSpec} :
      Handles self caller (.createRequest name owner spec)
        { self with
          requests := ⟨name, self.nextUid, [owner], spec⟩ :: self.requests
          nextUid := self.nextUid + 1 }
  | withdrew {name : String} {uid : Uid} :
      Handles self caller (.deleteRequest name uid)
        { self with requests := self.requests.filter (·.uid ≠ uid) }
  | saw {name : String} {approval : ThoraxJoinApproval} (hwaits : caller.waits = true)
      (happroval : approval ∈ self.approvals) :
      Handles self caller (.getApproval name)
        { self with log := .sawApproval caller.run approval :: self.log }
  | consumed {name : String} {uid : Uid} :
      Handles self caller (.deleteApproval name uid)
        { self with approvals := self.approvals.filter (·.uid ≠ uid) }
  | marked (mark : Mark) :
      Handles self caller (.mark mark) { self with log := .passed caller.run mark :: self.log }

lemma handles_handle (self : ApiServer) (caller : Caller) (op : Op) :
    self.Handles caller op (self.handle caller op).1 := by
  cases op with
  | writeSecret name write =>
    simp only [handle, writeSecret]
    rcases (self.secrets name).handle_cases write with ⟨haccepts, hdone⟩ | ⟨-, hsame, hanswer⟩
    · rw [hdone]
      exact .wrote haccepts
    · cases hresult : (self.secrets name).handle write with
      | mk slot answer =>
        rw [hresult] at hanswer
        cases answer with
        | done => exact absurd rfl hanswer
        | conflict => exact .nothing _
        | missing => exact .nothing _
  | deleteSecret name version =>
    simp only [handle, deleteSecret]
    split
    · exact .nothing _
    · split
      · exact .removed
      · exact .nothing _
  | patchVaultStatus name status =>
    simp only [handle, patchVaultStatus]
    split
    · exact .nothing _
    · next vault hvault => exact .patched hvault
  | createRequest name owner spec =>
    simp only [handle, createRequest]
    split
    · exact .nothing _
    · exact .requested
  | deleteRequest name uid =>
    simp only [handle, deleteRequest]
    split
    · exact .nothing _
    · split
      · exact .withdrew
      · exact .nothing _
  | getApproval name =>
    simp only [handle, getApproval]
    split
    · next approval hfound hwaits => exact .saw hwaits (List.mem_of_find?_eq_some hfound)
    · exact .nothing _
  | deleteApproval name uid =>
    simp only [handle, deleteApproval]
    split
    · exact .nothing _
    · split
      · exact .consumed
      · exact .nothing _
  | mark mark => exact .marked mark
  | getConfigMap _ | getSecretMetadata _ | getSecret _ | getVault _ | patchSecretStatus _ _
  | getRequest _ | listRequests => exact .nothing _

/-- A call whose caller sees a failure; the request may still arrive. -/
def giveUp (self : ApiServer) (run : ℕ) (op : Op) : ApiServer :=
  { self with inFlight := (run, op) :: self.inFlight }

/-- What a call of a run may be answered, and what it leaves: the server carries it out and the
answer arrives, or the caller sees a failure. A mark is passed without anyone's help. -/
inductive Serves (self : ApiServer) (run : ℕ) : (op : Op) → op.Reply → ApiServer → Prop
  | answered (op : Op) :
      Serves self run op (self.handle ⟨run, true⟩ op).2 (self.handle ⟨run, true⟩ op).1
  | failed (op : Op) (h : ∀ mark, op ≠ .mark mark) :
      Serves self run op (.error .unavailable) (self.giveUp run op)

end ApiServer

end Thorax.Kubernetes
