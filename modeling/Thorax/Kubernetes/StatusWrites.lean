import Thorax.Kubernetes.Projection
import Thorax.Library.MergePatch

/-!
# Writes of statuses

Statuses as they go over the wire. The controller compares the status it wants with the one it has
observed and, unless they mean the same, sends it as a merge patch of its serialization, which
leaves absent fields out.
-/

namespace Thorax.Kubernetes.Wire

open MergePatch

inductive Scalar where
  | text (text : String)
  | number (number : ℤ)
  deriving DecidableEq

structure Condition where
  type : String
  status : String
  reason : String
  message : String
  observedGeneration : Option ℤ
  lastTransitionTime : String
  deriving DecidableEq

structure ThoraxVaultStatus where
  trustedRoot : Option String
  vaultRevision : Option String
  identityUserId : Option String
  joinRequestName : Option String
  conditions : List Condition
  deriving DecidableEq

structure ThoraxSecretStatus where
  observedGeneration : Option ℤ
  observedVaultRevision : Option String
  conditions : List Condition
  deriving DecidableEq

/-! ### Serialization -/

section Serialization

def text (value : String) : Json Scalar := .scalar (.text value)

def number (value : ℤ) : Json Scalar := .scalar (.number value)

def readText : Json Scalar → Option String
  | .scalar (.text value) => some value
  | _ => none

def readNumber : Json Scalar → Option ℤ
  | .scalar (.number value) => some value
  | _ => none

/-- A field that may be absent, or null. -/
def optionalField {α : Type} (read : Json Scalar → Option α) : Option (Json Scalar) → Option (Option α)
  | none | some .null => some none
  | some value => (read value).map some

/-- A list of which an empty one is left out. -/
def listField {α : Type} (read : Json Scalar → Option α) : Option (Json Scalar) → Option (List α)
  | none => some []
  | some (.array items) => items.mapM read
  | some _ => none

/-- An object of the fields that are present. -/
def fields (entries : List (String × Option (Json Scalar))) : Json Scalar :=
  .object fun name => (entries.lookup name).join

def Condition.toJson (condition : Condition) : Json Scalar := fields [
  ("type", some (text condition.type)),
  ("status", some (text condition.status)),
  ("reason", some (text condition.reason)),
  ("message", some (text condition.message)),
  ("observedGeneration", condition.observedGeneration.map number),
  ("lastTransitionTime", some (text condition.lastTransitionTime))]

def Condition.fromJson (json : Json Scalar) : Option Condition := do
  let field := fun name => Json.member name (some json)
  some {
    type := ← (field "type").bind readText
    status := ← (field "status").bind readText
    reason := ← (field "reason").bind readText
    message := ← (field "message").bind readText
    observedGeneration := ← optionalField readNumber (field "observedGeneration")
    lastTransitionTime := ← (field "lastTransitionTime").bind readText }

/-- No member for an empty list. -/
def conditionsToJson (conditions : List Condition) : Option (Json Scalar) :=
  if conditions = [] then none else some (.array (conditions.map Condition.toJson))

def ThoraxVaultStatus.toJson (status : ThoraxVaultStatus) : Json Scalar := fields [
  ("trustedRoot", status.trustedRoot.map text),
  ("vaultRevision", status.vaultRevision.map text),
  ("identityUserID", status.identityUserId.map text),
  ("joinRequestName", status.joinRequestName.map text),
  ("conditions", conditionsToJson status.conditions)]

def ThoraxVaultStatus.fromJson (json : Json Scalar) : Option ThoraxVaultStatus := do
  let field := fun name => Json.member name (some json)
  some {
    trustedRoot := ← optionalField readText (field "trustedRoot")
    vaultRevision := ← optionalField readText (field "vaultRevision")
    identityUserId := ← optionalField readText (field "identityUserID")
    joinRequestName := ← optionalField readText (field "joinRequestName")
    conditions := ← listField Condition.fromJson (field "conditions") }

def ThoraxSecretStatus.toJson (status : ThoraxSecretStatus) : Json Scalar := fields [
  ("observedGeneration", status.observedGeneration.map number),
  ("observedVaultRevision", status.observedVaultRevision.map text),
  ("conditions", conditionsToJson status.conditions)]

def ThoraxSecretStatus.fromJson (json : Json Scalar) : Option ThoraxSecretStatus := do
  let field := fun name => Json.member name (some json)
  some {
    observedGeneration := ← optionalField readNumber (field "observedGeneration")
    observedVaultRevision := ← optionalField readText (field "observedVaultRevision")
    conditions := ← listField Condition.fromJson (field "conditions") }

end Serialization

/-! ### Comparison -/

def conditionsSemanticallyEqual (left right : List Condition) : Bool :=
  left.length = right.length &&
    (left.zip right).all fun (left, right) =>
      left.type = right.type && left.status = right.status && left.reason = right.reason &&
        left.message = right.message && left.observedGeneration = right.observedGeneration

def vaultStatusSemanticallyEqual (left right : ThoraxVaultStatus) : Bool :=
  left.trustedRoot = right.trustedRoot && left.vaultRevision = right.vaultRevision &&
    left.identityUserId = right.identityUserId && left.joinRequestName = right.joinRequestName &&
    conditionsSemanticallyEqual left.conditions right.conditions

def secretStatusSemanticallyEqual (left right : ThoraxSecretStatus) : Bool :=
  left.observedGeneration = right.observedGeneration &&
    left.observedVaultRevision = right.observedVaultRevision &&
    conditionsSemanticallyEqual left.conditions right.conditions

/-! ### Vaults -/

/-- The part of a vault object that a write of its status reads and changes. -/
structure ThoraxVault where
  name : String
  status : Option ThoraxVaultStatus
  deriving DecidableEq

/-- What a reconciliation of a vault has come to. -/
structure VaultReport where
  trustedRoot : Option String
  revision : Option String
  identityUserId : Option String
  condition : Condition
  extraConditions : List Condition
  deriving DecidableEq

def trustWasEstablished (vault : ThoraxVault) : Bool :=
  vault.status.any fun status => status.conditions.any fun condition =>
    (condition.type = "TrustEstablished" || condition.type = "Ready") && condition.status = "True"

def selfCondition (now type status reason message : String) : Condition :=
  ⟨type, status, reason, message, none, now⟩

def VaultReport.status (report : VaultReport) (vault : ThoraxVault) (now : String) :
    ThoraxVaultStatus :=
  let readyNow := report.condition.type = "Ready" && report.condition.status = "True"
  let established := trustWasEstablished vault || readyNow
  { trustedRoot := report.trustedRoot
    vaultRevision := report.revision
    identityUserId := report.identityUserId
    joinRequestName := report.identityUserId.map fun userId =>
      vault.name ++ "-" ++ String.ofList (userId.toList.take 16)
    conditions := report.condition ::
      ((if established then [selfCondition now "TrustEstablished" "True" "BaselinePersisted"
          "rollback trust has been established for this identity"] else []) ++
        report.extraConditions) }

/-- The status that is sent as a patch, if any is. -/
def setVaultStatusWithExtra (vault : ThoraxVault) (report : VaultReport) (now : String) :
    Option ThoraxVaultStatus :=
  let status := report.status vault now
  if vault.status.any (vaultStatusSemanticallyEqual · status) then none else some status

/-- The vault once the server has applied the patch, if what it then stores is a status. -/
def ThoraxVault.patched (vault : ThoraxVault) : Option ThoraxVaultStatus → Option ThoraxVault
  | none => some vault
  | some patch =>
    (ThoraxVaultStatus.fromJson (Json.patch (vault.status.map (·.toJson)) patch.toJson)).map
      fun status => { vault with status := some status }

/-! ### Projections -/

structure ThoraxSecret where
  generation : Option ℤ
  status : Option ThoraxSecretStatus
  deriving DecidableEq

structure SecretReport where
  revision : Option String
  condition : Condition
  deriving DecidableEq

def SecretReport.status (report : SecretReport) (projection : ThoraxSecret) : ThoraxSecretStatus :=
  ⟨projection.generation, report.revision, [report.condition]⟩

def setSecretStatus (projection : ThoraxSecret) (report : SecretReport) :
    Option ThoraxSecretStatus :=
  let status := report.status projection
  if projection.status.any (secretStatusSemanticallyEqual · status) then none else some status

def ThoraxSecret.patched (projection : ThoraxSecret) : Option ThoraxSecretStatus → Option ThoraxSecret
  | none => some projection
  | some patch =>
    (ThoraxSecretStatus.fromJson (Json.patch (projection.status.map (·.toJson)) patch.toJson)).map
      fun status => { projection with status := some status }

end Thorax.Kubernetes.Wire
