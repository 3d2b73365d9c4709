import Thorax.Ops.Secrets

/-!
# Edits of a secret

Clients change one part of a secret at a time: its primary value, or one of its fields. They decrypt
the value from the report their session holds, change the part, and seal the whole value again. The
session may be long-lived, and its report is looked at as it is.
-/

namespace Thorax

open Collections Durable

/-! ### Values -/

namespace SecretPlaintext

variable (self : SecretPlaintext)

def field (key : String) : Option SecretFieldEntryV1 := self.fields.find? (·.key = key)

/-- Another primary value, with every field kept. -/
def toValueWithPrimary (primary : Bytes) : SecretValueV1 := ⟨primary, self.fields⟩

/-- The primary value kept, and one field inserted or replaced. -/
def withField (key : String) (value : Bytes) : SecretValueV1 :=
  ⟨self.plaintext, self.fields.filter (·.key ≠ key) ++ [⟨key, value⟩]⟩

/-- The primary value kept, and one field removed. -/
def withoutField (key : String) : SecretValueV1 :=
  ⟨self.plaintext, self.fields.filter (·.key ≠ key)⟩

end SecretPlaintext

def SecretValueV1.fromPrimary (primary : Bytes) : SecretValueV1 := ⟨primary, []⟩

section Edits

variable (provider : StoreProvider) (sealing : SealProvider)

/-! ### Reading -/

def ensureSecretDecryptable (effective : EffectiveState) (selector : SecretSelectorV1)
    (user : UserId) : Except OpsError Unit :=
  match effective.classifySecretForUser provider.toCryptoProvider selector user with
  | .activeDecryptable => .ok ()
  | .missing => .error .secretMissing
  | .conflicted => .error .secretConflicted
  | _ => .error .secretNotDecryptable

/-- A secret as a report shows it to an identity. -/
def getSecretFrom (report : ValidationReport) (identity : UnlockedIdentity)
    (selector : SecretSelectorV1) : Except OpsError SecretPlaintext := do
  ensureSecretDecryptable provider report.effective selector identity.userId
  decryptSecretFromReport provider sealing report identity selector

def LockedSession.getSecret (session : LockedSession) (identity : UnlockedIdentity)
    (selector : SecretSelectorV1) : Except OpsError SecretPlaintext :=
  getSecretFrom provider sealing session.report identity selector

/-! ### The edits of the clients -/

inductive EditError where
  | ops (error : OpsError)
  | fieldNotFound (selector : SecretSelectorV1) (key : String)
  deriving DecidableEq

abbrev EditProgram (α : Type) := Program (Disk × LockedSession) EditError α

/-- A session operation within an edit. -/
def ops {α : Type} (program : SessionProgram α) : EditProgram α :=
  program.zoom id (fun state _ => state) .ops

variable (contended : Bool) (transactionId : Bytes) (identity : UnlockedIdentity)
variable (selector : SecretSelectorV1) (random : SealRandomness)

def setSecret (plaintext : Bytes) : SessionProgram SetSecretOutput :=
  setSecretValue provider sealing contended transactionId identity selector (.fromPrimary plaintext)
    random

/-- Set the primary value and carry the fields across. A new secret has none, and where the value
cannot be read they are replaced. -/
def cmdSecretWrite (plaintext : Bytes) : EditProgram SetSecretOutput := do
  let session ← ops current
  match session.getSecret provider sealing identity selector with
  | .ok previous => ops (setSecretValue provider sealing contended transactionId identity selector
      (previous.toValueWithPrimary plaintext) random)
  | .error _ => ops (setSecret provider sealing contended transactionId identity selector random
      plaintext)

def setField (key : String) (value : Bytes) : EditProgram SetSecretOutput := do
  let session ← ops current
  let previous ← .read fun _ => (session.getSecret provider sealing identity selector).mapError .ops
  ops (setSecretValue provider sealing contended transactionId identity selector
    (previous.withField key value) random)

def deleteField (key : String) : EditProgram SetSecretOutput := do
  let session ← ops current
  let previous ← .read fun _ => (session.getSecret provider sealing identity selector).mapError .ops
  .ensure (previous.field key).isSome (.fieldNotFound selector key)
  ops (setSecretValue provider sealing contended transactionId identity selector
    (previous.withoutField key) random)

/-- What a client may do to one part of a secret. -/
inductive SecretEdit where
  | setPrimary (plaintext : Bytes)
  | setField (key : String) (value : Bytes)
  | deleteField (key : String)
  deriving DecidableEq

def SecretEdit.program : SecretEdit → EditProgram SetSecretOutput
  | .setPrimary plaintext =>
    cmdSecretWrite provider sealing contended transactionId identity selector random plaintext
  | .setField key value =>
    Thorax.setField provider sealing contended transactionId identity selector random key value
  | .deleteField key =>
    Thorax.deleteField provider sealing contended transactionId identity selector random key

end Edits

end Thorax
