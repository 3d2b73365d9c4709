import Thorax.Validate.Report

/-!
# Errors

The errors of the file store and of the operations above it. An error that names a file carries
the place of the file: the vault of a workspace, or a file in the state directory of a root.
-/

namespace Thorax

/-- The canonical path of a file, as the platform spells it. -/
inductive Path where
  | unix (bytes : Bytes)
  | windows (units : List UInt16)
  deriving DecidableEq

/-- A canonical path in the representation of the platform that wrote it. -/
inductive NativePathV1 where
  | unix (bytes : Bytes)
  | windowsUtf16Le (bytes : Bytes)
  deriving DecidableEq

/-- The files of the store, the bare name of a transaction file, and the name under which the
bytes of a Kubernetes Secret are decoded. -/
inductive StorePath where
  | transactionFile
  | kubernetesSecret
  | vault (path : Path)
  | ratchet (trustedRoot : HashValue)
  | transaction (trustedRoot : HashValue)
  | joinCommit (trustedRoot : HashValue)
  | cache (trustedRoot : HashValue) (user : UserId)
  deriving DecidableEq

inductive IoError where
  | notFound
  | invalidData (detail : String)
  deriving DecidableEq

/-- The serializer's errors: a failed check, or input that is not a value. -/
inductive CordError where
  | validationError (detail : String)
  | malformed (detail : String)
  deriving DecidableEq

def CordError.text : CordError → String
  | .validationError detail | .malformed detail => detail

inductive CoreError where
  | validation (detail : String)
  | cord (source : CordError)
  deriving DecidableEq

inductive StoreError where
  | io (path : StorePath) (source : IoError)
  | vaultMissing (path : StorePath)
  | invalidVault (path : StorePath) (source : CoreError)
  | cord (source : CordError)
  | core (source : CoreError)
  | lockAlreadyHeld (trustedRoot : HashValue)
  | invalidRatchet (path : StorePath) (source : CordError)
  | invalidTransaction (path : StorePath) (detail : String)
  | trustRootMismatch (stored requested : HashValue)
  deriving DecidableEq

inductive HazmatError where
  | invalidSignerIdentity (claimed derived : UserId)
  deriving DecidableEq

/-- The errors of the encryption of secrets. -/
inductive CryptoError where
  | invalidLength (name : String) (expected actual : ℕ)
  | invalidHpkePublicKey
  | invalidHpkeEncapsulatedKey
  | hpke (error : String)
  | aead
  deriving DecidableEq

inductive OpsError where
  | store (source : StoreError)
  | core (source : CoreError)
  | crypto (source : CryptoError)
  | cord (source : CordError)
  | hazmat (source : HazmatError)
  | missingRatchet (path : StorePath)
  | validationFailed (issues : List ValidationIssue)
  | operationNotEffective (operation : String)
  | notAVaultMember (userId : UserId)
  | missingEffectiveRoot
  | missingTrustedRootCandidate
  | ambiguousTrustedRootCandidates (candidates : List HashValue)
  | secretMissing
  | secretNotDecryptable
  | invalidSecretPlaintext
  | secretNotWritable
  | recipientSlotMissing (userId : UserId)
  | missingReaderUser (userId : UserId)
  | missingWriterUser (userId : UserId)
  | missingUser (userId : UserId)
  | invalidUserHandle (handle reason : String)
  | invalidVaultHandle (handle reason : String)
  | invalidGroupHandle (handle reason : String)
  | userHandleNotFound (handle : String)
  | userHandleTargetMissing (handle : String) (user : UserId)
  | administerRequired (userId : UserId)
  | cannotConferGroupAuthority (userId : UserId)
  | claimNotAMember (userId : UserId)
  | claimRolledBack
  | inviteRootMismatch
  | inviteRollbackBaselineRequired
  | conflictCandidateNotFound (recordHash : HashValue)
  | conflictNotResolvable (reason : String)
  | secretConflicted
  | counterExhausted
  | joinRecoveryConflict
  | pendingTransaction (transactionId : Bytes) (origin : NativePathV1)
  | transactionRecoveryConflict
  | transactionPreconditionChanged (what : String)
  | noPendingTransaction
  | multipleRecoveryTransactions
  deriving DecidableEq

end Thorax
