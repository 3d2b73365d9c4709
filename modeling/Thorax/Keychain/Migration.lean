import Thorax.Library.Passes
import Thorax.Store.Files

/-!
# The keychain and its migrations

Sealed identities and the current-user selector of a root lie in files of their own. Earlier
versions kept them together, in one file for each root, and before that in one for each user. The
migrations take such a file apart: whatever it holds is written to its own file, read back, and
only then dropped from the old one.
-/

namespace Thorax.Keychain

open Durable

/-! ### Files -/

inductive KeychainFile where
  | keychain
  | currentUser
  | identity (user : UserId)
  deriving DecidableEq

/-- A file of the keychain. Its directory is named by a root or, in the oldest layout, by a user. -/
structure KeychainPath where
  dir : HashValue
  file : KeychainFile
  deriving DecidableEq

def keychainPath (trustedRoot : HashValue) : KeychainPath := ⟨trustedRoot, .keychain⟩

def identityPath (trustedRoot : HashValue) (user : UserId) : KeychainPath :=
  ⟨trustedRoot, .identity user⟩

def currentUserPath (trustedRoot : HashValue) : KeychainPath := ⟨trustedRoot, .currentUser⟩

def legacyIdentityPath (user : UserId) : KeychainPath := ⟨user.hash, .keychain⟩

abbrev KeychainFiles := KeychainPath → Option Bytes

structure KdfParamsV1 where
  algorithm : String
  memoryCostKib : ℕ
  iterations : ℕ
  parallelism : ℕ
  deriving DecidableEq

/-- An identity under its passphrase. The other fields locate and bind the ciphertext. -/
structure SealedIdentityV1 where
  trustedRoot : HashValue
  userId : UserId
  kdf : KdfParamsV1
  salt : Bytes
  nonce : Bytes
  ciphertext : Bytes
  deriving DecidableEq

structure CurrentUserV1 where
  userId : UserId
  handle : Option String
  deriving DecidableEq

inductive KeychainRecordV1 where
  | identity (sealed : SealedIdentityV1)
  | currentUser (current : CurrentUserV1)
  deriving DecidableEq

inductive KeychainError where
  | io (path : KeychainPath) (source : IoError)
  | cord (source : CordError)
  | invalidFile (path : KeychainPath) (reason : String)
  deriving DecidableEq

/-- The serializers of the three kinds of files. A part of a record set takes no more bytes. -/
structure KeychainProvider where
  keychainCodec : SetCodec (List (Evolving KeychainRecordV1)) (Evolving KeychainRecordV1) id
  identityCodec : Codec SealedIdentityV1
  currentUserCodec : Codec CurrentUserV1
  length_le_of_sublist : ∀ {payload payload' records kept},
    keychainCodec.deserialize payload = .ok records → kept.Sublist records →
      keychainCodec.serialize kept = .ok payload' → payload'.length ≤ payload.length

def maxIdentityBytes : ℕ := 1024 * 1024
def maxCurrentUserBytes : ℕ := 64 * 1024
def maxLegacyKeychainBytes : ℕ := 64 * 1024 * 1024

def keychainMagic : Bytes := asciiBytes "thorax-keychain" ++ [0]
def identityMagic : Bytes := asciiBytes "thorax-identity" ++ [0]
def currentUserMagic : Bytes := asciiBytes "thorax-current-user" ++ [0]

section Programs

variable (provider : KeychainProvider) (files : KeychainFiles) (trustedRoot : HashValue)

/-! ### Reading and writing -/

def decodeKeychainRecords (bytes : Bytes) :
    Except KeychainError (List (Evolving KeychainRecordV1)) :=
  match afterMagic keychainMagic bytes with
  | none => .error (.cord (.validationError "not a thorax keychain file (missing magic prefix)"))
  | some payload => (provider.keychainCodec.deserialize payload).mapError .cord

def encodeKeychainRecords (records : List (Evolving KeychainRecordV1)) :
    Except KeychainError Bytes := do
  let payload ← (provider.keychainCodec.serialize records).mapError .cord
  return keychainMagic ++ payload

/-- The records of a keychain file; a missing file holds none. -/
def readKeychainRecordsAt (path : KeychainPath) :
    Except KeychainError (List (Evolving KeychainRecordV1)) :=
  match readFileBounded (files path) maxLegacyKeychainBytes with
  | .ok bytes => decodeKeychainRecords provider bytes
  | .error .notFound => .ok []
  | .error source => .error (.io path source)

def encodeIdentity (sealed : SealedIdentityV1) : Except KeychainError Bytes := do
  let payload ← (provider.identityCodec.serialize sealed).mapError .cord
  return identityMagic ++ payload

def decodeIdentity (path : KeychainPath) (bytes : Bytes) : Except KeychainError SealedIdentityV1 :=
  match afterMagic identityMagic bytes with
  | none => .error (.invalidFile path "missing identity magic prefix")
  | some payload => (provider.identityCodec.deserialize payload).mapError .cord

def encodeCurrentUser (current : CurrentUserV1) : Except KeychainError Bytes := do
  let payload ← (provider.currentUserCodec.serialize current).mapError .cord
  return currentUserMagic ++ payload

def decodeCurrentUser (path : KeychainPath) (bytes : Bytes) : Except KeychainError CurrentUserV1 :=
  match afterMagic currentUserMagic bytes with
  | none => .error (.invalidFile path "missing current-user magic prefix")
  | some payload => (provider.currentUserCodec.deserialize payload).mapError .cord

def readIdentityAt (path : KeychainPath) (user : UserId) :
    Except KeychainError (Option SealedIdentityV1) :=
  match readFileBounded (files path) maxIdentityBytes with
  | .error .notFound => .ok none
  | .error source => .error (.io path source)
  | .ok bytes => do
    let sealed ← decodeIdentity provider path bytes
    if sealed.trustedRoot ≠ trustedRoot ∨ sealed.userId ≠ user then
      .error (.invalidFile path "identity does not match its root and user path")
    else .ok (some sealed)

def readCurrentUserAt (path : KeychainPath) : Except KeychainError (Option CurrentUserV1) :=
  match readFileBounded (files path) maxCurrentUserBytes with
  | .error .notFound => .ok none
  | .error source => .error (.io path source)
  | .ok bytes => do
    let current ← decodeCurrentUser provider path bytes
    return some current

/-- The file is replaced as a whole. -/
def writePrivateAtomic (path : KeychainPath) (bytes : Bytes) :
    Program KeychainFiles KeychainError Unit :=
  .write fun files => Function.update files path (some bytes)

def removeFileDurable (path : KeychainPath) : Program KeychainFiles KeychainError Unit :=
  .write fun files => Function.update files path none

def writeIdentityExact (path : KeychainPath) (user : UserId) (sealed : SealedIdentityV1) :
    Program KeychainFiles KeychainError Unit := do
  .ensure (sealed.trustedRoot = trustedRoot ∧ sealed.userId = user)
    (.invalidFile path "identity does not match its root and user path")
  let bytes ← .read fun _ => encodeIdentity provider sealed
  .ensure (bytes.length ≤ maxIdentityBytes)
    (.invalidFile path "identity exceeds the supported size")
  writePrivateAtomic path bytes
  let written ← .read fun files => readIdentityAt provider files trustedRoot path user
  .ensure (written = some sealed) (.invalidFile path "identity write verification failed")

def writeCurrentUserExact (path : KeychainPath) (current : CurrentUserV1) :
    Program KeychainFiles KeychainError Unit := do
  let bytes ← .read fun _ => encodeCurrentUser provider current
  .ensure (bytes.length ≤ maxCurrentUserBytes)
    (.invalidFile path "current-user selector exceeds the supported size")
  writePrivateAtomic path bytes
  let written ← .read fun files => readCurrentUserAt provider files path
  .ensure (written = some current) (.invalidFile path "current-user write verification failed")

/-! ### Migrating -/

/-- Write an identity to its own file, unless it is there. -/
def splitIdentity (conflict : String) (sealed : SealedIdentityV1) :
    Program KeychainFiles KeychainError Unit := do
  let path := identityPath trustedRoot sealed.userId
  let existing ← .read fun files => readIdentityAt provider files trustedRoot path sealed.userId
  match existing with
  | none => writeIdentityExact provider trustedRoot path sealed.userId sealed
  | some existing => .ensure (existing = sealed) (.invalidFile path conflict)

def splitCurrentUser (conflict : String) (current : CurrentUserV1) :
    Program KeychainFiles KeychainError Unit := do
  let path := currentUserPath trustedRoot
  let existing ← .read fun files => readCurrentUserAt provider files path
  match existing with
  | none => writeCurrentUserExact provider path current
  | some existing => .ensure (existing = current) (.invalidFile path conflict)

def verifyIdentity (sealed : SealedIdentityV1) : Program KeychainFiles KeychainError Unit := do
  let path := identityPath trustedRoot sealed.userId
  let split ← .read fun files => readIdentityAt provider files trustedRoot path sealed.userId
  .ensure (split = some sealed) (.invalidFile path "split identity migration verification failed")

def verifyCurrentUser (current : CurrentUserV1) : Program KeychainFiles KeychainError Unit := do
  let path := currentUserPath trustedRoot
  let split ← .read fun files => readCurrentUserAt provider files path
  .ensure (split = some current)
    (.invalidFile path "split current-user migration verification failed")

/-- What the records of a combined keychain hold: identities of its root and one selector. -/
def collectRecord (source : KeychainPath) (found : List SealedIdentityV1 × Option CurrentUserV1) :
    Evolving KeychainRecordV1 → Except KeychainError (List SealedIdentityV1 × Option CurrentUserV1)
  | .known (.identity sealed) =>
    if sealed.trustedRoot ≠ trustedRoot then
      .error (.invalidFile source "combined keychain contains an identity for another root")
    else .ok (found.1 ++ [sealed], found.2)
  | .known (.currentUser candidate) =>
    if found.2.isSome then
      .error (.invalidFile source "combined keychain contains multiple current-user selectors")
    else .ok (found.1, some candidate)
  -- unknown records are rejected before
  | .unknown _ => .ok found

/-- Take the combined keychain of a root apart, once all it holds lies in files of its own. -/
def splitCombined (source : KeychainPath) : Program KeychainFiles KeychainError Unit := do
  let records ← .read fun files => readKeychainRecordsAt provider files source
  .ensure (records.all fun record => record.known?.isSome)
    (.invalidFile source "combined keychain has unknown records with no safe split destination")
  let found ← .read fun _ => records.foldlM (collectRecord trustedRoot source) ([], none)
  found.1.forM
    (splitIdentity provider trustedRoot "split identity conflicts with the combined keychain")
  found.2.toList.forM (splitCurrentUser provider trustedRoot
    "split current-user selector conflicts with the combined keychain")
  found.1.forM (verifyIdentity provider trustedRoot)
  found.2.toList.forM (verifyCurrentUser provider trustedRoot)
  removeFileDurable source

def migrateRootCombinedLocked : Program KeychainFiles KeychainError Unit := do
  let source := keychainPath trustedRoot
  let present ← .read fun files => .ok (files source).isSome
  .skipWhen (!present) (splitCombined provider trustedRoot source)

/-- The identity of the root that a record holds. -/
def migratingIdentity? : Evolving KeychainRecordV1 → Option SealedIdentityV1
  | .known (.identity sealed) => if sealed.trustedRoot = trustedRoot then some sealed else none
  | _ => none

/-- Drop a legacy keychain, or what was taken out of it. -/
def rewriteLegacy (source : KeychainPath) (remaining : List (Evolving KeychainRecordV1)) :
    Program KeychainFiles KeychainError Unit :=
  if remaining.isEmpty then removeFileDurable source
  else do
    let bytes ← .read fun _ => encodeKeychainRecords provider remaining
    writePrivateAtomic source bytes
    let rewritten ← .read fun files => readKeychainRecordsAt provider files source
    .ensure (rewritten ⊆ remaining ∧ remaining ⊆ rewritten)
      (.invalidFile source "legacy keychain rewrite verification failed")

/-- Take the identities of a root out of a legacy keychain, once each lies in its own file. -/
def splitLegacy (source : KeychainPath) : Program KeychainFiles KeychainError Unit := do
  let records ← .read fun files => readKeychainRecordsAt provider files source
  let migrating := records.filterMap (migratingIdentity? trustedRoot)
  migrating.forM
    (splitIdentity provider trustedRoot "split identity conflicts with the legacy user keychain")
  .skipWhen migrating.isEmpty (rewriteLegacy provider source
    (records.filter fun record => (migratingIdentity? trustedRoot record).isNone))

def migrateLegacyUserLocked (source : KeychainPath) : Program KeychainFiles KeychainError Unit := do
  let present ← .read fun files => .ok (files source).isSome
  .skipWhen (!present) (splitLegacy provider trustedRoot source)

end Programs

end Thorax.Keychain
