import Thorax.Store.Files

/-!
# The update state

The releases an updater has seen and installed, kept in one file of a private directory. Every
operation takes the lock of the directory, reads the file (or carries over the markers of older
releases, and removes them), moves what is remembered forward and writes the file in one step. An
I/O failure ends an operation where a crash would, so the states at which a program can be cut off
account for both.
-/

namespace Thorax.Update

open Durable

structure AcceptedReleaseV1 where
  version : String
  epoch : ℕ
  /-- Absent only for a release carried over from a numeric marker. -/
  signedManifestSha256 : Option Bytes
  deriving DecidableEq

structure UpdateStateV1 where
  highestSeen : Option AcceptedReleaseV1
  highestInstalled : Option AcceptedReleaseV1
  deriving DecidableEq

def UpdateStateV1.empty : UpdateStateV1 := ⟨none, none⟩

inductive StatePath where
  | state
  | legacy
  deriving DecidableEq

inductive StateError where
  | rollback (field : String) (offered remembered : ℕ)
  | equivocation (epoch : ℕ)
  | invalidState (detail : String)
  | lockTimeout
  | io (path : StatePath) (source : IoError)
  deriving DecidableEq

/-- An entry of the directory of markers; a name that is not Unicode is not read. -/
structure LegacyEntry where
  name : Option String
  isFile : Bool
  deriving DecidableEq

/-- The state file, and the directory of markers in the order in which it is listed. -/
structure StateDir where
  stateFile : Option Bytes
  legacy : Option (List LegacyEntry)
  deriving DecidableEq

def updateStateMagic : Bytes := asciiBytes "thorax-update-state" ++ [0]

def maxUpdateStateBytes : ℕ := 64 * 1024

/-! ### Checks -/

def validateRelease (release : AcceptedReleaseV1) : Except StateError Unit :=
  if release.version.isEmpty || 64 < release.version.utf8ByteSize then
    .error (.invalidState "release version is empty or too long")
  else if release.signedManifestSha256.any (·.length ≠ 32) then
    .error (.invalidState "signed manifest hash must be 32 bytes")
  else .ok ()

def validateState (state : UpdateStateV1) : Except StateError Unit := do
  state.highestSeen.forM validateRelease
  match state.highestInstalled with
  | none => .ok ()
  | some release =>
    validateRelease release
    match state.highestSeen with
    | none => .error (.invalidState "installed release exists without a seen release")
    | some seen =>
      if seen.epoch < release.epoch then
        .error (.invalidState "installed release is newer than seen release")
      else .ok ()

/-- What is remembered after a release is offered, and whether it is something new. -/
def advance (current : Option AcceptedReleaseV1) (offered : AcceptedReleaseV1) (field : String) :
    Except StateError (Option AcceptedReleaseV1 × Bool) :=
  match current with
  | none => .ok (some offered, true)
  | some remembered =>
    if offered.epoch < remembered.epoch then
      .error (.rollback field offered.epoch remembered.epoch)
    else if remembered.epoch < offered.epoch then .ok (some offered, true)
    else if offered.version ≠ remembered.version then .error (.equivocation offered.epoch)
    else
      match remembered.signedManifestSha256, offered.signedManifestSha256 with
      | some existing, some incoming =>
        if existing ≠ incoming then .error (.equivocation offered.epoch)
        else .ok (some remembered, false)
      | none, some incoming =>
        .ok (some { remembered with signedManifestSha256 := some incoming }, true)
      | _, none => .ok (some remembered, false)

/-! ### The state file -/

def readBounded (file : Option Bytes) (maxBytes : ℕ) : Except IoError Bytes :=
  match file with
  | none => .error .notFound
  | some bytes =>
    if maxBytes < bytes.length then .error (.invalidData "file is too large") else .ok bytes

section Programs

variable (codec : Codec UpdateStateV1)

def encodeState (state : UpdateStateV1) : Except StateError Bytes :=
  match codec.serialize state with
  | .error source => .error (.invalidState source.text)
  | .ok payload =>
    if maxUpdateStateBytes < (updateStateMagic ++ payload).length then
      .error (.invalidState "encoded update state exceeds 64 KiB")
    else .ok (updateStateMagic ++ payload)

def decodeState (bytes : Bytes) : Except StateError UpdateStateV1 :=
  match afterMagic updateStateMagic bytes with
  | none => .error (.invalidState "missing update-state magic")
  | some payload =>
    match codec.deserialize payload with
    | .error source => .error (.invalidState source.text)
    | .ok state =>
      match validateState state with
      | .error source => .error source
      | .ok () => .ok state

def readStateFile (dir : StateDir) : Except StateError (Option UpdateStateV1) :=
  match readBounded dir.stateFile maxUpdateStateBytes with
  | .error .notFound => .ok none
  | .error source => .error (.io .state source)
  | .ok bytes => (decodeState codec bytes).map some

def writeState (state : UpdateStateV1) : Program StateDir StateError Unit := do
  .read fun _ => validateState state
  let bytes ← .read fun _ => encodeState codec state
  .write fun dir => { dir with stateFile := some bytes }
  let reopened ← .read fun dir =>
    (readBounded dir.stateFile maxUpdateStateBytes).mapError (.io .state)
  .ensure (reopened = bytes) (.invalidState "update-state bytes differed after atomic write")
  match ← .read (readStateFile codec) with
  | none => .fail (.invalidState "update state disappeared after atomic write")
  | some decoded =>
    .ensure (decoded = state) (.invalidState "update-state value differed after atomic write")

/-! ### Markers of older releases -/

/-- A decimal number of 64 bits; one leading plus sign is allowed. -/
def parseEpoch (name : String) : Option ℕ :=
  let digits := if name.toList.head? = some '+' then name.toList.tail else name.toList
  if digits ≠ [] ∧ digits.all (fun c => '0' ≤ c && c ≤ '9') then
    let value := digits.foldl (fun value c => 10 * value + (c.toNat - '0'.toNat)) 0
    if value < 2 ^ 64 then some value else none
  else none

/-- The name and the epoch of a marker. -/
def LegacyEntry.marker (entry : LegacyEntry) : Option (String × ℕ) :=
  match entry.name with
  | none => none
  | some name =>
    match parseEpoch name with
    | none => none
    | some epoch => if entry.isFile then some (name, epoch) else none

def versionFromEpoch (epoch : ℕ) : String :=
  s!"{epoch / 1000000}.{epoch % 1000000 / 1000}.{epoch % 1000000 % 1000}"

/-- What the markers tell: a release was seen. -/
def legacyState (entries : List LegacyEntry) : UpdateStateV1 where
  highestSeen := ((entries.filterMap LegacyEntry.marker).map Prod.snd).max?.map fun epoch =>
    ⟨versionFromEpoch epoch, epoch, none⟩
  highestInstalled := none

def StateDir.removeMarker (dir : StateDir) (name : String) : StateDir :=
  { dir with legacy := dir.legacy.map (List.filter fun entry => entry.name ≠ some name) }

/-- The directory of markers goes when nothing is left in it. -/
def StateDir.removeEmptyLegacy (dir : StateDir) : StateDir :=
  if dir.legacy = some [] then { dir with legacy := none } else dir

def removeMarkers : List String → Program StateDir StateError Unit
  | [] => pure ()
  | name :: names => do
    .write fun dir => dir.removeMarker name
    removeMarkers names

def migrateLegacyLocked : Program StateDir StateError UpdateStateV1 := do
  match ← .read fun dir => .ok dir.legacy with
  | none => pure .empty
  | some entries =>
    let markers := entries.filterMap LegacyEntry.marker
    let state := legacyState entries
    if markers.isEmpty then pure state
    else
      writeState codec state
      removeMarkers (markers.map Prod.fst)
      .write StateDir.removeEmptyLegacy
      pure state

/-! ### Operations -/

def loadOrMigrateLocked : Program StateDir StateError UpdateStateV1 := do
  match ← .read (readStateFile codec) with
  | some state => pure state
  | none => migrateLegacyLocked codec

/-- The lock of the directory, unless another process holds it for too long. -/
def acquireLock (contended : Bool) : Program StateDir StateError Unit :=
  .ensure (!contended) .lockTimeout

def readUpdateState (contended : Bool) : Program StateDir StateError UpdateStateV1 := do
  acquireLock contended
  loadOrMigrateLocked codec

def acceptSeenIn (contended : Bool) (release : AcceptedReleaseV1) :
    Program StateDir StateError Unit := do
  .read fun _ => validateRelease release
  acquireLock contended
  let state ← loadOrMigrateLocked codec
  let (seen, changed) ← .read fun _ => advance state.highestSeen release "seen"
  .skipWhen (!changed) (writeState codec { state with highestSeen := seen })

def recordInstalledIn (contended : Bool) (release : AcceptedReleaseV1) :
    Program StateDir StateError Unit := do
  .read fun _ => validateRelease release
  acquireLock contended
  let state ← loadOrMigrateLocked codec
  let (seen, seenChanged) ← .read fun _ =>
    -- a release older than the newest one seen can still be installed
    if state.highestSeen.all (·.epoch ≤ release.epoch) then
      advance state.highestSeen release "seen"
    else .ok (state.highestSeen, false)
  let (installed, installedChanged) ← .read fun _ =>
    advance state.highestInstalled release "installed"
  .skipWhen (!(seenChanged || installedChanged)) (writeState codec ⟨seen, installed⟩)

end Programs

end Thorax.Update
