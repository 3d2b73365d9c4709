import Thorax.Update.Manifest

/-!
# Updating the program

An update fetches the manifest, checks it, remembers it as seen, fetches the artifact for this
platform, checks it against the manifest, and replaces the program by what is in it. Whatever is
fetched may be anything. An I/O failure ends an update where a crash would.
-/

namespace Thorax.Update

open Durable

/-! ### Fetching -/

/-- What arrives of an answer, and the failure of reading it that comes after, if one does. -/
structure Response where
  received : Bytes
  failure : Option String

/-- Anything that answers requests: the length it announces, and what it then sends. -/
structure Network where
  head : String → Option ℕ
  get : String → Except String Response

def Response.bounded (response : Response) (url : String) (maxBytes : ℕ) :
    Except DownloadError Bytes :=
  if maxBytes < response.received.length then .error (.tooLarge maxBytes)
  else
    match response.failure with
    | some detail => .error (.http url s!"read error: {detail}")
    | none => .ok response.received

def downloadSmall (network : Network) (url : String) : Except DownloadError Bytes := do
  let response ← (network.get url).mapError (.http url)
  response.bounded url maxManifestBytes

def downloadWithProgressBounded (network : Network) (url : String) (maxBytes : ℕ) :
    Except DownloadError Bytes := do
  let response ← (network.get url).mapError (.http url)
  if (network.head url).any (maxBytes < ·) then .error (.tooLarge maxBytes)
  else response.bounded url maxBytes

/-! ### Updating -/

/-- The state directory, and the program that is installed. -/
structure Machine where
  state : StateDir
  binary : Bytes
  deriving DecidableEq

inductive UpdateOutcome where
  | upToDate (currentVersion : Version)
  | available (currentVersion latestVersion : Version)
  | updated (old new : Version)
  deriving DecidableEq

inductive UpdateError where
  | manifest (source : ReleaseError)
  | state (source : StateError)
  | download (stage : String) (source : DownloadError)
  | verify (source : VerifyError)
  | io (stage detail : String)
  | unsupportedArtifactFormat (format : String)
  | artifactTooLarge (size max : ℕ)
  deriving DecidableEq

structure ValidatedReleaseManifest where
  manifest : CompleteManifestV1
  accepted : AcceptedReleaseV1

def maxExtractedBinaryBytes : ℕ := 512 * 1024 * 1024

section Programs

variable (provider : ReleaseProvider) (platform : Platform) (network : Network)

def acceptSignedManifestBytes (now : ℤ) (contended : Bool) (bytes : Bytes) :
    Program StateDir ReleaseError ValidatedReleaseManifest := do
  let body ← .read fun _ => (verifySignedManifest provider bytes).mapError .verify
  let manifest := body.toV1
  .read fun _ => validateCompleteManifest provider platform now manifest
  let accepted : AcceptedReleaseV1 :=
    ⟨manifest.version, manifest.releaseEpoch, some (provider.sha256 bytes)⟩
  (acceptSeenIn provider.stateCodec contended accepted).zoom id (fun dir _ => dir) .releaseState
  pure ⟨manifest, accepted⟩

def fetchLatestManifest (now : ℤ) (contended : Bool) (ownerRepo : String) :
    Program StateDir ReleaseError ValidatedReleaseManifest := do
  let bytes ← .read fun _ =>
    (downloadSmall network (assetUrl ownerRepo manifestFile)).mapError .network
  acceptSignedManifestBytes provider platform now contended bytes

/-- The file that an artifact holds. -/
def extractInstallableArtifact (artifact : ReleaseArtifactV1) (artifactBytes : Bytes) :
    Except UpdateError Bytes :=
  if artifact.format ∈ ["raw", "binary"] then .ok artifactBytes
  else if artifact.format ∈ ["gz", "gzip"] then do
    let written ← (provider.gunzip (maxExtractedBinaryBytes + 1) artifactBytes).mapError
      (.io "decompress")
    if maxExtractedBinaryBytes < written.length then
      .error (.artifactTooLarge written.length maxExtractedBinaryBytes)
    else .ok written
  else .error (.unsupportedArtifactFormat artifact.format)

/-- The artifact for this platform, fetched, checked and unpacked. -/
def fetchBinary (ownerRepo : String) (manifest : CompleteManifestV1) :
    Except UpdateError Bytes := do
  let artifact ← (cliArtifactForCurrentPlatform platform manifest).mapError .manifest
  if maxArtifactBytes < artifact.size then
    .error (.artifactTooLarge artifact.size maxArtifactBytes)
  else
    let artifactBytes ← (downloadWithProgressBounded network (artifactUrl ownerRepo artifact)
      artifact.size).mapError (.download "binary download")
    (verifyArtifactBytes provider artifact artifactBytes).mapError .verify
    extractInstallableArtifact provider artifact artifactBytes

/-- An operation on the state directory. -/
def onState {ε α : Type} (lift : ε → UpdateError) (program : Program StateDir ε α) :
    Program Machine UpdateError α :=
  program.zoom Machine.state (fun dir machine => { machine with state := dir }) lift

/-- An update by a program of the current version. -/
def update (now : ℤ) (contended contended' : Bool) (current : Version) (checkOnly : Bool)
    (ownerRepo : Option String) : Program Machine UpdateError UpdateOutcome := do
  let ownerRepo := ownerRepo.getD repo
  let validated ← onState .manifest
    (fetchLatestManifest provider platform network now contended ownerRepo)
  let latest ← .read fun _ =>
    (Version.parse validated.manifest.version).mapError (.manifest ∘ .manifest)
  if latest.cmp current = .lt then
    .fail (.manifest (.olderThanCurrent latest.toString current.toString))
  else if latest = current then
    onState .state (recordInstalledIn provider.stateCodec contended' validated.accepted)
    pure (.upToDate current)
  else if checkOnly then pure (.available current latest)
  else
    let binary ← .read fun _ => fetchBinary provider platform network ownerRepo validated.manifest
    .write fun machine => { machine with binary := binary }
    onState .state (recordInstalledIn provider.stateCodec contended' validated.accepted)
    pure (.updated current latest)

/-- The notice of a newer release: from a cache that is fresh, or else from the manifest. -/
def passiveUpdateNotice (now : ℤ) (contended disabled : Bool) (cached : Option String)
    (current : Version) (ownerRepo : Option String) : Program Machine UpdateError (Option String) :=
  if disabled then pure none
  else
    match cached with
    | some text => pure (if text.isEmpty then none else some text)
    | none => fun machine =>
      let fetched := onState .manifest (fetchLatestManifest provider platform network now contended
        (ownerRepo.getD repo)) machine
      let notice := do
        let validated ← fetched.result.toOption
        let latest ← (Version.parse validated.manifest.version).toOption
        if current.cmp latest = .lt then
          some (s!"update available: {current.toString} -> {latest.toString}; " ++
            "run `thorax update`")
        else none
      ⟨fetched.passed, fetched.last, .ok notice⟩

end Programs

end Thorax.Update
