import Thorax.Transcripts
import Thorax.Update.Version

/-!
# Release manifests

A manifest names the artifacts of a release by their length and SHA-256, and is signed under the
key that the program was compiled with. The serializer, the digest, the signature check, the reader
of timestamps and the decompressor are code outside the repository and a parameter here.
-/

namespace Thorax.Update

open Durable

/-! ### The manifest -/

structure ArtifactTargetV1 where
  triple : String
  os : String
  arch : String
  abi : Option String
  deriving DecidableEq

structure ReleaseArtifactV1 where
  name : String
  kind : String
  format : String
  /-- Where there is none, the name is resolved by the transport. -/
  url : Option String
  target : ArtifactTargetV1
  size : ℕ
  sha256 : Bytes
  deriving DecidableEq

structure ReleaseSourceV1 where
  tag : String
  commit : String
  workflowRunId : String
  deriving DecidableEq

structure ReleaseKeyV1 where
  role : String
  publicKey : Bytes
  deriving DecidableEq

/-- The body of a manifest: what it declares of its release, and all the rest. -/
structure CompleteManifestV1 extends ReleaseManifestV1 where
  publishedAt : String
  source : ReleaseSourceV1
  artifacts : List ReleaseArtifactV1
  keys : List ReleaseKeyV1
  deriving DecidableEq

inductive ReleaseManifest where
  | v1 (manifest : CompleteManifestV1)
  deriving DecidableEq

def ReleaseManifest.toV1 : ReleaseManifest → CompleteManifestV1
  | .v1 manifest => manifest

structure SignedReleaseManifest where
  body : ReleaseManifest
  signingPublicKey : Bytes
  signature : Bytes
  deriving DecidableEq

structure CurrentTarget where
  triple : String
  os : String
  arch : String
  abi : Option String
  deriving DecidableEq

/-! ### Errors -/

inductive VerifyError where
  | invalidSignature
  | unexpectedPublicKey
  | badSignature
  | badPublicKey
  | cord (detail : String)
  | artifactSize (expected actual : ℕ)
  | artifactHash (artifact : String)
  deriving DecidableEq

inductive DownloadError where
  | http (url detail : String)
  | tooLarge (maxBytes : ℕ)
  deriving DecidableEq

/-- What is wrong with a manifest that is not complete, as its error text names it. -/
inductive ManifestFault where
  | emptyOrLong (field : String) (max : ℕ)
  | long (field : String) (max : ℕ)
  | artifactCount
  | keyCount
  | duplicateName (name : String)
  | artifactSize (name : String)
  | artifactHash (name : String)
  | publicKey
  deriving DecidableEq

/-- The errors of a manifest, besides those of its version. -/
inductive ReleaseError where
  | manifest (source : ManifestError)
  | unsupportedPlatform (os arch : String)
  | network (source : DownloadError)
  | verify (source : VerifyError)
  | releaseState (source : StateError)
  | missingArtifact (kind target : String)
  | duplicatePlatformArtifact (kind target : String)
  | unsupportedArtifactFormat (format : String)
  | badPublishedAt (value detail : String)
  | publishedInFuture (value : String)
  | invalidManifest (fault : ManifestFault)
  | olderThanCurrent (offered current : String)
  deriving DecidableEq

/-! ### What is outside -/

/-- The parts of a release that other code reads: serialized values, digests, signatures, times of
publication in nanoseconds, and compressed files, of which so many bytes are read at most. -/
structure ReleaseProvider extends Primitives where
  stateCodec : Codec UpdateStateV1
  serializeBody : ReleaseManifest → Except String Bytes
  deserializeSigned : Bytes → Except String SignedReleaseManifest
  parseRfc3339 : String → Except String ℤ
  gunzip : ℕ → Bytes → Except String Bytes
  /-- The key that the program was compiled with. -/
  updatePubkey : Bytes

/-- Where the program runs. -/
structure Platform where
  os : String
  arch : String

/-! ### Targets -/

def repo : String := "backbone-hq/thorax"
def manifestFile : String := "MANIFEST.cord"
def cliArtifactKind : String := "thorax-cli"
def maxManifestArtifacts : ℕ := 4096
def maxManifestKeys : ℕ := 64
def maxManifestFieldBytes : ℕ := 4096
def maxManifestBytes : ℕ := 1024 * 1024
def maxArtifactBytes : ℕ := 512 * 1024 * 1024

def detectTarget (platform : Platform) : Except ReleaseError CurrentTarget :=
  let found : Option (String × String) :=
    if platform.os = "linux" ∧ platform.arch = "x86_64" then
      some ("x86_64-unknown-linux-gnu", "gnu")
    else if platform.os = "linux" ∧ platform.arch = "aarch64" then
      some ("aarch64-unknown-linux-gnu", "gnu")
    else if platform.os = "macos" ∧ platform.arch = "x86_64" then
      some ("x86_64-apple-darwin", "darwin")
    else if platform.os = "macos" ∧ platform.arch = "aarch64" then
      some ("aarch64-apple-darwin", "darwin")
    else if platform.os = "windows" ∧ platform.arch = "x86_64" then
      some ("x86_64-pc-windows-msvc", "msvc")
    else if platform.os = "windows" ∧ platform.arch = "aarch64" then
      some ("aarch64-pc-windows-msvc", "msvc")
    else none
  match found with
  | none => .error (.unsupportedPlatform platform.os platform.arch)
  | some (triple, abi) => .ok ⟨triple, platform.os, platform.arch, some abi⟩

/-- The one artifact of the command line for this platform. -/
def cliArtifactForCurrentPlatform (platform : Platform) (manifest : CompleteManifestV1) :
    Except ReleaseError ReleaseArtifactV1 := do
  let target ← detectTarget platform
  match manifest.artifacts.filter fun artifact =>
      artifact.kind = cliArtifactKind && artifact.target.triple = target.triple with
  | [] => .error (.missingArtifact cliArtifactKind target.triple)
  | [artifact] =>
    if artifact.format ∈ ["raw", "binary", "gz", "gzip"] then .ok artifact
    else .error (.unsupportedArtifactFormat artifact.format)
  | _ => .error (.duplicatePlatformArtifact cliArtifactKind target.triple)

def assetUrl (ownerRepo filename : String) : String :=
  s!"https://github.com/{ownerRepo}/releases/latest/download/{filename}"

def artifactUrl (ownerRepo : String) (artifact : ReleaseArtifactV1) : String :=
  artifact.url.getD (assetUrl ownerRepo artifact.name)

/-! ### Completeness -/

def boundedField (name value : String) (max : ℕ) : Except ReleaseError Unit :=
  if value.isEmpty || max < value.utf8ByteSize then .error (.invalidManifest (.emptyOrLong name max))
  else .ok ()

def boundedOptionalField (name value : String) (max : ℕ) : Except ReleaseError Unit :=
  if max < value.utf8ByteSize then .error (.invalidManifest (.long name max)) else .ok ()

/-- The checks of one artifact, after those whose names are given. -/
def validateArtifact (names : List String) (artifact : ReleaseArtifactV1) :
    Except ReleaseError (List String) := do
  boundedField "artifact name" artifact.name 255
  boundedField "artifact kind" artifact.kind 128
  boundedField "artifact format" artifact.format 64
  boundedOptionalField "artifact target triple" artifact.target.triple 255
  boundedOptionalField "artifact target OS" artifact.target.os 64
  boundedOptionalField "artifact target architecture" artifact.target.arch 64
  artifact.target.abi.forM fun abi => boundedOptionalField "artifact target ABI" abi 64
  artifact.url.forM fun url => boundedField "artifact URL" url maxManifestFieldBytes
  if artifact.name ∈ names then .error (.invalidManifest (.duplicateName artifact.name))
  else if artifact.size = 0 ∨ maxArtifactBytes < artifact.size then
    .error (.invalidManifest (.artifactSize artifact.name))
  else if artifact.sha256.length ≠ 32 then
    .error (.invalidManifest (.artifactHash artifact.name))
  else .ok (artifact.name :: names)

def validateKey (key : ReleaseKeyV1) : Except ReleaseError Unit := do
  boundedField "release key role" key.role 128
  if key.publicKey = [] ∨ maxManifestFieldBytes < key.publicKey.length then
    .error (.invalidManifest .publicKey)
  else .ok ()

section Checks

variable (provider : ReleaseProvider) (platform : Platform)

/-- A release may be published up to a day in the future. -/
def dayNanoseconds : ℤ := 24 * 3600 * 1000000000

def validateCompleteManifest (now : ℤ) (manifest : CompleteManifestV1) :
    Except ReleaseError Unit := do
  (validateEpoch manifest.toReleaseManifestV1).mapError .manifest
  let published ← (provider.parseRfc3339 manifest.publishedAt).mapError
    (.badPublishedAt manifest.publishedAt)
  if now + dayNanoseconds < published then .error (.publishedInFuture manifest.publishedAt)
  else
    boundedField "version" manifest.version 64
    boundedField "published_at" manifest.publishedAt 128
    boundedField "source tag" manifest.source.tag maxManifestFieldBytes
    boundedField "source commit" manifest.source.commit maxManifestFieldBytes
    boundedField "workflow run ID" manifest.source.workflowRunId maxManifestFieldBytes
    if manifest.artifacts = [] ∨ maxManifestArtifacts < manifest.artifacts.length then
      .error (.invalidManifest .artifactCount)
    else if maxManifestKeys < manifest.keys.length then .error (.invalidManifest .keyCount)
    else
      let _ ← manifest.artifacts.foldlM validateArtifact []
      manifest.keys.forM validateKey
      let _ ← cliArtifactForCurrentPlatform platform manifest
      .ok ()

/-! ### Signatures and digests -/

def verifyManifestSignature (signed : SignedReleaseManifest) (expectedPublicKey : Bytes) :
    Except VerifyError Unit :=
  if signed.signingPublicKey ≠ expectedPublicKey then .error .unexpectedPublicKey
  else if provider.verifyingKeyFromBytes expectedPublicKey = false then
    .error .badPublicKey
  else if signed.signature.length ≠ ed25519SignatureLen then .error .badSignature
  else
    match provider.serializeBody signed.body with
    | .error detail => .error (.cord detail)
    | .ok bodyBytes =>
      if provider.verifyStrict expectedPublicKey
          (Transcript.signature releaseManifestDomain bodyBytes).bytes signed.signature then .ok ()
      else .error .invalidSignature

def verifySignedManifestWithKey (bytes expectedPublicKey : Bytes) :
    Except VerifyError ReleaseManifest := do
  let signed ← (provider.deserializeSigned bytes).mapError .cord
  verifyManifestSignature provider signed expectedPublicKey
  .ok signed.body

def verifySignedManifest (bytes : Bytes) : Except VerifyError ReleaseManifest :=
  verifySignedManifestWithKey provider bytes provider.updatePubkey

def verifyArtifactBytes (artifact : ReleaseArtifactV1) (bytes : Bytes) : Except VerifyError Unit :=
  if bytes.length ≠ artifact.size then .error (.artifactSize artifact.size bytes.length)
  else if provider.sha256 bytes ≠ artifact.sha256 then .error (.artifactHash artifact.name)
  else .ok ()

end Checks

end Thorax.Update
