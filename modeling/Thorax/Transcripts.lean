import Thorax.Crypto
import Thorax.Library.Framing
import Thorax.Library.Utf8

/-!
# Transcripts

What is hashed or signed under a domain, bound to a sealed key, or authenticated as a ratchet is a
transcript: a label of the use, then the domain and the values, each after its length in eight
bytes. The primitives are code outside the repository and a parameter here.
-/

namespace Thorax

def signatureDomain : String := "thorax.signature.v1"
def signedRecordDomain : String := "thorax.signed.v1"
def hashDomain : String := "thorax.hash.v1"
def hpkeInfoDomain : String := "thorax.hpke-info.v1"
def ratchetMacSalt : String := "thorax.ratchet-mac.v1"
def cacheSignatureDomain : String := "thorax.verification-cache.v1"
def joinCandidateProofDomain : String := "thorax.join-candidate-proof.v1"
def joinApprovalSignatureDomain : String := "thorax.join-approval.v1"
def releaseManifestDomain : String := "thorax.release-manifest.v1"

/-- The domains of records, caches, join requests, join approvals and releases. -/
def signatureDomains : List String :=
  [signedRecordDomain, cacheSignatureDomain, joinCandidateProofDomain, joinApprovalSignatureDomain,
    releaseManifestDomain]

def ed25519PublicKeyLen : ℕ := 32
def ed25519SignatureLen : ℕ := 64

/-- What is hashed, signed, bound to a sealed key, or authenticated. -/
inductive Transcript where
  | hash (domain : String) (canonicalBytes : Bytes)
  | signature (domain : String) (message : Bytes)
  | hpkeInfo (info : Bytes)
  | ratchetMac (trustedRoot : HashValue) (userId : UserId) (ratchetBytes : Bytes)
  deriving DecidableEq

namespace Transcript

def fields : Transcript → List Bytes
  | .hash domain canonicalBytes => [Utf8.encode hashDomain, Utf8.encode domain, canonicalBytes]
  | .signature domain message => [Utf8.encode signatureDomain, Utf8.encode domain, message]
  | .hpkeInfo info => [Utf8.encode hpkeInfoDomain, info]
  | .ratchetMac trustedRoot userId ratchetBytes =>
    [Utf8.encode ratchetMacSalt, trustedRoot.bytes, userId.hash.bytes, ratchetBytes]

/-- Lengths take eight bytes. -/
def bytes (transcript : Transcript) : Bytes := Framing.frames 8 transcript.fields

/-- No value is of 2^64 bytes or more. -/
def Fits (transcript : Transcript) : Prop := ∀ field ∈ transcript.fields, Framing.Fits 8 field

instance (transcript : Transcript) : Decidable transcript.Fits :=
  inferInstanceAs (Decidable (∀ field ∈ transcript.fields, Framing.Fits 8 field))

end Transcript

/-- SHA-256, and Ed25519 with strict verification. -/
structure Primitives where
  sha256 : Bytes → Bytes
  verifyingKeyFromBytes : Bytes → Bool
  /-- Public key, message, signature. -/
  verifyStrict : Bytes → Bytes → Bytes → Bool

namespace Primitives

variable (primitives : Primitives)

def hash (domain : String) (canonicalBytes : Bytes) : HashValue :=
  ⟨primitives.sha256 (Transcript.hash domain canonicalBytes).bytes⟩

def verifySignature (domain : String) (publicKey message signature : Bytes) : Bool :=
  decide (publicKey.length = ed25519PublicKeyLen) && primitives.verifyingKeyFromBytes publicKey &&
    decide (signature.length = ed25519SignatureLen) &&
    primitives.verifyStrict publicKey (Transcript.signature domain message).bytes signature

/-- The provider of the validation, over some serializer. -/
def toCryptoProvider (serialize : Canonical → Bytes) : CryptoProvider where
  hash domain := primitives.hash domain.text
  verifySignature := primitives.verifySignature signedRecordDomain
  serialize := serialize

end Primitives

/-- The MAC of a ratchet, under a key of the identity. -/
def ratchetMac (hmac : Bytes → Bytes → Bytes) (key : Bytes) (trustedRoot : HashValue)
    (userId : UserId) (ratchetBytes : Bytes) : Bytes :=
  hmac key (Transcript.ratchetMac trustedRoot userId ratchetBytes).bytes

end Thorax
