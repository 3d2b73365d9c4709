import Thorax.Update.State

/-!
# Versions of releases

A version is three components. Its release epoch packs them into one number of 64 bits, and a
manifest declares both.
-/

namespace Thorax.Update

inductive ManifestError where
  | badVersion (raw detail : String)
  | epochMismatch (version : String) (declared derived : ℕ)
  deriving DecidableEq

structure Version where
  major : ℕ
  minor : ℕ
  patch : ℕ
  deriving DecidableEq

/-! ### Spelling -/

/-- The parts of a text at its first separators, at most so many of them. -/
def splitn (separator : Char) : ℕ → List Char → List (List Char)
  | 0, _ => []
  | 1, text => [text]
  | parts + 2, text =>
    match text.span (· ≠ separator) with
    | (head, []) => [head]
    | (head, _ :: rest) => head :: splitn separator (parts + 1) rest

def parseVersionComponent (raw : List Char) (name : String) (component : List Char) :
    Except ManifestError ℕ :=
  if component.isEmpty || !component.all Char.isDigit then
    .error (.badVersion (String.ofList raw) s!"{name} version is not an unsigned decimal integer")
  else if 1 < component.length && component.head? = some '0' then
    .error (.badVersion (String.ofList raw) s!"{name} version has a leading zero")
  else
    let value := Nat.ofDigitChars 10 component 0
    if value < 2 ^ 64 then .ok value
    else .error (.badVersion (String.ofList raw) (s!"{name} version is not a valid integer: " ++
      "number too large to fit in target type"))

namespace Version

def parse (text : String) : Except ManifestError Version :=
  let raw := trimChars text.toList
  match splitn '.' 3 raw with
  | [major, minor, patch] => do
    let major ← parseVersionComponent raw "major" major
    let minor ← parseVersionComponent raw "minor" minor
    let patch ← parseVersionComponent raw "patch" patch
    .ok ⟨major, minor, patch⟩
  | _ => .error (.badVersion (String.ofList raw)
      "expected exactly 3 dot-separated components (major.minor.patch)")

def toString (version : Version) : String :=
  s!"{version.major}.{version.minor}.{version.patch}"

/-! ### Order -/

def cmp (a b : Version) : Ordering :=
  ((compare a.major b.major).then (compare a.minor b.minor)).then (compare a.patch b.patch)

instance : LT Version := ⟨fun a b => a.cmp b = .lt⟩

/-! ### Epochs -/

def checkedMul (a b : ℕ) : Option ℕ := if a * b < 2 ^ 64 then some (a * b) else none

def checkedAdd (a b : ℕ) : Option ℕ := if a + b < 2 ^ 64 then some (a + b) else none

/-- The multiplication of the minor component is not checked. -/
def wrappingMul (a b : ℕ) : ℕ := a * b % 2 ^ 64

def releaseEpoch (version : Version) : Except ManifestError ℕ :=
  if 1000 ≤ version.minor || 1000 ≤ version.patch then
    .error (.badVersion version.toString "minor and patch components must be below 1000")
  else
    match ((checkedMul version.major 1000000).bind (checkedAdd · (wrappingMul version.minor 1000))).bind
        (checkedAdd · version.patch) with
    | some epoch => .ok epoch
    | none => .error (.badVersion version.toString "derived release epoch overflows u64")

end Version

/-! ### Manifests -/

/-- What a manifest declares of its release. -/
structure ReleaseManifestV1 where
  version : String
  releaseEpoch : ℕ
  deriving DecidableEq

/-- The first check of a complete manifest: the declared epoch is that of the version. -/
def validateEpoch (manifest : ReleaseManifestV1) : Except ManifestError Unit := do
  let version ← Version.parse manifest.version
  let derived ← version.releaseEpoch
  if manifest.releaseEpoch ≠ derived then
    .error (.epochMismatch manifest.version manifest.releaseEpoch derived)
  else .ok ()

end Thorax.Update
