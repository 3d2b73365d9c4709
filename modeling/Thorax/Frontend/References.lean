import Thorax.Frontend.Selector
import Thorax.Library.Hex
import Thorax.Ops.Principals

/-!
# References to users and groups

How the frontends read what names a user or a group: a handle, an identifier in hexadecimal, or the
first digits of one; and which user a frontend acts as when none is named.
-/

namespace Thorax

open Collections

/-! ### Hexadecimal -/

/-- Full lowercase hex of a hash value. -/
def hashHex (hash : HashValue) : String := String.ofList (Hex.encode hash.bytes)

def userHex (user : UserId) : String := hashHex user.hash

def stripPrefix? (mark value : String) : Option String :=
  (value.toList.dropPrefix? mark.toList).map String.ofList

/-- `value.strip_prefix(mark).unwrap_or(value)`. -/
def strip (mark value : String) : String := (stripPrefix? mark value).getD value

def hexNibble (name : String) (byte : Char) : Except FrontendError ℕ :=
  match Hex.value? byte with
  | some nibble => .ok nibble
  | none => .error (.invalidHex name "non-hex character")

/-- The digits are ASCII, so the byte tests of the source are tests on characters. -/
def decodeHex (value name : String) : Except FrontendError Bytes :=
  let value := strip "0x" value
  if value.utf8ByteSize % 2 ≠ 0 then .error (.invalidHex name "odd length")
  else do
    let nibbles ← value.toList.mapM (hexNibble name)
    pure (Hex.pairs nibbles)

def decodeHexExact (value name : String) (expected : ℕ) : Except FrontendError Bytes := do
  let bytes ← decodeHex value name
  if bytes.length ≠ expected then .error (.invalidHexLength name expected bytes.length)
  else pure bytes

/-- The digits of a candidate for the first part of an identifier: all of them hexadecimal, and at
least eight, to be meant as an identifier rather than as a name. -/
def normalizeHexPrefix (value : String) : Option String :=
  let value := strip "0x" value
  if value.utf8ByteSize < 8 ∨ ¬ value.toList.all Hex.isDigit then none
  else some (String.ofList (value.toList.map Char.toLower))

/-- `hash_hex(id).starts_with(needle)`. -/
def beginsWith {kind : IdKind} (needle : String) (id : Id kind) : Bool :=
  needle.toList.isPrefixOf (hashHex id.hash).toList

/-! ### Users -/

inductive UserRef where
  | id (user : UserId)
  | handle (handle : String)
  deriving DecidableEq

@[ext]
structure ResolvedUserRef where
  userId : UserId
  handle : Option String
  deriving DecidableEq

def primaryHandleForUser (report : ValidationReport) (user : UserId) : Option UserHandleRecordV1 :=
  minBy (fun record => normalizeHandle record.handle)
    ((values report.effective.handles).filter (·.userId = user))

def resolveUserRef (crypto : CryptoProvider) (report : ValidationReport) :
    UserRef → Except OpsError ResolvedUserRef
  | .id user =>
    if user ∈ report.effective.users then
      .ok ⟨user, (primaryHandleForUser report user).map fun record => normalizeHandle record.handle⟩
    else .error (.missingUser user)
  | .handle handle => do
    let handle ← normalizeUserHandle handle
    match report.effective.handles[deriveUserHandleId crypto handle]? with
    | none => .error (.userHandleNotFound handle)
    | some record =>
      if record.userId ∈ report.effective.users then
        .ok ⟨record.userId, some (normalizeHandle record.handle)⟩
      else .error (.userHandleTargetMissing handle record.userId)

def parseUserId (value : String) : Except FrontendError UserId := do
  let bytes ← decodeHexExact value "user ID" 32
  pure ⟨⟨bytes⟩⟩

def parseHandleName (value : String) : Except FrontendError String :=
  let normalized := normalizeHandle (strip "@" value)
  if isValidHandle normalized then .ok normalized
  else .error (.invalidHandle value handleCharsetReason)

def parseUserRef (value : String) : Except FrontendError UserRef :=
  match stripPrefix? "@" value with
  | some handle => return .handle (← parseHandleName handle)
  | none =>
    match parseUserId value with
    | .ok user => .ok (.id user)
    | .error _ => return .handle (← parseHandleName value)

/-- A value of hex digits without an `@` is the first part of an identifier. It is left to the other
resolvers when it is as long as an identifier. -/
def resolveUserHexPrefix (report : ValidationReport) (value : String) :
    Except FrontendError (Option UserId) :=
  if (stripPrefix? "@" value).isSome then .ok none
  else
    match normalizeHexPrefix value with
    | none => .ok none
    | some needle =>
      if needle.utf8ByteSize ≥ 64 then .ok none
      else
        match report.effective.users.keys.filter (beginsWith needle) with
        | [] => .error (.userNotFound value)
        | [first] => .ok (some first)
        | _ => .error (.ambiguousUser value)

def resolveCliUserRefInReport (crypto : CryptoProvider) (report : ValidationReport)
    (value : String) : Except FrontendError ResolvedUserRef := do
  let user ← resolveUserHexPrefix report value
  let userRef ← (match user with
    | some user => .ok (.id user)
    | none => parseUserRef value : Except FrontendError UserRef)
  (resolveUserRef crypto report userRef).mapError .ops

/-! ### The stored default -/

/-- The selection a keychain stores for a root. -/
structure CurrentUserV1 where
  userId : UserId
  handle : Option String
  deriving DecidableEq

structure StoredDefaultUser where
  userRef : String
  display : String
  deriving DecidableEq

def storedDefaultUser (current : CurrentUserV1) : StoredDefaultUser :=
  ⟨userHex current.userId, current.handle.getD (userHex current.userId)⟩

structure CliUser where
  resolved : ResolvedUserRef
  explicit : Bool
  rootSigningPublicKeyHash : HashValue
  deriving DecidableEq

def reportRootKeyHash (report : ValidationReport) : Except FrontendError HashValue :=
  match report.effective.rootSigningPublicKeyHash with
  | some root => .ok root
  | none => .error (.ops .missingEffectiveRoot)

/-- Reads of the keychain's directory and of the environment are parameters. -/
def resolveCliUserRefWithReport
    (readCurrentUser : HashValue → Except FrontendError (Option CurrentUserV1))
    (ciIdentityUser : Except FrontendError (Option UserId)) (crypto : CryptoProvider)
    (report : ValidationReport) (value : Option String) : Except FrontendError CliUser := do
  let (value, explicit) ←
    match value with
    | some value => pure (value, true)
    | none =>
      match (← readCurrentUser (← reportRootKeyHash report)).map storedDefaultUser with
      | some stored => pure (stored.userRef, false)
      | none =>
        match ← ciIdentityUser with
        | some user => pure (userHex user, false)
        | none => .error .missingDefaultUser
  let resolved ← resolveCliUserRefInReport crypto report value
  pure ⟨resolved, explicit, ← reportRootKeyHash report⟩

namespace Tui

/-- The identifier a label spells, if it spells one. -/
def parseUserId (label : String) : Option UserId :=
  if label.utf8ByteSize ≠ 64 ∨ ¬ label.toList.all Hex.isDigit then none
  else (label.toList.mapM Hex.value?).map fun nibbles => ⟨⟨Hex.pairs nibbles⟩⟩

/-- The acting user and its label: the stored reference as a handle, then as an identifier. -/
def resolveActing (crypto : CryptoProvider) (report : ValidationReport)
    (stored : Option StoredDefaultUser) : Option (UserId × String) :=
  stored.bind fun stored =>
    let resolved := (resolveUserRef crypto report (.handle stored.userRef)).toOption.or
      ((parseUserId stored.userRef).bind fun user =>
        (resolveUserRef crypto report (.id user)).toOption)
    resolved.map fun resolved => (resolved.userId, resolved.handle.getD stored.display)

end Tui

/-! ### Groups -/

def parseGroupId (value : String) : Except FrontendError GroupId := do
  let bytes ← decodeHexExact value "group ID" 32
  pure ⟨⟨bytes⟩⟩

def stripGroupPrefix (value : String) : Option String :=
  (stripPrefix? "%" value).or (stripPrefix? "group:" value)

/-- The groups of a report under a handle. -/
def groupsNamed (report : ValidationReport) (handle : String) : List GroupId :=
  (report.effective.groups.toList.filter fun entry =>
    normalizeHandle entry.2.handle = handle).map Prod.fst

/-- The last reading of a reference to a group. -/
def groupByHandle (report : ValidationReport) (value : String) : Except FrontendError GroupId :=
  match groupsNamed report (normalizeHandle value) with
  | [] => .error (.groupNotFound value)
  | [group] => .ok group
  | _ => .error (.ambiguousGroup value)

/-- What is left of a reference to a group without its mark. -/
def groupName (value : String) : String := (stripGroupPrefix value).getD value

/-- The part of `resolve_group_ref` after the mark. -/
def resolveGroupName (report : ValidationReport) (value : String) : Except FrontendError GroupId :=
  match parseGroupId value with
  | .ok group =>
    if group ∈ report.effective.groups then .ok group else .error (.groupNotFound value)
  | .error _ =>
    match normalizeHexPrefix value with
    | none => groupByHandle report value
    | some needle =>
      match report.effective.groups.keys.filter (beginsWith needle) with
      | [] => groupByHandle report value
      | [group] => .ok group
      | _ => .error (.ambiguousGroup value)

/-- A mark is tolerated wherever a group can be named. -/
def resolveGroupRef (report : ValidationReport) (value : String) : Except FrontendError GroupId :=
  resolveGroupName report (groupName value)

end Thorax
