import Thorax.Authz
import Thorax.Crypto
import Thorax.Ratchet

/-!
# Validation reports

What validation says about a vault: the effective state, the conflicts, the issues that block
and the warnings that do not.
-/

namespace Thorax

inductive ValidationIssue where
  | invalidStructure (message : String)
  | invalidSignature (key : RecordKey)
  | unknownSignerKey (keyHash : HashValue)
  | rootNotTrusted
  | ambiguousRoot
  | authorityDidNotConverge
  | formatVersionRegression (remembered current : ℕ)
  deriving DecidableEq

inductive ValidationWarning where
  | unknownRecords (count : ℕ)
  | ambiguousSigningKey (keyHash : HashValue)
  deriving DecidableEq

/-! ### Conflicts -/

/-- Why nothing at a key is effective: diverging bodies at the winning counter, or a counter
below the remembered one. -/
inductive ConflictKind where
  | tie
  | rollback (rememberedCounter : ℕ)
  deriving DecidableEq

structure ConflictReport where
  key : RecordKey
  counter : ℕ
  kind : ConflictKind
  candidates : List VaultRecordV1
  origin : Option KeyOrigin
  deriving DecidableEq

/-! ### Verified records -/

/-- The key a body competes at. Only an entry point, whose body carries no identifier, is keyed
by the identity its envelope resolved to. -/
def recordKeyFor (body : RecordBodyV1) (signer : UserId) : RecordKey :=
  match body with
  | .vaultRoot _ => .vaultRoot
  | .entryPoint _ => .entryPoint signer
  | .user r => .user r.id
  | .userDeleted r => .user r.id
  | .userHandle r => .userHandle r.id
  | .vaultHandle r => .vaultHandle r.id
  | .group r => .group r.id
  | .groupDeleted r => .group r.id
  | .groupMember r => .groupMember r.id
  | .groupMemberDeleted r => .groupMember r.id
  | .grant r => .grant r.id
  | .grantDeleted r => .grant r.id
  | .secret r => .secret r.id
  | .secretDeleted r => .secret r.id

/-- A record whose envelope verified and whose signing key resolved to an identity. -/
structure VerifiedRecord where
  signed : VaultRecordV1
  body : RecordBodyV1
  recordHash : HashValue
  signer : UserId
  deriving DecidableEq

namespace VerifiedRecord

/-- The program stores the key beside the body it is derived from. -/
def key (self : VerifiedRecord) : RecordKey := recordKeyFor self.body self.signer

/-- The counter a record competes with; a body without one competes at zero. -/
def counter (self : VerifiedRecord) : ℕ := self.body.lwwCounter.getD 0

end VerifiedRecord

/-! ### The effective state -/

/-- Positions of the winning and of the first record of one secret in the verified records. -/
structure SecretSlot where
  winner : ℕ
  firstSeen : ℕ
  deriving DecidableEq

inductive SecretState where
  | activeDecryptable
  | notEncryptedForReader
  | unauthorized
  | missing
  | conflicted
  | invalid
  deriving DecidableEq

structure ActiveSecretV1 where
  signed : VaultRecordV1
  value : SecretRecordV1
  deriving DecidableEq

structure EffectiveState where
  rootUserId : Option UserId
  rootSigningPublicKeyHash : Option HashValue
  users : BTreeMap UserId UserRecordV1
  handles : BTreeMap UserHandleId UserHandleRecordV1
  vaultHandles : BTreeMap VaultHandleId VaultHandleRecordV1
  groups : BTreeMap GroupId GroupRecordV1
  memberships : BTreeMap GroupMemberId GroupMemberRecordV1
  grants : BTreeMap GrantId GrantRecordV1
  entryPoints : BTreeMap UserId EntryPointRecordV1
  deletedUsers : BTreeSet UserId
  deletedGroups : BTreeSet GroupId
  deletedGrants : BTreeSet GrantId
  authorities : BTreeMap PrincipalRefV1 AuthoritySet
  authorityUnresolved : Bool
  conflicted : BTreeMap RecordKey ConflictReport
  admittedCounterMax : Option ℕ
  verifiedRecords : List VerifiedRecord
  secretIndex : BTreeMap SecretId SecretSlot

/-- The state of a vault that could not be resolved at all: nothing is effective. -/
def EffectiveState.unresolved : EffectiveState where
  rootUserId := none
  rootSigningPublicKeyHash := none
  users := ∅
  handles := ∅
  vaultHandles := ∅
  groups := ∅
  memberships := ∅
  grants := ∅
  entryPoints := ∅
  deletedUsers := ∅
  deletedGroups := ∅
  deletedGrants := ∅
  authorities := ∅
  authorityUnresolved := true
  conflicted := ∅
  admittedCounterMax := none
  verifiedRecords := []
  secretIndex := ∅

structure ValidationReport where
  effective : EffectiveState
  ratchetUpdate : RatchetUpdate
  issues : List ValidationIssue
  warnings : List ValidationWarning

/-! ### Counters -/

/-- The highest counter a record may carry. -/
def maxLwwCounter : ℕ := 2 ^ 62

/-- Addition on 64-bit counters that stops at the largest one. -/
def saturatingAdd (a b : ℕ) : ℕ := min (a + b) (2 ^ 64 - 1)

/-- The counter of the next record written to a vault. -/
def nextCounter (effective : EffectiveState) : ℕ :=
  match effective.admittedCounterMax with
  | some max => saturatingAdd max 1
  | none => 0

namespace EffectiveState

/-- The least counter that clears every suspected rollback. -/
def rollbackCounterFloor (self : EffectiveState) : ℕ :=
  ((self.conflicted.toList.filterMap fun entry =>
    match entry.2.kind with
    | .rollback remembered => some (saturatingAdd remembered 1)
    | .tie => none).max?).getD 0

/-- The hashes of the records whose envelope signature was accepted. -/
def verifiedRecordHashes (self : EffectiveState) : BTreeSet HashValue :=
  self.verifiedRecords.foldl (fun hashes record => hashes.insert record.recordHash) ∅

end EffectiveState

end Thorax
