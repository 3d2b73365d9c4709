import Thorax.Library.Collections

/-!
# The vault format

Records, identifiers and record keys of a version 1 vault. A record body names the object it is
about by an identifier that the rest of the format only compares, so all identifier types are
one wrapper around a hash value, indexed by the kind of object.
-/

namespace Thorax

open Collections
open Std (TransCmp TransOrd LawfulEqOrd LawfulEqCmp)

abbrev Bytes := List UInt8

@[ext]
structure HashValue where
  bytes : Bytes
  deriving DecidableEq

instance : Ord HashValue := ⟨compareOn HashValue.bytes⟩

instance : TransOrd HashValue := inferInstanceAs (TransCmp (compareOn HashValue.bytes))

instance : LawfulEqOrd HashValue := lawfulEqCmp_compareOn fun _ _ h => HashValue.ext h

/-! ### Identifiers -/

inductive IdKind where
  | user
  | userHandle
  | vaultHandle
  | group
  | groupMember
  | grant
  | secret
  deriving DecidableEq

/-- An identifier of one kind of object. -/
@[ext]
structure Id (kind : IdKind) where
  hash : HashValue
  deriving DecidableEq

abbrev UserId := Id .user
abbrev UserHandleId := Id .userHandle
abbrev VaultHandleId := Id .vaultHandle
abbrev GroupId := Id .group
abbrev GroupMemberId := Id .groupMember
abbrev GrantId := Id .grant
abbrev SecretId := Id .secret

variable {kind : IdKind}

instance : Ord (Id kind) := ⟨compareOn Id.hash⟩

instance : TransOrd (Id kind) := inferInstanceAs (TransCmp (compareOn Id.hash))

instance : LawfulEqOrd (Id kind) := lawfulEqCmp_compareOn fun _ _ h => Id.ext h

structure IdSeed where
  bytes : Bytes
  deriving DecidableEq

/-- A variant index followed by a hash: the derived order of an enumeration of identifiers. -/
structure Tagged where
  index : ℕ
  hash : HashValue
  deriving DecidableEq

instance : Ord Tagged := ⟨compareLex (compareOn Tagged.index) (compareOn Tagged.hash)⟩

instance : TransOrd Tagged :=
  inferInstanceAs (TransCmp (compareLex (compareOn Tagged.index) (compareOn Tagged.hash)))

instance : LawfulEqOrd Tagged where
  eq_of_compare := by
    rintro ⟨i, a⟩ ⟨j, b⟩ h
    obtain ⟨hi, ha⟩ := compareLex_eq_eq.mp h
    obtain rfl : i = j := LawfulEqCmp.eq_of_compare (show compare i j = .eq from hi)
    obtain rfl : a = b := LawfulEqCmp.eq_of_compare (show compare a b = .eq from ha)
    rfl

/-! ### Principals and record keys -/

inductive PrincipalRefV1 where
  | user (id : UserId)
  | group (id : GroupId)
  deriving DecidableEq

def PrincipalRefV1.tagged : PrincipalRefV1 → Tagged
  | .user id => ⟨0, id.hash⟩
  | .group id => ⟨1, id.hash⟩

lemma PrincipalRefV1.tagged_injective : Function.Injective PrincipalRefV1.tagged := by
  rintro (a | a) (b | b) h <;> simp_all [tagged, Id.ext_iff]

instance : Ord PrincipalRefV1 := ⟨compareOn PrincipalRefV1.tagged⟩

instance : TransOrd PrincipalRefV1 := inferInstanceAs (TransCmp (compareOn PrincipalRefV1.tagged))

instance : LawfulEqOrd PrincipalRefV1 := lawfulEqCmp_compareOn PrincipalRefV1.tagged_injective

/-- The key at which records compete. -/
inductive RecordKey where
  | vaultRoot
  | entryPoint (userId : UserId)
  | user (userId : UserId)
  | userHandle (handleId : UserHandleId)
  | group (groupId : GroupId)
  | groupMember (groupMemberId : GroupMemberId)
  | grant (grantId : GrantId)
  | secret (secretId : SecretId)
  | vaultHandle (handleId : VaultHandleId)
  deriving DecidableEq

def RecordKey.tagged : RecordKey → Tagged
  | .vaultRoot => ⟨0, ⟨[]⟩⟩
  | .entryPoint id => ⟨1, id.hash⟩
  | .user id => ⟨2, id.hash⟩
  | .userHandle id => ⟨3, id.hash⟩
  | .group id => ⟨4, id.hash⟩
  | .groupMember id => ⟨5, id.hash⟩
  | .grant id => ⟨6, id.hash⟩
  | .secret id => ⟨7, id.hash⟩
  | .vaultHandle id => ⟨8, id.hash⟩

lemma RecordKey.tagged_injective : Function.Injective RecordKey.tagged := by
  intro a b h
  cases a <;> cases b <;> simp_all [tagged, Id.ext_iff]

instance : Ord RecordKey := ⟨compareOn RecordKey.tagged⟩

instance : TransOrd RecordKey := inferInstanceAs (TransCmp (compareOn RecordKey.tagged))

instance : LawfulEqOrd RecordKey := lawfulEqCmp_compareOn RecordKey.tagged_injective

/-! ### Selectors and permissions -/

structure SecretLabelV1 where
  key : String
  value : String
  deriving DecidableEq

structure SecretSelectorV1 where
  tuple : List String
  labels : List SecretLabelV1
  deriving DecidableEq

inductive TupleMatcherV1 where
  | any
  | exact (parts : List String)
  | prefixed (parts : List String)
  deriving DecidableEq

inductive LabelMatcherV1 where
  | any
  | equals (value : String)
  | isIn (values : List String)
  | absent
  deriving DecidableEq

structure KeyspaceLabelMatcherV1 where
  key : String
  matcher : LabelMatcherV1
  deriving DecidableEq

structure KeyspaceSelectorV1 where
  tuple : TupleMatcherV1
  labels : List KeyspaceLabelMatcherV1
  deriving DecidableEq

def KeyspaceSelectorV1.all : KeyspaceSelectorV1 := ⟨.any, []⟩

inductive KeyspaceGrantClassV1 where
  | read
  | write
  | manage
  deriving DecidableEq

/-- Declaration order, which is the derived order of the classes. -/
def KeyspaceGrantClassV1.index : KeyspaceGrantClassV1 → ℕ
  | .read => 0
  | .write => 1
  | .manage => 2

structure ManageKeyspaceGrantV1 where
  selector : KeyspaceSelectorV1
  grantable : List KeyspaceGrantClassV1
  deriving DecidableEq

inductive GrantPermissionV1 where
  | readKeyspace (selector : KeyspaceSelectorV1)
  | writeKeyspace (selector : KeyspaceSelectorV1)
  | manageKeyspace (manage : ManageKeyspaceGrantV1)
  | administer
  deriving DecidableEq

/-! ### Record bodies -/

structure VaultRootRecordV1 where
  id : UserId
  hpkePublicKey : Bytes
  deriving DecidableEq

structure EntryPointRecordV1 where
  trustedRootUserId : UserId
  hpkePublicKey : Bytes
  counter : ℕ
  deriving DecidableEq

structure UserRecordV1 where
  id : UserId
  signingPublicKey : Bytes
  hpkePublicKey : Bytes
  counter : ℕ
  deriving DecidableEq

structure UserHandleRecordV1 where
  id : UserHandleId
  handle : String
  userId : UserId
  counter : ℕ
  deriving DecidableEq

structure VaultHandleRecordV1 where
  id : VaultHandleId
  handle : String
  counter : ℕ
  deriving DecidableEq

structure GroupRecordV1 where
  id : GroupId
  seed : IdSeed
  handle : String
  counter : ℕ
  deriving DecidableEq

structure GroupDeletedRecordV1 where
  id : GroupId
  counter : ℕ
  deriving DecidableEq

structure GroupMemberRecordV1 where
  id : GroupMemberId
  groupId : GroupId
  memberId : PrincipalRefV1
  counter : ℕ
  deriving DecidableEq

structure GroupMemberDeletedRecordV1 where
  id : GroupMemberId
  groupId : GroupId
  memberId : PrincipalRefV1
  counter : ℕ
  deriving DecidableEq

structure GrantRecordV1 where
  id : GrantId
  seed : IdSeed
  subjectId : PrincipalRefV1
  permission : GrantPermissionV1
  counter : ℕ
  deriving DecidableEq

structure GrantDeletedRecordV1 where
  id : GrantId
  permission : GrantPermissionV1
  counter : ℕ
  deriving DecidableEq

structure UserDeletedRecordV1 where
  id : UserId
  reason : Option String
  counter : ℕ
  deriving DecidableEq

structure RecipientSlotV1 where
  recipientId : UserId
  hpkeEncapsulatedKey : Bytes
  wrappedContentKey : Bytes
  deriving DecidableEq

structure SealedPayloadV1 where
  nonce : Bytes
  ciphertext : Bytes
  recipientSlots : List RecipientSlotV1
  deriving DecidableEq

structure SecretRecordV1 where
  id : SecretId
  selector : SecretSelectorV1
  sealed : SealedPayloadV1
  counter : ℕ
  deriving DecidableEq

structure SecretDeletedRecordV1 where
  id : SecretId
  selector : SecretSelectorV1
  counter : ℕ
  deriving DecidableEq

inductive RecordBodyV1 where
  | vaultRoot (record : VaultRootRecordV1)
  | entryPoint (record : EntryPointRecordV1)
  | user (record : UserRecordV1)
  | userHandle (record : UserHandleRecordV1)
  | group (record : GroupRecordV1)
  | groupDeleted (record : GroupDeletedRecordV1)
  | groupMember (record : GroupMemberRecordV1)
  | groupMemberDeleted (record : GroupMemberDeletedRecordV1)
  | grant (record : GrantRecordV1)
  | grantDeleted (record : GrantDeletedRecordV1)
  | userDeleted (record : UserDeletedRecordV1)
  | secret (record : SecretRecordV1)
  | secretDeleted (record : SecretDeletedRecordV1)
  | vaultHandle (record : VaultHandleRecordV1)
  deriving DecidableEq

/-- The counter that orders a body against the others at its key. Only the root has none. -/
def RecordBodyV1.lwwCounter : RecordBodyV1 → Option ℕ
  | .entryPoint r => some r.counter
  | .user r => some r.counter
  | .userDeleted r => some r.counter
  | .userHandle r => some r.counter
  | .vaultHandle r => some r.counter
  | .group r => some r.counter
  | .groupDeleted r => some r.counter
  | .groupMember r => some r.counter
  | .groupMemberDeleted r => some r.counter
  | .grant r => some r.counter
  | .grantDeleted r => some r.counter
  | .secret r => some r.counter
  | .secretDeleted r => some r.counter
  | .vaultRoot _ => none

/-- Whether a body is one of the five tombstones. -/
def RecordBodyV1.isDeletion : RecordBodyV1 → Bool
  | .userDeleted _ | .groupDeleted _ | .groupMemberDeleted _ | .grantDeleted _
  | .secretDeleted _ => true
  | _ => false

/-! ### Envelopes and vaults -/

/-- A body this build can read, or the raw bytes of one it cannot. -/
inductive Evolving (α : Type) where
  | known (value : α)
  | unknown (raw : Bytes)
  deriving DecidableEq

def Evolving.known? {α : Type} : Evolving α → Option α
  | .known value => some value
  | .unknown _ => none

/-- A signed record. The key is the one the signature verifies under; it names no user. -/
structure VaultRecordV1 where
  body : Evolving RecordBodyV1
  signingPublicKey : Bytes
  signature : Bytes
  deriving DecidableEq

/-- The records of a vault. The format stores a set; the list is the order in which a reader
happens to visit it. -/
structure VaultStoreV1 where
  records : List VaultRecordV1
  deriving DecidableEq

inductive VaultStore where
  | v1 (store : VaultStoreV1)
  deriving DecidableEq

def VaultStore.formatVersion : VaultStore → ℕ
  | .v1 _ => 1

def VaultStore.records : VaultStore → List VaultRecordV1
  | .v1 store => store.records

end Thorax
