import Thorax.Library.Lww
import Thorax.Library.Settle
import Thorax.Validate.Report

/-!
# The effective state

Which records take effect. Users, groups, memberships and grants are selected by last-writer-wins
among the records their signers are authorised to issue; the selected grants and memberships
determine the authorities of the next round, and the rounds are repeated until they settle or the
bound on them is spent. Handles and entry points are resolved once at the end.
-/

namespace Thorax

open Collections

abbrev Authorities := BTreeMap PrincipalRefV1 AuthoritySet

/-! ### Last-writer-wins resolution -/

/-- One key's contested winning counter and the records tied at it. -/
structure ConflictSlot where
  counter : ℕ
  candidateHashes : List HashValue
  deriving DecidableEq

structure LwwResolution (K : Type) [Ord K] where
  winners : BTreeMap K VerifiedRecord
  conflicted : BTreeMap RecordKey ConflictSlot

section Resolution

variable {K : Type} [Ord K] [Std.TransOrd K]

/-- The records that share the highest counter at each key, in scan order. Records at a
rollback-suspected key are inert. -/
def lwwSlots (records : List VerifiedRecord) (rollbackKeys : BTreeMap RecordKey ℕ)
    (classify : VerifiedRecord → Option K) : BTreeMap K (List VerifiedRecord) :=
  groupFold (fun record => if rollbackKeys.contains record.key then none else classify record)
    (fun slot record => Lww.push VerifiedRecord.counter (slot.getD []) record) records ∅

/-- The dispute at a key, when the candidates at its winning counter have diverging bodies. -/
def conflictSlot (candidates : List VerifiedRecord) : Option (RecordKey × ConflictSlot) :=
  match candidates with
  | [] => none
  | leader :: _ =>
    if Lww.diverging VerifiedRecord.body candidates then
      some (leader.key,
        { counter := leader.counter
          candidateHashes :=
            (sortBy compare (candidates.map VerifiedRecord.recordHash)).destutter (· ≠ ·) })
    else none

/-- Resolve each key among the records `classify` admits: candidates of one body are represented
by the lowest hash, diverging candidates have no winner and are reported instead. -/
def lwwResolution (records : List VerifiedRecord) (rollbackKeys : BTreeMap RecordKey ℕ)
    (classify : VerifiedRecord → Option K) : LwwResolution K where
  winners := (lwwSlots records rollbackKeys classify).filterMap fun _ candidates =>
    Lww.winner VerifiedRecord.body VerifiedRecord.recordHash candidates
  conflicted := collectMap conflictSlot (values (lwwSlots records rollbackKeys classify)) ∅

/-- Split winners into live values and tombstoned keys. -/
def partitionLww {V : Type} (winners : BTreeMap K VerifiedRecord)
    (value : RecordBodyV1 → Option V) : BTreeMap K V × BTreeSet K :=
  (winners.filterMap fun _ record => value record.body,
    keysWhere (fun record : VerifiedRecord => (value record.body).isNone) winners)

end Resolution

/-- Lamport order, refined by signer and hash to a total order on distinct records. -/
def compareLww (a b : VerifiedRecord) : Ordering :=
  ((compare a.counter b.counter).then (compare a.signer b.signer)).then
    (compare a.recordHash b.recordHash)

/-! ### Authorities -/

def signerAuth (authorities : Authorities) (signer : UserId) : AuthoritySet :=
  authorities[PrincipalRefV1.user signer]?.getD .empty

def rootAuthorities (rootUser : UserId) : Authorities :=
  (∅ : Authorities).insert (.user rootUser) .root

/-- Pass a group's authority on to one member; a group without authority passes nothing on. -/
def propagateMembership (state : Authorities × Bool) (membership : GroupMemberRecordV1) :
    Authorities × Bool :=
  match state.1[PrincipalRefV1.group membership.groupId]? with
  | none => state
  | some groupAuth =>
    let merged := (state.1[membership.memberId]?.getD .empty).mergeFrom groupAuth
    (state.1.insert membership.memberId merged.1, state.2 || merged.2)

def propagateMemberships (memberships : List GroupMemberRecordV1) (authorities : Authorities) :
    Authorities × Bool :=
  memberships.foldl propagateMembership (authorities, false)

/-- The authorities the selected grants confer directly. -/
def grantedAuthorities (rootUser : UserId) (grants : List GrantRecordV1) : Authorities :=
  groupFold (fun grant : GrantRecordV1 => some grant.subjectId)
    (fun entry grant => (entry.getD .empty).addPermission grant.permission) grants
    (rootAuthorities rootUser)

/-- Grants, then memberships until nothing changes. A changing pass adds a permission to a
member, and there are no permissions but the granted ones and the four of the root, so the
number of passes is bounded. -/
def computeAuthoritiesFromSelected (rootUser : UserId)
    (memberships : BTreeMap GroupMemberId GroupMemberRecordV1)
    (grants : BTreeMap GrantId GrantRecordV1) : Authorities :=
  Settle.loopUntil (propagateMemberships (values memberships))
    ((values memberships).length * ((values grants).length + 4) + 1)
    (grantedAuthorities rootUser (values grants))

/-! ### Selection -/

structure SelectedAuthorizedRecords where
  users : BTreeMap UserId UserRecordV1
  groups : BTreeMap GroupId GroupRecordV1
  memberships : BTreeMap GroupMemberId GroupMemberRecordV1
  grants : BTreeMap GrantId GrantRecordV1
  deletedUsers : BTreeSet UserId
  deletedGroups : BTreeSet GroupId
  deletedGrants : BTreeSet GrantId
  conflicted : BTreeMap RecordKey ConflictSlot
  deriving DecidableEq

def SelectedAuthorizedRecords.empty : SelectedAuthorizedRecords := ⟨∅, ∅, ∅, ∅, ∅, ∅, ∅, ∅⟩

def principalExists (principal : PrincipalRefV1) (users : BTreeMap UserId UserRecordV1)
    (groups : BTreeMap GroupId GroupRecordV1) : Bool :=
  match principal with
  | .user user => users.contains user
  | .group group => groups.contains group

section Classify

variable (admittedDeletions : BTreeSet HashValue) (authorities : Authorities)

def classifyUser (rootUser : UserId) (record : VerifiedRecord) : Option UserId :=
  match record.body with
  | .user user =>
    if user.id = rootUser || !(signerAuth authorities record.signer).administer then none
    else some user.id
  | .userDeleted deleted =>
    if deleted.id = rootUser || !admittedDeletions.contains record.recordHash then none
    else some deleted.id
  | _ => none

def classifyGroup (record : VerifiedRecord) : Option GroupId :=
  match record.body with
  | .group group =>
    if !(signerAuth authorities record.signer).administer then none else some group.id
  | .groupDeleted deleted =>
    if !admittedDeletions.contains record.recordHash then none else some deleted.id
  | _ => none

def classifyMembership (users : BTreeMap UserId UserRecordV1)
    (groups : BTreeMap GroupId GroupRecordV1) (record : VerifiedRecord) : Option GroupMemberId :=
  match record.body with
  | .groupMember member =>
    if !(signerAuth authorities record.signer).administer || !groups.contains member.groupId ||
        !principalExists member.memberId users groups then none
    else some member.id
  | .groupMemberDeleted deleted =>
    if !(signerAuth authorities record.signer).administer then none else some deleted.id
  | _ => none

def classifyGrant (users : BTreeMap UserId UserRecordV1)
    (groups : BTreeMap GroupId GroupRecordV1) (record : VerifiedRecord) : Option GrantId :=
  match record.body with
  | .grant grant =>
    if !principalExists grant.subjectId users groups ||
        !(signerAuth authorities record.signer).canCreatePermission grant.permission then none
    else some grant.id
  | .grantDeleted deleted =>
    if !admittedDeletions.contains record.recordHash then none else some deleted.id
  | _ => none

def classifyUserHandle (users : BTreeMap UserId UserRecordV1) (record : VerifiedRecord) :
    Option UserHandleId :=
  match record.body with
  | .userHandle handle =>
    if (signerAuth authorities record.signer).administer && users.contains handle.userId then
      some handle.id
    else none
  | _ => none

def classifyVaultHandle (record : VerifiedRecord) : Option VaultHandleId :=
  match record.body with
  | .vaultHandle handle =>
    if (signerAuth authorities record.signer).administer then some handle.id else none
  | _ => none

/-- An entry point is keyed by its signer and needs no authority. -/
def classifyEntryPoint (users : BTreeMap UserId UserRecordV1) (record : VerifiedRecord) :
    Option UserId :=
  match record.body with
  | .entryPoint _ => if users.contains record.signer then some record.signer else none
  | _ => none

def classifySecret (record : VerifiedRecord) : Option SecretId :=
  match record.body with
  | .secret value =>
    if (signerAuth authorities record.signer).canWrite value.selector then some value.id else none
  | .secretDeleted deleted =>
    if (signerAuth authorities record.signer).canWrite deleted.selector then some deleted.id
    else none
  | _ => none

end Classify

/-- The users whose own key vouches for the root. -/
def entryPointUsers (records : List VerifiedRecord) (rollbackKeys : BTreeMap RecordKey ℕ) :
    BTreeSet UserId :=
  collectSet (fun record => if rollbackKeys.contains record.key then none else
    match record.body with
    | .entryPoint _ => some record.signer
    | _ => none) records ∅

/-- The users selected by a resolution: the root is intrinsic, and a winning add counts only for
a user who vouched for the root. -/
def selectUsers (rootUserRecord : UserRecordV1) (attested : BTreeSet UserId)
    (winners : BTreeMap UserId VerifiedRecord) : BTreeMap UserId UserRecordV1 :=
  winners.foldl (fun users userId record =>
    match record.body with
    | .user user => if attested.contains userId then users.insert userId user else users
    | _ => users) ((∅ : BTreeMap UserId UserRecordV1).insert rootUserRecord.id rootUserRecord)

def RecordBodyV1.user? : RecordBodyV1 → Option UserRecordV1
  | .user value => some value
  | _ => none

def RecordBodyV1.group? : RecordBodyV1 → Option GroupRecordV1
  | .group value => some value
  | _ => none

def RecordBodyV1.groupMember? : RecordBodyV1 → Option GroupMemberRecordV1
  | .groupMember value => some value
  | _ => none

def RecordBodyV1.grant? : RecordBodyV1 → Option GrantRecordV1
  | .grant value => some value
  | _ => none

def RecordBodyV1.userHandle? : RecordBodyV1 → Option UserHandleRecordV1
  | .userHandle value => some value
  | _ => none

def RecordBodyV1.vaultHandle? : RecordBodyV1 → Option VaultHandleRecordV1
  | .vaultHandle value => some value
  | _ => none

def RecordBodyV1.entryPoint? : RecordBodyV1 → Option EntryPointRecordV1
  | .entryPoint value => some value
  | _ => none

def selectAuthorizedRecords (records : List VerifiedRecord) (rootUserRecord : UserRecordV1)
    (attested : BTreeSet UserId) (admittedDeletions : BTreeSet HashValue)
    (rollbackKeys : BTreeMap RecordKey ℕ) (authorities : Authorities) :
    SelectedAuthorizedRecords :=
  let userResolution := lwwResolution records rollbackKeys
    (classifyUser admittedDeletions authorities rootUserRecord.id)
  let users := selectUsers rootUserRecord attested userResolution.winners
  let groupResolution := lwwResolution records rollbackKeys
    (classifyGroup admittedDeletions authorities)
  let groups := partitionLww groupResolution.winners RecordBodyV1.group?
  let membershipResolution := lwwResolution records rollbackKeys
    (classifyMembership authorities users groups.1)
  let memberships := partitionLww membershipResolution.winners RecordBodyV1.groupMember?
  let grantResolution := lwwResolution records rollbackKeys
    (classifyGrant admittedDeletions authorities users groups.1)
  let grants := partitionLww grantResolution.winners RecordBodyV1.grant?
  { users := users
    groups := groups.1
    memberships := memberships.1
    grants := grants.1
    deletedUsers := keysWhere (fun record : VerifiedRecord => record.body.user?.isNone)
      userResolution.winners
    deletedGroups := groups.2
    deletedGrants := grants.2
    conflicted := userResolution.conflicted ∪ groupResolution.conflicted ∪
      membershipResolution.conflicted ∪ grantResolution.conflicted }

/-! ### The fixpoint -/

/-- Turn conflict slots into reports; `serialize` orders the candidates. -/
def materializeConflicts (crypto : CryptoProvider) (records : List VerifiedRecord)
    (conflicted : BTreeMap RecordKey ConflictSlot) : BTreeMap RecordKey ConflictReport :=
  conflicted.map fun key slot =>
    { key := key
      counter := slot.counter
      kind := .tie
      candidates := (sortBy (compareOn fun signed => crypto.serialize (.record signed))
        ((records.filter (slot.candidateHashes.contains ·.recordHash)).map
          VerifiedRecord.signed)).destutter (· ≠ ·)
      origin := none }

/-- One round: select under the authorities so far, then derive the authorities anew. -/
def resolutionRound (records : List VerifiedRecord) (rootUserRecord : UserRecordV1)
    (admittedDeletions : BTreeSet HashValue) (rollbackKeys : BTreeMap RecordKey ℕ)
    (state : SelectedAuthorizedRecords × Authorities) : SelectedAuthorizedRecords × Authorities :=
  let next := selectAuthorizedRecords records rootUserRecord (entryPointUsers records rollbackKeys)
    admittedDeletions rollbackKeys state.2
  (next, computeAuthoritiesFromSelected rootUserRecord.id next.memberships next.grants)

/-- The bound on the number of rounds. -/
def maxRounds : ℕ := 64

/-- The state the rounds start from. -/
def initialRound (rootUser : UserId) : SelectedAuthorizedRecords × Authorities :=
  (.empty, rootAuthorities rootUser)

def computeEffectiveState (crypto : CryptoProvider) (rootUserRecord : UserRecordV1)
    (rootSigningPublicKeyHash : HashValue) (records : List VerifiedRecord)
    (admittedDeletions : BTreeSet HashValue) (rollbackKeys : BTreeMap RecordKey ℕ) :
    EffectiveState :=
  let settled := Settle.settle
    (resolutionRound records rootUserRecord admittedDeletions rollbackKeys) maxRounds
    (initialRound rootUserRecord.id)
  let selected := settled.1.1
  let authorities := settled.1.2
  let handleResolution := lwwResolution records rollbackKeys
    (classifyUserHandle authorities selected.users)
  let vaultHandleResolution := lwwResolution records rollbackKeys (classifyVaultHandle authorities)
  let entryPointResolution := lwwResolution records rollbackKeys (classifyEntryPoint selected.users)
  { rootUserId := some rootUserRecord.id
    rootSigningPublicKeyHash := some rootSigningPublicKeyHash
    users := selected.users
    handles := (partitionLww handleResolution.winners RecordBodyV1.userHandle?).1
    vaultHandles := (partitionLww vaultHandleResolution.winners RecordBodyV1.vaultHandle?).1
    groups := selected.groups
    memberships := selected.memberships
    grants := selected.grants
    entryPoints := (partitionLww entryPointResolution.winners RecordBodyV1.entryPoint?).1
    deletedUsers := selected.deletedUsers
    deletedGroups := selected.deletedGroups
    deletedGrants := selected.deletedGrants
    authorities := authorities
    authorityUnresolved := !settled.2
    conflicted := materializeConflicts crypto records
      (selected.conflicted ∪ handleResolution.conflicted ∪ vaultHandleResolution.conflicted ∪
        entryPointResolution.conflicted)
    admittedCounterMax := none
    verifiedRecords := []
    secretIndex := ∅ }

end Thorax
