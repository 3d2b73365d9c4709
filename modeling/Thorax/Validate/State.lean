import Thorax.Validate.Effective

/-!
# Queries on the effective state

Secrets are not selected with the principal graph. An index of the latest authorised record of
each secret is attached once the authorities are final, and the queries go through it.
-/

namespace Thorax

open Collections

def secretRecordIdentity (body : RecordBodyV1) : Option (SecretId × SecretSelectorV1) :=
  match body with
  | .secret value => some (value.id, value.selector)
  | .secretDeleted deleted => some (deleted.id, deleted.selector)
  | _ => none

/-- The secret whose slot a record competes for: its signer must be able to write the selector
that the record itself claims. -/
def secretIndexKey (authorities : Authorities) (record : VerifiedRecord) : Option SecretId :=
  match secretRecordIdentity record.body with
  | none => none
  | some (secret, selector) =>
    if (signerAuth authorities record.signer).canWrite selector then some secret else none

/-- Offer the record at a position to a slot, which keeps the greater in Lamport order. -/
def pushSecretSlot (records : List VerifiedRecord) (slot : Option SecretSlot)
    (entry : VerifiedRecord × ℕ) : SecretSlot :=
  match slot with
  | some slot =>
    match records[slot.winner]? with
    | some winner =>
      if (compareLww entry.1 winner).isGT then { slot with winner := entry.2 } else slot
    | none => slot
  | none => ⟨entry.2, entry.2⟩

def buildSecretIndex (authorities : Authorities) (records : List VerifiedRecord) :
    BTreeMap SecretId SecretSlot :=
  groupFold (fun entry : VerifiedRecord × ℕ => secretIndexKey authorities entry.1)
    (pushSecretSlot records) records.zipIdx ∅

namespace EffectiveState

def attachVerifiedRecords (self : EffectiveState) (verifiedRecords : List VerifiedRecord)
    (admittedCounterMax : Option ℕ) : EffectiveState :=
  { self with
    admittedCounterMax := admittedCounterMax
    verifiedRecords := verifiedRecords
    secretIndex := buildSecretIndex self.authorities verifiedRecords }

def authorityForUser (self : EffectiveState) (user : UserId) : AuthoritySet :=
  self.authorities[PrincipalRefV1.user user]?.getD .empty

def authorityForGroup (self : EffectiveState) (group : GroupId) : AuthoritySet :=
  self.authorities[PrincipalRefV1.group group]?.getD .empty

/-- The record in an index slot. The slot holds a position that the index was built over. -/
def slotWinner (self : EffectiveState) (slot : SecretSlot) : Option VerifiedRecord :=
  self.verifiedRecords[slot.winner]?

def latestAuthorizedSecretRecord (self : EffectiveState) (secret : SecretId) :
    Option VerifiedRecord :=
  self.secretIndex[secret]?.bind self.slotWinner

/-- A live secret; a deletion is never one. -/
def activeSecret (record : VerifiedRecord) : Option ActiveSecretV1 :=
  match record.body with
  | .secret value => some ⟨record.signed, value⟩
  | _ => none

variable (crypto : CryptoProvider)

def secretConflict (self : EffectiveState) (selector : SecretSelectorV1) : Option ConflictReport :=
  self.conflicted[RecordKey.secret (deriveSecretId crypto selector)]?

/-- The latest record of a selector, when it is a value. -/
def liveSecretWinner (self : EffectiveState) (selector : SecretSelectorV1) :
    Option VerifiedRecord :=
  (self.latestAuthorizedSecretRecord (deriveSecretId crypto selector)).filter fun record =>
    (activeSecret record).isSome

def secretRecord (self : EffectiveState) (selector : SecretSelectorV1) : Option ActiveSecretV1 :=
  if (self.secretConflict crypto selector).isSome then none
  else (self.liveSecretWinner crypto selector).bind activeSecret

/-- Every live secret that is not conflicted, in the order of first appearance. -/
def secretRecords (self : EffectiveState) : List ActiveSecretV1 :=
  (sortBy (compareOn SecretSlot.firstSeen) ((values self.secretIndex).filter fun slot =>
    !(self.slotWinner slot).any (self.conflicted.contains ·.key))).filterMap fun slot =>
      (self.slotWinner slot).bind activeSecret

def secretIsDeleted (self : EffectiveState) (selector : SecretSelectorV1) : Bool :=
  if self.conflicted.contains (RecordKey.secret (deriveSecretId crypto selector)) then false
  else (self.latestAuthorizedSecretRecord (deriveSecretId crypto selector)).any fun record =>
    match record.body with
    | .secretDeleted _ => true
    | _ => false

/-- Whether the record with this hash is the current winner for its secret. -/
def secretRecordIsCurrent (self : EffectiveState) (recordHash : HashValue) : Bool :=
  match self.verifiedRecords.find? (·.recordHash = recordHash) with
  | none => false
  | some target =>
    match secretRecordIdentity target.body with
    | none => false
    | some (secret, _) =>
      if self.conflicted.contains (RecordKey.secret secret) then false
      else (self.latestAuthorizedSecretRecord secret).any (·.recordHash = recordHash)

/-- The users who may read a selector, in order. -/
def currentReaderEntries (self : EffectiveState) (selector : SecretSelectorV1) : List UserId :=
  self.users.keys.filter fun user => (self.authorityForUser user).canRead selector

/-- Whether some current reader of a live secret has no recipient slot in it. -/
def secretMissingReader (self : EffectiveState) (selector : SecretSelectorV1) : Bool :=
  match self.secretRecord crypto selector with
  | none => false
  | some active =>
    (self.currentReaderEntries active.value.selector).any fun reader =>
      !active.value.sealed.recipientSlots.any (·.recipientId = reader)

def classifySecretForUser (self : EffectiveState) (selector : SecretSelectorV1) (user : UserId) :
    SecretState :=
  if self.authorityUnresolved then .invalid
  else if (self.secretConflict crypto selector).isSome then .conflicted
  else
    match (self.liveSecretWinner crypto selector).bind activeSecret with
    | none => .missing
    | some active =>
      if !(self.authorityForUser user).canRead active.value.selector then .unauthorized
      else if ¬ (active.value.sealed.recipientSlots.map (·.recipientId)).Nodup then .invalid
      else if !self.users.contains user then .unauthorized
      else if active.value.sealed.recipientSlots.any (·.recipientId = user) then .activeDecryptable
      else .notEncryptedForReader

end EffectiveState

end Thorax
