import Thorax.Validate.Report

/-!
# Structural validation

The checks a record has to pass on its own, against the selected root only: its counter, the
identifiers it derives from its content, its handles, selectors and permissions.
-/

namespace Thorax

def invalid (message : String) : Except ValidationIssue Unit := .error (.invalidStructure message)

/-- `previous >= next` is the failure of every ordered list of the format. -/
def isSortedUnique {α : Type} (lt : α → α → Bool) : List α → Bool
  | previous :: next :: rest => lt previous next && isSortedUnique lt (next :: rest)
  | _ => true

def validateSortedUniqueSecretLabels (labels : List SecretLabelV1) :
    Except ValidationIssue Unit :=
  if isSortedUnique (fun a b => decide (a.key < b.key)) labels then .ok ()
  else invalid "secret selector labels must be sorted and unique"

def validateSortedUniqueKeyspaceLabels (labels : List KeyspaceLabelMatcherV1) :
    Except ValidationIssue Unit :=
  if isSortedUnique (fun a b => decide (a.key < b.key)) labels then .ok ()
  else invalid "keyspace selector labels must be sorted and unique"

def validateSortedUniqueStrings (values : List String) (description : String) :
    Except ValidationIssue Unit :=
  if values.isEmpty then invalid (description ++ " must not be empty")
  else if isSortedUnique (fun a b => decide (a < b)) values then .ok ()
  else invalid (description ++ " must be sorted and unique")

def validateSortedUniqueGrantable (values : List KeyspaceGrantClassV1) :
    Except ValidationIssue Unit :=
  if values.isEmpty then invalid "manage grant must grant at least one class"
  else if isSortedUnique (fun a b => decide (a.index < b.index)) values then .ok ()
  else invalid "manage grant classes must be sorted and unique"

def validateKeyspaceSelector (selector : KeyspaceSelectorV1) : Except ValidationIssue Unit := do
  if selector.tuple = .prefixed [] then
    invalid "empty tuple prefix must be encoded as any"
  validateSortedUniqueKeyspaceLabels selector.labels
  selector.labels.forM fun label =>
    match label.matcher with
    | .isIn values => validateSortedUniqueStrings values "label in matcher"
    | _ => .ok ()

def validateSecretSelector (selector : SecretSelectorV1) : Except ValidationIssue Unit :=
  validateSortedUniqueSecretLabels selector.labels

def validatePermission (permission : GrantPermissionV1) : Except ValidationIssue Unit :=
  match permission with
  | .readKeyspace selector => validateKeyspaceSelector selector
  | .writeKeyspace selector => validateKeyspaceSelector selector
  | .manageKeyspace manage => do
    validateKeyspaceSelector manage.selector
    validateSortedUniqueGrantable manage.grantable
  | .administer => .ok ()

section Record

variable (crypto : CryptoProvider)

def structurallyValidUser (record : UserRecordV1) : Except ValidationIssue Unit :=
  if record.id = deriveUserId crypto record.signingPublicKey record.hpkePublicKey then .ok ()
  else invalid "invalid user record"

/-- The part of `structurallyValidateRecord` after the counter ceiling. -/
def structurallyValidateBody (signed : VaultRecordV1) (body : RecordBodyV1)
    (root : VaultRootRecordV1) : Except ValidationIssue Unit :=
  match body with
  | .vaultRoot record =>
    if record.id = deriveUserId crypto signed.signingPublicKey record.hpkePublicKey then .ok ()
    else invalid "invalid root record"
  | .entryPoint record =>
    if record.trustedRootUserId = root.id then .ok () else invalid "invalid entry point record"
  | .user record => structurallyValidUser crypto record
  | .userHandle record =>
    if isValidHandle record.handle ∧ record.id = deriveUserHandleId crypto record.handle then .ok ()
    else invalid "invalid user handle"
  | .vaultHandle record =>
    if isValidHandle record.handle ∧ record.id = deriveVaultHandleId crypto record.handle then
      .ok ()
    else invalid "invalid vault handle record"
  | .group record =>
    if record.id = deriveGroupId crypto record.seed ∧ isValidHandle record.handle then .ok ()
    else invalid "invalid group record"
  | .groupDeleted _ => .ok ()
  | .groupMember record =>
    if record.id = deriveGroupMemberId crypto record.groupId record.memberId then .ok ()
    else invalid "invalid group membership"
  | .groupMemberDeleted record =>
    if record.id = deriveGroupMemberId crypto record.groupId record.memberId then .ok ()
    else invalid "invalid group membership deletion"
  | .grant record => do
    validatePermission record.permission
    if record.id = deriveGrantId crypto record.seed then .ok () else invalid "invalid grant"
  | .grantDeleted record => validatePermission record.permission
  | .userDeleted record =>
    if record.id = root.id then invalid "invalid user deletion" else .ok ()
  | .secret record => do
    validateSecretSelector record.selector
    if record.id = deriveSecretId crypto record.selector then
      if (record.sealed.recipientSlots.map (·.recipientId)).Nodup then .ok ()
      else invalid "duplicate recipient slot"
    else invalid "invalid secret value"
  | .secretDeleted record => do
    validateSecretSelector record.selector
    if record.id = deriveSecretId crypto record.selector then .ok ()
    else invalid "invalid secret deletion"

def structurallyValidateRecord (signed : VaultRecordV1) (body : RecordBodyV1)
    (root : VaultRootRecordV1) : Except ValidationIssue Unit :=
  if body.lwwCounter.any (maxLwwCounter < ·) then invalid "counter exceeds the supported ceiling"
  else structurallyValidateBody crypto signed body root

/-! ### What a structurally valid record satisfies -/

variable {crypto} {signed : VaultRecordV1} {body : RecordBodyV1} {root : VaultRootRecordV1}

lemma structurallyValidateBody_of_record
    (h : structurallyValidateRecord crypto signed body root = .ok ()) :
    structurallyValidateBody crypto signed body root = .ok () := by
  unfold structurallyValidateRecord at h
  split at h
  · simp [invalid] at h
  · exact h

lemma counter_le_of_structure
    (h : structurallyValidateRecord crypto signed body root = .ok ()) {c : ℕ}
    (hc : body.lwwCounter = some c) : c ≤ maxLwwCounter := by
  unfold structurallyValidateRecord at h
  split at h
  · simp [invalid] at h
  · next hany =>
    simp only [hc, Option.any_some, decide_eq_true_eq, not_lt] at hany
    exact hany

lemma structurallyValidUser_iff {record : UserRecordV1} :
    structurallyValidUser crypto record = .ok () ↔
      record.id = deriveUserId crypto record.signingPublicKey record.hpkePublicKey := by
  unfold structurallyValidUser
  split <;> simp_all [invalid]

/-- A check that fails with a message passes exactly when its condition holds. -/
lemma check_eq_ok {p : Prop} [Decidable p] {message : String} {rest : Except ValidationIssue Unit} :
    (if p then rest else invalid message) = .ok () ↔ p ∧ rest = .ok () := by
  split_ifs with h <;> simp [invalid, h]

lemma secret_of_structure {record : SecretRecordV1}
    (h : structurallyValidateRecord crypto signed (.secret record) root = .ok ()) :
    record.id = deriveSecretId crypto record.selector := by
  have hbody := structurallyValidateBody_of_record h
  simp only [structurallyValidateBody, bind, Except.bind] at hbody
  split at hbody
  · cases hbody
  · exact (check_eq_ok.mp hbody).1

lemma slots_of_structure {record : SecretRecordV1}
    (h : structurallyValidateRecord crypto signed (.secret record) root = .ok ()) :
    (record.sealed.recipientSlots.map (·.recipientId)).Nodup := by
  have hbody := structurallyValidateBody_of_record h
  simp only [structurallyValidateBody, bind, Except.bind] at hbody
  split at hbody
  · cases hbody
  · exact (check_eq_ok.mp (check_eq_ok.mp hbody).2).1

lemma secretDeleted_of_structure {record : SecretDeletedRecordV1}
    (h : structurallyValidateRecord crypto signed (.secretDeleted record) root = .ok ()) :
    record.id = deriveSecretId crypto record.selector := by
  have hbody := structurallyValidateBody_of_record h
  simp only [structurallyValidateBody, bind, Except.bind] at hbody
  split at hbody
  · cases hbody
  · exact (check_eq_ok.mp hbody).1

lemma userHandle_of_structure {record : UserHandleRecordV1}
    (h : structurallyValidateRecord crypto signed (.userHandle record) root = .ok ()) :
    isValidHandle record.handle = true ∧ record.id = deriveUserHandleId crypto record.handle :=
  (check_eq_ok.mp (structurallyValidateBody_of_record h)).1

lemma vaultHandle_of_structure {record : VaultHandleRecordV1}
    (h : structurallyValidateRecord crypto signed (.vaultHandle record) root = .ok ()) :
    isValidHandle record.handle = true ∧ record.id = deriveVaultHandleId crypto record.handle :=
  (check_eq_ok.mp (structurallyValidateBody_of_record h)).1

lemma groupMember_of_structure {record : GroupMemberRecordV1}
    (h : structurallyValidateRecord crypto signed (.groupMember record) root = .ok ()) :
    record.id = deriveGroupMemberId crypto record.groupId record.memberId :=
  (check_eq_ok.mp (structurallyValidateBody_of_record h)).1

lemma groupMemberDeleted_of_structure {record : GroupMemberDeletedRecordV1}
    (h : structurallyValidateRecord crypto signed (.groupMemberDeleted record) root = .ok ()) :
    record.id = deriveGroupMemberId crypto record.groupId record.memberId :=
  (check_eq_ok.mp (structurallyValidateBody_of_record h)).1

end Record

end Thorax
