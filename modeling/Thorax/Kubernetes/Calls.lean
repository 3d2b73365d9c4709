import Thorax.Kubernetes.Interleaving

/-!
# What a reconciliation calls

The parts of a reconciliation of a vault that write no Secret: they read, report a status of the
vault from the version that was observed, and create or delete requests and approvals. A swap of a
ratchet writes one Secret, and a reconciliation of a projection writes its destination. What is
proved of such calls holds of these parts whatever the server replies.
-/

namespace Thorax.Kubernetes

open Collections Remote Versioned

def Op.Reads : Op → Prop
  | .getConfigMap _ | .getSecretMetadata _ | .getSecret _ | .getVault _ | .getRequest _
  | .listRequests | .getApproval _ => True
  | _ => False

/-- A read, a report on the observed vault, or a change of a request or an approval. -/
def Op.ReportsOn (vault : ThoraxVault) : Op → Prop
  | .patchVaultStatus name status => name = vault.name ∧
      ∃ trustedRoot revision identityUserId condition extraConditions,
        status = reportedStatus vault trustedRoot revision identityUserId condition extraConditions
  | .writeSecret _ _ | .deleteSecret _ _ | .patchSecretStatus _ _ | .mark _ => False
  | _ => True

lemma Op.Reads.reportsOn {vault : ThoraxVault} {op : Op} (h : op.Reads) : op.ReportsOn vault := by
  cases op <;> trivial

section Backend

variable {provider : StoreProvider} {managed : ManagedCrypto} {credential : RatchetCredential}
  {trustedRoot : HashValue}

lemma asks_request {op : Op} (h : op.Reads) :
    (Backend.request op).Asks Op.Reads :=
  Program.asks_bind (Program.asks_ask.mpr h) fun _ => Program.asks_lift

lemma asks_getRevision :
    (getRevision provider credential trustedRoot).Asks Op.Reads := by
  refine Program.asks_bind (asks_request ?_) fun found => ?_
  · trivial
  cases found with
  | none => exact Program.asks_pure
  | some metadata => exact Program.asks_bind Program.asks_lift fun _ => Program.asks_pure

lemma asks_loadRatchet :
    (loadRatchet provider managed credential trustedRoot).Asks Op.Reads := by
  refine Program.asks_bind (asks_request ?_) fun found => ?_
  · trivial
  cases found with
  | none => exact Program.asks_pure
  | some metadata =>
    refine Program.asks_bind Program.asks_lift fun _ => ?_
    refine Program.asks_bind (asks_request ?_) fun secret => ?_
    · trivial
    refine Program.asks_bind Program.asks_lift fun _ => ?_
    exact Program.asks_bind Program.asks_lift fun _ => Program.asks_pure

lemma asks_loadSnapshot {userId : UserId} :
    (loadSnapshot provider managed credential trustedRoot userId).Asks Op.Reads := by
  unfold loadSnapshot
  split_ifs
  · exact Program.asks_fail
  · exact asks_loadRatchet

lemma ownerReferences_savedSecret {ratchet : Ratchet} {secret : Secret}
    (h : savedSecret provider managed credential ratchet = .ok secret) :
    secret.metadata.ownerReferences = some credential.ownerReferences := by
  unfold savedSecret at h
  cases hencoded : encodeSecret provider managed credential.identity ratchet with
  | error source => simp [hencoded, Except.map] at h
  | ok encoded =>
    simp only [hencoded, Except.map, Except.ok.injEq] at h
    subst h
    rfl

end Backend

section Reconciliation

variable {provider : ControllerProvider} {vault : ThoraxVault} {source : Source}
  {identity : ManagedIdentity} {condition : Condition} {extraConditions : List Condition}
  {purpose : JoinPurpose} {random : Randomness}

lemma asks_controllerRequest {op : Op} (h : op.ReportsOn vault) :
    (Controller.request op).Asks (Op.ReportsOn vault) :=
  Program.asks_bind (Program.asks_ask.mpr h) fun _ => Program.asks_lift

lemma asks_backend {α : Type} {program : Backend α} {P : Op → Prop} (h : program.Asks P) :
    (Controller.backend program).Asks P :=
  Program.asks_bind (Program.asks_attempt h) fun _ => Program.asks_lift

lemma asks_setVaultStatusWithExtra {trustedRoot revision identityUserId : Option String} :
    (setVaultStatusWithExtra vault trustedRoot revision identityUserId condition
      extraConditions).Asks (Op.ReportsOn vault) := by
  unfold setVaultStatusWithExtra
  by_cases hsame : vault.status =
      some (reportedStatus vault trustedRoot revision identityUserId condition extraConditions)
  · simp [hsame]
  · simp only [hsame]
    apply asks_controllerRequest
    exact ⟨rfl, _, _, _, _, _, rfl⟩

lemma asks_report {delay : ℕ} :
    (do setSourceStatus provider vault source identity condition extraConditions
        pure delay : Controller ℕ).Asks (Op.ReportsOn vault) :=
  Program.asks_bind asks_setVaultStatusWithExtra fun _ => Program.asks_pure

lemma asks_replacementIsOutstanding {effective : EffectiveState} :
    (replacementIsOutstanding provider vault identity effective).Asks (Op.ReportsOn vault) := by
  refine Program.asks_bind (asks_controllerRequest ?_) fun found => ?_
  · trivial
  cases found with
  | none => exact Program.asks_pure
  | some object => exact Program.asks_bind Program.asks_lift fun _ => Program.asks_pure

lemma asks_consumeApproval {approved : Approved} :
    (consumeApproval approved).Asks (Op.ReportsOn vault) := by
  unfold consumeApproval
  cases approved.purpose with
  | enroll => exact Program.asks_pure
  | restoreTrust =>
    refine Program.asks_bind (asks_controllerRequest ?_) fun _ => asks_controllerRequest ?_
    · trivial
    · trivial

lemma asks_createJoinRequest :
    (createJoinRequest provider vault source identity purpose random).Asks (Op.ReportsOn vault) := by
  refine Program.asks_bind Program.asks_lift fun _ => asks_controllerRequest ?_
  trivial

lemma asks_ensureJoinRequest :
    (ensureJoinRequest provider vault source identity purpose random).Asks (Op.ReportsOn vault) := by
  cases purpose with
  | enroll =>
    refine Program.asks_bind (asks_controllerRequest ?_) fun found => ?_
    · trivial
    cases found with
    | none => exact asks_createJoinRequest
    | some existing => exact Program.asks_lift
  | restoreTrust =>
    refine Program.asks_bind (asks_controllerRequest ?_) fun requests => ?_
    · trivial
    split
    · exact Program.asks_lift
    · exact asks_createJoinRequest

lemma asks_previousRevision {credential : RatchetCredential} {missing : Missing} :
    (previousRevision provider credential source missing).Asks (Op.ReportsOn vault) := by
  cases missing with
  | absent => exact Program.asks_pure
  | tampered => exact asks_backend (asks_getRevision.mono fun _ => Op.Reads.reportsOn)

/-- What follows a swap in a reconciliation that went on from a ratchet. -/
lemma asks_concludeVerified {outcome : RatchetCasOutcome} {effective : EffectiveState} :
    (match outcome with
      | .conflict => reportRaced provider vault source identity
      | .stored _ _ => do
        let outstanding ← replacementIsOutstanding provider vault identity effective
        setSourceStatus provider vault source identity
          (verified "vault and rollback state are verified")
          (if outstanding then [oldIdentityOutstanding] else [])
        pure steadyStateRequeue : Controller ℕ).Asks (Op.ReportsOn vault) := by
  cases outcome with
  | conflict => exact asks_report
  | stored _ _ => exact Program.asks_bind asks_replacementIsOutstanding fun _ => asks_report

/-- What follows a swap in a reconciliation that started a ratchet. -/
lemma asks_concludeEstablished {outcome : RatchetCasOutcome} {approved : Approved} :
    (match outcome with
      | .conflict => reportRaced provider vault source identity
      | .stored _ _ => do
        consumeApproval approved
        setSourceStatus provider vault source identity condition extraConditions
        pure steadyStateRequeue : Controller ℕ).Asks (Op.ReportsOn vault) := by
  cases outcome with
  | conflict => exact asks_report
  | stored _ _ => exact Program.asks_bind asks_consumeApproval fun _ => asks_report

end Reconciliation

section Projection

variable {provider : ProjectionProvider} {projection : ThoraxSecret}

/-- A read, a report on the projection, or a change of its destination. -/
def Op.Projects (projection : ThoraxSecret) : Op → Prop
  | .patchSecretStatus name _ | .deleteSecret name _ => name = projection.name
  | .writeSecret name write => name = projection.name ∧
      write.value.metadata.ownerReferences = some [ownerReference projection.uid]
  | .mark (.derivedFrom _) => True
  | .patchVaultStatus _ _ | .createRequest _ _ _ | .deleteRequest _ _ | .deleteApproval _ _
  | .mark _ => False
  | _ => True

lemma Op.Reads.projects {op : Op} (h : op.Reads) : op.Projects projection := by
  cases op with
  | getConfigMap _ | getSecretMetadata _ | getSecret _ | getVault _ | getRequest _ | listRequests
  | getApproval _ => trivial
  | _ => exact h.elim

lemma asks_projectionRequest {op : Op} (h : op.Projects projection) :
    (Controller.request op).Asks (Op.Projects projection) :=
  Program.asks_bind (Program.asks_ask.mpr h) fun _ => Program.asks_lift

lemma asks_setSecretStatus {revision : Option String} {condition : Condition} :
    (setSecretStatus projection revision condition).Asks (Op.Projects projection) := by
  unfold setSecretStatus
  by_cases hsame : projection.status = some ⟨projection.generation, revision, [condition]⟩
  · simp [hsame]
  · simp only [hsame]
    apply asks_projectionRequest
    rfl

lemma asks_deleteOwnedProjection :
    (deleteOwnedProjection projection).Asks (Op.Projects projection) := by
  refine Program.asks_bind (asks_projectionRequest ?_) fun found => ?_
  · trivial
  cases found with
  | none => exact Program.asks_pure
  | some existing =>
    by_cases howned : ownsDestination existing.value projection.uid = true
    · simp only [howned]
      apply asks_projectionRequest
      rfl
    · simp [howned]

lemma asks_failProjection {reason message : String} :
    (failProjection projection reason message).Asks (Op.Projects projection) := by
  unfold failProjection
  split_ifs
  · exact Program.asks_bind asks_deleteOwnedProjection fun _ => asks_setSecretStatus
  · exact asks_setSecretStatus

lemma asks_handleProjectionSourceError {error : RuntimeVaultError} :
    (handleProjectionSourceError projection error).Asks (Op.Projects projection) := by
  unfold handleProjectionSourceError
  split_ifs
  · exact Program.asks_bind asks_deleteOwnedProjection fun _ => asks_setSecretStatus
  · exact asks_setSecretStatus
  · exact asks_failProjection

lemma asks_writeProjection {vaultBytes : Bytes} {data : BTreeMap String Bytes} {revision : String} :
    (writeProjection projection vaultBytes data revision).Asks (Op.Projects projection) := by
  refine Program.asks_bind (asks_projectionRequest ?_) fun existing => ?_
  · trivial
  split
  · exact Program.asks_bind asks_setSecretStatus fun _ => Program.asks_pure
  · refine Program.asks_bind (Program.asks_ask.mpr ?_) fun _ => ?_
    · trivial
    refine Program.asks_bind (Program.asks_ask.mpr ⟨rfl, ?_⟩) fun reply => ?_
    · cases existing <;> rfl
    cases reply with
    | ok version => exact Program.asks_pure
    | error error => exact Program.asks_bind asks_failProjection fun _ => Program.asks_pure

lemma asks_loadReadyVault {vault : ThoraxVault} :
    (loadReadyVault provider vault).Asks (Op.Projects projection) := by
  refine Program.asks_bind (asks_projectionRequest ?_) fun _ => ?_
  · trivial
  refine Program.asks_bind Program.asks_lift fun _ => ?_
  refine Program.asks_bind Program.asks_lift fun _ => ?_
  refine Program.asks_bind Program.asks_lift fun _ => ?_
  refine Program.asks_bind (asks_projectionRequest ?_) fun _ => ?_
  · trivial
  refine Program.asks_bind Program.asks_lift fun _ => ?_
  split_ifs
  · refine Program.asks_bind (asks_projectionRequest ?_) fun _ => ?_
    · trivial
    refine Program.asks_bind Program.asks_lift fun _ => ?_
    refine Program.asks_bind (asks_backend (asks_loadRatchet.mono fun _ h => h.projects))
      fun loaded => ?_
    cases loaded with
    | none => exact Program.asks_fail
    | some loaded => exact Program.asks_pure
  · exact Program.asks_fail

lemma asks_projectVault {vault : ThoraxVault} :
    (projectVault provider projection vault).Asks (Op.Projects projection) := by
  refine Program.asks_bind asks_loadReadyVault fun ready => ?_
  refine Program.asks_bind Program.asks_lift fun session => ?_
  split
  · exact Program.asks_bind asks_handleProjectionSourceError fun _ => Program.asks_pure
  · refine Program.asks_bind asks_writeProjection fun written => ?_
    cases written with
    | true => exact Program.asks_bind asks_setSecretStatus fun _ => Program.asks_pure
    | false => exact Program.asks_pure

lemma asks_reconcileSecret :
    (reconcileSecret provider projection).Asks (Op.Projects projection) := by
  have hfail : ∀ {reason message : String} {delay : ℕ},
      (do failProjection projection reason message
          pure delay : Controller ℕ).Asks (Op.Projects projection) := fun {_ _ _} =>
    Program.asks_bind asks_failProjection fun _ => Program.asks_pure
  refine Program.asks_bind (Program.asks_attempt ?_) fun result => ?_
  · refine Program.asks_bind Program.asks_lift fun _ => ?_
    refine Program.asks_bind (asks_projectionRequest ?_) fun found => ?_
    · trivial
    cases found with
    | none => exact hfail
    | some vault =>
      simp only
      split_ifs
      · exact asks_projectVault
      · exact hfail
  · cases result with
    | ok delay => exact Program.asks_pure
    | error error => exact hfail

end Projection

end Thorax.Kubernetes
