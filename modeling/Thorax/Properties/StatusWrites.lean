import Thorax.Kubernetes.StatusWrites

/-!
# Statuses settle

A write of a status leaves what was wanted exactly where nothing that is wanted absent was there
before; elsewhere the old field stays, and every reconciliation writes again.
-/

namespace Thorax.Kubernetes.Wire

open MergePatch

/-! ### What a patch leaves -/

section Patches

variable {condition : Condition} {conditions : List Condition}

lemma member_fields {entries : List (String × Option (Json Scalar))} {name : String} :
    Json.member name (some (fields entries)) = (entries.lookup name).join := rfl

lemma member_patch_fields {entries : List (String × Option (Json Scalar))} {name : String}
    {target : Option (Json Scalar)} : Json.member name (some (Json.patch target (fields entries))) =
      Json.patchMember (Json.member name target) (entries.lookup name).join :=
  Json.member_patch_object

@[simp] lemma readText_text (value : String) : readText (text value) = some value := rfl

@[simp] lemma readNumber_number (value : ℤ) : readNumber (number value) = some value := rfl

/-- What is read of a field after a patch: what the patch has of it, or what was there. -/
lemma optionalField_patchMember {α : Type} {read : Json Scalar → Option α} {write : α → Json Scalar}
    (hleaf : ∀ value, ∃ scalar, write value = .scalar scalar)
    (hread : ∀ value, read (write value) = some value) (stored patch : Option α) :
    optionalField read (Json.patchMember (stored.map write) (patch.map write)) =
      some (patch.or stored) := by
  have hfield : ∀ value, optionalField read (some (write value)) = some (some value) := by
    intro value
    have hvalue := hread value
    obtain ⟨scalar, hscalar⟩ := hleaf value
    rw [hscalar] at hvalue ⊢
    rw [optionalField, hvalue, Option.map_some]
    simp
  cases patch with
  | some value =>
    obtain ⟨scalar, hscalar⟩ := hleaf value
    rw [Option.map_some, hscalar, Json.patchMember_scalar, ← hscalar, hfield, Option.some_or]
  | none =>
    rw [Option.map_none, Json.patchMember_none, Option.none_or]
    cases stored with
    | none => rfl
    | some value => exact hfield value

lemma optionalField_map {α : Type} {read : Json Scalar → Option α} {write : α → Json Scalar}
    (hleaf : ∀ value, ∃ scalar, write value = .scalar scalar)
    (hread : ∀ value, read (write value) = some value) (stored : Option α) :
    optionalField read (stored.map write) = some stored := by
  have h := optionalField_patchMember hleaf hread stored none
  rwa [Option.map_none, Json.patchMember_none, Option.none_or] at h

lemma text_leaf (value : String) : ∃ scalar, text value = .scalar scalar := ⟨_, rfl⟩

lemma number_leaf (value : ℤ) : ∃ scalar, number value = .scalar scalar := ⟨_, rfl⟩

@[simp] lemma fromJson_toJson (condition : Condition) :
    Condition.fromJson condition.toJson = some condition := by
  have hgeneration := optionalField_map number_leaf readNumber_number condition.observedGeneration
  simp [Condition.fromJson, Condition.toJson, member_fields, List.lookup, hgeneration]

lemma listField_array (conditions : List Condition) :
    listField Condition.fromJson (some (.array (conditions.map Condition.toJson))) =
      some conditions := by
  rw [listField]
  induction conditions with
  | nil => rfl
  | cons condition conditions ih => simp [ih]

/-- A list that is not empty replaces the one that was there. -/
lemma listField_patchMember (stored conditions : List Condition) :
    listField Condition.fromJson (Json.patchMember (conditionsToJson stored)
      (conditionsToJson conditions)) =
      some (if conditions = [] then stored else conditions) := by
  have hfield : ∀ conditions, listField Condition.fromJson (conditionsToJson conditions) =
      some conditions := by
    intro conditions
    unfold conditionsToJson
    split_ifs with hnil
    · rw [hnil]
      rfl
    · exact listField_array conditions
  by_cases hnil : conditions = []
  · rw [if_pos hnil, conditionsToJson.eq_1 conditions, if_pos hnil, Json.patchMember_none, hfield]
  · rw [if_neg hnil, conditionsToJson.eq_1 conditions, if_neg hnil, Json.patchMember_array,
      listField_array]

/-- What a vault has after a patch of its status: what the patch has, or else what was there. -/
def ThoraxVaultStatus.merge (patch : ThoraxVaultStatus) (stored : Option ThoraxVaultStatus) :
    ThoraxVaultStatus where
  trustedRoot := patch.trustedRoot.or (stored.bind (·.trustedRoot))
  vaultRevision := patch.vaultRevision.or (stored.bind (·.vaultRevision))
  identityUserId := patch.identityUserId.or (stored.bind (·.identityUserId))
  joinRequestName := patch.joinRequestName.or (stored.bind (·.joinRequestName))
  conditions :=
    if patch.conditions = [] then (stored.map (·.conditions)).getD [] else patch.conditions

lemma fromJson_patch_vault (patch : ThoraxVaultStatus) (stored : Option ThoraxVaultStatus) :
    ThoraxVaultStatus.fromJson (Json.patch (stored.map (·.toJson)) patch.toJson) =
      some (patch.merge stored) := by
  have htext := fun stored patch => optionalField_patchMember text_leaf readText_text stored patch
  have hfresh := fun patch => htext none patch
  have hlist := listField_patchMember [] patch.conditions
  rw [conditionsToJson.eq_1 [], if_pos rfl] at hlist
  simp only [Option.map_none] at hfresh
  cases stored with
  | none =>
    simp [ThoraxVaultStatus.fromJson, ThoraxVaultStatus.toJson, member_patch_fields,
      List.lookup, hfresh, hlist, ThoraxVaultStatus.merge]
  | some stored =>
    simp [ThoraxVaultStatus.fromJson, ThoraxVaultStatus.toJson, member_patch_fields, member_fields,
      List.lookup, htext, listField_patchMember, ThoraxVaultStatus.merge]

/-- Likewise a projection. -/
def ThoraxSecretStatus.merge (patch : ThoraxSecretStatus) (stored : Option ThoraxSecretStatus) :
    ThoraxSecretStatus where
  observedGeneration := patch.observedGeneration.or (stored.bind (·.observedGeneration))
  observedVaultRevision := patch.observedVaultRevision.or (stored.bind (·.observedVaultRevision))
  conditions :=
    if patch.conditions = [] then (stored.map (·.conditions)).getD [] else patch.conditions

lemma fromJson_patch_secret (patch : ThoraxSecretStatus) (stored : Option ThoraxSecretStatus) :
    ThoraxSecretStatus.fromJson (Json.patch (stored.map (·.toJson)) patch.toJson) =
      some (patch.merge stored) := by
  have htext := fun stored patch => optionalField_patchMember text_leaf readText_text stored patch
  have hnumber := fun stored patch =>
    optionalField_patchMember number_leaf readNumber_number stored patch
  have hfreshText := fun patch => htext none patch
  have hfreshNumber := fun patch => hnumber none patch
  have hlist := listField_patchMember [] patch.conditions
  rw [conditionsToJson.eq_1 [], if_pos rfl] at hlist
  simp only [Option.map_none] at hfreshText hfreshNumber
  cases stored with
  | none =>
    simp [ThoraxSecretStatus.fromJson, ThoraxSecretStatus.toJson, member_patch_fields,
      List.lookup, hfreshText, hfreshNumber, hlist, ThoraxSecretStatus.merge]
  | some stored =>
    simp [ThoraxSecretStatus.fromJson, ThoraxSecretStatus.toJson, member_patch_fields, member_fields,
      List.lookup, htext, hnumber, listField_patchMember, ThoraxSecretStatus.merge]

end Patches

/-! ### What a status means -/

def Condition.meaning (condition : Condition) : Kubernetes.Condition :=
  ⟨condition.type, condition.status, condition.reason, condition.message⟩

def ThoraxVaultStatus.meaning (status : ThoraxVaultStatus) : Kubernetes.ThoraxVaultStatus :=
  ⟨status.trustedRoot, status.vaultRevision, status.identityUserId, status.joinRequestName,
    status.conditions.map Condition.meaning⟩

/-- What a patch leaves means what the server is taken to keep of it. -/
lemma meaning_merge (patch : ThoraxVaultStatus) (stored : Option ThoraxVaultStatus) :
    (patch.merge stored).meaning = patch.meaning.merge (stored.map (·.meaning)) := by
  have hconditions : (if patch.conditions = [] then (stored.map (·.conditions)).getD []
      else patch.conditions).map Condition.meaning =
      if patch.conditions.map Condition.meaning = [] then
        ((stored.map (·.meaning)).map (·.conditions)).getD []
      else patch.conditions.map Condition.meaning := by
    simp only [List.map_eq_nil_iff]
    split_ifs
    · cases stored <;> rfl
    · rfl
  cases stored with
  | none => simpa [ThoraxVaultStatus.meaning, ThoraxVaultStatus.merge,
      Kubernetes.ThoraxVaultStatus.merge] using hconditions
  | some stored => simpa [ThoraxVaultStatus.meaning, ThoraxVaultStatus.merge,
      Kubernetes.ThoraxVaultStatus.merge] using hconditions

/-- A condition without its time of transition. -/
def Condition.untimed (condition : Condition) : Condition :=
  { condition with lastTransitionTime := "" }

lemma conditionsSemanticallyEqual_iff {left right : List Condition} :
    conditionsSemanticallyEqual left right = true ↔
      left.map Condition.untimed = right.map Condition.untimed := by
  induction left generalizing right with
  | nil => cases right <;> simp [conditionsSemanticallyEqual]
  | cons a left ih =>
    cases right with
    | nil => simp [conditionsSemanticallyEqual]
    | cons b right =>
      rw [List.map_cons, List.map_cons, List.cons.injEq, ← ih]
      simp [conditionsSemanticallyEqual, Condition.untimed]
      tauto

def ThoraxVaultStatus.untimed (status : ThoraxVaultStatus) : ThoraxVaultStatus :=
  { status with conditions := status.conditions.map Condition.untimed }

lemma vaultStatusSemanticallyEqual_iff {left right : ThoraxVaultStatus} :
    vaultStatusSemanticallyEqual left right = true ↔ left.untimed = right.untimed := by
  simp [vaultStatusSemanticallyEqual, conditionsSemanticallyEqual_iff, ThoraxVaultStatus.untimed,
    and_assoc]

def ThoraxSecretStatus.untimed (status : ThoraxSecretStatus) : ThoraxSecretStatus :=
  { status with conditions := status.conditions.map Condition.untimed }

lemma secretStatusSemanticallyEqual_iff {left right : ThoraxSecretStatus} :
    secretStatusSemanticallyEqual left right = true ↔ left.untimed = right.untimed := by
  simp [secretStatusSemanticallyEqual, conditionsSemanticallyEqual_iff, ThoraxSecretStatus.untimed,
    and_assoc]

/-! ### Vaults -/

/-- A condition by which a vault counts as established. -/
def Condition.Establishes (condition : Condition) : Prop :=
  (condition.type = "TrustEstablished" ∨ condition.type = "Ready") ∧ condition.status = "True"

def Condition.IsReady (condition : Condition) : Prop :=
  condition.type = "Ready" ∧ condition.status = "True"

lemma Condition.IsReady.establishes {condition : Condition} (h : condition.IsReady) :
    condition.Establishes := ⟨Or.inr h.1, h.2⟩

/-- A vault counts as established with this report. -/
def VaultReport.Established (report : VaultReport) (vault : ThoraxVault) : Prop :=
  trustWasEstablished vault = true ∨ report.condition.IsReady

/-- What is absent from the report is absent from the vault, and nothing but the readiness that the
report is about establishes it. -/
structure VaultReport.Covers (report : VaultReport) (vault : ThoraxVault) : Prop where
  trustedRoot : report.trustedRoot = none → vault.status.bind (·.trustedRoot) = none
  revision : report.revision = none → vault.status.bind (·.vaultRevision) = none
  identityUserId : report.identityUserId = none → vault.status.bind (·.identityUserId) = none
  joinRequestName : report.identityUserId = none → vault.status.bind (·.joinRequestName) = none
  established : report.Established vault ∨
    ∀ condition ∈ report.condition :: report.extraConditions, ¬ condition.Establishes

/-- The write leaves what was wanted, and is not repeated. -/
def VaultReport.Settles (report : VaultReport) (vault : ThoraxVault) (now later : String) : Prop :=
  ∃ after status, vault.patched (setVaultStatusWithExtra vault report now) = some after ∧
    after.status = some status ∧
    vaultStatusSemanticallyEqual status (report.status vault now) = true ∧
    setVaultStatusWithExtra after report later = none

section Vaults

variable {vault after : ThoraxVault} {report : VaultReport} {status : ThoraxVaultStatus}
variable {now later : String}

lemma establishes_untimed {condition : Condition} :
    condition.untimed.Establishes ↔ condition.Establishes := Iff.rfl

lemma trustWasEstablished_iff (hstatus : vault.status = some status) :
    trustWasEstablished vault = true ↔ ∃ condition ∈ status.conditions, condition.Establishes := by
  simp [trustWasEstablished, hstatus, Condition.Establishes]

/-- Statuses that mean the same establish the same. -/
lemma exists_establishes_congr {left right : ThoraxVaultStatus} (h : left.untimed = right.untimed) :
    (∃ condition ∈ left.conditions, condition.Establishes) ↔
      ∃ condition ∈ right.conditions, condition.Establishes := by
  have hexists : ∀ status : ThoraxVaultStatus, (∃ condition ∈ status.conditions,
      condition.Establishes) ↔ ∃ condition ∈ status.untimed.conditions, condition.Establishes := by
    intro status
    simp only [ThoraxVaultStatus.untimed, List.mem_map, exists_exists_and_eq_and, establishes_untimed]
  rw [hexists, h, ← hexists]

/-- The conditions of a report, as they are while the vault is established and while it is not. -/
lemma conditions_status : (report.status vault now).conditions = report.condition ::
    ((if trustWasEstablished vault || (report.condition.type = "Ready" &&
        report.condition.status = "True") then [selfCondition now "TrustEstablished" "True"
          "BaselinePersisted" "rollback trust has been established for this identity"] else []) ++
      report.extraConditions) := rfl

lemma established_iff : report.Established vault ↔ (trustWasEstablished vault ||
    (report.condition.type = "Ready" && report.condition.status = "True")) = true := by
  simp [VaultReport.Established, Condition.IsReady]

/-- A report means the same at any time, of any version of a vault that is established or not. -/
lemma untimed_status (hname : after.name = vault.name)
    (hestablished : report.Established after ↔ report.Established vault) :
    (report.status after later).untimed = (report.status vault now).untimed := by
  rw [established_iff, established_iff, ← Bool.eq_iff_iff] at hestablished
  simp only [ThoraxVaultStatus.untimed, VaultReport.status, hname, hestablished]
  split_ifs <;> rfl

/-- Trust that a report finds established, or establishes, is established in what it reports. -/
lemma exists_establishes_of_established (h : report.Established vault) :
    ∃ condition ∈ (report.status vault now).conditions, condition.Establishes := by
  rw [conditions_status, if_pos (established_iff.mp h)]
  exact ⟨_, List.mem_cons_of_mem _ List.mem_cons_self, Or.inl rfl, rfl⟩

lemma conditions_of_not_established (h : ¬ report.Established vault) :
    (report.status vault now).conditions = report.condition :: report.extraConditions := by
  rw [conditions_status, if_neg fun hestablished => h (established_iff.mpr hestablished)]
  rfl

/-- A write is left out where what is stored means what is wanted. -/
lemma setVaultStatusWithExtra_eq_none (hstatus : vault.status = some status) :
    setVaultStatusWithExtra vault report now = none ↔
      status.untimed = (report.status vault now).untimed := by
  rw [← vaultStatusSemanticallyEqual_iff, setVaultStatusWithExtra]
  simp [hstatus]

/-- Where the status is written, it is merged into the one that is stored. -/
lemma patched_of_write (h : setVaultStatusWithExtra vault report now ≠ none) :
    vault.patched (setVaultStatusWithExtra vault report now) =
      some { vault with status := some ((report.status vault now).merge vault.status) } := by
  have hsome : setVaultStatusWithExtra vault report now = some (report.status vault now) := by
    simp only [setVaultStatusWithExtra] at h ⊢
    split_ifs at h ⊢
    · exact absurd rfl h
    · rfl
  rw [hsome, ThoraxVault.patched, fromJson_patch_vault, Option.map_some]

/-- What a field of a patch leaves is that field unless an older one shows through. -/
lemma or_eq_left {α : Type} (patch stored : Option α) :
    patch.or stored = patch ↔ (patch = none → stored = none) := by
  cases patch <;> simp

/-- The merge is what was wanted exactly where nothing older shows through. -/
lemma untimed_merge_iff : ((report.status vault now).merge vault.status).untimed =
      (report.status vault now).untimed ↔
    (report.trustedRoot = none → vault.status.bind (·.trustedRoot) = none) ∧
    (report.revision = none → vault.status.bind (·.vaultRevision) = none) ∧
    (report.identityUserId = none → vault.status.bind (·.identityUserId) = none ∧
      vault.status.bind (·.joinRequestName) = none) := by
  have hconditions : (report.status vault now).conditions ≠ [] := by simp [conditions_status]
  have hname : (report.status vault now).joinRequestName = none ↔ report.identityUserId = none := by
    simp [VaultReport.status]
  simp only [ThoraxVaultStatus.untimed, ThoraxVaultStatus.merge, ThoraxVaultStatus.mk.injEq, or_eq_left,
    if_neg hconditions, and_true, hname, imp_and]
  exact Iff.rfl

/-- After a write, what counts is what has been written. -/
lemma established_of_written (hstatus : after.status = some status)
    (hequal : status.untimed = (report.status vault now).untimed) : report.Established after ↔
      ∃ condition ∈ (report.status vault now).conditions, condition.Establishes := by
  rw [VaultReport.Established, trustWasEstablished_iff hstatus, exists_establishes_congr hequal]
  constructor
  · rintro (h | hready)
    · exact h
    · exact ⟨report.condition, by simp [conditions_status], hready.establishes⟩
  · exact Or.inl

lemma length_conditions (h : report.Established vault) : (report.status vault now).conditions.length =
    report.extraConditions.length + 2 := by
  rw [conditions_status, if_pos (established_iff.mp h)]
  simp

/-- A report that covers the vault settles it, and only such a report does. -/
lemma settles_iff_covers : report.Settles vault now later ↔ report.Covers vault := by
  by_cases hwrite : setVaultStatusWithExtra vault report now = none
  · -- nothing is written: what is stored means what is wanted
    obtain ⟨status, hstatus⟩ : ∃ status, vault.status = some status := by
      cases hstored : vault.status with
      | none => simp [setVaultStatusWithExtra, hstored] at hwrite
      | some status => exact ⟨status, rfl⟩
    have hequal := (setVaultStatusWithExtra_eq_none hstatus).mp hwrite
    have hfields := ThoraxVaultStatus.mk.inj hequal
    constructor
    · intro _
      refine ⟨?_, ?_, ?_, ?_, ?_⟩
      · rintro hnone
        simpa [hstatus, hfields.1, VaultReport.status] using hnone
      · rintro hnone
        simpa [hstatus, hfields.2.1, VaultReport.status] using hnone
      · rintro hnone
        simpa [hstatus, hfields.2.2.1, VaultReport.status] using hnone
      · rintro hnone
        simpa [hstatus, hfields.2.2.2.1, VaultReport.status] using hnone
      · by_cases hestablished : report.Established vault
        · exact Or.inl hestablished
        · refine Or.inr fun condition hcondition hestablishes => hestablished (Or.inl ?_)
          rw [trustWasEstablished_iff hstatus, exists_establishes_congr hequal,
            conditions_of_not_established hestablished]
          exact ⟨condition, hcondition, hestablishes⟩
    · intro _
      refine ⟨vault, status, by rw [hwrite]; rfl, hstatus,
        vaultStatusSemanticallyEqual_iff.mpr hequal, ?_⟩
      rw [setVaultStatusWithExtra_eq_none hstatus, hequal]
      exact untimed_status rfl Iff.rfl
  · have hpatched := patched_of_write hwrite
    constructor
    · rintro ⟨after, status, hafter, hstatus, hequal, hlater⟩
      have hmerged : after.status = some ((report.status vault now).merge vault.status) :=
        congrArg ThoraxVault.status (Option.some.inj (hafter.symm.trans hpatched))
      obtain rfl := Option.some.inj (hstatus.symm.trans hmerged)
      rw [vaultStatusSemanticallyEqual_iff] at hequal
      obtain ⟨hroot, hrevision, hidentity⟩ := untimed_merge_iff.mp hequal
      refine ⟨hroot, hrevision, fun hnone => (hidentity hnone).1, fun hnone => (hidentity hnone).2,
        ?_⟩
      by_cases hestablished : report.Established vault
      · exact Or.inl hestablished
      · refine Or.inr fun condition hcondition hestablishes => ?_
        -- the vault counts as established by then, and is given one more condition
        have hafter := (established_of_written hstatus hequal).mpr
          ⟨condition, by rwa [conditions_of_not_established hestablished], hestablishes⟩
        have hsame := ((setVaultStatusWithExtra_eq_none hstatus).mp hlater).symm.trans hequal
        have hlength := congrArg (·.conditions.length) hsame
        simp only [ThoraxVaultStatus.untimed, List.length_map, length_conditions hafter,
          conditions_of_not_established hestablished, List.length_cons] at hlength
        omega
    · intro h
      have hequal : ((report.status vault now).merge vault.status).untimed =
          (report.status vault now).untimed := untimed_merge_iff.mpr
        ⟨h.trustedRoot, h.revision, fun hnone => ⟨h.identityUserId hnone, h.joinRequestName hnone⟩⟩
      refine ⟨_, _, hpatched, rfl, vaultStatusSemanticallyEqual_iff.mpr hequal, ?_⟩
      generalize hmerged : ({ vault with
        status := some ((report.status vault now).merge vault.status) } : ThoraxVault) = after
      have hname : after.name = vault.name := hmerged ▸ rfl
      have hstatus : after.status = some ((report.status vault now).merge vault.status) :=
        hmerged ▸ rfl
      have hafter : report.Established after ↔ report.Established vault := by
        rw [established_of_written hstatus hequal]
        by_cases hestablished : report.Established vault
        · exact iff_of_true (exists_establishes_of_established hestablished) hestablished
        · rw [conditions_of_not_established hestablished]
          refine iff_of_false ?_ hestablished
          rintro ⟨condition, hcondition, hestablishes⟩
          exact h.established.resolve_left hestablished condition hcondition hestablishes
      rw [setVaultStatusWithExtra_eq_none hstatus, hequal]
      exact (untimed_status hname hafter).symm

end Vaults

/-! ### Projections -/

/-- What is absent from the report is absent from the projection. -/
structure SecretReport.Covers (report : SecretReport) (projection : ThoraxSecret) : Prop where
  generation : projection.generation = none →
    projection.status.bind (·.observedGeneration) = none
  revision : report.revision = none → projection.status.bind (·.observedVaultRevision) = none

def SecretReport.Settles (report : SecretReport) (projection : ThoraxSecret) : Prop :=
  ∃ after status, projection.patched (setSecretStatus projection report) = some after ∧
    after.status = some status ∧
    secretStatusSemanticallyEqual status (report.status projection) = true ∧
    setSecretStatus after report = none

section Secrets

variable {projection : ThoraxSecret} {report : SecretReport} {status : ThoraxSecretStatus}

lemma setSecretStatus_eq_none (hstatus : projection.status = some status) :
    setSecretStatus projection report = none ↔
      status.untimed = (report.status projection).untimed := by
  rw [← secretStatusSemanticallyEqual_iff, setSecretStatus]
  simp [hstatus]

lemma patched_of_write_secret (h : setSecretStatus projection report ≠ none) :
    projection.patched (setSecretStatus projection report) = some { projection with
      status := some ((report.status projection).merge projection.status) } := by
  have hsome : setSecretStatus projection report = some (report.status projection) := by
    simp only [setSecretStatus] at h ⊢
    split_ifs at h ⊢
    · exact absurd rfl h
    · rfl
  rw [hsome, ThoraxSecret.patched, fromJson_patch_secret, Option.map_some]

lemma untimed_merge_secret_iff :
    ((report.status projection).merge projection.status).untimed =
      (report.status projection).untimed ↔ report.Covers projection := by
  have hconditions : (report.status projection).conditions ≠ [] := by simp [SecretReport.status]
  simp only [ThoraxSecretStatus.untimed, ThoraxSecretStatus.merge, ThoraxSecretStatus.mk.injEq,
    or_eq_left, if_neg hconditions, and_true]
  exact ⟨fun ⟨hgeneration, hrevision⟩ => ⟨hgeneration, hrevision⟩,
    fun h => ⟨h.generation, h.revision⟩⟩

/-- A report that covers the projection settles it, and only such a report does. -/
lemma settles_iff_covers_secret : report.Settles projection ↔ report.Covers projection := by
  by_cases hwrite : setSecretStatus projection report = none
  · obtain ⟨status, hstatus⟩ : ∃ status, projection.status = some status := by
      cases hstored : projection.status with
      | none => simp [setSecretStatus, hstored] at hwrite
      | some status => exact ⟨status, rfl⟩
    have hequal := (setSecretStatus_eq_none hstatus).mp hwrite
    have hfields := ThoraxSecretStatus.mk.inj hequal
    constructor
    · intro _
      refine ⟨fun hnone => ?_, fun hnone => ?_⟩
      · simpa [hstatus, hfields.1, SecretReport.status] using hnone
      · simpa [hstatus, hfields.2.1, SecretReport.status] using hnone
    · intro _
      exact ⟨projection, status, by rw [hwrite]; rfl, hstatus,
        secretStatusSemanticallyEqual_iff.mpr hequal, hwrite⟩
  · have hpatched := patched_of_write_secret hwrite
    constructor
    · rintro ⟨after, status, hafter, hstatus, hequal, -⟩
      have hmerged : after.status = some ((report.status projection).merge projection.status) :=
        congrArg ThoraxSecret.status (Option.some.inj (hafter.symm.trans hpatched))
      obtain rfl := Option.some.inj (hstatus.symm.trans hmerged)
      exact untimed_merge_secret_iff.mp (secretStatusSemanticallyEqual_iff.mp hequal)
    · intro h
      have hequal := untimed_merge_secret_iff.mpr h
      refine ⟨_, _, hpatched, rfl, secretStatusSemanticallyEqual_iff.mpr hequal, ?_⟩
      rw [setSecretStatus_eq_none rfl, hequal]
      rfl

end Secrets

/-! ### Settling -/

/-- The writes of statuses settle exactly where nothing that is wanted absent is stored, and, for a
vault, nothing but readiness establishes trust. -/
theorem statusWrites_settle_iff (vault : ThoraxVault) (report : VaultReport) (now later : String)
    (projection : ThoraxSecret) (secretReport : SecretReport) :
    (report.Settles vault now later ↔ report.Covers vault) ∧
      (secretReport.Settles projection ↔ secretReport.Covers projection) :=
  ⟨settles_iff_covers, settles_iff_covers_secret⟩

/-- A vault that was verified, whose ConfigMap is gone by now. -/
def failedVault : ThoraxVault where
  name := "vault"
  status := some ⟨some "aa", some "1", some "bb", some "vault-bb",
    [⟨"Ready", "True", "Verified", "", none, "t0"⟩]⟩

def missingConfigMap : VaultReport :=
  ⟨none, none, none,
    ⟨"Ready", "False", "SourceUnavailable", "source ConfigMap is absent", none, "t1"⟩, []⟩

/-- The old root, revision and identity stay, and the next reconciliation writes again. -/
theorem not_settles_missingConfigMap :
    ¬ missingConfigMap.Settles failedVault "t1" "t2" ∧
      ∃ after, failedVault.patched (setVaultStatusWithExtra failedVault missingConfigMap "t1") =
          some after ∧
        after.status.bind (·.trustedRoot) = some "aa" ∧
        setVaultStatusWithExtra after missingConfigMap "t2" ≠ none := by
  have hwrite : setVaultStatusWithExtra failedVault missingConfigMap "t1" ≠ none := by decide
  refine ⟨fun h => ?_, _, patched_of_write hwrite, by decide, by decide⟩
  have hroot := (settles_iff_covers.mp h).trustedRoot rfl
  revert hroot
  decide

end Thorax.Kubernetes.Wire
