import Thorax.Resolution.Served

/-!
# Principals without secrets

Secrets share the record list, the rollback map and the counters with the records of the principal
graph. Every stage that resolves principals passes over them, so the graph and what is remembered
about it can be read off the records without the secrets.
-/

namespace Thorax

open Collections
open Std (ExtTreeMap ExtTreeSet)

def RecordBodyV1.isSecret : RecordBodyV1 → Bool
  | .secret _ | .secretDeleted _ => true
  | _ => false

def RecordKey.isSecret : RecordKey → Bool
  | .secret _ => true
  | _ => false

/-- Secrets are the records at the keys of secrets. -/
lemma isSecret_key (record : VerifiedRecord) : record.key.isSecret = record.body.isSecret := by
  unfold VerifiedRecord.key
  cases record.body <;> rfl

/-- The records that are not secrets. -/
def principals (records : List VerifiedRecord) : List VerifiedRecord :=
  records.filter (!·.body.isSecret)

lemma mem_principals {records : List VerifiedRecord} {record : VerifiedRecord} :
    record ∈ principals records ↔ record ∈ records ∧ record.body.isSecret = false := by
  simp [principals]

/-- Rollbacks at the same keys, those of secrets apart. -/
def SameRollbacks (rollbackKeys rollbackKeys' : BTreeMap RecordKey ℕ) : Prop :=
  ∀ key : RecordKey, key.isSecret = false → rollbackKeys'.contains key = rollbackKeys.contains key

/-! ### Resolutions -/

section Resolution

variable {K : Type} [Ord K] [Std.TransOrd K] [Std.LawfulEqOrd K]
variable {records : List VerifiedRecord} {rollbackKeys rollbackKeys' : BTreeMap RecordKey ℕ}
variable {classify : VerifiedRecord → Option K}

omit [Std.LawfulEqOrd K] in
/-- A resolution that classifies no secret does not see the secrets. -/
lemma lwwResolution_principals (h : SameRollbacks rollbackKeys rollbackKeys')
    (hclass : ∀ record, record.body.isSecret = true → classify record = none) :
    lwwResolution (principals records) rollbackKeys' classify =
      lwwResolution records rollbackKeys classify := by
  have hslots : lwwSlots (principals records) rollbackKeys' classify =
      lwwSlots records rollbackKeys classify := by
    apply groupFold_filter
    · intro record _ hprincipal
      rw [h record.key ((isSecret_key record).trans (by simpa using hprincipal))]
    · intro record _ hsecret
      rw [hclass record (by simpa using hsecret), ite_self]
  simp only [lwwResolution, hslots]

end Resolution

section Conflicts

variable {crypto : CryptoProvider} {records : List VerifiedRecord}

/-- Disputes whose candidates are not secrets. -/
def AmongPrincipals (records : List VerifiedRecord) (slots : BTreeMap RecordKey ConflictSlot) :
    Prop :=
  ∀ (key : RecordKey) slot, slots[key]? = some slot → ∀ hash ∈ slot.candidateHashes,
    ∃ record ∈ records, record.body.isSecret = false ∧ record.recordHash = hash

lemma AmongPrincipals.union {slots slots' : BTreeMap RecordKey ConflictSlot}
    (h : AmongPrincipals records slots) (h' : AmongPrincipals records slots') :
    AmongPrincipals records (slots ∪ slots') := by
  intro key slot hslot
  rcases getElem?_union_cases hslot with hright | hleft
  · exact h' key slot hright
  · exact h key slot hleft

lemma amongPrincipals_lwwResolution {K : Type} [Ord K] [Std.TransOrd K] [Std.LawfulEqOrd K]
    {rollbackKeys : BTreeMap RecordKey ℕ} {classify : VerifiedRecord → Option K}
    (hclass : ∀ record, record.body.isSecret = true → classify record = none) :
    AmongPrincipals records (lwwResolution records rollbackKeys classify).conflicted := by
  classical
  intro key slot hslot hash hmem
  obtain ⟨k, record, hlead, hhash, -⟩ :=
    mem_candidateHashes records rollbackKeys classify hslot hmem
  obtain ⟨hin, -, hk⟩ := mem_pool.mp (mem_leadersAt.mp hlead).1
  refine ⟨record, hin, ?_, hhash⟩
  by_contra hsecret
  rw [hclass record (Bool.not_eq_false _ ▸ hsecret)] at hk
  cases hk

/-- Disputes whose candidates are not secrets are reported without them. -/
lemma materializeConflicts_principals {slots : BTreeMap RecordKey ConflictSlot}
    (hsep : HashesSeparate records) (hslots : AmongPrincipals records slots) :
    materializeConflicts crypto (principals records) slots =
      materializeConflicts crypto records slots := by
  apply ExtTreeMap.ext_getElem?
  intro key
  simp only [materializeConflicts, ExtTreeMap.getElem?_map]
  cases hslot : slots[key]? with
  | none => rfl
  | some slot =>
    have hfilter : (principals records).filter (slot.candidateHashes.contains ·.recordHash) =
        records.filter (slot.candidateHashes.contains ·.recordHash) := by
      rw [principals, List.filter_filter]
      apply List.filter_congr
      intro record hmem
      by_cases hcand : record.recordHash ∈ slot.candidateHashes
      · obtain ⟨other, hother, hbody, hhash⟩ := hslots key slot hslot _ hcand
        rw [hsep other hother record hmem hhash] at hbody
        simp [hcand, hbody]
      · simp [hcand]
    simp only [Option.map_some, hfilter]

end Conflicts

/-! ### The stages of a resolution -/

section Stages

variable {crypto : CryptoProvider} {records : List VerifiedRecord}
variable {rollbackKeys rollbackKeys' : BTreeMap RecordKey ℕ}

section Classify

variable {admitted : BTreeSet HashValue} {authorities : Authorities}
variable {users : BTreeMap UserId UserRecordV1} {groups : BTreeMap GroupId GroupRecordV1}

lemma classifyUser_secret {rootUser : UserId} (record : VerifiedRecord)
    (h : record.body.isSecret = true) : classifyUser admitted authorities rootUser record = none := by
  unfold classifyUser
  cases hb : record.body <;> simp_all [RecordBodyV1.isSecret]

lemma classifyGroup_secret (record : VerifiedRecord) (h : record.body.isSecret = true) :
    classifyGroup admitted authorities record = none := by
  unfold classifyGroup
  cases hb : record.body <;> simp_all [RecordBodyV1.isSecret]

lemma classifyMembership_secret (record : VerifiedRecord) (h : record.body.isSecret = true) :
    classifyMembership authorities users groups record = none := by
  unfold classifyMembership
  cases hb : record.body <;> simp_all [RecordBodyV1.isSecret]

lemma classifyGrant_secret (record : VerifiedRecord) (h : record.body.isSecret = true) :
    classifyGrant admitted authorities users groups record = none := by
  unfold classifyGrant
  cases hb : record.body <;> simp_all [RecordBodyV1.isSecret]

lemma classifyUserHandle_secret (record : VerifiedRecord) (h : record.body.isSecret = true) :
    classifyUserHandle authorities users record = none := by
  unfold classifyUserHandle
  cases hb : record.body <;> simp_all [RecordBodyV1.isSecret]

lemma classifyVaultHandle_secret (record : VerifiedRecord) (h : record.body.isSecret = true) :
    classifyVaultHandle authorities record = none := by
  unfold classifyVaultHandle
  cases hb : record.body <;> simp_all [RecordBodyV1.isSecret]

lemma classifyEntryPoint_secret (record : VerifiedRecord) (h : record.body.isSecret = true) :
    classifyEntryPoint users record = none := by
  unfold classifyEntryPoint
  cases hb : record.body <;> simp_all [RecordBodyV1.isSecret]

end Classify

variable (h : SameRollbacks rollbackKeys rollbackKeys')

include h

lemma entryPointUsers_principals :
    entryPointUsers (principals records) rollbackKeys' = entryPointUsers records rollbackKeys := by
  apply set_ext
  intro user
  simp only [entryPointUsers, mem_collectSet, ExtTreeSet.not_mem_empty, false_or]
  refine exists_congr fun record => ?_
  rw [mem_principals, and_assoc]
  refine and_congr_right fun _ => ?_
  cases hsecret : record.body.isSecret with
  | true =>
    unfold RecordBodyV1.isSecret at hsecret
    cases hb : record.body <;> simp_all
  | false =>
    rw [h record.key ((isSecret_key record).trans hsecret)]
    simp

lemma resolutionRound_principals (rootUserRecord : UserRecordV1) (admitted : BTreeSet HashValue) :
    resolutionRound (principals records) rootUserRecord admitted rollbackKeys' =
      resolutionRound records rootUserRecord admitted rollbackKeys := by
  funext state
  simp only [resolutionRound, selectAuthorizedRecords, entryPointUsers_principals h,
    lwwResolution_principals h classifyUser_secret,
    lwwResolution_principals h classifyGroup_secret,
    lwwResolution_principals h classifyMembership_secret,
    lwwResolution_principals h classifyGrant_secret]

variable (hsep : HashesSeparate records)

include hsep

/-- The effective state of the principals is the one of all records. -/
lemma effectiveUnder_principals (root : SelectedRoot) (admitted : BTreeSet HashValue) :
    effectiveUnder crypto root (principals records) rollbackKeys' admitted =
      effectiveUnder crypto root records rollbackKeys admitted := by
  have hslots : AmongPrincipals records
      (roundState root records rollbackKeys admitted 64).1.conflicted := by
    rw [selected_conflicted (roundState root records rollbackKeys admitted 64).2 roundState_last rfl]
    exact (((amongPrincipals_lwwResolution classifyUser_secret).union
      (amongPrincipals_lwwResolution classifyGroup_secret)).union
      (amongPrincipals_lwwResolution classifyMembership_secret)).union
      (amongPrincipals_lwwResolution classifyGrant_secret)
  simp only [effectiveUnder, computeEffectiveState, resolutionRound_principals h, settle_rounds,
    lwwResolution_principals h classifyUserHandle_secret,
    lwwResolution_principals h classifyVaultHandle_secret,
    lwwResolution_principals h classifyEntryPoint_secret]
  rw [materializeConflicts_principals hsep]
  exact ((hslots.union (amongPrincipals_lwwResolution classifyUserHandle_secret)).union
    (amongPrincipals_lwwResolution classifyVaultHandle_secret)).union
    (amongPrincipals_lwwResolution classifyEntryPoint_secret)

omit h hsep in
/-- No secret is a deletion that has to be admitted. -/
lemma deletionCandidates_principals :
    deletionCandidates (principals records) = deletionCandidates records := by
  rw [deletionCandidates, deletionCandidates, principals, List.filter_filter]
  apply List.filter_congr
  intro record _
  cases record.body <;> rfl

lemma resolveEffectiveWithDeletions_principals (root : SelectedRoot) :
    resolveEffectiveWithDeletions crypto root (principals records) rollbackKeys' =
      resolveEffectiveWithDeletions crypto root records rollbackKeys := by
  have hnext : nextAdmitted crypto root (principals records) rollbackKeys' =
      nextAdmitted crypto root records rollbackKeys := by
    funext admitted
    simp only [nextAdmitted, effectiveUnder_principals h hsep, deletionCandidates_principals]
  simp only [resolveEffectiveWithDeletions, admitDeletions, hnext, deletionCandidates_principals,
    effectiveUnder_principals h hsep]

end Stages

/-! ### What is remembered -/

section Remembered

variable {crypto : CryptoProvider} {ratchet : Ratchet} {root : SelectedRoot}
variable {records : List VerifiedRecord} {key : RecordKey}

lemma entryPointSigners_principals :
    entryPointSigners (principals records) = entryPointSigners records := by
  apply set_ext
  intro user
  rw [mem_entryPointSigners, mem_entryPointSigners]
  refine exists_congr fun record => ?_
  rw [mem_principals, and_assoc]
  refine and_congr_right fun _ => ?_
  constructor
  · exact fun hrest => hrest.2
  · rintro ⟨hsigner, entryPoint, hbody⟩
    exact ⟨by rw [hbody]; rfl, hsigner, entryPoint, hbody⟩

variable (hsep : HashesSeparate records)

include hsep

lemma provisional_principals :
    provisional crypto root (principals records) = provisional crypto root records :=
  resolveEffectiveWithDeletions_principals (fun _ _ => rfl) hsep root

variable (hkey : key.isSecret = false)

include hkey

/-- At the keys of principals the watermarks are those of the principals. -/
lemma currentWatermarks_principals :
    (currentWatermarks crypto root (principals records))[key]? =
      (currentWatermarks crypto root records)[key]? := by
  have hcounts : ∀ record, CountsAt (principals records) (provisional crypto root records).1
      (provisional crypto root records).2 key record ↔
      CountsAt records (provisional crypto root records).1 (provisional crypto root records).2 key
        record := by
    intro record
    simp only [CountsAt, entryPointSigners_principals, mem_principals]
    constructor
    · rintro ⟨⟨hmem, _⟩, hrest⟩
      exact ⟨hmem, hrest⟩
    · rintro ⟨hmem, hrest⟩
      refine ⟨⟨hmem, ?_⟩, hrest⟩
      rw [← isSecret_key, hrest.1]
      exact hkey
  simp only [currentWatermarks, provisional_principals hsep]
  rw [Option.ext_iff]
  intro counter
  rw [admittedWatermarks_eq_some, admittedWatermarks_eq_some]
  simp only [hcounts]

lemma observedOrigins_principals :
    (observedOrigins crypto root (principals records))[key]? =
      (observedOrigins crypto root records)[key]? := by
  rw [observedOrigins, observedOrigins, provisional_principals hsep, admittedOrigins,
    admittedOrigins, entryPointSigners_principals, getElem?_collectNew, getElem?_collectNew,
    List.find?_filterMap, List.find?_filterMap, principals, List.find?_filter]
  congr 3
  apply List.find?_congr
  intro record _
  cases hsecret : record.body.isSecret with
  | false => simp
  | true =>
    -- a secret does not stand at the key of a principal
    have hne : record.key ≠ key := by
      rintro rfl
      rw [isSecret_key, hsecret] at hkey
      cases hkey
    split_ifs
    · cases recordOrigin record.body <;> simp [hne]
    · simp

lemma rollbackKeys_principals :
    (rollbackKeys crypto ratchet root (principals records))[key]? =
      (rollbackKeys crypto ratchet root records)[key]? := by
  simp only [getElem?_rollbackKeys, currentWatermarks_principals hsep hkey]

omit hkey in
/-- Which principals have regressed does not depend on the secrets. -/
lemma sameRollbacks_principals :
    SameRollbacks (rollbackKeys crypto ratchet root records)
      (rollbackKeys crypto ratchet root (principals records)) := by
  intro key hkey
  rw [← ExtTreeMap.isSome_getElem?_eq_contains, ← ExtTreeMap.isSome_getElem?_eq_contains,
    rollbackKeys_principals hsep hkey]

omit hkey in
lemma finalState_principals : finalState crypto ratchet root (principals records) =
    finalState crypto ratchet root records :=
  congrArg Prod.fst
    (resolveEffectiveWithDeletions_principals (sameRollbacks_principals hsep) hsep root)

/-- The conflicts of principals are those among the principals. -/
lemma conflicted_principals :
    (resolveRecords crypto ratchet root (principals records)).conflicted[key]? =
      (resolveRecords crypto ratchet root records).conflicted[key]? := by
  have hties : ∀ records : List VerifiedRecord,
      (secretTies crypto ratchet root records)[key]? = none := by
    intro records
    have hsecret : ∀ secret : SecretId, RecordKey.secret secret ≠ key := by
      rintro secret rfl
      cases hkey
    exact getElem?_conflicted_of_ne _ _ _ key_of_classifySecret hsecret
  have hcandidates : ∀ counter : ℕ, (principals records).filter (fun record =>
      record.key = key && record.counter = counter) =
      records.filter (fun record => record.key = key && record.counter = counter) := by
    intro counter
    rw [principals, List.filter_filter]
    apply List.filter_congr
    intro record _
    by_cases heq : record.key = key
    · rw [← heq, isSecret_key] at hkey
      simp [hkey]
    · simp [heq]
  have hreport : rollbackConflict crypto (principals records) ratchet
      (currentWatermarks crypto root (principals records))
      (observedOrigins crypto root (principals records)) key =
      rollbackConflict crypto records ratchet (currentWatermarks crypto root records)
        (observedOrigins crypto root records) key := by
    funext remembered
    simp only [rollbackConflict, currentWatermarks_principals hsep hkey, hcandidates,
      observedOrigins_principals hsep hkey]
  simp only [conflicted_resolveRecords, ExtTreeMap.getElem?_union, ExtTreeMap.getElem?_map,
    materializeConflicts, hties, Option.map_none, Option.none_or, finalState_principals hsep,
    rollbackKeys_principals hsep hkey, hreport]

end Remembered

/-! ### Lists that differ in secrets only -/

/-- Two lists of records with the same principals, told apart by their hashes and bytes. -/
structure SamePrincipalRecords (crypto : CryptoProvider) (records records' : List VerifiedRecord) :
    Prop where
  perm : (principals records).Perm (principals records')
  hashes : HashesSeparate records
  hashes' : HashesSeparate records'
  bytes : BytesSeparate crypto records
  origins : OriginsAgree records

namespace SamePrincipalRecords

variable {crypto : CryptoProvider} {records records' : List VerifiedRecord}
variable (h : SamePrincipalRecords crypto records records') (ratchet : Ratchet)
variable (root : SelectedRoot) {key : RecordKey}

include h

lemma hashes_principals : HashesSeparate (principals records) := fun a ha b hb =>
  h.hashes a (mem_principals.mp ha).1 b (mem_principals.mp hb).1

lemma bytes_principals : BytesSeparate crypto (principals records) := fun a ha b hb =>
  h.bytes a (mem_principals.mp ha).1 b (mem_principals.mp hb).1

lemma currentWatermarks_eq (hkey : key.isSecret = false) :
    (currentWatermarks crypto root records')[key]? =
      (currentWatermarks crypto root records)[key]? := by
  rw [← currentWatermarks_principals h.hashes' hkey, ← currentWatermarks_principals h.hashes hkey,
    currentWatermarks_perm h.perm h.hashes_principals h.bytes_principals]

/-- The second resolution yields one state. -/
lemma finalState_eq : finalState crypto ratchet root records' =
    finalState crypto ratchet root records := by
  rw [← finalState_principals h.hashes', ← finalState_principals h.hashes, finalState, finalState,
    rollbackKeys, rollbackKeys,
    ← currentWatermarks_perm h.perm h.hashes_principals h.bytes_principals,
    resolveEffectiveWithDeletions_perm h.perm h.hashes_principals h.bytes_principals]

lemma conflicted_eq (hkey : key.isSecret = false) :
    (resolveRecords crypto ratchet root records').conflicted[key]? =
      (resolveRecords crypto ratchet root records).conflicted[key]? := by
  have horigins : OriginsAgree (principals records) := fun a ha b hb =>
    h.origins a (mem_principals.mp ha).1 b (mem_principals.mp hb).1
  rw [← conflicted_principals h.hashes' hkey, ← conflicted_principals h.hashes hkey,
    EffectiveState.conflicted_of_view (resolveRecords_view_perm h.perm h.hashes_principals
      h.bytes_principals ratchet root horigins)]

end SamePrincipalRecords

end Thorax
