import Thorax.Properties.SecretIndex
import Thorax.Resolution.Counters
import Thorax.Resolution.Principals

/-!
# Appended secrets

What becomes of a resolution when records of secrets are appended. The principal graph does not see
them. At the key of a secret that none of them is about nothing changes. At the other keys a record
is heard in two places: it moves the clock if its signer could write it in the first resolution, and
competes if its signer can write it in the last.
-/

namespace Thorax

open Collections
open Std (ExtTreeMap)

/-- Records of secrets after other records, all of them told apart by hashes and bytes. -/
structure AppendsSecrets (crypto : CryptoProvider) (records extra : List VerifiedRecord) :
    Prop where
  secrets : ∀ record ∈ extra, record.body.isSecret = true
  hashes : HashesSeparate (records ++ extra)
  bytes : BytesSeparate crypto (records ++ extra)
  origins : OriginsAgree (records ++ extra)

/-- The first resolution lets the signer write the record. -/
def WritesFirst (crypto : CryptoProvider) (root : SelectedRoot) (records : List VerifiedRecord)
    (record : VerifiedRecord) : Prop :=
  (classifySecret (provisional crypto root records).1.authorities record).isSome

/-- Two states that differ in nothing but conflicts, the clock and the records of secrets. -/
def SamePrincipalGraph (before after : EffectiveState) : Prop :=
  after = { before with
    conflicted := after.conflicted
    admittedCounterMax := after.admittedCounterMax
    verifiedRecords := after.verifiedRecords
    secretIndex := after.secretIndex }

lemma SamePrincipalGraph.currentReaderEntries_eq {before after : EffectiveState}
    (h : SamePrincipalGraph before after) (selector : SecretSelectorV1) :
    after.currentReaderEntries selector = before.currentReaderEntries selector := by
  rw [h]
  rfl

section Growth

variable {crypto : CryptoProvider} {ratchet : Ratchet} {root : SelectedRoot}
variable {records extra : List VerifiedRecord} {key : RecordKey} {secret : SecretId}

variable (crypto ratchet root records) in
/-- The records that compete for a secret in the last resolution. -/
abbrev Contends (secret : SecretId) (record : VerifiedRecord) : Prop :=
  Competes records ∅ (classifySecret (resolveRecords crypto ratchet root records).authorities)
    secret record

/-! ### The principal graph -/

lemma recordAdmitted_secret {attested : BTreeSet UserId} {effective : EffectiveState}
    {admitted : BTreeSet HashValue} {record : VerifiedRecord}
    (h : record.body.isSecret = true) :
    recordAdmitted attested effective admitted record =
      (classifySecret effective.authorities record).isSome := by
  have hauth : effective.authorityForUser record.signer =
      signerAuth effective.authorities record.signer := rfl
  unfold recordAdmitted classifySecret
  rw [hauth]
  cases hbody : record.body with
  | secret value => simp only; split_ifs with hwrite <;> simp [hwrite]
  | secretDeleted deleted => simp only; split_ifs with hwrite <;> simp [hwrite]
  | _ => simp [hbody, RecordBodyV1.isSecret] at h

/-! ### Rollbacks of secrets only -/

section SecretRollbacks

variable (hrollbacks : ∀ key ∈ rollbackKeys crypto ratchet root records, key.isSecret = true)

include hrollbacks

/-- If only secrets have regressed, the last resolution is the first. -/
lemma provisional_eq_finalState (hsep : HashesSeparate records) :
    (provisional crypto root records).1 = finalState crypto ratchet root records := by
  have hnone : SameRollbacks (rollbackKeys crypto ratchet root records) ∅ := by
    intro key hkey
    rw [ExtTreeMap.contains_empty, eq_comm, ← Bool.not_eq_true, ExtTreeMap.contains_iff_mem]
    intro hmem
    rw [hrollbacks key hmem] at hkey
    cases hkey
  have hfinal : resolveEffectiveWithDeletions crypto root (principals records) ∅ =
      resolveEffectiveWithDeletions crypto root records (rollbackKeys crypto ratchet root records) :=
    resolveEffectiveWithDeletions_principals hnone hsep root
  have hfirst : resolveEffectiveWithDeletions crypto root (principals records) ∅ =
      resolveEffectiveWithDeletions crypto root records ∅ :=
    resolveEffectiveWithDeletions_principals (fun _ _ => rfl) hsep root
  exact congrArg Prod.fst (hfirst.symm.trans hfinal)

lemma writesFirst_of_classified (hsep : HashesSeparate records) {record : VerifiedRecord}
    (hclassified : classifySecret (resolveRecords crypto ratchet root records).authorities record =
      some secret) : WritesFirst crypto root records record := by
  rw [WritesFirst, provisional_eq_finalState hrollbacks hsep]
  exact Option.isSome_of_eq_some hclassified

/-- If only secrets have regressed, what competes for a secret has counted. -/
lemma counts_of_contends (hsep : HashesSeparate records) {record : VerifiedRecord}
    (hcontends : Contends crypto ratchet root records secret record) :
    Counts crypto root records (.secret secret) record := by
  obtain ⟨hmem, -, hclassified⟩ := hcontends
  have hwrites := writesFirst_of_classified hrollbacks hsep hclassified
  have hsecret : record.body.isSecret = true := by
    rw [← isSecret_key, key_of_classifySecret record secret hclassified]
    rfl
  refine ⟨hmem, key_of_classifySecret record secret hclassified, ?_,
    (recordAdmitted_secret hsecret).trans hwrites⟩
  cases hbody : record.body <;> simp [hbody, RecordBodyV1.isSecret] at hsecret <;> rfl

end SecretRollbacks

/-! ### Appending -/

namespace AppendsSecrets

variable (h : AppendsSecrets crypto records extra)

include h

lemma principals_eq : principals (records ++ extra) = principals records := by
  have hnone : principals extra = [] := by
    rw [principals, List.filter_eq_nil_iff]
    intro record hmem
    simp [h.secrets record hmem]
  rw [principals, List.filter_append]
  exact (congrArg (principals records ++ ·) hnone).trans (List.append_nil _)

lemma hashes_left : HashesSeparate records := fun a ha b hb =>
  h.hashes a (List.mem_append_left extra ha) b (List.mem_append_left extra hb)

lemma samePrincipalRecords : SamePrincipalRecords crypto records (records ++ extra) where
  perm := by rw [h.principals_eq]
  hashes := h.hashes_left
  hashes' := h.hashes
  bytes := fun a ha b hb =>
    h.bytes a (List.mem_append_left extra ha) b (List.mem_append_left extra hb)
  origins := fun a ha b hb =>
    h.origins a (List.mem_append_left extra ha) b (List.mem_append_left extra hb)

lemma provisional_eq : provisional crypto root (records ++ extra) =
    provisional crypto root records := by
  rw [← provisional_principals h.hashes, h.principals_eq, provisional_principals h.hashes_left]

lemma entryPointSigners_eq : entryPointSigners (records ++ extra) = entryPointSigners records := by
  rw [← entryPointSigners_principals, h.principals_eq, entryPointSigners_principals]

lemma finalState_eq (ratchet : Ratchet) (root : SelectedRoot) :
    finalState crypto ratchet root (records ++ extra) = finalState crypto ratchet root records :=
  h.samePrincipalRecords.finalState_eq ratchet root

lemma authorities_eq : (resolveRecords crypto ratchet root (records ++ extra)).authorities =
    (resolveRecords crypto ratchet root records).authorities := by
  have hfinal := congrArg EffectiveState.authorities (h.finalState_eq ratchet root)
  exact hfinal

lemma samePrincipalGraph : SamePrincipalGraph (resolveRecords crypto ratchet root records)
    (resolveRecords crypto ratchet root (records ++ extra)) := by
  have hgrown : resolveRecords crypto ratchet root (records ++ extra) =
      { finalState crypto ratchet root (records ++ extra) with
        conflicted := (resolveRecords crypto ratchet root (records ++ extra)).conflicted
        admittedCounterMax :=
          (resolveRecords crypto ratchet root (records ++ extra)).admittedCounterMax
        verifiedRecords := (resolveRecords crypto ratchet root (records ++ extra)).verifiedRecords
        secretIndex := (resolveRecords crypto ratchet root (records ++ extra)).secretIndex } := rfl
  rw [h.finalState_eq] at hgrown
  exact hgrown

/-! ### The clock -/

/-- An appended record counts if its signer could write it in the first resolution. -/
lemma counts_iff {record : VerifiedRecord} : Counts crypto root (records ++ extra) key record ↔
    Counts crypto root records key record ∨
      (record ∈ extra ∧ record.key = key ∧ WritesFirst crypto root records record) := by
  simp only [Counts, CountsAt, h.provisional_eq, h.entryPointSigners_eq, List.mem_append]
  constructor
  · rintro ⟨hmem | hmem, hkey, hcounter, hadmitted⟩
    · exact Or.inl ⟨hmem, hkey, hcounter, hadmitted⟩
    · rw [recordAdmitted_secret (h.secrets record hmem)] at hadmitted
      exact Or.inr ⟨hmem, hkey, hadmitted⟩
  · rintro (⟨hmem, hkey, hcounter, hadmitted⟩ | ⟨hmem, hkey, hwrites⟩)
    · exact ⟨Or.inl hmem, hkey, hcounter, hadmitted⟩
    · have hsecret := h.secrets record hmem
      refine ⟨Or.inr hmem, hkey, ?_, (recordAdmitted_secret hsecret).trans hwrites⟩
      cases hbody : record.body with
      | secret value => rfl
      | secretDeleted deleted => rfl
      | _ => simp [hbody, RecordBodyV1.isSecret] at hsecret

/-! ### Other keys -/

section Untouched

variable (hkey : ∀ record ∈ extra, record.key ≠ key)

include hkey

lemma currentWatermarks_eq : (currentWatermarks crypto root (records ++ extra))[key]? =
    (currentWatermarks crypto root records)[key]? := by
  refine currentWatermarks_congr fun record => ?_
  rw [h.counts_iff, or_iff_left_iff_imp]
  exact fun hrecord => absurd hrecord.2.1 (hkey record hrecord.1)

lemma observedOrigins_eq : (observedOrigins crypto root (records ++ extra))[key]? =
    (observedOrigins crypto root records)[key]? := by
  rw [observedOrigins, observedOrigins, admittedOrigins, admittedOrigins, h.provisional_eq,
    h.entryPointSigners_eq]
  apply getElem?_collectNew_append
  intro record hmem origin hnamed
  split_ifs at hnamed
  obtain ⟨_, _, hentry⟩ := Option.map_eq_some_iff.mp hnamed
  exact hkey record hmem (Prod.mk.inj hentry).1

lemma rollbackKeys_eq : (rollbackKeys crypto ratchet root (records ++ extra))[key]? =
    (rollbackKeys crypto ratchet root records)[key]? := by
  simp only [getElem?_rollbackKeys, h.currentWatermarks_eq hkey]

/-- At the key of a secret that is left alone the same records compete. -/
lemma pool_eq (hsecret : key = .secret secret) (authorities : Authorities) :
    pool (records ++ extra) (rollbackKeys crypto ratchet root (records ++ extra))
        (classifySecret authorities) secret =
      pool records (rollbackKeys crypto ratchet root records) (classifySecret authorities)
        secret := by
  subst hsecret
  have hnone : extra.filter (fun record =>
      !(rollbackKeys crypto ratchet root (records ++ extra)).contains record.key &&
        classifySecret authorities record = some secret) = [] := by
    rw [List.filter_eq_nil_iff]
    intro record hmem hrecord
    simp only [Bool.and_eq_true, decide_eq_true_eq] at hrecord
    exact hkey record hmem (key_of_classifySecret record secret hrecord.2)
  rw [pool, pool, List.filter_append, hnone, List.append_nil]
  apply List.filter_congr
  intro record _
  by_cases hclassified : classifySecret authorities record = some secret
  · rw [key_of_classifySecret record secret hclassified, ← ExtTreeMap.isSome_getElem?_eq_contains,
      ← ExtTreeMap.isSome_getElem?_eq_contains, h.rollbackKeys_eq hkey]
  · simp [hclassified]

/-- The candidates of a dispute that is left alone are the same. -/
lemma materialize_eq {slots : BTreeMap RecordKey ConflictSlot}
    (hslots : ∀ slot, slots[key]? = some slot → ∀ hash ∈ slot.candidateHashes,
      ∃ record ∈ records, record.key = key ∧ record.recordHash = hash) :
    (materializeConflicts crypto (records ++ extra) slots)[key]? =
      (materializeConflicts crypto records slots)[key]? := by
  simp only [materializeConflicts, ExtTreeMap.getElem?_map]
  cases hslot : slots[key]? with
  | none => rfl
  | some slot =>
    have hnone : extra.filter (slot.candidateHashes.contains ·.recordHash) = [] := by
      rw [List.filter_eq_nil_iff]
      intro record hmem hcandidate
      obtain ⟨other, hother, hotherKey, hhash⟩ :=
        hslots slot hslot record.recordHash (by simpa using hcandidate)
      have heq := h.hashes other (List.mem_append_left extra hother) record
        (List.mem_append_right records hmem) hhash
      exact hkey record hmem (heq ▸ hotherKey)
    simp only [Option.map_some, List.filter_append, hnone, List.append_nil]

/-- Conflicts at other keys are left as they are. -/
lemma conflicted_eq : (resolveRecords crypto ratchet root (records ++ extra)).conflicted[key]? =
    (resolveRecords crypto ratchet root records).conflicted[key]? := by
  by_cases hsecret : key.isSecret = true
  · obtain ⟨secret, rfl⟩ : ∃ secret, key = .secret secret := by
      cases key with
      | secret secret => exact ⟨secret, rfl⟩
      | _ => cases hsecret
    have hinj : Function.Injective RecordKey.secret := fun _ _ heq => RecordKey.secret.inj heq
    have hties : (secretTies crypto ratchet root (records ++ extra))[RecordKey.secret secret]? =
        (secretTies crypto ratchet root records)[RecordKey.secret secret]? := by
      rw [secretTies, secretTies, h.finalState_eq,
        getElem?_conflicted _ _ _ key_of_classifySecret hinj,
        getElem?_conflicted _ _ _ key_of_classifySecret hinj, leadersAt, leadersAt,
        h.pool_eq hkey rfl]
    have hmaterial : (materializeConflicts crypto (records ++ extra)
        (secretTies crypto ratchet root (records ++ extra)))[RecordKey.secret secret]? =
        (materializeConflicts crypto records
          (secretTies crypto ratchet root records))[RecordKey.secret secret]? := by
      rw [h.materialize_eq hkey]
      · simp only [materializeConflicts, ExtTreeMap.getElem?_map, hties]
      · intro slot hslot hash hmem
        rw [hties, secretTies, getElem?_conflicted _ _ _ key_of_classifySecret hinj,
          Option.map_eq_some_iff] at hslot
        obtain ⟨⟨_, _⟩, hconflict, rfl⟩ := hslot
        obtain ⟨record, hleading, hhash⟩ := ((conflictSlot_eq_some hconflict).2 hash).mp hmem
        exact ⟨record, hleading.1.1, key_of_classifySecret record secret hleading.1.2.2, hhash⟩
    have hrollback : rollbackConflict crypto (records ++ extra) ratchet
        (currentWatermarks crypto root (records ++ extra))
        (observedOrigins crypto root (records ++ extra)) (.secret secret) =
        rollbackConflict crypto records ratchet (currentWatermarks crypto root records)
          (observedOrigins crypto root records) (.secret secret) := by
      funext remembered
      have hnone : extra.filter (fun record => record.key = .secret secret &&
          record.counter = (currentWatermarks crypto root records)[RecordKey.secret secret]?.getD 0) =
          [] := by
        rw [List.filter_eq_nil_iff]
        intro record hmem hrecord
        simp only [Bool.and_eq_true, decide_eq_true_eq] at hrecord
        exact hkey record hmem hrecord.1
      simp only [rollbackConflict, h.currentWatermarks_eq hkey, h.observedOrigins_eq hkey,
        List.filter_append, hnone, List.append_nil]
    simp only [conflicted_resolveRecords, ExtTreeMap.getElem?_union, ExtTreeMap.getElem?_map,
      h.finalState_eq, hmaterial, h.rollbackKeys_eq hkey, hrollback]
  · exact h.samePrincipalRecords.conflicted_eq ratchet root (Bool.not_eq_true _ ▸ hsecret)

end Untouched

/-! ### The latest records -/

lemma contends_iff {record : VerifiedRecord} :
    Contends crypto ratchet root (records ++ extra) secret record ↔
      Contends crypto ratchet root records secret record ∨ (record ∈ extra ∧
        classifySecret (resolveRecords crypto ratchet root records).authorities record =
          some secret) := by
  simp only [Contends, Competes, h.authorities_eq, List.mem_append]
  simp only [ExtTreeMap.not_mem_empty, not_false_eq_true, true_and]
  tauto

lemma latest_iff {latest : VerifiedRecord} :
    (resolveRecords crypto ratchet root (records ++ extra)).latestAuthorizedSecretRecord secret =
        some latest ↔
      Contends crypto ratchet root (records ++ extra) secret latest ∧
        ∀ other, Contends crypto ratchet root (records ++ extra) secret other →
          (compareLww other latest).isLE :=
  latest_eq_some_iff (resolveRecords_indexed crypto ratchet root _) h.hashes

omit h in
lemma latest_iff_left (hsep : HashesSeparate records) {latest : VerifiedRecord} :
    (resolveRecords crypto ratchet root records).latestAuthorizedSecretRecord secret =
        some latest ↔
      Contends crypto ratchet root records secret latest ∧
        ∀ other, Contends crypto ratchet root records secret other →
          (compareLww other latest).isLE :=
  latest_eq_some_iff (resolveRecords_indexed crypto ratchet root _) hsep

/-- A secret keeps its latest record if no appended record competes for it. -/
lemma latest_eq (hsecret : ∀ record ∈ extra, record.key ≠ .secret secret) :
    (resolveRecords crypto ratchet root (records ++ extra)).latestAuthorizedSecretRecord secret =
      (resolveRecords crypto ratchet root records).latestAuthorizedSecretRecord secret := by
  have hcontends : ∀ record, Contends crypto ratchet root (records ++ extra) secret record ↔
      Contends crypto ratchet root records secret record := by
    intro record
    rw [h.contends_iff, or_iff_left_iff_imp]
    exact fun hrecord => absurd (key_of_classifySecret record secret hrecord.2)
      (hsecret record hrecord.1)
  rw [Option.ext_iff]
  intro latest
  rw [h.latest_iff, latest_iff_left h.hashes_left]
  simp only [hcontends]

/-! ### One record at a key -/

section Touched

variable {record : VerifiedRecord} (hmem : record ∈ extra)
variable (honly : ∀ other ∈ extra, other.key = .secret secret → other = record)

include hmem honly

/-- Of the appended records only the one at the key can compete there. -/
lemma contends_iff_of_only {other : VerifiedRecord} :
    Contends crypto ratchet root (records ++ extra) secret other ↔
      Contends crypto ratchet root records secret other ∨ (other = record ∧
        classifySecret (resolveRecords crypto ratchet root records).authorities record =
          some secret) := by
  rw [h.contends_iff]
  refine or_congr_right ⟨fun ⟨hother, hclassified⟩ => ?_, fun ⟨heq, hclassified⟩ => ?_⟩
  · obtain rfl := honly other hother (key_of_classifySecret other secret hclassified)
    exact ⟨rfl, hclassified⟩
  · exact heq ▸ ⟨hmem, hclassified⟩

lemma not_mem_rollbackKeys_of_only (hkey : record.key = .secret secret) :
    RecordKey.secret secret ∉ rollbackKeys crypto ratchet root (records ++ extra) ↔
      RecordKey.secret secret ∉ rollbackKeys crypto ratchet root records ∨
        (WritesFirst crypto root records record ∧
          ratchet.watermarks[RecordKey.secret secret]?.getD 0 ≤ record.counter) := by
  rw [not_mem_rollbackKeys_iff, not_mem_rollbackKeys_iff, or_assoc]
  refine or_congr_right ?_
  simp only [h.counts_iff]
  constructor
  · rintro ⟨other, hcounts | ⟨hother, hotherKey, hwrites⟩, hle⟩
    · exact Or.inl ⟨other, hcounts, hle⟩
    · exact Or.inr (honly other hother hotherKey ▸ ⟨hwrites, hle⟩)
  · rintro (⟨other, hcounts, hle⟩ | ⟨hwrites, hle⟩)
    · exact ⟨other, Or.inl hcounts, hle⟩
    · exact ⟨record, Or.inr ⟨hmem, hkey, hwrites⟩, hle⟩

section Above

variable (hclassified :
  classifySecret (resolveRecords crypto ratchet root records).authorities record = some secret)
variable (habove : ∀ other, Contends crypto ratchet root records secret other →
  other.counter < record.counter)

include hclassified habove

/-- A record above everything that competes at its key leads alone. -/
lemma leading_iff_of_above {other : VerifiedRecord} :
    Leading (records ++ extra) ∅ (classifySecret
        (resolveRecords crypto ratchet root (records ++ extra)).authorities) secret other ↔
      other = record := by
  have hcontends : ∀ other, Contends crypto ratchet root (records ++ extra) secret other ↔ _ :=
    fun _ => h.contends_iff_of_only hmem honly
  have hrecord : Contends crypto ratchet root (records ++ extra) secret record :=
    (hcontends record).mpr (Or.inr ⟨rfl, hclassified⟩)
  constructor
  · rintro ⟨hother, hleads⟩
    rcases (hcontends other).mp hother with hother | ⟨heq, -⟩
    · exact absurd (hleads record hrecord) (Nat.not_le.mpr (habove other hother))
    · exact heq
  · rintro rfl
    refine ⟨hrecord, fun other hother => ?_⟩
    rcases (hcontends other).mp hother with hother | ⟨heq, -⟩
    · exact (habove other hother).le
    · exact heq ▸ le_rfl

lemma latest_of_above :
    (resolveRecords crypto ratchet root (records ++ extra)).latestAuthorizedSecretRecord secret =
      some record := by
  rw [h.latest_iff]
  have hleading := (h.leading_iff_of_above hmem honly hclassified habove).mpr rfl
  refine ⟨hleading.1, fun other hother => ?_⟩
  rcases (h.contends_iff_of_only hmem honly).mp hother with hother | ⟨heq, -⟩
  · exact compareLww_isLE_of_lt (habove other hother)
  · have hself : compareLww record record = .eq := Std.ReflCmp.compare_self
    rw [heq, hself]
    rfl

/-- It settles the key, unless more is remembered there. -/
lemma settles_of_above : RecordKey.secret secret ∉
      (resolveRecords crypto ratchet root (records ++ extra)).conflicted ↔
    RecordKey.secret secret ∉ rollbackKeys crypto ratchet root (records ++ extra) := by
  have hagreed : Agreed (records ++ extra) ∅ (classifySecret
      (resolveRecords crypto ratchet root (records ++ extra)).authorities) secret := by
    intro a b ha hb
    rw [(h.leading_iff_of_above hmem honly hclassified habove).mp ha,
      (h.leading_iff_of_above hmem honly hclassified habove).mp hb]
  rw [mem_conflicted_secret_iff, not_or, and_iff_left (not_not.mpr hagreed)]

end Above

section Below

variable (hbelow : classifySecret (resolveRecords crypto ratchet root records).authorities record =
  some secret → ∃ other, Contends crypto ratchet root records secret other ∧
    record.counter < other.counter)

include hbelow

/-- A record that does not compete, or competes below another, changes nothing there. -/
lemma leading_iff_of_below {other : VerifiedRecord} :
    Leading (records ++ extra) ∅ (classifySecret
        (resolveRecords crypto ratchet root (records ++ extra)).authorities) secret other ↔
      Leading records ∅ (classifySecret
        (resolveRecords crypto ratchet root records).authorities) secret other := by
  have hcontends : ∀ other, Contends crypto ratchet root (records ++ extra) secret other ↔ _ :=
    fun _ => h.contends_iff_of_only hmem honly
  constructor
  · rintro ⟨hother, hleads⟩
    refine ⟨?_, fun rival hrival => hleads rival ((hcontends rival).mpr (Or.inl hrival))⟩
    rcases (hcontends other).mp hother with hother | ⟨rfl, hclassified⟩
    · exact hother
    · obtain ⟨higher, hhigher, hlt⟩ := hbelow hclassified
      exact absurd (hleads higher ((hcontends higher).mpr (Or.inl hhigher))) (Nat.not_le.mpr hlt)
  · rintro ⟨hother, hleads⟩
    refine ⟨(hcontends other).mpr (Or.inl hother), fun rival hrival => ?_⟩
    rcases (hcontends rival).mp hrival with hrival | ⟨rfl, hclassified⟩
    · exact hleads rival hrival
    · obtain ⟨higher, hhigher, hlt⟩ := hbelow hclassified
      exact hlt.le.trans (hleads higher hhigher)

lemma agreed_iff_of_below : Agreed (records ++ extra) ∅ (classifySecret
      (resolveRecords crypto ratchet root (records ++ extra)).authorities) secret ↔
    Agreed records ∅ (classifySecret
      (resolveRecords crypto ratchet root records).authorities) secret := by
  simp only [Agreed, h.leading_iff_of_below hmem honly hbelow]

lemma latest_of_below :
    (resolveRecords crypto ratchet root (records ++ extra)).latestAuthorizedSecretRecord secret =
      (resolveRecords crypto ratchet root records).latestAuthorizedSecretRecord secret := by
  have hcontends : ∀ other, Contends crypto ratchet root (records ++ extra) secret other ↔ _ :=
    fun _ => h.contends_iff_of_only hmem honly
  rw [Option.ext_iff]
  intro latest
  rw [h.latest_iff, latest_iff_left h.hashes_left]
  constructor
  · rintro ⟨hlatest, hmax⟩
    refine ⟨?_, fun other hother => hmax other ((hcontends other).mpr (Or.inl hother))⟩
    rcases (hcontends latest).mp hlatest with hlatest | ⟨rfl, hclassified⟩
    · exact hlatest
    · obtain ⟨higher, hhigher, hlt⟩ := hbelow hclassified
      have hle := counter_le_of_compareLww (hmax higher ((hcontends higher).mpr (Or.inl hhigher)))
      exact absurd hlt (Nat.not_lt.mpr hle)
  · rintro ⟨hlatest, hmax⟩
    refine ⟨(hcontends latest).mpr (Or.inl hlatest), fun other hother => ?_⟩
    rcases (hcontends other).mp hother with hother | ⟨rfl, hclassified⟩
    · exact hmax other hother
    · obtain ⟨higher, hhigher, hlt⟩ := hbelow hclassified
      exact compareLww_isLE_of_lt (hlt.trans_le (counter_le_of_compareLww (hmax higher hhigher)))

end Below

end Touched

end AppendsSecrets

end Growth

end Thorax
