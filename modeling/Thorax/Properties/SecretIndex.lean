import Thorax.Properties.LastWriterWins
import Thorax.Resolution.Served

/-!
# The secret index

Queries about secrets go through an index of the latest authorised record of each. It breaks ties
on its own and knows of no conflicts. What it answers is what plain last-writer-wins resolution
would: at a conflicted key the queries look away, and elsewhere the latest record has the body of
the winner.
-/

namespace Thorax

open Collections
open Std (ExtTreeMap)

/-- The winner of plain resolution among the records of a secret whose signers can write it. -/
def EffectiveState.plainWinner (self : EffectiveState) (secret : SecretId) :
    Option VerifiedRecord :=
  (lwwResolution self.verifiedRecords ∅ (classifySecret self.authorities)).winners[secret]?

section Agreement

variable (crypto : CryptoProvider) (state : EffectiveState) (selector : SecretSelectorV1)

/-- Every query about a secret in conflict fails closed. -/
structure ConflictHidden : Prop where
  record : state.secretRecord crypto selector = none
  deleted : state.secretIsDeleted crypto selector = false
  current : ∀ record ∈ state.verifiedRecords,
    record.key = .secret (deriveSecretId crypto selector) →
      state.secretRecordIsCurrent record.recordHash = false
  listed : ∀ active ∈ state.secretRecords,
    active.value.selector ≠ selector ∧ active.value.id ≠ deriveSecretId crypto selector
  classified : ∀ user, state.classifySecretForUser crypto selector user =
    if state.authorityUnresolved then .invalid else .conflicted

/-- Every query about a secret that is not in conflict answers for the winner of plain
resolution. -/
structure WinnerServed : Prop where
  latest : (state.latestAuthorizedSecretRecord (deriveSecretId crypto selector)).map (·.body) =
    (state.plainWinner (deriveSecretId crypto selector)).map (·.body)
  record : ∀ value, (∃ active, state.secretRecord crypto selector = some active ∧
    active.value = value) ↔
      ∃ winner, state.plainWinner (deriveSecretId crypto selector) = some winner ∧
        winner.body = .secret value
  listed : ∀ active, active ∈ state.secretRecords ∧
    active.value.id = deriveSecretId crypto selector ↔
      state.secretRecord crypto selector = some active
  deleted : state.secretIsDeleted crypto selector = true ↔
    ∃ winner deletion, state.plainWinner (deriveSecretId crypto selector) = some winner ∧
      winner.body = .secretDeleted deletion
  current : (state.plainWinner (deriveSecretId crypto selector)).isSome →
    ∃! hash, (∃ record ∈ state.verifiedRecords, record.recordHash = hash ∧
      record.key = .secret (deriveSecretId crypto selector)) ∧
        state.secretRecordIsCurrent hash = true
  none_current : state.plainWinner (deriveSecretId crypto selector) = none →
    ∀ record ∈ state.verifiedRecords, record.key = .secret (deriveSecretId crypto selector) →
      state.secretRecordIsCurrent record.recordHash = false
  decryptable : ∀ user, state.classifySecretForUser crypto selector user = .activeDecryptable ↔
    state.authorityUnresolved = false ∧
      ∃ winner value, state.plainWinner (deriveSecretId crypto selector) = some winner ∧
        winner.body = .secret value ∧ user ∈ state.users ∧
        (state.authorityForUser user).canRead value.selector = true ∧
        (value.sealed.recipientSlots.map (·.recipientId)).Nodup ∧
        ∃ slot ∈ value.sealed.recipientSlots, slot.recipientId = user

/-- The index and the queries over it agree with plain resolution. -/
structure SecretsAgree : Prop where
  conflicted : RecordKey.secret (deriveSecretId crypto selector) ∈ state.conflicted →
    ConflictHidden crypto state selector
  served : RecordKey.secret (deriveSecretId crypto selector) ∉ state.conflicted →
    WinnerServed crypto state selector
  once : (state.secretRecords.map (·.value.id)).Nodup

end Agreement

/-! ### The latest record -/

section Latest

variable {state : EffectiveState} {secret : SecretId} {latest : VerifiedRecord}

lemma secretIndexKey_eq_classifySecret (authorities : Authorities) :
    secretIndexKey authorities = classifySecret authorities := by
  funext record
  unfold secretIndexKey classifySecret secretRecordIdentity
  cases record.body <;> rfl

/-- The latest record of a secret leads at its key. -/
lemma leading_of_latest (hself : state.Indexed)
    (h : state.latestAuthorizedSecretRecord secret = some latest) :
    Leading state.verifiedRecords ∅ (classifySecret state.authorities) secret latest := by
  obtain ⟨hmem, hkey, hle⟩ := EffectiveState.latestAuthorizedSecretRecord_eq_some hself h
  rw [secretIndexKey_eq_classifySecret] at hkey hle
  refine ⟨⟨hmem, by simp, hkey⟩, fun other hother => ?_⟩
  exact counter_le_of_compareLww (hle other hother.1 hother.2.2)

/-- A secret without a latest record has no record that competes. -/
lemma not_competes_of_latest (hself : state.Indexed)
    (h : state.latestAuthorizedSecretRecord secret = none) (record : VerifiedRecord) :
    ¬ Competes state.verifiedRecords ∅ (classifySecret state.authorities) secret record := by
  rintro ⟨hmem, -, hkey⟩
  rw [EffectiveState.latestAuthorizedSecretRecord_eq_none hself,
    secretIndexKey_eq_classifySecret] at h
  exact h record hmem hkey

/-- The latest record is the greatest of the records that compete. -/
lemma latest_eq_some_iff (hself : state.Indexed) (hsep : HashesSeparate state.verifiedRecords) :
    state.latestAuthorizedSecretRecord secret = some latest ↔
      Competes state.verifiedRecords ∅ (classifySecret state.authorities) secret latest ∧
        ∀ other, Competes state.verifiedRecords ∅ (classifySecret state.authorities) secret other →
          (compareLww other latest).isLE := by
  have hgreatest : ∀ found, state.latestAuthorizedSecretRecord secret = some found →
      ∀ other, Competes state.verifiedRecords ∅ (classifySecret state.authorities) secret other →
        (compareLww other found).isLE := by
    intro found hfound other hother
    refine (EffectiveState.latestAuthorizedSecretRecord_eq_some hself hfound).2.2 other hother.1 ?_
    rw [secretIndexKey_eq_classifySecret]
    exact hother.2.2
  constructor
  · exact fun hlatest => ⟨(leading_of_latest hself hlatest).1, hgreatest latest hlatest⟩
  · rintro ⟨hcompetes, hle⟩
    cases hfound : state.latestAuthorizedSecretRecord secret with
    | none => exact absurd hcompetes (not_competes_of_latest hself hfound latest)
    | some found =>
      have hfoundCompetes := (leading_of_latest hself hfound).1
      have heq := Std.OrientedCmp.isLE_antisymm (hle found hfoundCompetes)
        (hgreatest found hfound latest hcompetes)
      rw [hsep found hfoundCompetes.1 latest hcompetes.1 (compareLww_eq_eq heq).2.2]

/-- The latest record stands at the key of its secret. -/
lemma key_of_latest (hself : state.Indexed)
    (h : state.latestAuthorizedSecretRecord secret = some latest) :
    latest.key = .secret secret :=
  key_of_classifySecret latest secret (leading_of_latest hself h).1.2.2

lemma activeSecret_eq_some {record : VerifiedRecord} {active : ActiveSecretV1} :
    EffectiveState.activeSecret record = some active ↔
      record.body = .secret active.value ∧ active.signed = record.signed := by
  unfold EffectiveState.activeSecret
  cases hbody : record.body with
  | secret value =>
    simp only [Option.some.injEq, RecordBodyV1.secret.injEq]
    constructor
    · rintro rfl
      exact ⟨rfl, rfl⟩
    · rintro ⟨rfl, hsigned⟩
      rw [← hsigned]
  | _ => simp

lemma key_of_secret {record : VerifiedRecord} {value : SecretRecordV1}
    (h : record.body = .secret value) : record.key = .secret value.id := by
  simp [VerifiedRecord.key, h, recordKeyFor]

lemma mem_secretRecords_iff (hself : state.Indexed) {active : ActiveSecretV1} :
    active ∈ state.secretRecords ↔ RecordKey.secret active.value.id ∉ state.conflicted ∧
      ∃ latest, state.latestAuthorizedSecretRecord active.value.id = some latest ∧
        EffectiveState.activeSecret latest = some active := by
  rw [mem_secretRecords]
  constructor
  · rintro ⟨secret, latest, hlatest, hconflict, hactive⟩
    have hkey := key_of_secret (activeSecret_eq_some.mp hactive).1
    obtain rfl : active.value.id = secret :=
      RecordKey.secret.inj (hkey.symm.trans (key_of_latest hself hlatest))
    exact ⟨hkey ▸ hconflict, latest, hlatest, hactive⟩
  · rintro ⟨hconflict, latest, hlatest, hactive⟩
    exact ⟨_, latest, hlatest, key_of_latest hself hlatest ▸ hconflict, hactive⟩

/-- Every live secret is listed once. -/
lemma nodup_secretRecords (hself : state.Indexed) :
    (state.secretRecords.map (·.value.id)).Nodup := by
  -- the slots of different secrets hold records at different keys
  have hslots : state.secretIndex.toList.Pairwise fun a b => ∀ x y,
      (state.slotWinner a.2).bind EffectiveState.activeSecret = some x →
      (state.slotWinner b.2).bind EffectiveState.activeSecret = some y → x.value.id ≠ y.value.id := by
    have hid : ∀ entry ∈ state.secretIndex.toList, ∀ x,
        (state.slotWinner entry.2).bind EffectiveState.activeSecret = some x →
          x.value.id = entry.1 := by
      intro entry hentry x hx
      obtain ⟨latest, hlatest, hactive⟩ := Option.bind_eq_some_iff.mp hx
      have hslot : state.secretIndex[entry.1]? = some entry.2 :=
        ExtTreeMap.mem_toList_iff_getElem?_eq_some.mp hentry
      have hat : state.latestAuthorizedSecretRecord entry.1 = some latest := by
        rw [EffectiveState.latestAuthorizedSecretRecord, hslot]
        exact hlatest
      exact RecordKey.secret.inj ((key_of_secret (activeSecret_eq_some.mp hactive).1).symm.trans
        (key_of_latest hself hat))
    apply state.secretIndex.distinct_keys_toList.imp_of_mem
    intro a b ha hb hne x y hx hy heq
    rw [hid a ha x hx, hid b hb y hy] at heq
    exact hne (heq ▸ Std.ReflCmp.compare_self)
  have hunlisted : (values state.secretIndex).Pairwise fun a b => ∀ x y,
      (state.slotWinner a).bind EffectiveState.activeSecret = some x →
      (state.slotWinner b).bind EffectiveState.activeSecret = some y → x.value.id ≠ y.value.id :=
    List.pairwise_map.mpr hslots
  rw [EffectiveState.secretRecords, List.Nodup, List.pairwise_map, List.pairwise_filterMap]
  refine ((sortBy_perm _ _).pairwise_iff ?_).mpr ((hunlisted.filter _).imp ?_)
  · intro a b hab x hx y hy heq
    exact hab y hy x hx heq.symm
  · intro a b hab x hx y hy
    exact hab x y hx hy

end Latest

/-! ### States that validation settles -/

/-- What validation guarantees of the records of secrets. -/
structure SecretsSettled (crypto : CryptoProvider) (state : EffectiveState) : Prop where
  indexed : state.Indexed
  separate : HashesSeparate state.verifiedRecords
  agreed : ∀ secret, RecordKey.secret secret ∉ state.conflicted →
    Agreed state.verifiedRecords ∅ (classifySecret state.authorities) secret
  addressed : ∀ record ∈ state.verifiedRecords, ∀ value, record.body = .secret value →
    value.id = deriveSecretId crypto value.selector

section Settled

variable {crypto : CryptoProvider} {state : EffectiveState} {selector : SecretSelectorV1}

lemma secretConflict_isSome : (state.secretConflict crypto selector).isSome ↔
    RecordKey.secret (deriveSecretId crypto selector) ∈ state.conflicted := by
  rw [EffectiveState.secretConflict, ExtTreeMap.isSome_getElem?_iff_mem]

/-- The search for a hash finds the record itself. -/
lemma SecretsSettled.find?_recordHash (h : SecretsSettled crypto state) {record : VerifiedRecord}
    (hmem : record ∈ state.verifiedRecords) :
    state.verifiedRecords.find? (·.recordHash = record.recordHash) = some record := by
  cases hfind : state.verifiedRecords.find? (·.recordHash = record.recordHash) with
  | none => exact absurd (List.find?_eq_none.mp hfind record hmem) (by simp)
  | some found =>
    have hhash : found.recordHash = record.recordHash := by simpa using List.find?_some hfind
    rw [h.separate found (List.mem_of_find?_eq_some hfind) record hmem hhash]

/-- A record is current if its key is free of conflicts and it is the latest one there. -/
lemma SecretsSettled.secretRecordIsCurrent_iff (h : SecretsSettled crypto state)
    {record : VerifiedRecord} {secret : SecretId} (hmem : record ∈ state.verifiedRecords)
    (hkey : record.key = .secret secret) :
    state.secretRecordIsCurrent record.recordHash = true ↔
      RecordKey.secret secret ∉ state.conflicted ∧
        state.latestAuthorizedSecretRecord secret = some record := by
  have hidentity : ∃ claimed, secretRecordIdentity record.body = some (secret, claimed) := by
    unfold VerifiedRecord.key recordKeyFor at hkey
    unfold secretRecordIdentity
    cases hbody : record.body <;> simp_all
  obtain ⟨claimed, hidentity⟩ := hidentity
  simp only [EffectiveState.secretRecordIsCurrent, h.find?_recordHash hmem, hidentity]
  by_cases hconflict : RecordKey.secret secret ∈ state.conflicted
  · simp [hconflict]
  · simp only [ExtTreeMap.contains_iff_mem, hconflict, if_false, not_false_eq_true, true_and,
      Option.any_eq_true, decide_eq_true_eq]
    constructor
    · rintro ⟨latest, hlatest, hhash⟩
      rw [hlatest, h.separate latest (leading_of_latest h.indexed hlatest).1.1 record hmem hhash]
    · exact fun hlatest => ⟨record, hlatest, rfl⟩

lemma SecretsSettled.conflictHidden (h : SecretsSettled crypto state)
    (hconflict : RecordKey.secret (deriveSecretId crypto selector) ∈ state.conflicted) :
    ConflictHidden crypto state selector where
  record := by rw [EffectiveState.secretRecord, if_pos (secretConflict_isSome.mpr hconflict)]
  deleted := by
    rw [EffectiveState.secretIsDeleted, if_pos (ExtTreeMap.contains_iff_mem.mpr hconflict)]
  current record hmem hkey := by
    rw [← Bool.not_eq_true, h.secretRecordIsCurrent_iff hmem hkey]
    exact fun hcurrent => hcurrent.1 hconflict
  listed active hactive := by
    obtain ⟨hfree, latest, hlatest, hbody⟩ := (mem_secretRecords_iff h.indexed).mp hactive
    have hid : active.value.id ≠ deriveSecretId crypto selector := by
      intro heq
      exact hfree (heq ▸ hconflict)
    refine ⟨fun heq => hid ?_, hid⟩
    rw [← heq]
    exact h.addressed latest (leading_of_latest h.indexed hlatest).1.1 _
      (activeSecret_eq_some.mp hbody).1
  classified user := by
    rw [EffectiveState.classifySecretForUser, if_pos (secretConflict_isSome.mpr hconflict)]

/-- Away from conflicts the latest record has the body of the winner. -/
lemma SecretsSettled.latest_body (h : SecretsSettled crypto state) {secret : SecretId}
    (hfree : RecordKey.secret secret ∉ state.conflicted) :
    (state.latestAuthorizedSecretRecord secret).map (·.body) =
      (state.plainWinner secret).map (·.body) := by
  have hresolved : ResolvedAt state.verifiedRecords ∅ (classifySecret state.authorities)
      RecordKey.secret (lwwResolution state.verifiedRecords ∅ (classifySecret state.authorities))
      secret := resolvedAt_lwwResolution h.separate (fun _ _ heq => RecordKey.secret.inj heq)
    key_of_classifySecret secret
  cases hlatest : state.latestAuthorizedSecretRecord secret with
  | none =>
    have hempty := (hresolved.empty (not_competes_of_latest h.indexed hlatest)).1
    rw [EffectiveState.plainWinner, ExtTreeMap.getElem?_eq_none hempty]
  | some latest =>
    have hleading := leading_of_latest h.indexed hlatest
    cases hwinner : state.plainWinner secret with
    | none =>
      have hconflict := hresolved.conflict.not.mpr (not_not.mpr (h.agreed secret hfree))
      rcases hresolved.one ⟨latest, hleading.1⟩ with ⟨hwon, -⟩ | ⟨htied, -⟩
      · rw [← ExtTreeMap.isSome_getElem?_iff_mem] at hwon
        rw [EffectiveState.plainWinner] at hwinner
        rw [hwinner] at hwon
        contradiction
      · exact absurd htied hconflict
    | some winner =>
      have hlead := ((hresolved.winner winner).mp hwinner).2.1
      exact congrArg some (h.agreed secret hfree latest winner hleading hlead)

/-- Away from conflicts the latest record and the winner are there together, with one body. -/
lemma SecretsSettled.latest_iff (h : SecretsSettled crypto state) {secret : SecretId}
    (hfree : RecordKey.secret secret ∉ state.conflicted) (body : RecordBodyV1) :
    (∃ latest, state.latestAuthorizedSecretRecord secret = some latest ∧ latest.body = body) ↔
      ∃ winner, state.plainWinner secret = some winner ∧ winner.body = body := by
  have hbody := h.latest_body hfree
  simp only [← Option.map_eq_some_iff, hbody]

/-- The live record of a selector is its latest one, if that is a value. -/
lemma live_eq_some {active : ActiveSecretV1} :
    (state.liveSecretWinner crypto selector).bind EffectiveState.activeSecret = some active ↔
      ∃ latest, state.latestAuthorizedSecretRecord (deriveSecretId crypto selector) = some latest ∧
        EffectiveState.activeSecret latest = some active := by
  simp only [EffectiveState.liveSecretWinner, Option.bind_eq_some_iff, Option.filter_eq_some_iff]
  constructor
  · rintro ⟨latest, ⟨hlatest, -⟩, hactive⟩
    exact ⟨latest, hlatest, hactive⟩
  · rintro ⟨latest, hlatest, hactive⟩
    exact ⟨latest, ⟨hlatest, by rw [hactive]; rfl⟩, hactive⟩

lemma secretRecord_of_free
    (hfree : RecordKey.secret (deriveSecretId crypto selector) ∉ state.conflicted) :
    state.secretRecord crypto selector =
      (state.liveSecretWinner crypto selector).bind EffectiveState.activeSecret := by
  rw [EffectiveState.secretRecord, if_neg (secretConflict_isSome.not.mpr hfree)]

/-- The live values are those of the winner. -/
lemma SecretsSettled.live_iff (h : SecretsSettled crypto state)
    (hfree : RecordKey.secret (deriveSecretId crypto selector) ∉ state.conflicted)
    {value : SecretRecordV1} :
    (∃ active, (state.liveSecretWinner crypto selector).bind EffectiveState.activeSecret =
        some active ∧ active.value = value) ↔
      ∃ winner, state.plainWinner (deriveSecretId crypto selector) = some winner ∧
        winner.body = .secret value := by
  rw [← h.latest_iff hfree]
  constructor
  · rintro ⟨active, hactive, rfl⟩
    obtain ⟨latest, hlatest, hactive⟩ := live_eq_some.mp hactive
    exact ⟨latest, hlatest, (activeSecret_eq_some.mp hactive).1⟩
  · rintro ⟨latest, hlatest, hbody⟩
    refine ⟨⟨latest.signed, value⟩, live_eq_some.mpr ⟨latest, hlatest, ?_⟩, rfl⟩
    exact activeSecret_eq_some.mpr ⟨hbody, rfl⟩

/-- A user can decrypt a live value exactly if nothing speaks against it. -/
lemma classifySecretForUser_eq_active {user : UserId}
    (hfree : RecordKey.secret (deriveSecretId crypto selector) ∉ state.conflicted) :
    state.classifySecretForUser crypto selector user = .activeDecryptable ↔
      state.authorityUnresolved = false ∧
        ∃ active, (state.liveSecretWinner crypto selector).bind EffectiveState.activeSecret =
            some active ∧ user ∈ state.users ∧
          (state.authorityForUser user).canRead active.value.selector = true ∧
          (active.value.sealed.recipientSlots.map (·.recipientId)).Nodup ∧
          ∃ slot ∈ active.value.sealed.recipientSlots, slot.recipientId = user := by
  unfold EffectiveState.classifySecretForUser
  rw [if_neg (secretConflict_isSome.not.mpr hfree)]
  cases hunresolved : state.authorityUnresolved with
  | true => simp
  | false =>
    cases hlive : (state.liveSecretWinner crypto selector).bind EffectiveState.activeSecret with
    | none => simp
    | some active =>
      simp only [Bool.false_eq_true, if_false, Option.some.injEq, exists_eq_left', true_and,
        Bool.not_eq_true']
      split_ifs with hread hslots huser hrecipient <;>
        simp_all [← ExtTreeMap.contains_iff_mem]

/-- Away from conflicts a secret is deleted if its latest record deletes it. -/
lemma secretIsDeleted_eq_true
    (hfree : RecordKey.secret (deriveSecretId crypto selector) ∉ state.conflicted) :
    state.secretIsDeleted crypto selector = true ↔ ∃ latest deletion,
      state.latestAuthorizedSecretRecord (deriveSecretId crypto selector) = some latest ∧
        latest.body = .secretDeleted deletion := by
  rw [EffectiveState.secretIsDeleted, if_neg (ExtTreeMap.contains_iff_mem.not.mpr hfree),
    Option.any_eq_true]
  refine exists_congr fun latest => ?_
  cases hbody : latest.body <;> simp

lemma SecretsSettled.winnerServed (h : SecretsSettled crypto state)
    (hfree : RecordKey.secret (deriveSecretId crypto selector) ∉ state.conflicted) :
    WinnerServed crypto state selector where
  latest := h.latest_body hfree
  record value := by
    rw [secretRecord_of_free hfree]
    exact h.live_iff hfree
  listed active := by
    rw [mem_secretRecords_iff h.indexed, secretRecord_of_free hfree, live_eq_some]
    constructor
    · rintro ⟨⟨-, hlatest⟩, hid⟩
      exact hid ▸ hlatest
    · rintro ⟨latest, hlatest, hactive⟩
      have hkey := key_of_secret (activeSecret_eq_some.mp hactive).1
      have hid : active.value.id = deriveSecretId crypto selector :=
        RecordKey.secret.inj (hkey.symm.trans (key_of_latest h.indexed hlatest))
      exact ⟨⟨hid ▸ hfree, latest, hid ▸ hlatest, hactive⟩, hid⟩
  deleted := by
    rw [secretIsDeleted_eq_true hfree]
    constructor
    · rintro ⟨latest, deletion, hlatest, hbody⟩
      obtain ⟨winner, hwinner, hsame⟩ := (h.latest_iff hfree _).mp ⟨latest, hlatest, hbody⟩
      exact ⟨winner, deletion, hwinner, hsame⟩
    · rintro ⟨winner, deletion, hwinner, hbody⟩
      obtain ⟨latest, hlatest, hsame⟩ := (h.latest_iff hfree _).mpr ⟨winner, hwinner, hbody⟩
      exact ⟨latest, deletion, hlatest, hsame⟩
  current hwon := by
    obtain ⟨winner, hwinner⟩ := Option.isSome_iff_exists.mp hwon
    obtain ⟨latest, hlatest, -⟩ := (h.latest_iff hfree _).mpr ⟨winner, hwinner, rfl⟩
    have hmem := (leading_of_latest h.indexed hlatest).1.1
    have hkey := key_of_latest h.indexed hlatest
    refine ⟨latest.recordHash, ⟨⟨latest, hmem, rfl, hkey⟩, ?_⟩, ?_⟩
    · exact (h.secretRecordIsCurrent_iff hmem hkey).mpr ⟨hfree, hlatest⟩
    · rintro hash ⟨⟨record, hrecord, rfl, hat⟩, hcurrent⟩
      have hother := ((h.secretRecordIsCurrent_iff hrecord hat).mp hcurrent).2
      rw [Option.some.inj (hother.symm.trans hlatest)]
  none_current hnone record hmem hkey := by
    rw [← Bool.not_eq_true, h.secretRecordIsCurrent_iff hmem hkey]
    rintro ⟨-, hlatest⟩
    obtain ⟨winner, hwinner, -⟩ := (h.latest_iff hfree _).mp ⟨record, hlatest, rfl⟩
    rw [hnone] at hwinner
    contradiction
  decryptable user := by
    rw [classifySecretForUser_eq_active hfree]
    refine and_congr_right fun _ => ?_
    constructor
    · rintro ⟨active, hactive, hdecryptable⟩
      obtain ⟨winner, hwinner, hbody⟩ := (h.live_iff hfree).mp ⟨active, hactive, rfl⟩
      exact ⟨winner, active.value, hwinner, hbody, hdecryptable⟩
    · rintro ⟨winner, value, hwinner, hbody, hdecryptable⟩
      obtain ⟨active, hactive, rfl⟩ := (h.live_iff hfree).mpr ⟨winner, hwinner, hbody⟩
      exact ⟨active, hactive, hdecryptable⟩

end Settled

/-! ### Validated states -/

section Validated

variable {crypto : CryptoProvider} {vault : VaultStore} {ratchet : Ratchet}
variable {known : BTreeSet HashValue}

/-- The key of a secret is in conflict when it regressed or its leading records disagree. -/
lemma mem_conflicted_secret_iff {root : SelectedRoot} {records : List VerifiedRecord}
    {secret : SecretId} :
    RecordKey.secret secret ∈ (resolveRecords crypto ratchet root records).conflicted ↔
      RecordKey.secret secret ∈ rollbackKeys crypto ratchet root records ∨
        ¬ Agreed records ∅ (classifySecret (resolveRecords crypto ratchet root records).authorities)
          secret := by
  have hfinal : RecordKey.secret secret ∉ (finalState crypto ratchet root records).conflicted :=
    fun hmem => (mem_effective_conflicted crypto root records _ _ _).mp hmem |>.2 secret rfl
  rw [mem_conflicted_resolveRecords, secretTies,
    mem_conflicted _ _ _ key_of_classifySecret fun _ _ heq => RecordKey.secret.inj heq,
    diverging_iff_not_agreed]
  simp only [hfinal, false_or]
  refine or_congr_right' fun hregressed => not_congr ?_
  -- inert keys are other keys
  have hcompetes : ∀ record,
      Competes records (rollbackKeys crypto ratchet root records)
        (classifySecret (finalState crypto ratchet root records).authorities) secret record ↔
      Competes records ∅ (classifySecret (resolveRecords crypto ratchet root records).authorities)
        secret record := by
    intro record
    refine and_congr_right fun _ => ?_
    constructor
    · rintro ⟨-, hclassified⟩
      exact ⟨by simp, hclassified⟩
    · rintro ⟨-, hclassified⟩
      exact ⟨key_of_classifySecret record secret hclassified ▸ hregressed, hclassified⟩
  simp only [Agreed, Leading, hcompetes]

/-- Validation settles the secrets. -/
lemma secretsSettled_validate :
    SecretsSettled crypto (validateVaultWithVerified crypto vault ratchet known).effective := by
  cases hresolved : resolvedWith crypto known vault ratchet with
  | none =>
    rw [(validateVaultWithVerified_of_unresolved hresolved).1]
    exact ⟨rfl, by simp [HashesSeparate, EffectiveState.unresolved], fun _ _ a _ ha => absurd ha.1.1
      List.not_mem_nil, fun _ hmem => absurd hmem List.not_mem_nil⟩
  | some resolved =>
    obtain ⟨root, records⟩ := resolved
    rw [(validateVaultWithVerified_of_resolved hresolved).1]
    obtain ⟨-, -, hrecords⟩ := resolvedWith_eq_some.mp hresolved
    have hseparate : HashesSeparate records := by
      rw [← hrecords]
      exact hashesSeparate_of_pairwise distinctHashes_verified
    refine ⟨resolveRecords_indexed crypto ratchet root records, hseparate, fun secret hfree => ?_,
      fun record hmem value hbody => ?_⟩
    · exact not_not.mp (not_or.mp (mem_conflicted_secret_iff.not.mp hfree)).2
    · rw [resolveRecords_verifiedRecords, ← hrecords] at hmem
      have hstructure := structure_of_verified hmem
      rw [hbody] at hstructure
      exact secret_of_structure hstructure

/-- The secret index agrees with plain resolution in every validated state, on every query. -/
theorem secret_index_agrees (crypto : CryptoProvider) (vault : VaultStore) (ratchet : Ratchet)
    (known : BTreeSet HashValue) (selector : SecretSelectorV1) :
    SecretsAgree crypto (validateVaultWithVerified crypto vault ratchet known).effective selector where
  conflicted := secretsSettled_validate.conflictHidden
  served := secretsSettled_validate.winnerServed
  once := nodup_secretRecords secretsSettled_validate.indexed

end Validated

end Thorax
