import Thorax.Resolution.Introduction
import Thorax.Resolution.Order

/-!
# Screening

Facts about the verified records: where they come from, what their structure guarantees, and that
deduplication, root selection, key resolution and verification do not depend on the order of the
records of a vault whose hashes do not collide.
-/

namespace Thorax

open Collections
open Std (ExtTreeMap ExtTreeSet LawfulEqCmp)

/-! ### What collision freedom gives -/

section CollisionFree

variable {crypto : CryptoProvider} {records records' : List VaultRecordV1}

lemma CollisionFree.mono (h : CollisionFree crypto records) (hsub : records' ⊆ records) :
    CollisionFree crypto records' := by
  have hmem : ∀ p ∈ records'.flatMap recordPreimages, p ∈ records.flatMap recordPreimages := by
    intro p hp
    obtain ⟨signed, hs, hp⟩ := List.mem_flatMap.mp hp
    exact List.mem_flatMap.mpr ⟨signed, hsub hs, hp⟩
  exact fun p hp q hq => h p (hmem p hp) q (hmem q hq)

variable (h : CollisionFree crypto records)

include h

/-- Two preimages hashed for the records are equal when their hashes are. -/
lemma CollisionFree.eq_of_hash {domain : HashDomain} {a b : Canonical} {r s : VaultRecordV1}
    (hr : r ∈ records) (hs : s ∈ records) (ha : (domain, a) ∈ recordPreimages r)
    (hb : (domain, b) ∈ recordPreimages s)
    (heq : deriveHash crypto domain a = deriveHash crypto domain b) : a = b :=
  h (domain, a) (List.mem_flatMap.mpr ⟨r, hr, ha⟩) (domain, b) (List.mem_flatMap.mpr ⟨s, hs, hb⟩)
    rfl heq

lemma CollisionFree.recordHash_inj {r s : VaultRecordV1} (hr : r ∈ records) (hs : s ∈ records)
    (heq : recordHash crypto r = recordHash crypto s) : r = s := by
  have := h.eq_of_hash hr hs (List.mem_cons_self) (List.mem_cons_self) heq
  exact Canonical.record.inj this

lemma CollisionFree.bytes_inj {r s : VaultRecordV1} (hr : r ∈ records) (hs : s ∈ records)
    (heq : crypto.serialize (.record r) = crypto.serialize (.record s)) : r = s :=
  h.recordHash_inj hr hs (by simp only [recordHash, deriveHash, heq])

end CollisionFree

/-! ### Distinct records -/

section Distinct

variable {crypto : CryptoProvider} {records : List VaultRecordV1} {seen : BTreeSet HashValue}

@[simp] lemma distinctRecords_nil : distinctRecords crypto seen [] = [] := rfl

lemma distinctRecords_cons (signed : VaultRecordV1) :
    distinctRecords crypto seen (signed :: records) =
      if seen.contains (recordHash crypto signed) then distinctRecords crypto seen records
      else signed :: distinctRecords crypto (seen.insert (recordHash crypto signed)) records := rfl

lemma mem_of_mem_distinctRecords {signed : VaultRecordV1}
    (h : signed ∈ distinctRecords crypto seen records) :
    signed ∈ records ∧ recordHash crypto signed ∉ seen := by
  induction records generalizing seen with
  | nil => simp at h
  | cons a records ih =>
    simp only [distinctRecords_cons] at h
    split_ifs at h with hseen
    · exact ⟨List.mem_cons_of_mem _ (ih h).1, (ih h).2⟩
    · rcases List.mem_cons.mp h with rfl | h
      · exact ⟨List.mem_cons_self, fun hmem => hseen (ExtTreeSet.contains_iff_mem.mpr hmem)⟩
      · exact ⟨List.mem_cons_of_mem _ (ih h).1, fun hmem =>
          (ih h).2 (ExtTreeSet.mem_insert.mpr (Or.inr hmem))⟩

lemma distinctRecords_nodup :
    (distinctRecords crypto seen records).Pairwise
      (fun a b => recordHash crypto a ≠ recordHash crypto b) := by
  induction records generalizing seen with
  | nil => simp
  | cons a records ih =>
    simp only [distinctRecords_cons]
    split_ifs
    · exact ih
    · refine List.Pairwise.cons (fun b hb heq => ?_) ih
      have hnot := (mem_of_mem_distinctRecords hb).2
      rw [← heq] at hnot
      exact hnot (by simp)

lemma mem_distinctRecords_of_mem {signed : VaultRecordV1}
    (hinj : ∀ a ∈ records, ∀ b ∈ records, recordHash crypto a = recordHash crypto b → a = b)
    (hmem : signed ∈ records) (hseen : recordHash crypto signed ∉ seen) :
    signed ∈ distinctRecords crypto seen records := by
  induction records generalizing seen with
  | nil => simp at hmem
  | cons a records ih =>
    have hinj' : ∀ b ∈ records, ∀ c ∈ records, recordHash crypto b = recordHash crypto c → b = c :=
      fun b hb c hc => hinj b (List.mem_cons_of_mem _ hb) c (List.mem_cons_of_mem _ hc)
    simp only [distinctRecords_cons]
    by_cases hsa : signed = a
    · subst hsa
      rw [if_neg fun hc => hseen (ExtTreeSet.contains_iff_mem.mp hc)]
      exact List.mem_cons_self
    · have hmem' : signed ∈ records := (List.mem_cons.mp hmem).resolve_left hsa
      split_ifs
      · exact ih hinj' hmem' hseen
      · refine List.mem_cons_of_mem _ (ih hinj' hmem' fun hins => ?_)
        simp only [ExtTreeSet.mem_insert, LawfulEqCmp.compare_eq_iff_eq] at hins
        rcases hins with heq | hins
        · exact hsa (hinj signed (List.mem_cons_of_mem _ hmem') a List.mem_cons_self heq.symm)
        · exact hseen hins

/-- Deduplication keeps every record when hashes do not collide. -/
lemma mem_distinctRecords (hcf : CollisionFree crypto records) {signed : VaultRecordV1} :
    signed ∈ distinctRecords crypto ∅ records ↔ signed ∈ records :=
  ⟨fun h => (mem_of_mem_distinctRecords h).1, fun h =>
    mem_distinctRecords_of_mem (fun _ ha _ hb => hcf.recordHash_inj ha hb) h (by simp)⟩

/-- Lists of the same records deduplicate to arrangements of the same list. -/
lemma distinctRecords_perm {records' : List VaultRecordV1} (hcf : CollisionFree crypto records)
    (h : ∀ signed, signed ∈ records ↔ signed ∈ records') :
    (distinctRecords crypto ∅ records).Perm (distinctRecords crypto ∅ records') := by
  have hnodup : ∀ l : List VaultRecordV1, (distinctRecords crypto ∅ l).Nodup := fun l =>
    distinctRecords_nodup.imp fun hab heq => hab (by rw [heq])
  rw [List.perm_ext_iff_of_nodup (hnodup _) (hnodup _)]
  intro signed
  rw [mem_distinctRecords hcf, mem_distinctRecords (hcf.mono fun a ha => (h a).mpr ha), h]

end Distinct

/-! ### Verified records -/

section Verdicts

variable {crypto : CryptoProvider} {verified : BTreeSet HashValue} {root : SelectedRoot}
variable {resolution : SignerResolution} {signed : VaultRecordV1} {record : VerifiedRecord}

/-- The one way to a verified record. -/
lemma judgeRecord_eq_verified :
    judgeRecord crypto verified root resolution signed = .verified record ↔
      signed.body = .known record.body ∧ record.signed = signed ∧
      record.recordHash = recordHash crypto signed ∧
      structurallyValidateRecord crypto signed record.body root.root = .ok () ∧
      signed.signingPublicKey ∉ resolution.contestedKeys ∧
      resolution.signerForKey[signed.signingPublicKey]? = some record.signer ∧
      acceptsEnvelope crypto verified signed = true := by
  unfold judgeRecord
  cases hbody : signed.body with
  | unknown raw => simp
  | known body =>
    simp only [Evolving.known.injEq]
    cases hstruct : structurallyValidateRecord crypto signed body root.root with
    | error issue =>
      simp only [reduceCtorEq, false_iff, not_and]
      rintro rfl _ _ hok
      simp [hstruct] at hok
    | ok _ =>
      by_cases hcont : signed.signingPublicKey ∈ resolution.contestedKeys
      · simp [hcont]
      · cases hsigner : resolution.signerForKey[signed.signingPublicKey]? with
        | none => simp [hcont]
        | some signer =>
          by_cases hacc : acceptsEnvelope crypto verified signed = true
          · obtain ⟨rs, rb, rh, rsig⟩ := record
            simp only [List.contains_iff_mem, hcont, hacc, if_true, if_false, not_false_eq_true,
              RecordVerdict.verified.injEq, VerifiedRecord.mk.injEq, Option.some.injEq, and_true,
              true_and]
            constructor
            · rintro ⟨rfl, rfl, rfl, rfl⟩
              exact ⟨rfl, rfl, rfl, hstruct, rfl⟩
            · rintro ⟨rfl, rfl, rfl, _, rfl⟩
              exact ⟨rfl, rfl, rfl, rfl⟩
          · simp [hcont, hacc]

variable {records records' : List VaultRecordV1}

lemma mem_verifiedRecords :
    record ∈ (screenRecords crypto verified root records).verifiedRecords ↔
      ∃ signed ∈ records, judgeRecord crypto verified root
        (signerResolution crypto verified root records) signed = .verified record := by
  simp only [screenRecords, List.mem_filterMap, List.mem_map, exists_exists_and_eq_and]
  refine exists_congr fun signed => and_congr_right fun _ => ?_
  cases judgeRecord crypto verified root (signerResolution crypto verified root records) signed <;>
    simp [RecordVerdict.verified?]

/-- The envelope of a verified record is one of the records. -/
lemma signed_mem_of_verified
    (h : record ∈ (screenRecords crypto verified root records).verifiedRecords) :
    record.signed ∈ records := by
  obtain ⟨signed, hmem, hv⟩ := mem_verifiedRecords.mp h
  rw [(judgeRecord_eq_verified.mp hv).2.1]
  exact hmem

lemma structure_of_verified
    (h : record ∈ (screenRecords crypto verified root records).verifiedRecords) :
    structurallyValidateRecord crypto record.signed record.body root.root = .ok () := by
  obtain ⟨signed, _, hv⟩ := mem_verifiedRecords.mp h
  obtain ⟨_, hsigned, _, hstruct, _⟩ := judgeRecord_eq_verified.mp hv
  rw [hsigned]
  exact hstruct

lemma body_of_verified
    (h : record ∈ (screenRecords crypto verified root records).verifiedRecords) :
    record.signed.body = .known record.body := by
  obtain ⟨signed, _, hv⟩ := mem_verifiedRecords.mp h
  obtain ⟨hbody, hsigned, _⟩ := judgeRecord_eq_verified.mp hv
  rw [hsigned]
  exact hbody

/-- A verified record is determined by its envelope. -/
lemma eq_of_signed_eq {record' : VerifiedRecord}
    (h : record ∈ (screenRecords crypto verified root records).verifiedRecords)
    (h' : record' ∈ (screenRecords crypto verified root records).verifiedRecords)
    (heq : record.signed = record'.signed) : record = record' := by
  obtain ⟨signed, _, hv⟩ := mem_verifiedRecords.mp h
  obtain ⟨signed', _, hv'⟩ := mem_verifiedRecords.mp h'
  rw [(judgeRecord_eq_verified.mp hv).2.1, (judgeRecord_eq_verified.mp hv').2.1] at heq
  subst heq
  exact RecordVerdict.verified.inj (hv.symm.trans hv')

lemma hash_of_verified
    (h : record ∈ (screenRecords crypto verified root records).verifiedRecords) :
    record.recordHash = recordHash crypto record.signed := by
  obtain ⟨signed, _, hv⟩ := mem_verifiedRecords.mp h
  obtain ⟨_, hsigned, hhash, _⟩ := judgeRecord_eq_verified.mp hv
  rw [hsigned, hhash]

lemma hashesSeparate_verified (hcf : CollisionFree crypto records) :
    HashesSeparate (screenRecords crypto verified root records).verifiedRecords := by
  intro a ha b hb heq
  rw [hash_of_verified ha, hash_of_verified hb] at heq
  exact eq_of_signed_eq ha hb
    (hcf.recordHash_inj (signed_mem_of_verified ha) (signed_mem_of_verified hb) heq)

/-- Deduplication leaves records whose hashes differ pairwise. -/
lemma distinctHashes_verified {seen : BTreeSet HashValue} :
    (screenRecords crypto verified root
      (distinctRecords crypto seen records)).verifiedRecords.Pairwise
        (fun a b => a.recordHash ≠ b.recordHash) := by
  simp only [screenRecords, List.filterMap_map, List.pairwise_filterMap]
  refine distinctRecords_nodup.imp fun {signed signed'} hne a ha b hb => ?_
  have hhash : ∀ {signed : VaultRecordV1} {record : VerifiedRecord},
      (judgeRecord crypto verified root (signerResolution crypto verified root
        (distinctRecords crypto seen records)) signed).verified? = some record →
      record.recordHash = recordHash crypto signed := by
    intro signed record hv
    unfold RecordVerdict.verified? at hv
    split at hv
    · next hj =>
      obtain rfl := Option.some.inj hv
      exact (judgeRecord_eq_verified.mp hj).2.2.1
    · cases hv
  rw [hhash ha, hhash hb]
  exact hne

lemma bytesSeparate_verified (hcf : CollisionFree crypto records) :
    BytesSeparate crypto (screenRecords crypto verified root records).verifiedRecords :=
  fun _ ha _ hb => hcf.bytes_inj (signed_mem_of_verified ha) (signed_mem_of_verified hb)

end Verdicts

/-! ### Origins -/

section Origins

variable {crypto : CryptoProvider}

/-- What is hashed to the identifier in a key with this origin. -/
def originPreimage : KeyOrigin → HashDomain × Canonical
  | .secret selector => (.secret, .selector selector)
  | .userHandle handle => (.userHandle, .text (normalizeHandle handle))
  | .vaultHandle handle => (.vaultHandle, .text (normalizeHandle handle))
  | .groupMember groupId memberId => (.groupMember, .groupMemberIdInput groupId memberId)

/-- The key whose identifier is the hash of an origin. -/
def originKey (crypto : CryptoProvider) : KeyOrigin → RecordKey
  | .secret selector => .secret (deriveSecretId crypto selector)
  | .userHandle handle => .userHandle (deriveUserHandleId crypto handle)
  | .vaultHandle handle => .vaultHandle (deriveVaultHandleId crypto handle)
  | .groupMember groupId memberId => .groupMember (deriveGroupMemberId crypto groupId memberId)

/-- An origin whose handle, if it has one, is in normal form. -/
def originNormal : KeyOrigin → Prop
  | .userHandle handle | .vaultHandle handle => normalizeHandle handle = handle
  | _ => True

/-- A structurally valid record with an origin stands at the key of that origin. -/
lemma key_of_origin {root : VaultRootRecordV1} {record : VerifiedRecord} {origin : KeyOrigin}
    (horigin : recordOrigin record.body = some origin)
    (hsigned : record.signed.body = .known record.body)
    (hstruct : structurallyValidateRecord crypto record.signed record.body root = .ok ()) :
    record.key = originKey crypto origin ∧ originNormal origin ∧
      originPreimage origin ∈ recordPreimages record.signed := by
  unfold VerifiedRecord.key recordPreimages
  rw [hsigned]
  cases hbody : record.body with
  | secret r =>
    rw [hbody] at horigin hstruct
    obtain rfl := Option.some.inj horigin
    simp [recordKeyFor, originKey, originNormal, originPreimage, secret_of_structure hstruct]
  | secretDeleted r =>
    rw [hbody] at horigin hstruct
    obtain rfl := Option.some.inj horigin
    simp [recordKeyFor, originKey, originNormal, originPreimage, secretDeleted_of_structure hstruct]
  | userHandle r =>
    rw [hbody] at horigin hstruct
    obtain rfl := Option.some.inj horigin
    obtain ⟨hvalid, hid⟩ := userHandle_of_structure hstruct
    simp [recordKeyFor, originKey, originNormal, originPreimage, hid,
      normalizeHandle_of_valid hvalid]
  | vaultHandle r =>
    rw [hbody] at horigin hstruct
    obtain rfl := Option.some.inj horigin
    obtain ⟨hvalid, hid⟩ := vaultHandle_of_structure hstruct
    simp [recordKeyFor, originKey, originNormal, originPreimage, hid,
      normalizeHandle_of_valid hvalid]
  | groupMember r =>
    rw [hbody] at horigin hstruct
    obtain rfl := Option.some.inj horigin
    simp [recordKeyFor, originKey, originNormal, originPreimage, groupMember_of_structure hstruct]
  | groupMemberDeleted r =>
    rw [hbody] at horigin hstruct
    obtain rfl := Option.some.inj horigin
    simp [recordKeyFor, originKey, originNormal, originPreimage,
      groupMemberDeleted_of_structure hstruct]
  | _ => simp [hbody, recordOrigin] at horigin

/-- Origins are equal when they are hashed to the same key without a collision. -/
lemma origin_eq_of_key {records : List VaultRecordV1} (hcf : CollisionFree crypto records)
    {r s : VaultRecordV1} (hr : r ∈ records) (hs : s ∈ records) {o o' : KeyOrigin}
    (ho : originPreimage o ∈ recordPreimages r) (ho' : originPreimage o' ∈ recordPreimages s)
    (hn : originNormal o) (hn' : originNormal o')
    (hkey : originKey crypto o = originKey crypto o') : o = o' := by
  have hinj := fun (heq : (originPreimage o).1 = (originPreimage o').1) =>
    hcf (originPreimage o) (List.mem_flatMap.mpr ⟨r, hr, ho⟩) (originPreimage o')
      (List.mem_flatMap.mpr ⟨s, hs, ho'⟩) heq
  cases o with
  | secret a =>
    cases o' <;> simp_all [originKey, originPreimage, deriveSecretId]
  | userHandle a =>
    cases o' <;> simp_all [originKey, originPreimage, deriveUserHandleId, originNormal]
  | vaultHandle a =>
    cases o' <;> simp_all [originKey, originPreimage, deriveVaultHandleId, originNormal]
  | groupMember a b =>
    cases o' <;> simp_all [originKey, originPreimage, deriveGroupMemberId]

lemma originsAgree_verified {verified : BTreeSet HashValue} {root : SelectedRoot}
    {records : List VaultRecordV1} (hcf : CollisionFree crypto records) :
    OriginsAgree (screenRecords crypto verified root records).verifiedRecords := by
  intro a ha b hb hkey o o' ho ho'
  obtain ⟨hka, hna, hpa⟩ := key_of_origin ho (body_of_verified ha) (structure_of_verified ha)
  obtain ⟨hkb, hnb, hpb⟩ := key_of_origin ho' (body_of_verified hb) (structure_of_verified hb)
  exact origin_eq_of_key hcf (signed_mem_of_verified ha) (signed_mem_of_verified hb) hpa hpb hna hnb
    (hka.symm.trans (hkey.trans hkb))

end Origins

/-! ### The root and the signers -/

section Signers

variable {crypto : CryptoProvider} {verified : BTreeSet HashValue} {root : SelectedRoot}
variable {records records' : List VaultRecordV1} {trustedRoot : HashValue}

/-- The one way to a selected root. -/
lemma rootMatch_eq_some {signed : VaultRecordV1} :
    rootMatch crypto trustedRoot verified signed = some root ↔
      signed.body = .known (.vaultRoot root.root) ∧
      signed.signingPublicKey = root.signingPublicKey ∧
      root.root.id = deriveUserId crypto root.signingPublicKey root.root.hpkePublicKey ∧
      acceptsEnvelope crypto verified signed = true ∧
      keyHash crypto root.signingPublicKey = trustedRoot ∧
      root.rootSigningPublicKeyHash = trustedRoot := by
  obtain ⟨r, key, hash⟩ := root
  unfold rootMatch
  split
  · next r' hbody =>
    simp only [Option.ite_none_right_eq_some, Option.some.injEq, SelectedRoot.mk.injEq, hbody,
      Evolving.known.injEq, RecordBodyV1.vaultRoot.injEq]
    constructor
    · rintro ⟨⟨hid, hacc, htrust⟩, rfl, rfl, rfl⟩
      exact ⟨rfl, rfl, hid, hacc, htrust, htrust⟩
    · rintro ⟨rfl, rfl, hid, hacc, htrust, rfl⟩
      exact ⟨⟨hid, hacc, htrust⟩, rfl, rfl, htrust⟩
  · next hbody =>
    simp only [reduceCtorEq, false_iff, not_and]
    intro h
    exact absurd h (hbody r)

lemma selectRoot_eq_ok :
    selectRoot crypto records trustedRoot verified = .ok root ↔
      records.filterMap (rootMatch crypto trustedRoot verified) = [root] := by
  unfold selectRoot
  split
  · next h => simp [h]
  · next r h => simp [h]
  · next h1 h2 =>
    simp only [reduceCtorEq, false_iff]
    exact h2 root

/-- The selected root is declared by a record of the vault. -/
lemma exists_root_record (h : selectRoot crypto records trustedRoot verified = .ok root) :
    ∃ signed ∈ records, rootMatch crypto trustedRoot verified signed = some root := by
  have hmem : root ∈ records.filterMap (rootMatch crypto trustedRoot verified) := by
    rw [selectRoot_eq_ok.mp h]
    exact List.mem_singleton_self root
  exact List.mem_filterMap.mp hmem

/-- The selected root has the trusted key. -/
lemma trustedRoot_of_selectRoot (h : selectRoot crypto records trustedRoot verified = .ok root) :
    root.rootSigningPublicKeyHash = trustedRoot := by
  obtain ⟨_, _, hmatch⟩ := exists_root_record h
  exact (rootMatch_eq_some.mp hmatch).2.2.2.2.2

lemma selectRoot_perm (h : records.Perm records') :
    selectRoot crypto records trustedRoot verified =
      selectRoot crypto records' trustedRoot verified := by
  have hperm := h.filterMap (rootMatch crypto trustedRoot verified)
  unfold selectRoot
  generalize records.filterMap (rootMatch crypto trustedRoot verified) = l at hperm
  generalize records'.filterMap (rootMatch crypto trustedRoot verified) = l' at hperm
  match l, l', hperm with
  | [], [], _ => rfl
  | [a], [b], hp => rw [List.singleton_perm_singleton.mp hp]
  | [], _ :: _, hp => exact absurd hp.length_eq (by simp)
  | _ :: _, [], hp => exact absurd hp.length_eq (by simp)
  | [_], _ :: _ :: _, hp => exact absurd hp.length_eq (by simp)
  | _ :: _ :: _, [_], hp => exact absurd hp.length_eq (by simp)
  | _ :: _ :: _, _ :: _ :: _, _ => rfl

lemma mem_userBodies {entry : VaultRecordV1 × UserRecordV1} :
    entry ∈ userBodies crypto records ↔ entry.1 ∈ records ∧
      entry.1.body = .known (.user entry.2) ∧
      entry.2.id = deriveUserId crypto entry.2.signingPublicKey entry.2.hpkePublicKey := by
  obtain ⟨signed, user⟩ := entry
  simp only [userBodies, List.mem_filterMap]
  constructor
  · rintro ⟨s, hs, h⟩
    split at h
    · next u hbody =>
      simp only [Option.ite_none_right_eq_some, Option.some.injEq, Prod.mk.injEq,
        structurallyValidUser_iff] at h
      obtain ⟨hid, rfl, rfl⟩ := h
      exact ⟨hs, hbody, hid⟩
    · simp at h
  · rintro ⟨hs, hbody, hid⟩
    refine ⟨signed, hs, ?_⟩
    simp only [hbody, structurallyValidUser_iff.mpr hid, if_true]

/-- Without collisions, identifiers determine signing keys. -/
lemma identitiesSeparate (hcf : CollisionFree crypto records)
    (hroot : selectRoot crypto records trustedRoot verified = .ok root) :
    IdentitiesSeparate (userBodies crypto records) root := by
  have hpre : ∀ entry ∈ userBodies crypto records, (HashDomain.user, Canonical.userIdInput
      entry.2.signingPublicKey entry.2.hpkePublicKey) ∈ recordPreimages entry.1 := by
    intro entry hentry
    simp [recordPreimages, (mem_userBodies.mp hentry).2.1]
  refine ⟨fun a ha b hb heq => ?_, fun a ha heq => ?_⟩
  · have hids : deriveHash crypto .user (.userIdInput a.2.signingPublicKey a.2.hpkePublicKey) =
        deriveHash crypto .user (.userIdInput b.2.signingPublicKey b.2.hpkePublicKey) := by
      rw [(mem_userBodies.mp ha).2.2, (mem_userBodies.mp hb).2.2] at heq
      exact congrArg Id.hash heq
    exact (Canonical.userIdInput.inj (hcf.eq_of_hash (mem_userBodies.mp ha).1
      (mem_userBodies.mp hb).1 (hpre a ha) (hpre b hb) hids)).1
  · obtain ⟨signed, hsigned, hmatch⟩ := exists_root_record hroot
    obtain ⟨hbody, hkey, hid, _⟩ := rootMatch_eq_some.mp hmatch
    have hids : deriveHash crypto .user (.userIdInput a.2.signingPublicKey a.2.hpkePublicKey) =
        deriveHash crypto .user (.userIdInput root.signingPublicKey root.root.hpkePublicKey) := by
      rw [(mem_userBodies.mp ha).2.2, hid] at heq
      exact congrArg Id.hash heq
    have hrootpre : (HashDomain.user, Canonical.userIdInput root.signingPublicKey
        root.root.hpkePublicKey) ∈ recordPreimages signed := by
      simp [recordPreimages, hbody, hkey]
    exact (Canonical.userIdInput.inj (hcf.eq_of_hash (mem_userBodies.mp ha).1 hsigned
      (hpre a ha) hrootpre hids)).1

/-- More user records reach more keys. -/
lemma KeyIntroduced.mono {bodies bodies' : List (VaultRecordV1 × UserRecordV1)}
    (hsub : bodies ⊆ bodies') {key : Bytes} (h : KeyIntroduced crypto verified bodies root key) :
    KeyIntroduced crypto verified bodies' root key := by
  induction h with
  | root => exact .root
  | step hentry _ hacc ih => exact .step (hsub hentry) ih hacc

lemma Claims.mono {bodies bodies' : List (VaultRecordV1 × UserRecordV1)}
    (hsub : bodies ⊆ bodies') {key : Bytes} {user : UserId}
    (h : Claims crypto verified bodies root key user) :
    Claims crypto verified bodies' root key user := by
  obtain ⟨entry, ⟨hmem, hkey, hacc⟩, hk, hid, hne⟩ := h
  exact ⟨entry, ⟨hsub hmem, hkey.mono hsub, hacc⟩, hk, hid, hne⟩

/-- Vaults with the same user records and entry points resolve signing keys alike. -/
lemma signerResolution_congr
    (hids : IdentitiesSeparate (userBodies crypto records) root)
    (hids' : IdentitiesSeparate (userBodies crypto records') root)
    (hbodies : ∀ entry, entry ∈ userBodies crypto records ↔ entry ∈ userBodies crypto records')
    (hattested : attestedUsers crypto verified root.root.id records =
      attestedUsers crypto verified root.root.id records') :
    signerResolution crypto verified root records =
      signerResolution crypto verified root records' := by
  have hclaims : ∀ key user, Claims crypto verified (userBodies crypto records) root key user ↔
      Claims crypto verified (userBodies crypto records') root key user := fun key user =>
    ⟨Claims.mono fun e he => (hbodies e).mp he, Claims.mono fun e he => (hbodies e).mpr he⟩
  have heq : (introduce crypto verified root records).claims =
      (introduce crypto verified root records').claims := by
    apply ExtTreeMap.ext_getElem?
    intro key
    obtain ⟨hmem, hnone⟩ := claims_spec verified hids key
    obtain ⟨hmem', hnone'⟩ := claims_spec verified hids' key
    cases hc : (introduce crypto verified root records).claims[key]? with
    | none =>
      have hno : ∀ user, ¬ Claims crypto verified (userBodies crypto records') root key user :=
        fun user h => hnone.mp hc user ((hclaims key user).mpr h)
      exact (hnone'.mpr hno).symm
    | some claimants =>
      cases hc' : (introduce crypto verified root records').claims[key]? with
      | none =>
        have hno : ∀ user, ¬ Claims crypto verified (userBodies crypto records) root key user :=
          fun user h => hnone'.mp hc' user ((hclaims key user).mp h)
        simp [hnone.mpr hno] at hc
      | some claimants' =>
        congr 1
        apply set_ext
        intro user
        have h1 := hmem user
        have h2 := hmem' user
        rw [hc, Option.getD_some] at h1
        rw [hc', Option.getD_some] at h2
        rw [h1, h2, hclaims]
  simp only [signerResolution, heq, hattested]

lemma screenRecords_perm (h : records.Perm records') (hcf : CollisionFree crypto records)
    (hroot : selectRoot crypto records trustedRoot verified = .ok root) :
    (screenRecords crypto verified root records).verifiedRecords.Perm
        (screenRecords crypto verified root records').verifiedRecords ∧
      (screenRecords crypto verified root records).issues.Perm
        (screenRecords crypto verified root records').issues ∧
      (screenRecords crypto verified root records).unknownRecords =
        (screenRecords crypto verified root records').unknownRecords ∧
      (screenRecords crypto verified root records).ambiguousKeys =
        (screenRecords crypto verified root records').ambiguousKeys := by
  have hroot' : selectRoot crypto records' trustedRoot verified = .ok root := by
    rw [← selectRoot_perm h]
    exact hroot
  have hres : signerResolution crypto verified root records =
      signerResolution crypto verified root records' := by
    apply signerResolution_congr (identitiesSeparate hcf hroot)
      (identitiesSeparate (hcf.mono fun a ha => h.mem_iff.mpr ha) hroot')
    · intro entry
      rw [mem_userBodies, mem_userBodies, h.mem_iff]
    · exact collectSet_perm h ∅
  have hverdicts := h.map (judgeRecord crypto verified root
    (signerResolution crypto verified root records'))
  simp only [screenRecords, hres]
  exact ⟨hverdicts.filterMap _, hverdicts.filterMap _, hverdicts.countP_eq _, trivial⟩

end Signers

/-! ### Appended records -/

/-- Whether a body says who holds a signing key. -/
def RecordBodyV1.isIdentity : RecordBodyV1 → Bool
  | .vaultRoot _ | .user _ | .entryPoint _ => true
  | _ => false

section Appended

variable {crypto : CryptoProvider} {verified : BTreeSet HashValue} {root : SelectedRoot}
variable {records appended : List VaultRecordV1} {trustedRoot : HashValue}

/-- Deduplication scans what is appended last. -/
lemma distinctRecords_append (seen : BTreeSet HashValue) :
    ∃ seen', distinctRecords crypto seen (records ++ appended) =
      distinctRecords crypto seen records ++ distinctRecords crypto seen' appended := by
  induction records generalizing seen with
  | nil => exact ⟨seen, rfl⟩
  | cons signed records ih =>
    simp only [List.cons_append, distinctRecords_cons]
    split_ifs
    · exact ih seen
    · obtain ⟨seen', heq⟩ := ih (seen.insert (recordHash crypto signed))
      exact ⟨seen', by rw [heq, List.cons_append]⟩

variable (h : ∀ signed ∈ appended, ∀ body, signed.body = .known body → body.isIdentity = false)

include h

lemma selectRoot_append : selectRoot crypto (records ++ appended) trustedRoot verified =
    selectRoot crypto records trustedRoot verified := by
  have hnone : appended.filterMap (rootMatch crypto trustedRoot verified) = [] := by
    rw [List.filterMap_eq_nil_iff]
    intro signed hmem
    unfold rootMatch
    split
    · next root hbody => cases h signed hmem _ hbody
    · rfl
  simp only [selectRoot, List.filterMap_append, hnone, List.append_nil]

/-- Records that say nothing about identities leave the signing keys as they resolve. -/
lemma signerResolution_append : signerResolution crypto verified root (records ++ appended) =
    signerResolution crypto verified root records := by
  have hbodies : userBodies crypto (records ++ appended) = userBodies crypto records := by
    have hnone : userBodies crypto appended = [] := by
      rw [userBodies, List.filterMap_eq_nil_iff]
      intro signed hmem
      split
      · next user hbody => cases h signed hmem _ hbody
      · rfl
    rw [userBodies, List.filterMap_append]
    exact (congrArg (userBodies crypto records ++ ·) hnone).trans (List.append_nil _)
  have hattested : attestedUsers crypto verified root.root.id (records ++ appended) =
      attestedUsers crypto verified root.root.id records := by
    apply set_ext
    intro user
    simp only [attestedUsers, mem_collectSet, List.mem_append]
    refine or_congr_right ⟨?_, ?_⟩
    · rintro ⟨signed, hmem | hmem, hu⟩
      · exact ⟨signed, hmem, hu⟩
      · unfold attestation at hu
        split at hu
        · next entryPoint hbody => cases h signed hmem _ hbody
        · cases hu
    · rintro ⟨signed, hmem, hu⟩
      exact ⟨signed, Or.inl hmem, hu⟩
  simp only [signerResolution, introduce, hbodies, hattested]

lemma verifiedRecords_append :
    (screenRecords crypto verified root (records ++ appended)).verifiedRecords =
      (screenRecords crypto verified root records).verifiedRecords ++
        appended.filterMap fun signed => (judgeRecord crypto verified root
          (signerResolution crypto verified root records) signed).verified? := by
  simp only [screenRecords, signerResolution_append h, List.map_append, List.filterMap_append,
    List.filterMap_map, Function.comp_def]

end Appended

end Thorax
