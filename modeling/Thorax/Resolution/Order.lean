import Thorax.Resolution.Watermarks

/-!
# Resolution does not depend on the order of records

Every stage after verification scans the verified records in file order. None of them depends
on that order once distinct records have distinct hashes and distinct canonical bytes.
-/

namespace Thorax

open Collections
open Std (ExtTreeMap TransOrd LawfulEqOrd LawfulEqCmp OrientedCmp)

/-- Distinct records are told apart by their hashes. -/
def HashesSeparate (records : List VerifiedRecord) : Prop :=
  ∀ a ∈ records, ∀ b ∈ records, a.recordHash = b.recordHash → a = b

lemma hashesSeparate_of_pairwise {records : List VerifiedRecord}
    (h : records.Pairwise fun a b => a.recordHash ≠ b.recordHash) : HashesSeparate records := by
  intro a ha b hb heq
  by_contra hne
  have : Std.Symm fun a b : VerifiedRecord => a.recordHash ≠ b.recordHash :=
    ⟨fun _ _ hab => hab.symm⟩
  exact h.forall ha hb hne heq

/-- Distinct envelopes are told apart by their canonical bytes. -/
def BytesSeparate (crypto : CryptoProvider) (records : List VerifiedRecord) : Prop :=
  ∀ a ∈ records, ∀ b ∈ records,
    crypto.serialize (.record a.signed) = crypto.serialize (.record b.signed) → a.signed = b.signed

section Resolution

variable {K : Type} [Ord K] [TransOrd K] [LawfulEqOrd K] [DecidableEq K]
variable {records records' : List VerifiedRecord} {rollbackKeys : BTreeMap RecordKey ℕ}

omit [TransOrd K] [LawfulEqOrd K] [Ord K] in
lemma leadersAt_perm (h : records.Perm records') (classify : VerifiedRecord → Option K) (k : K) :
    (leadersAt records rollbackKeys classify k).Perm (leadersAt records' rollbackKeys classify k) :=
  Lww.leaders_perm _ (h.filter _)

lemma conflictSlot_perm {l l' : List VerifiedRecord} (h : l.Perm l')
    (hkey : ∀ a ∈ l, ∀ b ∈ l, a.key = b.key) (hcounter : ∀ a ∈ l, ∀ b ∈ l, a.counter = b.counter) :
    conflictSlot l = conflictSlot l' := by
  cases l with
  | nil => rw [List.nil_perm.mp h]
  | cons a l =>
    cases l' with
    | nil => simp at h
    | cons b l' =>
      have hb : b ∈ a :: l := h.mem_iff.mpr List.mem_cons_self
      have hsort : sortBy compare ((a :: l).map VerifiedRecord.recordHash) =
          sortBy compare ((b :: l').map VerifiedRecord.recordHash) :=
        sortBy_eq_of_perm compare (h.map _) fun _ _ _ _ heq => LawfulEqCmp.eq_of_compare heq
      simp only [conflictSlot, Lww.diverging_perm VerifiedRecord.body h, hsort,
        hkey a List.mem_cons_self b hb, hcounter a List.mem_cons_self b hb]

lemma lwwResolution_perm (h : records.Perm records') (hsep : HashesSeparate records)
    {classify : VerifiedRecord → Option K} {mkKey : K → RecordKey}
    (hinj : Function.Injective mkKey)
    (hkey : ∀ record k, classify record = some k → record.key = mkKey k) :
    lwwResolution records rollbackKeys classify = lwwResolution records' rollbackKeys classify := by
  have hleaders : ∀ k, (leadersAt records rollbackKeys classify k).Perm
      (leadersAt records' rollbackKeys classify k) := leadersAt_perm h classify
  have hmem : ∀ {k record}, record ∈ leadersAt records rollbackKeys classify k →
      record ∈ records ∧ classify record = some k := fun hr =>
    ⟨(mem_pool.mp (mem_leadersAt.mp hr).1).1, (mem_pool.mp (mem_leadersAt.mp hr).1).2.2⟩
  have hwinners : (lwwResolution records rollbackKeys classify).winners =
      (lwwResolution records' rollbackKeys classify).winners := by
    apply ExtTreeMap.ext_getElem?
    intro k
    rw [getElem?_winners, getElem?_winners, Lww.winner_perm _ _ (hleaders k)]
    exact fun a ha b hb => hsep a (hmem ha).1 b (hmem hb).1
  have hconf : (lwwResolution records rollbackKeys classify).conflicted =
      (lwwResolution records' rollbackKeys classify).conflicted := by
    apply ExtTreeMap.ext_getElem?
    intro key
    by_cases hk : ∃ k, mkKey k = key
    · obtain ⟨k, rfl⟩ := hk
      rw [getElem?_conflicted _ _ _ hkey hinj, getElem?_conflicted _ _ _ hkey hinj,
        conflictSlot_perm (hleaders k)]
      · intro a ha b hb
        rw [hkey a k (hmem ha).2, hkey b k (hmem hb).2]
      · exact fun a ha b hb => Lww.counter_eq_of_mem_leaders _ ha hb
    · push Not at hk
      rw [getElem?_conflicted_of_ne _ _ _ hkey hk, getElem?_conflicted_of_ne _ _ _ hkey hk]
  cases hr : lwwResolution records rollbackKeys classify
  cases hr' : lwwResolution records' rollbackKeys classify
  simp_all

end Resolution

section Stages

variable {records records' : List VerifiedRecord} {rollbackKeys : BTreeMap RecordKey ℕ}
variable (h : records.Perm records') (hsep : HashesSeparate records)

include h

lemma entryPointUsers_perm :
    entryPointUsers records rollbackKeys = entryPointUsers records' rollbackKeys :=
  collectSet_perm h ∅

include hsep

lemma selectAuthorizedRecords_perm (rootUserRecord : UserRecordV1) (attested : BTreeSet UserId)
    (admitted : BTreeSet HashValue) (authorities : Authorities) :
    selectAuthorizedRecords records rootUserRecord attested admitted rollbackKeys authorities =
      selectAuthorizedRecords records' rootUserRecord attested admitted rollbackKeys
        authorities := by
  have hu : lwwResolution records rollbackKeys
      (classifyUser admitted authorities rootUserRecord.id) =
        lwwResolution records' rollbackKeys _ :=
    lwwResolution_perm h hsep (fun _ _ heq => RecordKey.user.inj heq) fun record k =>
      key_of_classifyUser record k
  have hg : lwwResolution records rollbackKeys (classifyGroup admitted authorities) =
      lwwResolution records' rollbackKeys _ :=
    lwwResolution_perm h hsep (fun _ _ heq => RecordKey.group.inj heq) key_of_classifyGroup
  have hm : ∀ users groups,
      lwwResolution records rollbackKeys (classifyMembership authorities users groups) =
        lwwResolution records' rollbackKeys _ := fun users groups =>
    lwwResolution_perm h hsep (fun _ _ heq => RecordKey.groupMember.inj heq)
      key_of_classifyMembership
  have hgr : ∀ users groups,
      lwwResolution records rollbackKeys (classifyGrant admitted authorities users groups) =
        lwwResolution records' rollbackKeys _ := fun users groups =>
    lwwResolution_perm h hsep (fun _ _ heq => RecordKey.grant.inj heq) key_of_classifyGrant
  simp only [selectAuthorizedRecords, hu, hg, hm, hgr]

lemma resolutionRound_perm (rootUserRecord : UserRecordV1) (admitted : BTreeSet HashValue) :
    resolutionRound records rootUserRecord admitted rollbackKeys =
      resolutionRound records' rootUserRecord admitted rollbackKeys := by
  funext state
  simp only [resolutionRound, entryPointUsers_perm h,
    selectAuthorizedRecords_perm h hsep]

variable {crypto : CryptoProvider} (hbytes : BytesSeparate crypto records)

include hbytes

omit hsep in
/-- Envelopes sorted by their canonical bytes. -/
lemma sortedEnvelopes_perm (p : VerifiedRecord → Bool) :
    sortBy (compareOn fun signed => crypto.serialize (.record signed))
        ((records.filter p).map VerifiedRecord.signed) =
      sortBy (compareOn fun signed => crypto.serialize (.record signed))
        ((records'.filter p).map VerifiedRecord.signed) := by
  apply sortBy_eq_of_perm _ ((h.filter _).map _)
  intro a ha b hb heq
  simp only [List.mem_map, List.mem_filter] at ha hb
  obtain ⟨a, ⟨ha, _⟩, rfl⟩ := ha
  obtain ⟨b, ⟨hb, _⟩, rfl⟩ := hb
  exact hbytes a ha b hb (LawfulEqCmp.eq_of_compare heq)

omit hsep in
lemma materializeConflicts_perm (conflicted : BTreeMap RecordKey ConflictSlot) :
    materializeConflicts crypto records conflicted =
      materializeConflicts crypto records' conflicted := by
  simp only [materializeConflicts, sortedEnvelopes_perm h hbytes]

lemma effectiveUnder_perm (root : SelectedRoot) :
    effectiveUnder crypto root records rollbackKeys =
      effectiveUnder crypto root records' rollbackKeys := by
  funext admitted
  have hh : ∀ authorities users,
      lwwResolution records rollbackKeys (classifyUserHandle authorities users) =
        lwwResolution records' rollbackKeys _ := fun authorities users =>
    lwwResolution_perm h hsep (fun _ _ heq => RecordKey.userHandle.inj heq)
      key_of_classifyUserHandle
  have hv : ∀ authorities, lwwResolution records rollbackKeys (classifyVaultHandle authorities) =
      lwwResolution records' rollbackKeys _ := fun authorities =>
    lwwResolution_perm h hsep (fun _ _ heq => RecordKey.vaultHandle.inj heq)
      key_of_classifyVaultHandle
  have he : ∀ users, lwwResolution records rollbackKeys (classifyEntryPoint users) =
      lwwResolution records' rollbackKeys _ := fun users =>
    lwwResolution_perm h hsep (fun _ _ heq => RecordKey.entryPoint.inj heq)
      key_of_classifyEntryPoint
  simp only [effectiveUnder, computeEffectiveState, resolutionRound_perm h hsep, hh, hv, he,
    materializeConflicts_perm h hbytes]

/-- The deletion admitted next is the same: the Lamport order separates the candidates. -/
lemma nextAdmitted_perm (root : SelectedRoot) (admitted : BTreeSet HashValue) :
    nextAdmitted crypto root records rollbackKeys admitted =
      nextAdmitted crypto root records' rollbackKeys admitted := by
  simp only [nextAdmitted, effectiveUnder_perm h hsep hbytes, firstBy, deletionCandidates]
  rw [sortBy_eq_of_perm compareLww (h.filter _)]
  intro a ha b hb heq
  exact hsep a (List.mem_filter.mp ha).1 b (List.mem_filter.mp hb).1 (compareLww_eq_eq heq).2.2

lemma admitDeletions_perm (root : SelectedRoot) :
    admitDeletions crypto root records rollbackKeys =
      admitDeletions crypto root records' rollbackKeys := by
  simp only [admitDeletions, nextAdmitted_perm h hsep hbytes]
  rw [show (deletionCandidates records).length = (deletionCandidates records').length from
    (h.filter _).length_eq]

lemma resolveEffectiveWithDeletions_perm (root : SelectedRoot) :
    resolveEffectiveWithDeletions crypto root records rollbackKeys =
      resolveEffectiveWithDeletions crypto root records' rollbackKeys := by
  simp only [resolveEffectiveWithDeletions, admitDeletions_perm h hsep hbytes,
    effectiveUnder_perm h hsep hbytes]

end Stages

/-! ### Watermarks and origins -/

/-- Records at one key name one origin. -/
def OriginsAgree (records : List VerifiedRecord) : Prop :=
  ∀ a ∈ records, ∀ b ∈ records, a.key = b.key → ∀ o o', recordOrigin a.body = some o →
    recordOrigin b.body = some o' → o = o'

section Tables

variable {records records' : List VerifiedRecord}
variable (h : records.Perm records') (effective : EffectiveState) (admitted : BTreeSet HashValue)

include h

lemma entryPointSigners_perm : entryPointSigners records = entryPointSigners records' :=
  collectSet_perm h ∅

lemma admittedWatermarks_perm :
    admittedWatermarks records effective admitted =
      admittedWatermarks records' effective admitted := by
  have hcounts : ∀ key record, CountsAt records effective admitted key record ↔
      CountsAt records' effective admitted key record := by
    intro key record
    simp only [CountsAt, h.mem_iff, entryPointSigners_perm h]
  apply ExtTreeMap.ext_getElem?
  intro key
  cases hw : (admittedWatermarks records' effective admitted)[key]? with
  | none =>
    rw [admittedWatermarks_eq_none] at hw ⊢
    simpa only [hcounts] using hw
  | some c =>
    rw [admittedWatermarks_eq_some] at hw ⊢
    simpa only [hcounts] using hw

lemma admittedOrigins_perm (horigins : OriginsAgree records) :
    admittedOrigins records effective admitted = admittedOrigins records' effective admitted := by
  simp only [admittedOrigins, entryPointSigners_perm h]
  apply collectNew_perm h
  intro a ha b hb k v w hfa hfb
  simp only [Option.ite_none_right_eq_some, Option.map_eq_some_iff, Prod.mk.injEq] at hfa hfb
  obtain ⟨_, o, ho, hka, rfl⟩ := hfa
  obtain ⟨_, o', ho', hkb, rfl⟩ := hfb
  exact horigins a ha b hb (hka.trans hkb.symm) o o' ho ho'

end Tables

/-! ### The final state -/

/-- An effective state without the record list and the positions in it. -/
def EffectiveState.view (self : EffectiveState) : EffectiveState :=
  { self with verifiedRecords := [], secretIndex := ∅ }

namespace EffectiveState

variable {a b : EffectiveState} (h : a.view = b.view)

include h

lemma users_of_view : a.users = b.users := by
  have := congrArg EffectiveState.users h
  exact this

lemma authorities_of_view : a.authorities = b.authorities := by
  have := congrArg EffectiveState.authorities h
  exact this

lemma conflicted_of_view : a.conflicted = b.conflicted := by
  have := congrArg EffectiveState.conflicted h
  exact this

lemma authorityUnresolved_of_view : a.authorityUnresolved = b.authorityUnresolved := by
  have := congrArg EffectiveState.authorityUnresolved h
  exact this

end EffectiveState

section Final

variable {crypto : CryptoProvider} {records records' : List VerifiedRecord}
variable (h : records.Perm records') (hsep : HashesSeparate records)
variable (hbytes : BytesSeparate crypto records) (ratchet : Ratchet) (root : SelectedRoot)

include h hsep hbytes

lemma currentWatermarks_perm :
    currentWatermarks crypto root records = currentWatermarks crypto root records' := by
  simp only [currentWatermarks, provisional, resolveEffectiveWithDeletions_perm h hsep hbytes,
    admittedWatermarks_perm h]

lemma observedOrigins_perm (horigins : OriginsAgree records) :
    observedOrigins crypto root records = observedOrigins crypto root records' := by
  simp only [observedOrigins, provisional, resolveEffectiveWithDeletions_perm h hsep hbytes]
  exact admittedOrigins_perm h _ _ horigins

lemma resolveRecords_view_perm (horigins : OriginsAgree records) :
    (resolveRecords crypto ratchet root records).view =
      (resolveRecords crypto ratchet root records').view := by
  have hs : ∀ rollbackKeys authorities,
      lwwResolution records rollbackKeys (classifySecret authorities) =
        lwwResolution records' rollbackKeys _ := fun rollbackKeys authorities =>
    lwwResolution_perm h hsep (fun _ _ heq => RecordKey.secret.inj heq) key_of_classifySecret
  have hconf : rollbackConflict crypto records ratchet =
      rollbackConflict crypto records' ratchet := by
    funext watermarks origins key remembered
    simp only [rollbackConflict, sortedEnvelopes_perm h hbytes]
  simp only [EffectiveState.view, resolveRecords, EffectiveState.attachVerifiedRecords,
    currentWatermarks_perm h hsep hbytes, observedOrigins_perm h hsep hbytes root horigins,
    resolveEffectiveWithDeletions_perm h hsep hbytes, hs, hconf, materializeConflicts_perm h hbytes]

end Final

lemma resolveRecords_indexed (crypto : CryptoProvider) (ratchet : Ratchet) (root : SelectedRoot)
    (records : List VerifiedRecord) : (resolveRecords crypto ratchet root records).Indexed := rfl

@[simp] lemma resolveRecords_verifiedRecords (crypto : CryptoProvider) (ratchet : Ratchet)
    (root : SelectedRoot) (records : List VerifiedRecord) :
    (resolveRecords crypto ratchet root records).verifiedRecords = records := rfl

section Queries

variable {a b : EffectiveState} (hview : a.view = b.view) (ha : a.Indexed) (hb : b.Indexed)
variable (hrecords : a.verifiedRecords.Perm b.verifiedRecords)
variable (hsep : HashesSeparate a.verifiedRecords)

include hview ha hb hrecords hsep

/-- The latest record of a secret is the same: it is the greatest of the same records. -/
lemma latestAuthorizedSecretRecord_congr (secret : SecretId) :
    a.latestAuthorizedSecretRecord secret = b.latestAuthorizedSecretRecord secret := by
  have hauth := EffectiveState.authorities_of_view hview
  cases hla : a.latestAuthorizedSecretRecord secret with
  | none =>
    have hnone := (EffectiveState.latestAuthorizedSecretRecord_eq_none ha).mp hla
    symm
    rw [EffectiveState.latestAuthorizedSecretRecord_eq_none hb]
    intro record hmem
    rw [← hauth]
    exact hnone record (hrecords.mem_iff.mpr hmem)
  | some winner =>
    obtain ⟨hmem, hkey, hle⟩ := EffectiveState.latestAuthorizedSecretRecord_eq_some ha hla
    cases hlb : b.latestAuthorizedSecretRecord secret with
    | none =>
      have hnone := (EffectiveState.latestAuthorizedSecretRecord_eq_none hb).mp hlb
      rw [hauth] at hkey
      exact absurd hkey (hnone winner (hrecords.mem_iff.mp hmem))
    | some winner' =>
      obtain ⟨hmem', hkey', hle'⟩ := EffectiveState.latestAuthorizedSecretRecord_eq_some hb hlb
      rw [← hauth] at hkey'
      have h1 := hle winner' (hrecords.mem_iff.mpr hmem') hkey'
      have h2 := hle' winner (hrecords.mem_iff.mp hmem) (hauth ▸ hkey)
      have heq := compareLww_eq_eq (OrientedCmp.isLE_antisymm h2 h1)
      rw [hsep winner hmem winner' (hrecords.mem_iff.mpr hmem') heq.2.2]

variable (crypto : CryptoProvider) (selector : SecretSelectorV1)

lemma secretRecord_congr : a.secretRecord crypto selector = b.secretRecord crypto selector := by
  have hconf := EffectiveState.conflicted_of_view hview
  unfold EffectiveState.secretRecord EffectiveState.secretConflict EffectiveState.liveSecretWinner
  rw [hconf, latestAuthorizedSecretRecord_congr hview ha hb hrecords hsep]

lemma secretIsDeleted_congr :
    a.secretIsDeleted crypto selector = b.secretIsDeleted crypto selector := by
  have hconf := EffectiveState.conflicted_of_view hview
  unfold EffectiveState.secretIsDeleted
  rw [hconf, latestAuthorizedSecretRecord_congr hview ha hb hrecords hsep]

lemma secretMissingReader_congr :
    a.secretMissingReader crypto selector = b.secretMissingReader crypto selector := by
  have hauth := EffectiveState.authorities_of_view hview
  have husers := EffectiveState.users_of_view hview
  simp only [EffectiveState.secretMissingReader, secretRecord_congr hview ha hb hrecords hsep,
    EffectiveState.currentReaderEntries, EffectiveState.authorityForUser, hauth, husers]

lemma classifySecretForUser_congr (user : UserId) :
    a.classifySecretForUser crypto selector user =
      b.classifySecretForUser crypto selector user := by
  have hconf := EffectiveState.conflicted_of_view hview
  have hauth := EffectiveState.authorities_of_view hview
  have husers := EffectiveState.users_of_view hview
  have hunres := EffectiveState.authorityUnresolved_of_view hview
  unfold EffectiveState.classifySecretForUser EffectiveState.secretConflict
    EffectiveState.liveSecretWinner EffectiveState.authorityForUser
  rw [hunres, hconf, hauth, husers, latestAuthorizedSecretRecord_congr hview ha hb hrecords hsep]

end Queries

end Thorax
