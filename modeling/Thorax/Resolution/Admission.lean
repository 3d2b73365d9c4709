import Thorax.Resolution.Served
import Thorax.Resolution.Growth

/-!
# Admission of deletions and inert records

Deletions are admitted one at a time, and the run of admissions ends because no candidate is left
that may be issued. Records that have no say in the principal graph leave the rounds and the run
of admissions as they are.
-/

namespace Thorax

open Collections
open Std (ExtTreeMap ExtTreeSet LawfulEqCmp)

/-! ### The run of admissions -/

section Run

variable (crypto : CryptoProvider) (root : SelectedRoot) (records : List VerifiedRecord)
variable (rollbackKeys : BTreeMap RecordKey ℕ)

/-- One admission. -/
def admitNext (admitted : BTreeSet HashValue) : Option (BTreeSet HashValue) :=
  (nextAdmitted crypto root records rollbackKeys admitted).map fun record =>
    admitted.insert record.recordHash

/-- A set of deletions that the run of admissions passes through. -/
def AdmissionStage (admitted : BTreeSet HashValue) : Prop :=
  ∃ n, admitted = Settle.grow (admitNext crypto root records rollbackKeys) n ∅

/-- The admitted hashes are those of candidates. -/
def AdmittedAmong (records : List VerifiedRecord) (admitted : BTreeSet HashValue) : Prop :=
  ∀ hash ∈ admitted, ∃ record ∈ deletionCandidates records, record.recordHash = hash

variable {crypto root records rollbackKeys}

lemma admitDeletions_eq_grow : admitDeletions crypto root records rollbackKeys =
    Settle.grow (admitNext crypto root records rollbackKeys) (deletionCandidates records).length
      ∅ := rfl

lemma admissionStage_empty : AdmissionStage crypto root records rollbackKeys ∅ := ⟨0, rfl⟩

lemma admissionStage_final : AdmissionStage crypto root records rollbackKeys
    (admitDeletions crypto root records rollbackKeys) := ⟨_, admitDeletions_eq_grow⟩

/-- An admission adds one candidate that was not admitted and that may be issued now. -/
lemma admitNext_eq_some {admitted admitted' : BTreeSet HashValue}
    (h : admitNext crypto root records rollbackKeys admitted = some admitted') :
    ∃ record ∈ deletionCandidates records, record.recordHash ∉ admitted ∧
      deletionAuthorized (effectiveUnder crypto root records rollbackKeys admitted) record = true ∧
      admitted' = admitted.insert record.recordHash := by
  obtain ⟨record, hnext, rfl⟩ := Option.map_eq_some_iff.mp h
  obtain ⟨hmem, hp, _⟩ := firstBy_eq_some compareLww hnext
  rw [Bool.and_eq_true, Bool.not_eq_true', ← Bool.not_eq_true, ExtTreeSet.contains_iff_mem] at hp
  exact ⟨record, hmem, hp.1, hp.2, rfl⟩

lemma admittedAmong_next {admitted admitted' : BTreeSet HashValue}
    (hinv : AdmittedAmong records admitted)
    (h : admitNext crypto root records rollbackKeys admitted = some admitted') :
    AdmittedAmong records admitted' := by
  obtain ⟨record, hmem, _, _, rfl⟩ := admitNext_eq_some h
  intro hash hhash
  rcases ExtTreeSet.mem_insert.mp hhash with heq | hhash
  · exact ⟨record, hmem, LawfulEqCmp.compare_eq_iff_eq.mp heq⟩
  · exact hinv hash hhash

lemma admittedAmong_empty : AdmittedAmong records ∅ := by
  intro hash hmem
  simp at hmem

lemma AdmissionStage.among {admitted : BTreeSet HashValue}
    (h : AdmissionStage crypto root records rollbackKeys admitted) :
    AdmittedAmong records admitted := by
  obtain ⟨n, rfl⟩ := h
  exact Settle.grow_inv _ (fun _ _ => admittedAmong_next) n admittedAmong_empty

lemma AdmissionStage.next {admitted admitted' : BTreeSet HashValue}
    (h : AdmissionStage crypto root records rollbackKeys admitted)
    (hnext : admitNext crypto root records rollbackKeys admitted = some admitted') :
    AdmissionStage crypto root records rollbackKeys admitted' := by
  obtain ⟨n, rfl⟩ := h
  refine ⟨n + 1, ?_⟩
  rw [Settle.grow_add]
  simp only [Settle.grow, hnext]

/-- The run of admissions ends where nothing is left to admit: every admission takes one of the
candidates. -/
lemma admitNext_admitDeletions : admitNext crypto root records rollbackKeys
    (admitDeletions crypto root records rollbackKeys) = none := by
  rw [admitDeletions_eq_grow]
  refine Settle.grow_stops _ (fun _ _ => admittedAmong_next)
    (fun admitted => (deletionCandidates records).countP fun record =>
      admitted.contains record.recordHash) (fun admitted admitted' _ h => ?_)
    (fun _ _ => List.countP_le_length) admittedAmong_empty (Nat.le_add_right _ _)
  obtain ⟨record, hmem, hnew, _, rfl⟩ := admitNext_eq_some h
  apply Settle.countP_lt_countP
  · intro other _ hother
    rw [ExtTreeSet.contains_iff_mem] at hother ⊢
    exact ExtTreeSet.mem_insert.mpr (Or.inr hother)
  · refine ⟨record, hmem, ?_, ?_⟩
    · rw [ExtTreeSet.contains_iff_mem]
      exact ExtTreeSet.mem_insert.mpr (Or.inl Std.ReflCmp.compare_self)
    · rw [← Bool.not_eq_true, ExtTreeSet.contains_iff_mem]
      exact hnew

/-- From every set it passes through the run goes on to its end. -/
lemma AdmissionStage.grow_eq {admitted : BTreeSet HashValue}
    (h : AdmissionStage crypto root records rollbackKeys admitted) :
    ∃ k, admitDeletions crypto root records rollbackKeys =
      Settle.grow (admitNext crypto root records rollbackKeys) k admitted := by
  obtain ⟨n, rfl⟩ := h
  have hend := Settle.grow_eq_of_stopped (admitNext crypto root records rollbackKeys)
    admitNext_admitDeletions (Nat.le_add_left _ n)
  exact ⟨(deletionCandidates records).length, by
    rw [← Settle.grow_add, hend, admitDeletions_eq_grow]⟩

lemma AdmissionStage.eq_final {admitted : BTreeSet HashValue}
    (h : AdmissionStage crypto root records rollbackKeys admitted)
    (hstop : admitNext crypto root records rollbackKeys admitted = none) :
    admitDeletions crypto root records rollbackKeys = admitted := by
  obtain ⟨k, heq⟩ := h.grow_eq
  rw [heq, Settle.grow_of_none _ hstop]

end Run

/-! ### Records without a say -/

/-- A record that takes no part in a selection: a deletion that is not admitted, or a record whose
signer may not issue it. The other kinds take part in no selection. -/
def Inert (admitted : BTreeSet HashValue) (authorities : Authorities) (record : VerifiedRecord) :
    Prop :=
  match record.body with
  | .userDeleted _ | .groupDeleted _ | .grantDeleted _ => record.recordHash ∉ admitted
  | .user _ | .group _ | .groupMember _ | .groupMemberDeleted _ | .grant _ =>
    record.body.authorisedBy (signerAuth authorities record.signer) = false
  | _ => True

section Inert

variable {records extra : List VerifiedRecord} {rollbackKeys : BTreeMap RecordKey ℕ}
variable {admitted : BTreeSet HashValue} {authorities : Authorities}

lemma lwwResolution_append {K : Type} [Ord K] [Std.TransOrd K]
    {classify : VerifiedRecord → Option K} (h : ∀ record ∈ extra, classify record = none) :
    lwwResolution (records ++ extra) rollbackKeys classify =
      lwwResolution records rollbackKeys classify := by
  have hslots : lwwSlots (records ++ extra) rollbackKeys classify =
      lwwSlots records rollbackKeys classify :=
    groupFold_append fun record hmem => by simp [h record hmem]
  simp only [lwwResolution, hslots]

/-- Only who among the winning users has vouched for the root matters. -/
lemma selectUsers_congr {rootUserRecord : UserRecordV1} {attested attested' : BTreeSet UserId}
    {winners : BTreeMap UserId VerifiedRecord}
    (h : ∀ k w, winners[k]? = some w → w.body.user?.isSome →
      attested.contains k = attested'.contains k) :
    selectUsers rootUserRecord attested winners = selectUsers rootUserRecord attested' winners := by
  simp only [selectUsers, ExtTreeMap.foldl_eq_foldl_toList]
  refine List.foldl_ext _ _ _ fun users entry hmem => ?_
  have := h entry.1 entry.2 (ExtTreeMap.mem_toList_iff_getElem?_eq_some.mp hmem)
  cases hb : entry.2.body <;> simp_all [RecordBodyV1.user?]

section Classify

variable {record : VerifiedRecord} (h : Inert admitted authorities record)

include h

lemma Inert.classifyUser {rootUser : UserId} :
    classifyUser admitted authorities rootUser record = none := by
  unfold Inert at h
  unfold Thorax.classifyUser
  cases hb : record.body <;> simp_all [RecordBodyV1.authorisedBy]

lemma Inert.classifyGroup : classifyGroup admitted authorities record = none := by
  unfold Inert at h
  unfold Thorax.classifyGroup
  cases hb : record.body <;> simp_all [RecordBodyV1.authorisedBy]

variable {users : BTreeMap UserId UserRecordV1} {groups : BTreeMap GroupId GroupRecordV1}

lemma Inert.classifyMembership : classifyMembership authorities users groups record = none := by
  unfold Inert at h
  unfold Thorax.classifyMembership
  cases hb : record.body <;> simp_all [RecordBodyV1.authorisedBy]

lemma Inert.classifyGrant : classifyGrant admitted authorities users groups record = none := by
  unfold Inert at h
  unfold Thorax.classifyGrant
  cases hb : record.body <;> simp_all [RecordBodyV1.authorisedBy]

end Classify

/-- Inert records leave a selection as it is, if they vouch for no user who could be selected. -/
lemma selectAuthorizedRecords_append {rootUserRecord : UserRecordV1}
    {attested attested' : BTreeSet UserId}
    (hinert : ∀ record ∈ extra, Inert admitted authorities record)
    (hattested : ∀ record ∈ records, ∀ user, record.body = .user user →
      record.body.authorisedBy (signerAuth authorities record.signer) = true →
      attested'.contains user.id = attested.contains user.id) :
    selectAuthorizedRecords (records ++ extra) rootUserRecord attested' admitted rollbackKeys
        authorities =
      selectAuthorizedRecords records rootUserRecord attested admitted rollbackKeys
        authorities := by
  have husers : lwwResolution (records ++ extra) rollbackKeys
      (classifyUser admitted authorities rootUserRecord.id) = lwwResolution records rollbackKeys
        (classifyUser admitted authorities rootUserRecord.id) :=
    lwwResolution_append fun record hmem => (hinert record hmem).classifyUser
  have hgroups : lwwResolution (records ++ extra) rollbackKeys (classifyGroup admitted authorities) =
      lwwResolution records rollbackKeys (classifyGroup admitted authorities) :=
    lwwResolution_append fun record hmem => (hinert record hmem).classifyGroup
  have hmemberships : ∀ users groups, lwwResolution (records ++ extra) rollbackKeys
      (classifyMembership authorities users groups) =
        lwwResolution records rollbackKeys (classifyMembership authorities users groups) :=
    fun users groups => lwwResolution_append fun record hmem =>
      (hinert record hmem).classifyMembership
  have hgrants : ∀ users groups, lwwResolution (records ++ extra) rollbackKeys
      (classifyGrant admitted authorities users groups) =
        lwwResolution records rollbackKeys (classifyGrant admitted authorities users groups) :=
    fun users groups => lwwResolution_append fun record hmem => (hinert record hmem).classifyGrant
  have hselected : selectUsers rootUserRecord attested' (lwwResolution records rollbackKeys
      (classifyUser admitted authorities rootUserRecord.id)).winners =
        selectUsers rootUserRecord attested (lwwResolution records rollbackKeys
          (classifyUser admitted authorities rootUserRecord.id)).winners := by
    refine selectUsers_congr fun k w hw huser => ?_
    rw [getElem?_winners] at hw
    obtain ⟨hmem, _, hk⟩ := mem_pool.mp (mem_leadersAt.mp (Lww.winner_eq_some _ _ hw).1).1
    unfold classifyUser at hk
    split at hk
    · next user hb =>
      simp only [Bool.or_eq_true, decide_eq_true_eq, Bool.not_eq_true', Option.ite_none_left_eq_some,
        not_or, Bool.not_eq_false, Option.some.injEq] at hk
      obtain ⟨⟨_, hadmin⟩, rfl⟩ := hk
      exact hattested w hmem user hb (by rw [hb]; exact hadmin)
    · next deleted hb => simp [hb, RecordBodyV1.user?] at huser
    · cases hk
  simp only [selectAuthorizedRecords, husers, hgroups, hmemberships, hgrants, hselected]

end Inert

/-! ### Rounds and admissions that take no notice -/

/-- No round under the admitted deletions takes notice of the extra records. -/
structure Unheard (root : SelectedRoot) (records extra : List VerifiedRecord)
    (admitted : BTreeSet HashValue) : Prop where
  inert : ∀ n < 64, ∀ record ∈ extra,
    Inert admitted (roundAuthorities root admitted records n) record
  attested : ∀ n < 64, ∀ record ∈ records, ∀ user, record.body = .user user →
    record.body.authorisedBy
      (signerAuth (roundAuthorities root admitted records n) record.signer) = true →
    user.id ∈ entryPointUsers (records ++ extra) ∅ → user.id ∈ entryPointUsers records ∅

section Unheard

variable {crypto : CryptoProvider} {root : SelectedRoot} {records extra : List VerifiedRecord}
variable {admitted : BTreeSet HashValue}

lemma roundState_append (h : Unheard root records extra admitted) {n : ℕ} (hn : n ≤ 64) :
    roundState root (records ++ extra) ∅ admitted n = roundState root records ∅ admitted n := by
  induction n with
  | zero => rfl
  | succ n ih =>
    have hselected : selection root admitted (records ++ extra)
        (roundAuthorities root admitted records n) =
          selection root admitted records (roundAuthorities root admitted records n) := by
      refine selectAuthorizedRecords_append (h.inert n hn) fun record hmem user hb hauth => ?_
      rw [Bool.eq_iff_iff, ExtTreeSet.contains_iff_mem, ExtTreeSet.contains_iff_mem]
      refine ⟨h.attested n hn record hmem user hb hauth, fun hmem => ?_⟩
      exact entryPointUsers_mono (fun record hr => List.mem_append_left extra hr) hmem
    have hauth : roundAuthorities root admitted (records ++ extra) n =
        roundAuthorities root admitted records n := congrArg Prod.snd (ih (Nat.le_of_succ_le hn))
    refine Prod.ext ?_ ?_
    · rw [roundState_succ_fst, roundState_succ_fst, hauth, hselected]
    · exact (roundState_succ_snd n).trans (by
        rw [hauth, hselected]
        exact (roundState_succ_snd n).symm)

/-- Whether a deletion may be issued depends on the grants and the authorities of the state. -/
lemma deletionAuthorized_congr {a b : EffectiveState} (hgrants : a.grants = b.grants)
    (hauth : a.authorities = b.authorities) (record : VerifiedRecord) :
    deletionAuthorized a record = deletionAuthorized b record := by
  simp only [deletionAuthorized, grantDeletedAuthorized, EffectiveState.authorityForUser, hgrants,
    hauth]

lemma deletionAuthorized_append (h : Unheard root records extra admitted)
    (record : VerifiedRecord) :
    deletionAuthorized (effectiveUnder crypto root (records ++ extra) ∅ admitted) record =
      deletionAuthorized (effectiveUnder crypto root records ∅ admitted) record := by
  have hlast := roundState_append h le_rfl
  have hleft := effectiveUnder_fields crypto root (records ++ extra) ∅ admitted
  have hright := effectiveUnder_fields crypto root records ∅ admitted
  apply deletionAuthorized_congr
  · rw [hleft.2.2.2.1, hright.2.2.2.1, hlast]
  · rw [hleft.2.2.2.2.2.2.2, hright.2.2.2.2.2.2.2, hlast]

lemma mem_deletionCandidates {record : VerifiedRecord} :
    record ∈ deletionCandidates records ↔
      record ∈ records ∧ record.body.isGatedDeletion = true := List.mem_filter

/-- The next admission among more records, if none of the others that may be issued comes first. -/
lemma nextAdmitted_append (h : Unheard root records extra admitted)
    (hsep : HashesSeparate (records ++ extra)) {record : VerifiedRecord}
    (hnext : nextAdmitted crypto root records ∅ admitted = some record)
    (hlater : ∀ other ∈ extra, other.body.isGatedDeletion = true →
      deletionAuthorized (effectiveUnder crypto root records ∅ admitted) other = true →
      (compareLww record other).isLE) :
    nextAdmitted crypto root (records ++ extra) ∅ admitted = some record := by
  obtain ⟨hmem, hp, hleast⟩ := firstBy_eq_some compareLww hnext
  obtain ⟨hrecord, hgated⟩ := mem_deletionCandidates.mp hmem
  simp only [nextAdmitted, deletionAuthorized_append h]
  refine firstBy_eq_of_least compareLww ?_ hp (fun other hother hpo => ?_) fun other hother heq => ?_
  · exact mem_deletionCandidates.mpr ⟨List.mem_append_left extra hrecord, hgated⟩
  · obtain ⟨hin, hg⟩ := mem_deletionCandidates.mp hother
    rcases List.mem_append.mp hin with hin | hin
    · exact hleast other (mem_deletionCandidates.mpr ⟨hin, hg⟩) hpo
    · exact hlater other hin hg (Bool.and_eq_true_iff.mp hpo).2
  · exact hsep record (List.mem_append_left extra hrecord) other
      (mem_deletionCandidates.mp hother).1 (compareLww_eq_eq heq).2.2

/-- The run of admissions among more records begins with the run among the first ones, as long as
no round takes notice of the others and none of them comes first. -/
lemma admissionStage_append (hsep : HashesSeparate (records ++ extra))
    (h : ∀ admitted, AdmissionStage crypto root records ∅ admitted →
      Unheard root records extra admitted ∧
      ∀ record, nextAdmitted crypto root records ∅ admitted = some record →
        ∀ other ∈ extra, other.body.isGatedDeletion = true →
        deletionAuthorized (effectiveUnder crypto root records ∅ admitted) other = true →
        (compareLww record other).isLE) :
    AdmissionStage crypto root (records ++ extra) ∅ (admitDeletions crypto root records ∅) := by
  have hfollows : ∀ admitted admitted', AdmissionStage crypto root records ∅ admitted →
      admitNext crypto root records ∅ admitted = some admitted' →
      AdmissionStage crypto root records ∅ admitted' ∧
        admitNext crypto root (records ++ extra) ∅ admitted = some admitted' := by
    intro admitted admitted' hs hnext
    obtain ⟨record, hrecord, rfl⟩ := Option.map_eq_some_iff.mp hnext
    obtain ⟨hunheard, hlater⟩ := h admitted hs
    refine ⟨hs.next hnext, ?_⟩
    rw [admitNext, nextAdmitted_append hunheard hsep hrecord (hlater record hrecord)]
    rfl
  obtain ⟨n, _, heq⟩ := Settle.grow_follows (admitNext crypto root records ∅) hfollows
    (deletionCandidates records).length admissionStage_empty
  exact ⟨n, admitDeletions_eq_grow.trans heq⟩

/-- If none of the other records may be issued in the end either, the same deletions are
admitted. -/
lemma admitDeletions_append (hsep : HashesSeparate (records ++ extra))
    (h : ∀ admitted, AdmissionStage crypto root records ∅ admitted →
      Unheard root records extra admitted ∧
      ∀ other ∈ extra, other.body.isGatedDeletion = true →
        deletionAuthorized (effectiveUnder crypto root records ∅ admitted) other = false) :
    admitDeletions crypto root (records ++ extra) ∅ = admitDeletions crypto root records ∅ := by
  have hstage := admissionStage_append hsep fun admitted hs =>
    ⟨(h admitted hs).1, fun record _ other hother hg hauth =>
      absurd hauth (by simp [(h admitted hs).2 other hother hg])⟩
  obtain ⟨hunheard, hsilent⟩ := h _ admissionStage_final
  refine hstage.eq_final ?_
  have hnone : admitNext crypto root records ∅ (admitDeletions crypto root records ∅) = none :=
    admitNext_admitDeletions
  simp only [admitNext, Option.map_eq_none_iff, nextAdmitted, firstBy_eq_none,
    deletionAuthorized_append hunheard] at hnone ⊢
  intro other hother
  obtain ⟨hin, hg⟩ := mem_deletionCandidates.mp hother
  rcases List.mem_append.mp hin with hin | hin
  · exact hnone other (mem_deletionCandidates.mpr ⟨hin, hg⟩)
  · simp [hsilent other hin hg]

end Unheard

end Thorax
