import Thorax.Merge
import Thorax.Resolution.Admission
import Thorax.Resolution.Force
import Thorax.TestSupport

/-!
# The Lamport clock

What moves the counter of the next commit: extra records that count themselves, and those whose
right to count the extra ones give or take. Records that no signer may issue at any point of a
resolution give and take nothing, but the entry points among them count whenever their signer is
introduced, so a member without any authority can raise the clock with one.
-/

namespace Thorax

open Collections
open Std (ExtTreeMap ExtTreeSet)

/-! ### Records without power -/

section Powerless

variable (crypto : CryptoProvider) (root : SelectedRoot) (records : List VerifiedRecord)

/-- Some round of the resolution that the admitted deletions allow lets the signer of a record
issue it. -/
def IssuableAt (admitted : BTreeSet HashValue) (record : VerifiedRecord) : Prop :=
  ∃ n ≤ 64, record.body.authorisedBy
    (signerAuth (roundAuthorities root admitted records n) record.signer) = true

/-- A record that nobody let its signer issue. Records of the principal graph must not be issuable
in any round on the way, deletions at the end of none of the admissions, handles and secrets in the
end. An entry point must not be the first to vouch for a user whose record could be selected. -/
def Powerless (record : VerifiedRecord) : Prop :=
  match record.body with
  | .vaultRoot _ => True
  | .entryPoint _ => ∀ other ∈ records, ∀ user, other.body = .user user → user.id = record.signer →
      record.signer ∈ entryPointSigners records ∨
        ∀ admitted, AdmissionStage crypto root records ∅ admitted →
          ¬ IssuableAt root records admitted other
  | .userDeleted _ | .groupDeleted _ | .grantDeleted _ =>
    ∀ admitted, AdmissionStage crypto root records ∅ admitted →
      deletionAuthorized (effectiveUnder crypto root records ∅ admitted) record = false
  | .user _ | .group _ | .groupMember _ | .groupMemberDeleted _ | .grant _ =>
    ∀ admitted, AdmissionStage crypto root records ∅ admitted →
      ¬ IssuableAt root records admitted record
  | .userHandle _ | .vaultHandle _ | .secret _ | .secretDeleted _ =>
    record.body.authorisedBy
      ((provisional crypto root records).1.authorityForUser record.signer) = false

variable {crypto root records} {extra : List VerifiedRecord}

lemma mem_entryPointUsers_iff {user : UserId} :
    user ∈ entryPointUsers records ∅ ↔ user ∈ entryPointSigners records := by
  rw [mem_entryPointUsers, mem_entryPointSigners]
  refine exists_congr fun record => and_congr_right fun _ => ?_
  simp only [ExtTreeMap.not_mem_empty, not_false_eq_true, true_and]
  exact and_comm

/-- What is authorised in the end is issuable in the last round of the last admission. -/
lemma issuableAt_provisional {record : VerifiedRecord} (h : record.body.authorisedBy
    ((provisional crypto root records).1.authorityForUser record.signer) = true) :
    IssuableAt root records (provisional crypto root records).2 record := by
  have hlast : (provisional crypto root records).1.authorities =
      roundAuthorities root (provisional crypto root records).2 records 64 :=
    authorities_effectiveUnder
  rw [EffectiveState.authorityForUser, hlast] at h
  exact ⟨64, le_rfl, h⟩

lemma recordAdmitted_congr {attested : BTreeSet UserId} {a b : EffectiveState}
    {admitted : BTreeSet HashValue} {record : VerifiedRecord}
    (h : a.authorities = b.authorities) :
    recordAdmitted attested a admitted record = recordAdmitted attested b admitted record := by
  simp only [recordAdmitted, EffectiveState.authorityForUser, h]

/-- What counts and is not a deletion that is admitted one by one is authorised in the end. -/
lemma authorised_of_recordAdmitted {attested : BTreeSet UserId} {effective : EffectiveState}
    {admitted : BTreeSet HashValue} {record : VerifiedRecord}
    (h : recordAdmitted attested effective admitted record = true)
    (hgated : record.body.isGatedDeletion = false) :
    record.body.authorisedBy (effective.authorityForUser record.signer) = true := by
  unfold recordAdmitted at h
  cases hb : record.body <;>
    simp_all [RecordBodyV1.authorisedBy, RecordBodyV1.isGatedDeletion]

variable (hdistinct : (records ++ extra).Pairwise fun a b => a.recordHash ≠ b.recordHash)
variable (hpowerless : ∀ record ∈ extra, Powerless crypto root records record)

include hdistinct in
/-- What is admitted among the first records is none of the others. -/
lemma not_mem_admitted {admitted : BTreeSet HashValue}
    (hstage : AdmissionStage crypto root records ∅ admitted) {record : VerifiedRecord}
    (hmem : record ∈ extra) : record.recordHash ∉ admitted := by
  intro hadmitted
  obtain ⟨other, hother, heq⟩ := hstage.among _ hadmitted
  exact (List.pairwise_append.mp hdistinct).2.2 other (mem_deletionCandidates.mp hother).1 record
    hmem heq

include hpowerless in
/-- The users that the extra records are the first to vouch for are not selected. -/
lemma attested_of_powerless {admitted : BTreeSet HashValue}
    (hstage : AdmissionStage crypto root records ∅ admitted) {record : VerifiedRecord}
    (hmem : record ∈ records) {user : UserRecordV1} (hbody : record.body = .user user)
    (hissuable : IssuableAt root records admitted record)
    (hattested : user.id ∈ entryPointSigners (records ++ extra)) :
    user.id ∈ entryPointSigners records := by
  obtain ⟨entry, hentry, hsigner, entryPoint, hentryBody⟩ := mem_entryPointSigners.mp hattested
  rcases List.mem_append.mp hentry with hentry | hentry
  · exact mem_entryPointSigners.mpr ⟨entry, hentry, hsigner, entryPoint, hentryBody⟩
  · have h := hpowerless entry hentry
    simp only [Powerless, hentryBody] at h
    rcases h record hmem user hbody hsigner.symm with h | h
    · rw [← hsigner]
      exact h
    · exact absurd hissuable (h admitted hstage)

include hdistinct hpowerless

/-- Powerless records are not heard in any round of any admission. -/
lemma unheard_of_powerless {admitted : BTreeSet HashValue}
    (hstage : AdmissionStage crypto root records ∅ admitted) :
    Unheard root records extra admitted := by
  refine ⟨fun n hn record hmem => ?_, fun n hn record hmem user hbody hauth hattested => ?_⟩
  · have h := hpowerless record hmem
    have hhash := not_mem_admitted hdistinct hstage hmem
    unfold Inert
    unfold Powerless at h
    cases hb : record.body <;> simp only [hb] at h ⊢
    case userDeleted | groupDeleted | grantDeleted => exact hhash
    all_goals
      rw [← Bool.not_eq_true]
      exact fun hauth => h admitted hstage ⟨n, hn.le, by rw [hb]; exact hauth⟩
  · rw [mem_entryPointUsers_iff] at hattested ⊢
    exact attested_of_powerless hpowerless hstage hmem hbody ⟨n, hn.le, hauth⟩ hattested

/-- The same deletions are admitted, and the authorities are the same in the end. -/
lemma provisional_append :
    (provisional crypto root (records ++ extra)).2 = (provisional crypto root records).2 ∧
      (provisional crypto root (records ++ extra)).1.authorities =
        (provisional crypto root records).1.authorities := by
  have hdeletions : admitDeletions crypto root (records ++ extra) ∅ =
      admitDeletions crypto root records ∅ := by
    refine admitDeletions_append (hashesSeparate_of_pairwise hdistinct) fun admitted hstage =>
      ⟨unheard_of_powerless hdistinct hpowerless hstage, fun record hmem hgated => ?_⟩
    have h := hpowerless record hmem
    unfold Powerless at h
    cases hb : record.body <;> simp only [hb, RecordBodyV1.isGatedDeletion] at h hgated
    all_goals first | exact h admitted hstage | cases hgated
  refine ⟨hdeletions, ?_⟩
  simp only [provisional, resolveEffectiveWithDeletions, hdeletions]
  rw [authorities_effectiveUnder, authorities_effectiveUnder, roundAuthorities, roundAuthorities,
    roundState_append (unheard_of_powerless hdistinct hpowerless admissionStage_final) le_rfl]

/-- A record that was there counts as before. -/
lemma recordAdmitted_append {record : VerifiedRecord} (hmem : record ∈ records) :
    recordAdmitted (entryPointSigners (records ++ extra))
        (provisional crypto root (records ++ extra)).1
        (provisional crypto root (records ++ extra)).2 record =
      recordAdmitted (entryPointSigners records) (provisional crypto root records).1
        (provisional crypto root records).2 record := by
  obtain ⟨hadmitted, hauth⟩ := provisional_append hdistinct hpowerless
  have hsub : ∀ user, user ∈ entryPointSigners records →
      user ∈ entryPointSigners (records ++ extra) := fun user h => by
    obtain ⟨entry, hentry, h⟩ := mem_entryPointSigners.mp h
    exact mem_entryPointSigners.mpr ⟨entry, List.mem_append_left extra hentry, h⟩
  simp only [recordAdmitted, EffectiveState.authorityForUser, hauth, hadmitted]
  cases hb : record.body with
  | entryPoint entryPoint =>
    have hin : record.signer ∈ entryPointSigners records :=
      mem_entryPointSigners.mpr ⟨record, hmem, rfl, entryPoint, hb⟩
    simp only [ExtTreeSet.contains_iff_mem.mpr hin, ExtTreeSet.contains_iff_mem.mpr (hsub _ hin)]
  | user user =>
    simp only
    rw [Bool.eq_iff_iff, Bool.and_eq_true, Bool.and_eq_true, ExtTreeSet.contains_iff_mem,
      ExtTreeSet.contains_iff_mem]
    refine and_congr_right fun hadmin => ⟨fun h => ?_, hsub user.id⟩
    refine attested_of_powerless hpowerless admissionStage_final hmem hb
      (issuableAt_provisional ?_) h
    rw [hb]
    exact hadmin
  | _ => rfl

/-- Of powerless records only entry points count. -/
lemma counts_append {key : RecordKey} {record : VerifiedRecord} :
    Counts crypto root (records ++ extra) key record ↔ Counts crypto root records key record ∨
      (record ∈ extra ∧ record.key = key ∧ ∃ entryPoint, record.body = .entryPoint entryPoint) := by
  constructor
  · rintro ⟨hmem, hkey, hcounter, hadm⟩
    rcases List.mem_append.mp hmem with hmem | hmem
    · rw [recordAdmitted_append hdistinct hpowerless hmem] at hadm
      exact Or.inl ⟨hmem, hkey, hcounter, hadm⟩
    · refine Or.inr ⟨hmem, hkey, ?_⟩
      have hstage : AdmissionStage crypto root records ∅ (provisional crypto root records).2 :=
        admissionStage_final
      obtain ⟨hadmitted, hauth⟩ := provisional_append hdistinct hpowerless
      rw [hadmitted, recordAdmitted_congr hauth] at hadm
      have hhash := not_mem_admitted hdistinct hstage hmem
      have h := hpowerless record hmem
      unfold Powerless at h
      cases hb : record.body <;> simp only [hb] at h
      case entryPoint entryPoint => exact ⟨entryPoint, rfl⟩
      case vaultRoot => simp [hb, RecordBodyV1.lwwCounter] at hcounter
      case userDeleted | groupDeleted | grantDeleted =>
        simp only [recordAdmitted, hb, ExtTreeSet.contains_iff_mem] at hadm
        exact absurd hadm hhash
      case userHandle | vaultHandle | secret | secretDeleted =>
        have hissued := authorised_of_recordAdmitted hadm (by simp [hb, RecordBodyV1.isGatedDeletion])
        rw [hb, h] at hissued
        cases hissued
      all_goals
        have hissued := authorised_of_recordAdmitted hadm (by simp [hb, RecordBodyV1.isGatedDeletion])
        exact absurd (issuableAt_provisional hissued) (h _ hstage)
  · rintro (⟨hmem, hkey, hcounter, hadm⟩ | ⟨hmem, hkey, entryPoint, hb⟩)
    · rw [← recordAdmitted_append hdistinct hpowerless hmem] at hadm
      exact ⟨List.mem_append_left extra hmem, hkey, hcounter, hadm⟩
    · refine ⟨List.mem_append_right records hmem, hkey, by simp [hb, RecordBodyV1.lwwCounter], ?_⟩
      simp only [recordAdmitted, hb]
      exact ExtTreeSet.contains_iff_mem.mpr (mem_entryPointSigners.mpr
        ⟨record, List.mem_append_right records hmem, rfl, entryPoint, hb⟩)

end Powerless

/-! ### The clock -/

section Clock

variable (crypto : CryptoProvider) (ratchet : Ratchet)

/-- The clock and the rollback memory of one vault are those of another that has some extra
records. -/
structure ClockUnmoved (vault vault' : VaultStore) (extra : List VerifiedRecord) : Prop where
  nextCounter : nextCounter (validateVault crypto vault' ratchet).effective =
    nextCounter (validateVault crypto vault ratchet).effective
  rollbackCounterFloor : (validateVault crypto vault' ratchet).effective.rollbackCounterFloor =
    (validateVault crypto vault ratchet).effective.rollbackCounterFloor
  commitCounter : commitCounter (validateVault crypto vault' ratchet).effective =
    commitCounter (validateVault crypto vault ratchet).effective
  watermarks : ∀ key : RecordKey, (∀ record ∈ extra, record.key ≠ key) →
    (admittedCounters crypto vault' ratchet)[key]? = (admittedCounters crypto vault ratchet)[key]?

section Heights

variable (root : SelectedRoot) (records extra : List VerifiedRecord)

/-- With the extra records a record has the right to count, by its signer's authority or because
its user is vouched for now, that it did not have before. Entry points need no authority. -/
def Gains (record : VerifiedRecord) : Prop :=
  record ∈ records ++ extra ∧ record.body.lwwCounter.isSome ∧
    AuthorizedIn crypto root (records ++ extra) record ∧ Vouched (records ++ extra) record ∧
    (record ∈ records → ¬ (AuthorizedIn crypto root records record ∧ Vouched records record))

/-- With the extra records the signer of a record that counted no longer holds what it requires. -/
def Loses (record : VerifiedRecord) : Prop :=
  Counts crypto root records record.key record ∧ ¬ AuthorizedIn crypto root (records ++ extra) record

/-- A record counted and does not lose its right to, or it gains that right. -/
def Stands (record : VerifiedRecord) : Prop :=
  Counts crypto root records record.key record ∧ ¬ Loses crypto root records extra record ∨
    Gains crypto root records extra record

/-- Among some keys, what gains the right to count is overtopped by what counted before, and what
loses it is overtopped by what still stands. -/
structure KeepsHeight (inside : RecordKey → Prop) : Prop where
  gained : ∀ record, Gains crypto root records extra record → inside record.key →
    ∃ other, Counts crypto root records other.key other ∧ inside other.key ∧
      record.counter ≤ other.counter
  lost : ∀ record, Loses crypto root records extra record → inside record.key →
    ∃ other, Stands crypto root records extra other ∧ inside other.key ∧
      record.counter ≤ other.counter

/-- A key that a gained record lifts to what is remembered is outdone by one that stays below, and
one that a lost record drops below is outdone by one that was there before. -/
structure KeepsFloor : Prop where
  lifted : ∀ key remembered, ratchet.watermarks[key]? = some remembered → 0 < remembered →
    (∀ other, Counts crypto root records key other → other.counter < remembered) →
    ∀ record, Gains crypto root records extra record → record.key = key →
      remembered ≤ record.counter →
    ∃ key' remembered', ratchet.watermarks[key']? = some remembered' ∧
      saturatingAdd remembered 1 ≤ saturatingAdd remembered' 1 ∧ 0 < remembered' ∧
      ∀ other, Stands crypto root records extra other → other.key = key' →
        other.counter < remembered'
  dropped : ∀ key remembered, ratchet.watermarks[key]? = some remembered → 0 < remembered →
    (∀ other, Stands crypto root records extra other → other.key = key →
      other.counter < remembered) →
    ∀ record, Loses crypto root records extra record → record.key = key →
      remembered ≤ record.counter →
    ∃ key' remembered', ratchet.watermarks[key']? = some remembered' ∧
      saturatingAdd remembered 1 ≤ saturatingAdd remembered' 1 ∧ 0 < remembered' ∧
      ∀ other, Counts crypto root records key' other → other.counter < remembered'

/-- The extra records change nobody's right to count in a way that shows: not at a key they do not
name, not at the top of all keys and not at the floor. -/
structure HeightsKept : Prop where
  keys : ∀ key : RecordKey, (∀ record ∈ extra, record.key ≠ key) →
    KeepsHeight crypto root records extra (· = key)
  clock : KeepsHeight crypto root records extra (fun _ => True)
  floor : KeepsFloor crypto ratchet root records extra

variable {crypto ratchet root records extra} {record : VerifiedRecord} {key : RecordKey}

lemma Vouched.append (h : Vouched records record) : Vouched (records ++ extra) record := by
  intro user hbody
  obtain ⟨entry, hentry, hsigner⟩ := mem_entryPointSigners.mp (h user hbody)
  exact mem_entryPointSigners.mpr ⟨entry, List.mem_append_left extra hentry, hsigner⟩

/-- What counts with the extra records is what stands. -/
lemma stands_iff : Stands crypto root records extra record ↔
    Counts crypto root (records ++ extra) record.key record := by
  constructor
  · rintro (⟨hcounts, hkept⟩ | ⟨hmem, hcounter, hauthorized, hvouched, -⟩)
    · obtain ⟨hmem, -, hcounter, -, hvouched⟩ := counts_iff.mp hcounts
      have hauthorized : AuthorizedIn crypto root (records ++ extra) record := by
        by_contra hnot
        exact hkept ⟨hcounts, hnot⟩
      exact counts_iff.mpr
        ⟨List.mem_append_left extra hmem, rfl, hcounter, hauthorized, hvouched.append⟩
    · exact counts_iff.mpr ⟨hmem, rfl, hcounter, hauthorized, hvouched⟩
  · intro h
    obtain ⟨hmem, -, hcounter, hauthorized, hvouched⟩ := counts_iff.mp h
    by_cases hcounts : Counts crypto root records record.key record
    · exact Or.inl ⟨hcounts, fun hlost => hlost.2 hauthorized⟩
    · refine Or.inr ⟨hmem, hcounter, hauthorized, hvouched, fun hold hheld => hcounts ?_⟩
      exact counts_iff.mpr ⟨hold, rfl, hcounter, hheld⟩

/-- What stands counted before or is gained. -/
lemma Stands.counts_or_gains (h : Stands crypto root records extra record) :
    Counts crypto root records record.key record ∨ Gains crypto root records extra record :=
  h.imp_left And.left

/-- What counted stands or is lost. -/
lemma stands_or_loses (h : Counts crypto root records record.key record) :
    Stands crypto root records extra record ∨ Loses crypto root records extra record := by
  by_cases hlost : Loses crypto root records extra record
  · exact Or.inr hlost
  · exact Or.inl (Or.inl ⟨h, hlost⟩)

lemma Gains.stands (h : Gains crypto root records extra record) :
    Stands crypto root records extra record := Or.inr h

/-- A height is reached before exactly if it is reached afterwards. -/
lemma keepsHeight_iff {inside : RecordKey → Prop} :
    KeepsHeight crypto root records extra inside ↔
      ∀ c, (∃ other, Counts crypto root records other.key other ∧ inside other.key ∧
          c ≤ other.counter) ↔
        ∃ other, Stands crypto root records extra other ∧ inside other.key ∧ c ≤ other.counter := by
  constructor
  · rintro ⟨hgained, hlost⟩ c
    constructor
    · rintro ⟨other, hcounts, hin, hc⟩
      rcases stands_or_loses hcounts with hstands | hloses
      · exact ⟨other, hstands, hin, hc⟩
      · obtain ⟨above, hstands, hin', hle⟩ := hlost other hloses hin
        exact ⟨above, hstands, hin', hc.trans hle⟩
    · rintro ⟨other, hstands, hin, hc⟩
      rcases hstands.counts_or_gains with hcounts | hgains
      · exact ⟨other, hcounts, hin, hc⟩
      · obtain ⟨above, hcounts, hin', hle⟩ := hgained other hgains hin
        exact ⟨above, hcounts, hin', hc.trans hle⟩
  · intro h
    exact ⟨fun record hgains hin => (h record.counter).mpr ⟨record, hgains.stands, hin, le_rfl⟩,
      fun record hloses hin => (h record.counter).mp ⟨record, hloses.1, hin, le_rfl⟩⟩

/-- The watermark of a key stays exactly if its height is kept. -/
lemma currentWatermarks_eq_iff :
    (currentWatermarks crypto root (records ++ extra))[key]? =
        (currentWatermarks crypto root records)[key]? ↔
      KeepsHeight crypto root records extra (· = key) := by
  have hreached : ∀ (l : List VerifiedRecord) c,
      (∃ other, Counts crypto root l other.key other ∧ other.key = key ∧ c ≤ other.counter) ↔
        ∃ current ∈ (currentWatermarks crypto root l)[key]?, c ≤ current := by
    intro l c
    constructor
    · rintro ⟨other, hcounts, rfl, hc⟩
      cases hw : (currentWatermarks crypto root l)[other.key]? with
      | none => exact absurd hcounts (admittedWatermarks_eq_none.mp hw other)
      | some current =>
        exact ⟨current, rfl, hc.trans ((admittedWatermarks_eq_some.mp hw).2 other hcounts)⟩
    · rintro ⟨current, hw, hc⟩
      obtain ⟨⟨other, hcounts, rfl⟩, -⟩ := admittedWatermarks_eq_some.mp hw
      obtain rfl : other.key = key := hcounts.2.1
      exact ⟨other, hcounts, rfl, hc⟩
  rw [keepsHeight_iff]
  simp only [stands_iff, hreached]
  constructor
  · intro heq c
    rw [heq]
  · intro h
    cases hw : (currentWatermarks crypto root records)[key]? with
    | none => cases hw' : (currentWatermarks crypto root (records ++ extra))[key]? with
      | none => rfl
      | some current' => simpa [hw, hw'] using h current'
    | some current => cases hw' : (currentWatermarks crypto root (records ++ extra))[key]? with
      | none => simpa [hw, hw'] using h current
      | some current' =>
        simp only [hw, hw', Option.mem_some_iff, exists_eq_left'] at h
        exact congrArg some (le_antisymm ((h current').mpr le_rfl) ((h current).mp le_rfl))

/-- The clock stays exactly if the height of all keys is kept. -/
lemma nextCounter_eq_iff (hle : ∀ record ∈ records ++ extra, record.counter ≤ maxLwwCounter) :
    nextCounter (resolveRecords crypto ratchet root (records ++ extra)) =
        nextCounter (resolveRecords crypto ratchet root records) ↔
      KeepsHeight crypto root records extra (fun _ => True) := by
  have hreached : ∀ (l : List VerifiedRecord) c,
      (∃ other, Counts crypto root l other.key other ∧ True ∧ c ≤ other.counter) ↔
        ∃ key record, Counts crypto root l key record ∧ c ≤ record.counter := by
    intro l c
    constructor
    · rintro ⟨other, hcounts, -, hc⟩
      exact ⟨other.key, other, hcounts, hc⟩
    · rintro ⟨key, other, hcounts, hc⟩
      obtain rfl : other.key = key := hcounts.2.1
      exact ⟨other, hcounts, trivial, hc⟩
  have hlt : ∀ c, c < nextCounter (resolveRecords crypto ratchet root records) ↔
      ∃ key record, Counts crypto root records key record ∧ c ≤ record.counter :=
    fun c => lt_nextCounter_iff fun record hmem => hle record (List.mem_append_left extra hmem)
  have hlt' : ∀ c, c < nextCounter (resolveRecords crypto ratchet root (records ++ extra)) ↔
      ∃ key record, Counts crypto root (records ++ extra) key record ∧ c ≤ record.counter :=
    fun c => lt_nextCounter_iff hle
  rw [keepsHeight_iff]
  simp only [stands_iff, hreached, ← hlt, ← hlt']
  constructor
  · intro heq c
    rw [heq]
  · exact fun h => eq_of_forall_lt_iff fun c => (h c).symm

/-- A remembered key is rolled back in the grown vault exactly if what stands there stays below. -/
lemma rollbackKeys_grown_eq_some {key : RecordKey} {remembered : ℕ} :
    (rollbackKeys crypto ratchet root (records ++ extra))[key]? = some remembered ↔
      ratchet.watermarks[key]? = some remembered ∧ 0 < remembered ∧
        ∀ other, Stands crypto root records extra other → other.key = key →
          other.counter < remembered := by
  rw [rollbackKeys_eq_some]
  refine and_congr_right fun _ => and_congr_right fun _ => ?_
  constructor
  · rintro hall other hstands rfl
    exact hall other (stands_iff.mp hstands)
  · intro hall other hcounts
    obtain rfl : other.key = key := hcounts.2.1
    exact hall other (stands_iff.mpr hcounts) rfl

/-- The floor stays exactly if no lifted or dropped key shows. -/
lemma rollbackCounterFloor_eq_iff :
    (resolveRecords crypto ratchet root (records ++ extra)).rollbackCounterFloor =
        (resolveRecords crypto ratchet root records).rollbackCounterFloor ↔
      KeepsFloor crypto ratchet root records extra := by
  have hpred : ∀ remembered, saturatingAdd remembered 1 - 1 < saturatingAdd remembered 1 := by
    intro remembered
    simp only [saturatingAdd]
    omega
  constructor
  · intro heq
    constructor
    · intro key remembered hw hpos hbelow record _ _ _
      have hlt : saturatingAdd remembered 1 - 1 <
          (resolveRecords crypto ratchet root (records ++ extra)).rollbackCounterFloor := by
        rw [heq, lt_rollbackCounterFloor_iff]
        exact ⟨key, remembered, rollbackKeys_eq_some.mpr ⟨hw, hpos, hbelow⟩, hpred remembered⟩
      obtain ⟨key', remembered', hkey', hle⟩ := lt_rollbackCounterFloor_iff.mp hlt
      obtain ⟨hw', hpos', hstanding⟩ := rollbackKeys_grown_eq_some.mp hkey'
      exact ⟨key', remembered', hw', Nat.le_of_pred_lt hle, hpos', hstanding⟩
    · intro key remembered hw hpos hbelow record _ _ _
      have hlt : saturatingAdd remembered 1 - 1 <
          (resolveRecords crypto ratchet root records).rollbackCounterFloor := by
        rw [← heq, lt_rollbackCounterFloor_iff]
        exact ⟨key, remembered, rollbackKeys_grown_eq_some.mpr ⟨hw, hpos, hbelow⟩, hpred remembered⟩
      obtain ⟨key', remembered', hkey', hle⟩ := lt_rollbackCounterFloor_iff.mp hlt
      obtain ⟨hw', hpos', hcounting⟩ := rollbackKeys_eq_some.mp hkey'
      exact ⟨key', remembered', hw', Nat.le_of_pred_lt hle, hpos', hcounting⟩
  · rintro ⟨hlifted, hdropped⟩
    refine eq_of_forall_lt_iff fun c => ?_
    rw [lt_rollbackCounterFloor_iff, lt_rollbackCounterFloor_iff]
    constructor
    · rintro ⟨key, remembered, hkey, hc⟩
      obtain ⟨hw, hpos, hstanding⟩ := rollbackKeys_grown_eq_some.mp hkey
      by_cases hcounting : ∀ other, Counts crypto root records key other → other.counter < remembered
      · exact ⟨key, remembered, rollbackKeys_eq_some.mpr ⟨hw, hpos, hcounting⟩, hc⟩
      · -- a record that reached what is remembered is lost
        push Not at hcounting
        obtain ⟨other, hcounts, hle⟩ := hcounting
        obtain rfl : other.key = key := hcounts.2.1
        have hloses := (stands_or_loses hcounts).resolve_left fun hstands =>
          absurd (hstanding other hstands rfl) (not_lt.mpr hle)
        obtain ⟨key', remembered', hw', hle', hpos', hcounting'⟩ :=
          hdropped _ remembered hw hpos hstanding other hloses rfl hle
        exact ⟨key', remembered', rollbackKeys_eq_some.mpr ⟨hw', hpos', hcounting'⟩,
          hc.trans_le hle'⟩
    · rintro ⟨key, remembered, hkey, hc⟩
      obtain ⟨hw, hpos, hcounting⟩ := rollbackKeys_eq_some.mp hkey
      by_cases hstanding : ∀ other, Stands crypto root records extra other → other.key = key →
          other.counter < remembered
      · exact ⟨key, remembered, rollbackKeys_grown_eq_some.mpr ⟨hw, hpos, hstanding⟩, hc⟩
      · -- a record that is gained reaches what is remembered
        push Not at hstanding
        obtain ⟨other, hstands, rfl, hle⟩ := hstanding
        have hgains := hstands.counts_or_gains.resolve_left fun hcounts =>
          absurd (hcounting other hcounts) (not_lt.mpr hle)
        obtain ⟨key', remembered', hw', hle', hpos', hstanding'⟩ :=
          hlifted _ remembered hw hpos hcounting other hgains rfl hle
        exact ⟨key', remembered', rollbackKeys_grown_eq_some.mpr ⟨hw', hpos', hstanding'⟩,
          hc.trans_le hle'⟩

end Heights

/-- The entry points among the extra records stay behind the clock. At some regressed key that is
remembered as high as any, they stay below what is remembered. -/
structure EntryPointsBehind (root : SelectedRoot) (records extra : List VerifiedRecord) :
    Prop where
  below : ∀ record ∈ extra, ∀ entryPoint, record.body = .entryPoint entryPoint →
    record.counter < nextCounter (resolveRecords crypto ratchet root records)
  floor : ∀ (key : RecordKey) (remembered : ℕ),
    (rollbackKeys crypto ratchet root records)[key]? = some remembered →
    ∃ (key' : RecordKey) (remembered' : ℕ),
      (rollbackKeys crypto ratchet root records)[key']? = some remembered' ∧
      saturatingAdd remembered 1 ≤ saturatingAdd remembered' 1 ∧
      ∀ record ∈ extra, (∃ entryPoint, record.body = .entryPoint entryPoint) → record.key = key' →
        record.counter < remembered'

variable {crypto ratchet} {vault vault' : VaultStore} {root : SelectedRoot}
variable {records extra : List VerifiedRecord}

section Powerless

variable (hdistinct : (records ++ extra).Pairwise fun a b => a.recordHash ≠ b.recordHash)
variable (hpowerless : ∀ record ∈ extra, Powerless crypto root records record)

include hdistinct hpowerless

lemma currentWatermarks_append {key : RecordKey} (hkey : ∀ record ∈ extra, record.key ≠ key) :
    (currentWatermarks crypto root (records ++ extra))[key]? =
      (currentWatermarks crypto root records)[key]? := by
  have hcounts : ∀ record, Counts crypto root (records ++ extra) key record ↔
      Counts crypto root records key record := by
    intro record
    rw [counts_append hdistinct hpowerless, or_iff_left_iff_imp]
    exact fun h => absurd h.2.1 (hkey record h.1)
  cases hw : (currentWatermarks crypto root records)[key]? with
  | none =>
    have hnone := admittedWatermarks_eq_none.mp hw
    exact admittedWatermarks_eq_none.mpr fun record h => hnone record ((hcounts record).mp h)
  | some c =>
    obtain ⟨⟨record, hrecord, hc⟩, hall⟩ := admittedWatermarks_eq_some.mp hw
    exact admittedWatermarks_eq_some.mpr ⟨⟨record, (hcounts record).mpr hrecord, hc⟩,
      fun other ho => hall other ((hcounts other).mp ho)⟩

lemma nextCounter_append (hle : ∀ record ∈ records ++ extra, record.counter ≤ maxLwwCounter) :
    nextCounter (resolveRecords crypto ratchet root (records ++ extra)) =
        nextCounter (resolveRecords crypto ratchet root records) ↔
      ∀ record ∈ extra, ∀ entryPoint, record.body = .entryPoint entryPoint →
        record.counter < nextCounter (resolveRecords crypto ratchet root records) := by
  have hlt : ∀ c, c < nextCounter (resolveRecords crypto ratchet root records) ↔
      ∃ key record, Counts crypto root records key record ∧ c ≤ record.counter :=
    fun c => lt_nextCounter_iff fun record hmem => hle record (List.mem_append_left extra hmem)
  have hlt' : ∀ c, c < nextCounter (resolveRecords crypto ratchet root (records ++ extra)) ↔
      ∃ key record, Counts crypto root (records ++ extra) key record ∧ c ≤ record.counter :=
    fun c => lt_nextCounter_iff hle
  constructor
  · intro heq record hmem entryPoint hb
    rw [← heq, hlt']
    exact ⟨record.key, record,
      (counts_append hdistinct hpowerless).mpr (Or.inr ⟨hmem, rfl, entryPoint, hb⟩), le_rfl⟩
  · refine fun hbelow => eq_of_forall_lt_iff fun c => ?_
    constructor
    · intro h
      obtain ⟨key, record, hcounts, hc⟩ := (hlt' c).mp h
      rcases (counts_append hdistinct hpowerless).mp hcounts with hcounts | ⟨hmem, _, entryPoint, hb⟩
      · exact (hlt c).mpr ⟨key, record, hcounts, hc⟩
      · exact hc.trans_lt (hbelow record hmem entryPoint hb)
    · intro h
      obtain ⟨key, record, hcounts, hc⟩ := (hlt c).mp h
      exact (hlt' c).mpr
        ⟨key, record, (counts_append hdistinct hpowerless).mpr (Or.inl hcounts), hc⟩

/-- A regressed key stays regressed unless an entry point reaches what is remembered. -/
lemma rollbackKeys_append {key : RecordKey} {remembered : ℕ} :
    (rollbackKeys crypto ratchet root (records ++ extra))[key]? = some remembered ↔
      (rollbackKeys crypto ratchet root records)[key]? = some remembered ∧
        ∀ record ∈ extra, (∃ entryPoint, record.body = .entryPoint entryPoint) →
          record.key = key → record.counter < remembered := by
  rw [rollbackKeys_eq_some, rollbackKeys_eq_some]
  constructor
  · rintro ⟨hw, hpos, hall⟩
    refine ⟨⟨hw, hpos, fun record hcounts => ?_⟩, fun record hmem hb hkey => ?_⟩
    · exact hall record ((counts_append hdistinct hpowerless).mpr (Or.inl hcounts))
    · exact hall record ((counts_append hdistinct hpowerless).mpr (Or.inr ⟨hmem, hkey, hb⟩))
  · rintro ⟨⟨hw, hpos, hall⟩, hentry⟩
    refine ⟨hw, hpos, fun record hcounts => ?_⟩
    rcases (counts_append hdistinct hpowerless).mp hcounts with hcounts | ⟨hmem, hkey, hb⟩
    · exact hall record hcounts
    · exact hentry record hmem hb hkey

lemma rollbackCounterFloor_append :
    (resolveRecords crypto ratchet root (records ++ extra)).rollbackCounterFloor =
        (resolveRecords crypto ratchet root records).rollbackCounterFloor ↔
      ∀ (key : RecordKey) (remembered : ℕ),
        (rollbackKeys crypto ratchet root records)[key]? = some remembered →
        ∃ (key' : RecordKey) (remembered' : ℕ),
          (rollbackKeys crypto ratchet root records)[key']? = some remembered' ∧
          saturatingAdd remembered 1 ≤ saturatingAdd remembered' 1 ∧
          ∀ record ∈ extra, (∃ entryPoint, record.body = .entryPoint entryPoint) →
            record.key = key' → record.counter < remembered' := by
  constructor
  · intro heq key remembered hkey
    have hpos : 0 < saturatingAdd remembered 1 := by
      simp only [saturatingAdd]
      omega
    have hlt : saturatingAdd remembered 1 - 1 <
        (resolveRecords crypto ratchet root (records ++ extra)).rollbackCounterFloor := by
      rw [heq, lt_rollbackCounterFloor_iff]
      exact ⟨key, remembered, hkey, by omega⟩
    obtain ⟨key', remembered', hkey', hle⟩ := lt_rollbackCounterFloor_iff.mp hlt
    obtain ⟨hregressed, hentry⟩ := (rollbackKeys_append hdistinct hpowerless).mp hkey'
    exact ⟨key', remembered', hregressed, by omega, hentry⟩
  · refine fun hfloor => eq_of_forall_lt_iff fun c => ?_
    rw [lt_rollbackCounterFloor_iff, lt_rollbackCounterFloor_iff]
    constructor
    · rintro ⟨key, remembered, hkey, hc⟩
      exact ⟨key, remembered, ((rollbackKeys_append hdistinct hpowerless).mp hkey).1, hc⟩
    · rintro ⟨key, remembered, hkey, hc⟩
      obtain ⟨key', remembered', hkey', hle, hentry⟩ := hfloor key remembered hkey
      exact ⟨key', remembered', (rollbackKeys_append hdistinct hpowerless).mpr ⟨hkey', hentry⟩,
        hc.trans_le hle⟩

end Powerless

section Example

open TestSupport

/-- What the root signs in a vault whose only other user may read and nothing else. -/
def readerBodies : List VerifiedRecord :=
  [verifiedBody rootUser (.vaultRoot ⟨rootUser.id, rootUser.hpkePublicKey⟩),
    verifiedBody rootUser (.user ⟨(testUser 1).id, [1], [1], 2⟩),
    verifiedBody (testUser 1) (.entryPoint ⟨rootUser.id, [1], 2⟩),
    verifiedBody rootUser (.grant ⟨grantId 0, ⟨[0]⟩, .user (testUser 1).id,
      .readKeyspace .all, 3⟩),
    verifiedBody rootUser (.secret ⟨testSecretId, testSelector, ⟨[], [], []⟩, 4⟩)]

def vaultOf (records : List VerifiedRecord) : VaultStore :=
  .v1 ⟨records.map VerifiedRecord.signed⟩

/-- The reader's entry point at a counter. -/
def readerEntryPoint (counter : ℕ) : VerifiedRecord :=
  verifiedBody (testUser 1) (.entryPoint ⟨rootUser.id, [1], counter⟩)

/-- The reader's attempt at a secret. -/
def readerSecret (counter : ℕ) : VerifiedRecord :=
  verifiedBody (testUser 1) (.secret ⟨testSecretId, testSelector, ⟨[], [], []⟩, counter⟩)

end Example

end Clock

end Thorax
