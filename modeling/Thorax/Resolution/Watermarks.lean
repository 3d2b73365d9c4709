import Thorax.Resolution.Pools

/-!
# Watermarks and the secret index

The two tables built from the verified records once authority is resolved: the highest admitted
counter of each key, and the latest authorised record of each secret.
-/

namespace Thorax

open Collections
open Std (ExtTreeMap TransCmp OrientedCmp ReflCmp LawfulEqCmp)

/-! ### The Lamport order -/

instance : TransCmp compareLww :=
  inferInstanceAs (TransCmp (compareLex (compareLex (compareOn VerifiedRecord.counter)
    (compareOn VerifiedRecord.signer)) (compareOn VerifiedRecord.recordHash)))

lemma compareLww_eq_eq {a b : VerifiedRecord} (h : compareLww a b = .eq) :
    a.counter = b.counter ∧ a.signer = b.signer ∧ a.recordHash = b.recordHash := by
  simp only [compareLww, Ordering.then_eq_eq, LawfulEqCmp.compare_eq_iff_eq] at h
  exact ⟨h.1.1, h.1.2, h.2⟩

/-- The Lamport order agrees with the counters. -/
lemma compareLww_isLE_of_lt {a b : VerifiedRecord} (h : a.counter < b.counter) :
    (compareLww a b).isLE := by
  have hlt := compare_lt_iff_lt.mpr h
  simp [compareLww, hlt, Ordering.then]

lemma counter_le_of_compareLww {a b : VerifiedRecord} (h : (compareLww a b).isLE) :
    a.counter ≤ b.counter := by
  by_contra hlt
  have hgt : compare a.counter b.counter = .gt := compare_gt_iff_gt.mpr (by omega)
  simp [compareLww, hgt, Ordering.then] at h

/-! ### Watermarks -/

section Watermarks

variable {records : List VerifiedRecord} {effective : EffectiveState}
variable {admittedDeletions : BTreeSet HashValue} {key : RecordKey} {c : ℕ}

/-- A record that counts for the watermark of its key. -/
def CountsAt (records : List VerifiedRecord) (effective : EffectiveState)
    (admittedDeletions : BTreeSet HashValue) (key : RecordKey) (record : VerifiedRecord) : Prop :=
  record ∈ records ∧ record.key = key ∧ record.body.lwwCounter.isSome ∧
    recordAdmitted (entryPointSigners records) effective admittedDeletions record = true

/-- A watermark is the highest counter among the records that count at its key. -/
lemma admittedWatermarks_eq_some :
    (admittedWatermarks records effective admittedDeletions)[key]? = some c ↔
      (∃ record, CountsAt records effective admittedDeletions key record ∧ record.counter = c) ∧
        ∀ record, CountsAt records effective admittedDeletions key record → record.counter ≤ c := by
  rw [admittedWatermarks, groupFold_max_eq_some]
  simp only [Option.ite_none_right_eq_some, Bool.and_eq_true, Option.some.injEq, CountsAt]
  constructor
  · rintro ⟨⟨a, ha, ⟨⟨hadm, hsome⟩, hkey⟩, hc⟩, hle⟩
    exact ⟨⟨a, ⟨ha, hkey, hsome, hadm⟩, hc⟩, fun b hb => hle b hb.1 ⟨⟨hb.2.2.2, hb.2.2.1⟩, hb.2.1⟩⟩
  · rintro ⟨⟨a, ⟨ha, hkey, hsome, hadm⟩, hc⟩, hle⟩
    exact ⟨⟨a, ha, ⟨⟨hadm, hsome⟩, hkey⟩, hc⟩, fun b hb h => hle b ⟨hb, h.2, h.1.2, h.1.1⟩⟩

lemma admittedWatermarks_eq_none :
    (admittedWatermarks records effective admittedDeletions)[key]? = none ↔
      ∀ record, ¬ CountsAt records effective admittedDeletions key record := by
  rw [admittedWatermarks, groupFold_eq_none]
  simp only [ne_eq, Option.ite_none_right_eq_some, Bool.and_eq_true, Option.some.injEq, CountsAt]
  constructor
  · rintro h record ⟨hmem, hkey, hsome, hadm⟩
    exact h record hmem ⟨⟨hadm, hsome⟩, hkey⟩
  · rintro h record hmem ⟨⟨hadm, hsome⟩, hkey⟩
    exact h record ⟨hmem, hkey, hsome, hadm⟩

/-- The watermark of a key, zero where nothing counts, is at least every counter that counts. -/
lemma counter_le_admittedWatermarks {record : VerifiedRecord}
    (h : CountsAt records effective admittedDeletions key record) :
    record.counter ≤ (admittedWatermarks records effective admittedDeletions)[key]?.getD 0 := by
  cases hw : (admittedWatermarks records effective admittedDeletions)[key]? with
  | none => exact absurd h (admittedWatermarks_eq_none.mp hw record)
  | some c => exact (admittedWatermarks_eq_some.mp hw).2 record h

lemma mem_entryPointSigners {user : UserId} :
    user ∈ entryPointSigners records ↔
      ∃ record ∈ records, record.signer = user ∧ ∃ r, record.body = .entryPoint r := by
  rw [entryPointSigners, mem_collectSet]
  simp only [Std.ExtTreeSet.not_mem_empty, false_or]
  constructor
  · rintro ⟨record, hmem, h⟩
    cases hb : record.body <;> simp [hb] at h
    exact ⟨record, hmem, h, _, hb⟩
  · rintro ⟨record, hmem, hs, r, hb⟩
    exact ⟨record, hmem, by simp [hb, hs]⟩

end Watermarks

/-! ### The secret index -/

section SecretIndex

variable {authorities : Authorities} {records : List VerifiedRecord} {secret : SecretId}

/-- What a slot holds after a scan of entries that name their own positions. -/
lemma foldl_pushSecretSlot {entries : List (VerifiedRecord × ℕ)}
    (hpos : ∀ entry ∈ entries, records[entry.2]? = some entry.1) (slot : SecretSlot)
    {winner : VerifiedRecord} (hslot : records[slot.winner]? = some winner) :
    ∃ slot' winner', entries.foldl (fun s e => some (pushSecretSlot records s e)) (some slot) =
        some slot' ∧ records[slot'.winner]? = some winner' ∧
      (winner' = winner ∨ ∃ entry ∈ entries, entry.1 = winner') ∧
      (compareLww winner winner').isLE ∧ ∀ entry ∈ entries, (compareLww entry.1 winner').isLE := by
  induction entries generalizing slot winner with
  | nil =>
    exact ⟨slot, winner, rfl, hslot, Or.inl rfl, Ordering.isLE_of_eq_eq ReflCmp.compare_self,
      by simp⟩
  | cons entry entries ih =>
    have hentry := hpos entry List.mem_cons_self
    have hrest := fun e he => hpos e (List.mem_cons_of_mem entry he)
    simp only [List.foldl_cons, pushSecretSlot, hslot]
    split_ifs with hgt
    · obtain ⟨slot', winner', hfold, hw', hfrom, hle, hall⟩ :=
        ih hrest { slot with winner := entry.2 } hentry
      have hlt : (compareLww winner entry.1).isLE := by
        rw [show compareLww winner entry.1 = (compareLww entry.1 winner).swap from
          OrientedCmp.eq_swap]
        cases hc : compareLww entry.1 winner <;> simp_all
      refine ⟨slot', winner', hfold, hw', Or.inr ?_, TransCmp.isLE_trans hlt hle, ?_⟩
      · rcases hfrom with rfl | ⟨e, he, rfl⟩
        · exact ⟨entry, List.mem_cons_self, rfl⟩
        · exact ⟨e, List.mem_cons_of_mem _ he, rfl⟩
      · rintro e he
        rcases List.mem_cons.mp he with rfl | he
        · exact hle
        · exact hall e he
    · obtain ⟨slot', winner', hfold, hw', hfrom, hle, hall⟩ := ih hrest slot hslot
      have hentryle : (compareLww entry.1 winner).isLE := by
        cases hc : compareLww entry.1 winner <;> simp_all
      refine ⟨slot', winner', hfold, hw', ?_, hle, ?_⟩
      · rcases hfrom with rfl | ⟨e, he, rfl⟩
        · exact Or.inl rfl
        · exact Or.inr ⟨e, List.mem_cons_of_mem _ he, rfl⟩
      · rintro e he
        rcases List.mem_cons.mp he with rfl | he
        · exact TransCmp.isLE_trans hentryle hle
        · exact hall e he

/-- The index slot of a secret holds the greatest of its authorised records. -/
lemma buildSecretIndex_eq_some {slot : SecretSlot}
    (h : (buildSecretIndex authorities records)[secret]? = some slot) :
    ∃ winner, records[slot.winner]? = some winner ∧ winner ∈ records ∧
      secretIndexKey authorities winner = some secret ∧
      ∀ record ∈ records, secretIndexKey authorities record = some secret →
        (compareLww record winner).isLE := by
  rw [buildSecretIndex, getElem?_groupFold] at h
  have hentries : ∀ e ∈ records.zipIdx.filter
      (fun e => decide (secretIndexKey authorities e.1 = some secret)),
      records[e.2]? = some e.1 ∧ secretIndexKey authorities e.1 = some secret := by
    rintro ⟨record, i⟩ he
    rw [List.mem_filter] at he
    exact ⟨by simpa [List.mem_zipIdx_iff_getElem?] using he.1, by simpa using he.2⟩
  have hcomplete : ∀ record ∈ records, secretIndexKey authorities record = some secret →
      ∃ e ∈ records.zipIdx.filter (fun e => decide (secretIndexKey authorities e.1 = some secret)),
        e.1 = record := by
    intro record hmem hkey
    obtain ⟨i, hi⟩ := List.mem_iff_getElem?.mp hmem
    exact ⟨(record, i), by simp [List.mem_filter, List.mem_zipIdx_iff_getElem?, hi, hkey], rfl⟩
  generalize hl : records.zipIdx.filter
    (fun e => decide (secretIndexKey authorities e.1 = some secret)) = entries at *
  cases entries with
  | nil => simp at h
  | cons entry entries =>
    simp only [List.foldl_cons, ExtTreeMap.getElem?_empty, pushSecretSlot] at h
    have hentry := hentries entry List.mem_cons_self
    obtain ⟨slot', winner, hfold, hw, hfrom, hle, hall⟩ := foldl_pushSecretSlot
      (fun e he => (hentries e (List.mem_cons_of_mem _ he)).1) ⟨entry.2, entry.2⟩ hentry.1
    obtain rfl : slot' = slot := Option.some.inj (hfold.symm.trans h)
    refine ⟨winner, hw, List.mem_of_getElem? hw, ?_, fun record hmem hkey => ?_⟩
    · rcases hfrom with rfl | ⟨e, he, rfl⟩
      · exact hentry.2
      · exact (hentries e (List.mem_cons_of_mem _ he)).2
    · obtain ⟨e, he, rfl⟩ := hcomplete record hmem hkey
      rcases List.mem_cons.mp he with rfl | he
      · exact hle
      · exact hall e he

lemma buildSecretIndex_eq_none :
    (buildSecretIndex authorities records)[secret]? = none ↔
      ∀ record ∈ records, secretIndexKey authorities record ≠ some secret := by
  rw [buildSecretIndex, groupFold_eq_none]
  constructor
  · intro h record hmem
    obtain ⟨i, hi⟩ := List.mem_iff_getElem?.mp hmem
    exact h (record, i) (by simpa [List.mem_zipIdx_iff_getElem?] using hi)
  · rintro h ⟨record, i⟩ he
    exact h record (List.mem_of_getElem? (by simpa [List.mem_zipIdx_iff_getElem?] using he))

end SecretIndex

/-- The index of an effective state was built over its own verified records. -/
def EffectiveState.Indexed (self : EffectiveState) : Prop :=
  self.secretIndex = buildSecretIndex self.authorities self.verifiedRecords

namespace EffectiveState

variable {self : EffectiveState} {secret : SecretId}

/-- The latest record of a secret is the greatest of its authorised records. -/
lemma latestAuthorizedSecretRecord_eq_some (hself : self.Indexed) {winner : VerifiedRecord}
    (h : self.latestAuthorizedSecretRecord secret = some winner) :
    winner ∈ self.verifiedRecords ∧ secretIndexKey self.authorities winner = some secret ∧
      ∀ record ∈ self.verifiedRecords, secretIndexKey self.authorities record = some secret →
        (compareLww record winner).isLE := by
  simp only [latestAuthorizedSecretRecord, Option.bind_eq_some_iff] at h
  obtain ⟨slot, hslot, hw⟩ := h
  rw [hself] at hslot
  obtain ⟨winner', hw', hmem, hkey, hall⟩ := buildSecretIndex_eq_some hslot
  obtain rfl : winner' = winner := Option.some.inj (hw'.symm.trans hw)
  exact ⟨hmem, hkey, hall⟩

lemma latestAuthorizedSecretRecord_eq_none (hself : self.Indexed) :
    self.latestAuthorizedSecretRecord secret = none ↔
      ∀ record ∈ self.verifiedRecords, secretIndexKey self.authorities record ≠ some secret := by
  rw [← buildSecretIndex_eq_none, ← hself]
  constructor
  · intro h
    by_contra hne
    obtain ⟨slot, hslot⟩ := Option.ne_none_iff_exists'.mp hne
    have hslot' := hslot
    rw [hself] at hslot'
    obtain ⟨winner, hw, _⟩ := buildSecretIndex_eq_some hslot'
    simp [latestAuthorizedSecretRecord, hslot, slotWinner, hw] at h
  · intro h
    simp [latestAuthorizedSecretRecord, h]

end EffectiveState

end Thorax
