import Thorax.Validate.Pipeline

/-!
# Pools

The records that compete at one key form its pool. What a resolution decides about a key depends
on the pool of that key only, and not on the order of its records.
-/

namespace Thorax

open Collections
open Std (ExtTreeMap TransOrd LawfulEqOrd LawfulEqCmp)

section Pools

variable {K : Type} [Ord K] [TransOrd K] [LawfulEqOrd K] [DecidableEq K]
variable (records : List VerifiedRecord) (rollbackKeys : BTreeMap RecordKey ℕ)
variable (classify : VerifiedRecord → Option K)

/-- The records that compete at a key. -/
def pool (k : K) : List VerifiedRecord :=
  records.filter fun record => !rollbackKeys.contains record.key && classify record = some k

/-- The competitors that share the highest counter. -/
def leadersAt (k : K) : List VerifiedRecord :=
  Lww.leaders VerifiedRecord.counter (pool records rollbackKeys classify k)

variable {records rollbackKeys classify}

omit [Ord K] [TransOrd K] [LawfulEqOrd K] in
lemma mem_pool {k : K} {record : VerifiedRecord} :
    record ∈ pool records rollbackKeys classify k ↔
      record ∈ records ∧ record.key ∉ rollbackKeys ∧ classify record = some k := by
  simp [pool, ← ExtTreeMap.contains_iff_mem]

omit [Ord K] [TransOrd K] [LawfulEqOrd K] in
lemma mem_leadersAt {k : K} {record : VerifiedRecord} :
    record ∈ leadersAt records rollbackKeys classify k ↔
      record ∈ pool records rollbackKeys classify k ∧
        Lww.Leads VerifiedRecord.counter (pool records rollbackKeys classify k) record :=
  Lww.mem_leaders _

variable (records rollbackKeys classify)

lemma getElem?_lwwSlots (k : K) :
    (lwwSlots records rollbackKeys classify)[k]? =
      if pool records rollbackKeys classify k = [] then none
      else some (leadersAt records rollbackKeys classify k) := by
  have hpool : (records.filter fun record =>
      (if rollbackKeys.contains record.key then none else classify record) = some k) =
        pool records rollbackKeys classify k := by
    apply List.filter_congr
    intro record _
    cases rollbackKeys.contains record.key <;> simp
  -- the running entry is the slot of the records scanned so far
  have hfold : ∀ (l : List VerifiedRecord) (slot : List VerifiedRecord),
      l.foldl (fun entry record => some
        (Lww.push VerifiedRecord.counter (entry.getD []) record)) (some slot) =
      some (l.foldl (Lww.push VerifiedRecord.counter) slot) := by
    intro l
    induction l with
    | nil => simp
    | cons a l ih =>
      intro slot
      simp only [List.foldl_cons, Option.getD_some]
      exact ih _
  rw [lwwSlots, getElem?_groupFold, hpool]
  cases hp : pool records rollbackKeys classify k with
  | nil => simp
  | cons a l =>
    simp only [List.foldl_cons, ExtTreeMap.getElem?_empty, Option.getD_none, reduceCtorEq, if_false,
      leadersAt, hp, Lww.leaders]
    exact hfold l _

/-- The winner at a key is decided by its leaders. -/
lemma getElem?_winners (k : K) :
    (lwwResolution records rollbackKeys classify).winners[k]? =
      Lww.winner VerifiedRecord.body VerifiedRecord.recordHash
        (leadersAt records rollbackKeys classify k) := by
  simp only [lwwResolution, ExtTreeMap.getElem?_filterMap', getElem?_lwwSlots]
  split_ifs with h
  · simp [leadersAt, h, Lww.winner, minBy]
  · simp

omit [LawfulEqOrd K] [DecidableEq K] in
lemma getElem?_partitionLww {V : Type} (winners : BTreeMap K VerifiedRecord)
    (value : RecordBodyV1 → Option V) (k : K) :
    (partitionLww winners value).1[k]? = winners[k]?.bind fun record => value record.body := by
  simp [partitionLww]

/-! ### Conflicts -/

variable {mkKey : K → RecordKey}

lemma mem_values_lwwSlots {candidates : List VerifiedRecord}
    (h : candidates ∈ values (lwwSlots records rollbackKeys classify)) :
    ∃ k, pool records rollbackKeys classify k ≠ [] ∧
      candidates = leadersAt records rollbackKeys classify k := by
  obtain ⟨k, hk⟩ := mem_values.mp h
  rw [getElem?_lwwSlots] at hk
  split_ifs at hk with hpool
  exact ⟨k, hpool, (Option.some.inj hk).symm⟩

omit [TransOrd K] [LawfulEqOrd K] [Ord K] in
/-- A dispute is reported at the key of the records that are in dispute. -/
lemma fst_of_conflictSlot (hkey : ∀ record k, classify record = some k → record.key = mkKey k)
    {k : K} {key : RecordKey} {slot : ConflictSlot}
    (h : conflictSlot (leadersAt records rollbackKeys classify k) = some (key, slot)) :
    key = mkKey k := by
  cases hl : leadersAt records rollbackKeys classify k with
  | nil => simp [hl, conflictSlot] at h
  | cons leader rest =>
    have hleader : leader ∈ leadersAt records rollbackKeys classify k := by simp [hl]
    have hclass := (mem_pool.mp (mem_leadersAt.mp hleader).1).2.2
    simp only [hl, conflictSlot] at h
    split_ifs at h with hdiv
    simp only [Option.some.injEq, Prod.mk.injEq] at h
    rw [← h.1]
    exact hkey leader k hclass

/-- The candidates of a dispute are the leaders at its key. -/
lemma mem_candidateHashes {key : RecordKey} {slot : ConflictSlot} {hash : HashValue}
    (hslot : (lwwResolution records rollbackKeys classify).conflicted[key]? = some slot)
    (hmem : hash ∈ slot.candidateHashes) :
    ∃ k, ∃ record ∈ leadersAt records rollbackKeys classify k, record.recordHash = hash ∧
      record.counter = slot.counter ∧
      ∃ leader ∈ leadersAt records rollbackKeys classify k, leader.key = key := by
  rcases mem_of_getElem?_collectMap hslot with h | ⟨candidates, hcand, h⟩
  · simp at h
  · obtain ⟨k, _, rfl⟩ := mem_values_lwwSlots records rollbackKeys classify hcand
    cases hl : leadersAt records rollbackKeys classify k with
    | nil =>
      rw [hl] at h
      cases h
    | cons leader rest =>
      rw [hl, conflictSlot] at h
      split_ifs at h
      obtain ⟨rfl, rfl⟩ := Prod.mk.inj (Option.some.inj h)
      have hsorted := (List.destutter_sublist _ _).subset hmem
      rw [mem_sortBy, List.mem_map] at hsorted
      obtain ⟨record, hrecord, rfl⟩ := hsorted
      rw [← hl] at hrecord
      have hleader : leader ∈ leadersAt records rollbackKeys classify k := by simp [hl]
      exact ⟨k, record, hrecord, rfl, Lww.counter_eq_of_mem_leaders _ hrecord hleader, leader,
        hleader, rfl⟩

variable (hkey : ∀ record k, classify record = some k → record.key = mkKey k)

include hkey in
/-- No dispute is reported outside the keys that are resolved. -/
lemma getElem?_conflicted_of_ne {key : RecordKey} (hne : ∀ k, mkKey k ≠ key) :
    (lwwResolution records rollbackKeys classify).conflicted[key]? = none := by
  simp only [lwwResolution]
  rw [getElem?_collectMap_of_not_mem]
  · simp
  · intro candidates hc slot hslot
    obtain ⟨k, _, rfl⟩ := mem_values_lwwSlots records rollbackKeys classify hc
    exact hne k (fst_of_conflictSlot records rollbackKeys classify hkey hslot).symm

include hkey in
/-- The dispute at a key is decided by its leaders. -/
lemma getElem?_conflicted (hinj : Function.Injective mkKey) (k : K) :
    (lwwResolution records rollbackKeys classify).conflicted[mkKey k]? =
      (conflictSlot (leadersAt records rollbackKeys classify k)).map Prod.snd := by
  simp only [lwwResolution]
  cases hslot : conflictSlot (leadersAt records rollbackKeys classify k) with
  | none =>
    rw [getElem?_collectMap_of_not_mem]
    · simp
    · intro candidates hc slot hcs
      obtain ⟨j, _, rfl⟩ := mem_values_lwwSlots records rollbackKeys classify hc
      obtain rfl := hinj (fst_of_conflictSlot records rollbackKeys classify hkey hcs)
      simp [hslot] at hcs
  | some entry =>
    obtain ⟨key, slot⟩ := entry
    obtain rfl := fst_of_conflictSlot records rollbackKeys classify hkey hslot
    have hne : pool records rollbackKeys classify k ≠ [] := by
      intro hnil
      simp [leadersAt, hnil, conflictSlot] at hslot
    have hmem : leadersAt records rollbackKeys classify k ∈
        values (lwwSlots records rollbackKeys classify) :=
      mem_values.mpr ⟨k, by simp [getElem?_lwwSlots, hne]⟩
    rw [getElem?_collectMap_of_mem hmem hslot]
    · simp
    · intro candidates hc slot' hcs
      obtain ⟨j, _, rfl⟩ := mem_values_lwwSlots records rollbackKeys classify hc
      obtain rfl := hinj (fst_of_conflictSlot records rollbackKeys classify hkey hcs)
      simp only [hslot, Option.some.injEq, Prod.mk.injEq, true_and] at hcs
      exact hcs.symm

include hkey in
/-- A key is disputed exactly when its leaders diverge. -/
lemma mem_conflicted (hinj : Function.Injective mkKey) (k : K) :
    mkKey k ∈ (lwwResolution records rollbackKeys classify).conflicted ↔
      Lww.diverging VerifiedRecord.body (leadersAt records rollbackKeys classify k) = true := by
  rw [← ExtTreeMap.isSome_getElem?_iff_mem, getElem?_conflicted records rollbackKeys classify hkey
    hinj]
  cases hl : leadersAt records rollbackKeys classify k with
  | nil => simp [conflictSlot, Lww.diverging]
  | cons leader rest =>
    simp only [conflictSlot]
    split_ifs with hdiv <;> simp [hdiv]

end Pools

/-! ### A record competes at its own key -/

section Keys

variable {admitted : BTreeSet HashValue} {authorities : Authorities}
variable {users : BTreeMap UserId UserRecordV1} {groups : BTreeMap GroupId GroupRecordV1}
variable (record : VerifiedRecord)

lemma key_of_classifyUser {rootUser : UserId} (k : UserId)
    (h : classifyUser admitted authorities rootUser record = some k) : record.key = .user k := by
  unfold classifyUser at h
  split at h <;> simp_all [VerifiedRecord.key, recordKeyFor]

lemma key_of_classifyGroup (k : GroupId) (h : classifyGroup admitted authorities record = some k) :
    record.key = .group k := by
  unfold classifyGroup at h
  split at h <;> simp_all [VerifiedRecord.key, recordKeyFor]

lemma key_of_classifyMembership (k : GroupMemberId)
    (h : classifyMembership authorities users groups record = some k) :
    record.key = .groupMember k := by
  unfold classifyMembership at h
  split at h <;> simp_all [VerifiedRecord.key, recordKeyFor]

lemma key_of_classifyGrant (k : GrantId)
    (h : classifyGrant admitted authorities users groups record = some k) :
    record.key = .grant k := by
  unfold classifyGrant at h
  split at h <;> simp_all [VerifiedRecord.key, recordKeyFor]

lemma key_of_classifyUserHandle (k : UserHandleId)
    (h : classifyUserHandle authorities users record = some k) : record.key = .userHandle k := by
  unfold classifyUserHandle at h
  split at h <;> simp_all [VerifiedRecord.key, recordKeyFor]

lemma key_of_classifyVaultHandle (k : VaultHandleId)
    (h : classifyVaultHandle authorities record = some k) : record.key = .vaultHandle k := by
  unfold classifyVaultHandle at h
  split at h <;> simp_all [VerifiedRecord.key, recordKeyFor]

lemma key_of_classifyEntryPoint (k : UserId) (h : classifyEntryPoint users record = some k) :
    record.key = .entryPoint k := by
  unfold classifyEntryPoint at h
  split at h <;> simp_all [VerifiedRecord.key, recordKeyFor]

lemma key_of_classifySecret (k : SecretId) (h : classifySecret authorities record = some k) :
    record.key = .secret k := by
  unfold classifySecret at h
  split at h <;> simp_all [VerifiedRecord.key, recordKeyFor]

end Keys

end Thorax
