import Thorax.Resolution.Order
import Thorax.TestSupport

/-!
# Last writer wins

What a resolution says about one key, in terms of the records that compete there: the agreed record
of least hash, or a conflict over the records of the highest counter. For this a classifier has to
sort records as their keys do; each classifier of the resolution does.
-/

namespace Thorax

open Collections
open Std (ExtTreeMap TransOrd LawfulEqOrd)

section Competition

variable {K : Type} (records : List VerifiedRecord) (rollbackKeys : BTreeMap RecordKey ℕ)
variable (classify : VerifiedRecord → Option K)

/-- The record is classified to `k`, at a key that is not suspected of a rollback. -/
def Competes (k : K) (record : VerifiedRecord) : Prop :=
  record ∈ records ∧ record.key ∉ rollbackKeys ∧ classify record = some k

/-- No competitor has a higher counter. -/
def Leading (k : K) (record : VerifiedRecord) : Prop :=
  Competes records rollbackKeys classify k record ∧
    ∀ other, Competes records rollbackKeys classify k other → other.counter ≤ record.counter

/-- The leading records have one body. -/
def Agreed (k : K) : Prop :=
  ∀ a b, Leading records rollbackKeys classify k a → Leading records rollbackKeys classify k b →
    a.body = b.body

/-- What a resolution is to say about a key: the agreed record of least hash, or, at the record key
of the competitors, a conflict over the leading records; and nothing where nobody competes. -/
structure ResolvedAt [Ord K] [TransOrd K] (mkKey : K → RecordKey) (resolution : LwwResolution K) (k : K) :
    Prop where
  winner : ∀ record, resolution.winners[k]? = some record ↔
    Agreed records rollbackKeys classify k ∧ Leading records rollbackKeys classify k record ∧
      ∀ other, Leading records rollbackKeys classify k other →
        (compare record.recordHash other.recordHash).isLE
  conflict : mkKey k ∈ resolution.conflicted ↔ ¬ Agreed records rollbackKeys classify k
  candidates : ∀ slot, resolution.conflicted[mkKey k]? = some slot →
    (∀ record, Leading records rollbackKeys classify k record → record.counter = slot.counter) ∧
      ∀ hash, hash ∈ slot.candidateHashes ↔
        ∃ record, Leading records rollbackKeys classify k record ∧ record.recordHash = hash
  one : (∃ record, Competes records rollbackKeys classify k record) →
    Xor (k ∈ resolution.winners) (mkKey k ∈ resolution.conflicted)
  empty : (∀ record, ¬ Competes records rollbackKeys classify k record) →
    k ∉ resolution.winners ∧ mkKey k ∉ resolution.conflicted

end Competition

section Resolution

variable {K : Type} [Ord K] [TransOrd K] [LawfulEqOrd K] [DecidableEq K]
variable {records : List VerifiedRecord} {rollbackKeys : BTreeMap RecordKey ℕ}
variable {classify : VerifiedRecord → Option K} {mkKey : K → RecordKey} {k : K}

omit [Ord K] [TransOrd K] [LawfulEqOrd K] in
lemma mem_pool_iff_competes {record : VerifiedRecord} :
    record ∈ pool records rollbackKeys classify k ↔
      Competes records rollbackKeys classify k record := mem_pool

omit [Ord K] [TransOrd K] [LawfulEqOrd K] in
lemma mem_leadersAt_iff_leading {record : VerifiedRecord} :
    record ∈ leadersAt records rollbackKeys classify k ↔
      Leading records rollbackKeys classify k record := by
  simp only [mem_leadersAt, Lww.Leads, mem_pool_iff_competes, Leading]

omit [Ord K] [TransOrd K] [LawfulEqOrd K] in
lemma diverging_iff_not_agreed :
    Lww.diverging VerifiedRecord.body (leadersAt records rollbackKeys classify k) = true ↔
      ¬ Agreed records rollbackKeys classify k := by
  rw [← Bool.not_eq_false, Lww.diverging_eq_false]
  simp only [mem_leadersAt_iff_leading, Agreed]
  exact not_congr ⟨fun h a b ha hb => h a ha b hb, fun h a ha b hb => h a b ha hb⟩

omit [Ord K] [TransOrd K] [LawfulEqOrd K] in
/-- Where someone competes, someone leads. -/
lemma exists_leading {record : VerifiedRecord}
    (h : Competes records rollbackKeys classify k record) :
    ∃ leader, Leading records rollbackKeys classify k leader := by
  have hne : leadersAt records rollbackKeys classify k ≠ [] := by
    rw [leadersAt, ne_eq, Lww.leaders_eq_nil]
    exact List.ne_nil_of_mem (mem_pool_iff_competes.mpr h)
  obtain ⟨leader, hleader⟩ := List.exists_mem_of_ne_nil _ hne
  exact ⟨leader, mem_leadersAt_iff_leading.mp hleader⟩

/-- The winner at a key. -/
lemma getElem?_winners_iff (hsep : HashesSeparate records) {record : VerifiedRecord} :
    (lwwResolution records rollbackKeys classify).winners[k]? = some record ↔
      Agreed records rollbackKeys classify k ∧ Leading records rollbackKeys classify k record ∧
        ∀ other, Leading records rollbackKeys classify k other →
          (compare record.recordHash other.recordHash).isLE := by
  rw [getElem?_winners, Lww.winner]
  by_cases hagreed : Agreed records rollbackKeys classify k
  · have hdiverging := diverging_iff_not_agreed.not.mpr (not_not.mpr hagreed)
    simp only [hdiverging, hagreed, true_and]
    constructor
    · intro h
      refine ⟨mem_leadersAt_iff_leading.mp (minBy_mem _ h), fun other hother => ?_⟩
      exact minBy_le _ h other (mem_leadersAt_iff_leading.mpr hother)
    · rintro ⟨hleading, hleast⟩
      -- the least of the leaders has the hash of the given record
      have hmem := mem_leadersAt_iff_leading.mpr hleading
      cases hmin : minBy VerifiedRecord.recordHash (leadersAt records rollbackKeys classify k) with
      | none =>
        rw [(minBy_eq_none _).mp hmin] at hmem
        contradiction
      | some least =>
        have hfirst := mem_leadersAt_iff_leading.mp (minBy_mem _ hmin)
        have heq : least.recordHash = record.recordHash := Std.LawfulEqCmp.eq_of_compare
          (Std.OrientedCmp.isLE_antisymm (minBy_le _ hmin record hmem) (hleast least hfirst))
        rw [hsep least hfirst.1.1 record hleading.1.1 heq]
        rfl
  · have hdiverging := diverging_iff_not_agreed.mpr hagreed
    simp [hdiverging, hagreed]

omit [Ord K] [TransOrd K] [LawfulEqOrd K] in
/-- A conflict names the counter and the hashes of the leading records. -/
lemma conflictSlot_eq_some {key : RecordKey} {slot : ConflictSlot}
    (h : conflictSlot (leadersAt records rollbackKeys classify k) = some (key, slot)) :
    (∀ record, Leading records rollbackKeys classify k record → record.counter = slot.counter) ∧
      ∀ hash, hash ∈ slot.candidateHashes ↔
        ∃ record, Leading records rollbackKeys classify k record ∧ record.recordHash = hash := by
  simp only [← mem_leadersAt_iff_leading]
  cases hleaders : leadersAt records rollbackKeys classify k with
  | nil => simp [hleaders, conflictSlot] at h
  | cons leader rest =>
    rw [hleaders, conflictSlot] at h
    split_ifs at h
    obtain ⟨rfl, rfl⟩ := Prod.mk.inj (Option.some.inj h)
    rw [← hleaders]
    refine ⟨fun record hrecord => ?_, fun hash => ?_⟩
    · exact Lww.counter_eq_of_mem_leaders _ hrecord
        (hleaders ▸ List.mem_cons_self : leader ∈ leadersAt records rollbackKeys classify k)
    · rw [mem_destutter_ne, mem_sortBy, List.mem_map, hleaders]

/-- The resolution says what it should about every key. -/
lemma resolvedAt_lwwResolution (hsep : HashesSeparate records) (hinj : Function.Injective mkKey)
    (hkey : ∀ record k, classify record = some k → record.key = mkKey k) (k : K) :
    ResolvedAt records rollbackKeys classify mkKey
      (lwwResolution records rollbackKeys classify) k where
  winner _ := getElem?_winners_iff hsep
  conflict := by rw [mem_conflicted records rollbackKeys classify hkey hinj, diverging_iff_not_agreed]
  candidates slot hslot := by
    rw [getElem?_conflicted records rollbackKeys classify hkey hinj] at hslot
    obtain ⟨⟨key, _⟩, hconflict, rfl⟩ := Option.map_eq_some_iff.mp hslot
    exact conflictSlot_eq_some hconflict
  one hcompetes := by
    obtain ⟨record, hrecord⟩ := hcompetes
    rw [mem_conflicted records rollbackKeys classify hkey hinj, diverging_iff_not_agreed,
      ← ExtTreeMap.isSome_getElem?_iff_mem, getElem?_winners]
    obtain ⟨leader, hleader⟩ := exists_leading hrecord
    have hne : leadersAt records rollbackKeys classify k ≠ [] :=
      List.ne_nil_of_mem (mem_leadersAt_iff_leading.mpr hleader)
    by_cases hagreed : Agreed records rollbackKeys classify k
    · refine Or.inl ⟨?_, not_not.mpr hagreed⟩
      rw [Option.isSome_iff_ne_none, ne_eq, Lww.winner_eq_none, diverging_iff_not_agreed]
      exact not_or.mpr ⟨hne, not_not.mpr hagreed⟩
    · refine Or.inr ⟨hagreed, ?_⟩
      rw [Option.not_isSome_iff_eq_none, Lww.winner_eq_none, diverging_iff_not_agreed]
      exact Or.inr hagreed
  empty hcompetes := by
    have hleading : ∀ record, ¬ Leading records rollbackKeys classify k record :=
      fun record hrecord => hcompetes record hrecord.1
    constructor
    · rw [← ExtTreeMap.isSome_getElem?_iff_mem, Option.isSome_iff_exists]
      rintro ⟨record, hrecord⟩
      exact hleading record ((getElem?_winners_iff hsep).mp hrecord).2.1
    · rw [mem_conflicted records rollbackKeys classify hkey hinj, diverging_iff_not_agreed, not_not]
      exact fun a _ ha => absurd ha (hleading a)

/-- Records that do not lead make no difference. -/
lemma lwwResolution_filter {kept : VerifiedRecord → Bool}
    (hkept : ∀ k record, Leading records rollbackKeys classify k record → kept record = true) :
    lwwResolution (records.filter kept) rollbackKeys classify =
      lwwResolution records rollbackKeys classify := by
  have hpool : ∀ k, pool (records.filter kept) rollbackKeys classify k =
      (pool records rollbackKeys classify k).filter kept := by
    intro k
    simp only [pool, List.filter_filter, Bool.and_comm]
  have hleaders : ∀ k, leadersAt (records.filter kept) rollbackKeys classify k =
      leadersAt records rollbackKeys classify k := by
    intro k
    simp only [leadersAt, Lww.leaders_eq_filter, hpool, List.filter_filter]
    apply List.filter_congr
    intro record hrecord
    obtain ⟨leader, hleader⟩ := exists_leading (mem_pool_iff_competes.mp hrecord)
    have hin : leader ∈ (pool records rollbackKeys classify k).filter kept :=
      List.mem_filter.mpr ⟨mem_pool_iff_competes.mpr hleader.1, hkept k leader hleader⟩
    rw [Bool.and_comm, ← Bool.decide_coe (kept record), ← Bool.decide_and, decide_eq_decide]
    constructor
    · rintro ⟨-, hleads⟩ other hother
      exact (hleader.2 other (mem_pool_iff_competes.mp hother)).trans (hleads leader hin)
    · intro hleads
      refine ⟨hkept k record ⟨mem_pool_iff_competes.mp hrecord, fun other hother => ?_⟩,
        fun other hother => hleads other (List.mem_filter.mp hother).1⟩
      exact hleads other (mem_pool_iff_competes.mpr hother)
  have hslots : lwwSlots (records.filter kept) rollbackKeys classify =
      lwwSlots records rollbackKeys classify := by
    apply ExtTreeMap.ext_getElem?
    intro k
    have hnil : pool (records.filter kept) rollbackKeys classify k = [] ↔
        pool records rollbackKeys classify k = [] :=
      (Lww.leaders_eq_nil VerifiedRecord.counter).symm.trans
        ((iff_of_eq (congrArg (· = []) (hleaders k))).trans (Lww.leaders_eq_nil _))
    rw [getElem?_lwwSlots, getElem?_lwwSlots, hleaders]
    simp only [hnil]
  simp only [lwwResolution, hslots]

/-- A resolution by a classifier that sorts records as their keys do says what it should about every
key and nothing else; records below the highest counter of their key never matter, and neither does
the order. -/
theorem lwwResolution_meets_specification (hsep : HashesSeparate records)
    (hinj : Function.Injective mkKey)
    (hkey : ∀ record k, classify record = some k → record.key = mkKey k) :
    (∀ k, ResolvedAt records rollbackKeys classify mkKey
      (lwwResolution records rollbackKeys classify) k) ∧
    (∀ key ∈ (lwwResolution records rollbackKeys classify).conflicted, ∃ k, mkKey k = key) ∧
    (∀ kept : VerifiedRecord → Bool,
      (∀ k record, Leading records rollbackKeys classify k record → kept record = true) →
        lwwResolution (records.filter kept) rollbackKeys classify =
          lwwResolution records rollbackKeys classify) ∧
    ∀ records', records.Perm records' →
      lwwResolution records' rollbackKeys classify =
        lwwResolution records rollbackKeys classify := by
  refine ⟨fun k => resolvedAt_lwwResolution hsep hinj hkey k, fun key hmem => ?_,
    fun kept hkept => lwwResolution_filter hkept,
    fun records' h => (lwwResolution_perm h hsep hinj hkey).symm⟩
  by_contra hne
  push Not at hne
  rw [← ExtTreeMap.isSome_getElem?_iff_mem,
    getElem?_conflicted_of_ne records rollbackKeys classify hkey hne] at hmem
  contradiction

end Resolution

section Examples

open TestSupport

/-- Two handles of the vault, at one counter. -/
def vaultHandles : List VerifiedRecord :=
  ["first", "second"].map fun handle =>
    verifiedBody rootUser (.vaultHandle ⟨deriveVaultHandleId transparentCrypto handle, handle, 1⟩)

/-- A record, and the same record under another envelope with its hash. -/
def sharedHash : List VerifiedRecord :=
  let record := verifiedBody rootUser (.groupDeleted ⟨deriveGroupId transparentCrypto ⟨[0]⟩, 1⟩)
  [record, { record with signed := { record.signed with signature := [] } }]

/-- The handles of a vault are classified by what their keys are derived from. -/
theorem lwwResolution_meets_specification_handles :
    ResolvedAt vaultHandles ∅ (classifyVaultHandle (rootAuthorities rootUser.id)) .vaultHandle
      (lwwResolution vaultHandles ∅ (classifyVaultHandle (rootAuthorities rootUser.id)))
      (deriveVaultHandleId transparentCrypto "first") :=
  (lwwResolution_meets_specification (hashesSeparate_of_pairwise (by decide +kernel))
    (fun _ _ heq => RecordKey.vaultHandle.inj heq) key_of_classifyVaultHandle).1 _

/-- A classifier that puts two record keys under one key reports the conflict at the key of
whichever record comes first, and of two records with one hash the first one wins. -/
theorem lwwResolution_depends_on_order :
    (lwwResolution vaultHandles ∅ fun _ => some 0).conflicted ≠
      (lwwResolution vaultHandles.reverse ∅ fun _ => some 0).conflicted ∧
    (lwwResolution sharedHash ∅ fun _ => some 0).winners ≠
      (lwwResolution sharedHash.reverse ∅ fun _ => some 0).winners := by
  constructor
  · intro heq
    have hkey := congrArg (·.contains (.vaultHandle (deriveVaultHandleId transparentCrypto "first")))
      heq
    revert hkey
    decide +kernel
  · intro heq
    have hwinner := congrArg (·[0]?) heq
    revert hwinner
    decide +kernel

end Examples

end Thorax
