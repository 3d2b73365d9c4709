import Thorax.Resolution.Force
import Thorax.TestSupport

/-!
# The candidates of a conflict

A conflict lists the records a resolver may ratify. At a tie these are the leaders of a
competition that only authorised records enter, in the resolution that makes the regressed keys
inert; at a regressed key they are what stands there at the highest admitted counter, whoever
signed it. Either way a record may be offered that has no authority where counters are admitted.
-/

namespace Thorax

open Collections
open Std (ExtTreeMap)

/-! ### Ties -/

section Ties

variable {crypto : CryptoProvider} {view : View} {records : List VerifiedRecord}
variable {rollbackKeys : BTreeMap RecordKey ℕ}

/-- Disputes whose candidates are the leaders of the competition at the disputed key. -/
def ListsLeaders (view : View) (records : List VerifiedRecord)
    (rollbackKeys : BTreeMap RecordKey ℕ) (slots : BTreeMap RecordKey ConflictSlot) : Prop :=
  ∀ (key : RecordKey) slot, slots[key]? = some slot →
    (∀ hash, hash ∈ slot.candidateHashes ↔
      ∃ record ∈ view.leaders records rollbackKeys key, record.recordHash = hash) ∧
    ∀ record ∈ view.leaders records rollbackKeys key, record.counter = slot.counter

lemma ListsLeaders.union {slots slots' : BTreeMap RecordKey ConflictSlot}
    (h : ListsLeaders view records rollbackKeys slots)
    (h' : ListsLeaders view records rollbackKeys slots') :
    ListsLeaders view records rollbackKeys (slots ∪ slots') := by
  intro key slot hslot
  rcases getElem?_union_cases hslot with hright | hleft
  · exact h' key slot hright
  · exact h key slot hleft

lemma listsLeaders_lwwResolution {K : Type} [Ord K] [Std.TransOrd K] [Std.LawfulEqOrd K]
    {classify : VerifiedRecord → Option K} {mkKey : K → RecordKey}
    (hinj : Function.Injective mkKey)
    (hclass : ∀ record k, classify record = some k ↔
      view.competes record = true ∧ record.key = mkKey k) :
    ListsLeaders view records rollbackKeys
      (lwwResolution records rollbackKeys classify).conflicted := by
  classical
  intro key slot hslot
  have hkey : ∀ record k, classify record = some k → record.key = mkKey k :=
    fun record k hc => ((hclass record k).mp hc).2
  by_cases hk : ∃ k, mkKey k = key
  · obtain ⟨k, rfl⟩ := hk
    rw [getElem?_conflicted _ _ _ hkey hinj, View.leadersAt_eq fun record => hclass record k]
      at hslot
    cases hl : view.leaders records rollbackKeys (mkKey k) with
    | nil =>
      rw [hl] at hslot
      cases hslot
    | cons leader rest =>
      rw [hl, conflictSlot] at hslot
      split_ifs at hslot
      swap
      · cases hslot
      obtain rfl := Option.some.inj hslot
      refine ⟨fun hash => by rw [mem_destutter_ne, mem_sortBy, List.mem_map], fun record hin => ?_⟩
      rw [← hl] at hin
      have hleader : leader ∈ view.leaders records rollbackKeys (mkKey k) := by simp [hl]
      exact Lww.counter_eq_of_mem_leaders _ hin hleader
  · rw [getElem?_conflicted_of_ne _ _ _ hkey (not_exists.mp hk)] at hslot
    cases hslot

/-- The candidates of a tie are the leaders at its key. -/
lemma mem_candidates_materialize {slots : BTreeMap RecordKey ConflictSlot} {key : RecordKey}
    {report : ConflictReport} (hsep : HashesSeparate records)
    (hslots : ListsLeaders view records rollbackKeys slots)
    (hreport : (materializeConflicts crypto records slots)[key]? = some report) :
    (∀ candidate, candidate ∈ report.candidates ↔
      ∃ record ∈ view.leaders records rollbackKeys key, record.signed = candidate) ∧
    ∀ record ∈ view.leaders records rollbackKeys key, record.counter = report.counter := by
  simp only [materializeConflicts, ExtTreeMap.getElem?_map, Option.map_eq_some_iff] at hreport
  obtain ⟨slot, hslot, rfl⟩ := hreport
  obtain ⟨hhashes, hcounters⟩ := hslots key slot hslot
  refine ⟨fun candidate => ?_, hcounters⟩
  simp only [mem_destutter_ne, mem_sortBy, List.mem_map, List.mem_filter, List.contains_iff_mem,
    hhashes]
  constructor
  · rintro ⟨record, ⟨hin, other, hother, hhash⟩, hsigned⟩
    have hmem := (View.mem_pool.mp (View.mem_leaders.mp hother).1).1
    obtain rfl := hsep other hmem record hin hhash
    exact ⟨other, hother, hsigned⟩
  · rintro ⟨record, hleads, hsigned⟩
    have hmem := (View.mem_pool.mp (View.mem_leaders.mp hleads).1).1
    exact ⟨record, ⟨hmem, record, hleads, rfl⟩, hsigned⟩

end Ties

/-! ### The candidates of a report -/

section Reports

variable {crypto : CryptoProvider} {vault : VaultStore} {ratchet : Ratchet} {root : SelectedRoot}
variable {records : List VerifiedRecord} {key : RecordKey} {report : ConflictReport}
variable {candidate : VaultRecordV1}

/-- The ties of a state are between the leaders of the view it was resolved in. -/
lemma listsLeaders_effectiveUnder {rollbackKeys : BTreeMap RecordKey ℕ}
    {admitted : BTreeSet HashValue} :
    let view := effectiveView root records rollbackKeys admitted
    ListsLeaders view records rollbackKeys
      ((roundState root records rollbackKeys admitted 64).1.conflicted ∪
        (lwwResolution records rollbackKeys
          (classifyUserHandle view.authorities view.users)).conflicted ∪
        (lwwResolution records rollbackKeys (classifyVaultHandle view.authorities)).conflicted ∪
        (lwwResolution records rollbackKeys (classifyEntryPoint view.users)).conflicted) := by
  intro view
  rw [selected_conflicted _ roundState_last (rfl : view = _)]
  apply ListsLeaders.union _ (listsLeaders_lwwResolution (fun _ _ h => RecordKey.entryPoint.inj h)
    view.classifyEntryPoint_iff)
  apply ListsLeaders.union _ (listsLeaders_lwwResolution (fun _ _ h => RecordKey.vaultHandle.inj h)
    view.classifyVaultHandle_iff)
  apply ListsLeaders.union _ (listsLeaders_lwwResolution (fun _ _ h => RecordKey.userHandle.inj h)
    view.classifyUserHandle_iff)
  apply ListsLeaders.union _ (listsLeaders_lwwResolution (fun _ _ h => RecordKey.grant.inj h)
    view.classifyGrant_iff)
  apply ListsLeaders.union _ (listsLeaders_lwwResolution (fun _ _ h => RecordKey.groupMember.inj h)
    view.classifyMembership_iff)
  exact (listsLeaders_lwwResolution (fun _ _ h => RecordKey.user.inj h) view.classifyUser_iff).union
    (listsLeaders_lwwResolution (fun _ _ h => RecordKey.group.inj h) view.classifyGroup_iff)

/-- A tie offers the leaders of the second resolution. -/
lemma mem_candidates_of_tie (hsep : HashesSeparate records)
    (hroll : key ∉ rollbackKeys crypto ratchet root records)
    (hreport : (resolveRecords crypto ratchet root records).conflicted[key]? = some report) :
    (∀ candidate, candidate ∈ report.candidates ↔
      ∃ record ∈ (finalView crypto ratchet root records).leaders records
        (rollbackKeys crypto ratchet root records) key, record.signed = candidate) ∧
    (∀ record ∈ (finalView crypto ratchet root records).leaders records
      (rollbackKeys crypto ratchet root records) key, record.counter = report.counter) ∧
    report.kind = .tie := by
  rw [conflicted_resolveRecords] at hreport
  rcases getElem?_union_cases hreport with hrollback | hties
  · rw [ExtTreeMap.getElem?_map, Option.map_eq_some_iff] at hrollback
    obtain ⟨remembered, hmem, -⟩ := hrollback
    exact absurd (ExtTreeMap.isSome_getElem?_iff_mem.mp (hmem ▸ rfl)) hroll
  · rcases getElem?_union_cases hties with hsecret | hprincipal
    · have hauth : (finalState crypto ratchet root records).authorities =
          (finalView crypto ratchet root records).authorities :=
        (effectiveView_authorities crypto root records _ _).symm
      have hlists : ListsLeaders (finalView crypto ratchet root records) records
          (rollbackKeys crypto ratchet root records) (secretTies crypto ratchet root records) := by
        rw [secretTies, hauth]
        exact listsLeaders_lwwResolution (fun _ _ h => RecordKey.secret.inj h)
          (View.classifySecret_iff _)
      obtain ⟨hcandidates, hcounters⟩ := mem_candidates_materialize hsep hlists hsecret
      exact ⟨hcandidates, hcounters, kind_materializeConflicts hsecret⟩
    · rw [finalState, resolveEffectiveWithDeletions,
        (effectiveUnder_last crypto root records _ _).2.2.2] at hprincipal
      obtain ⟨hcandidates, hcounters⟩ :=
        mem_candidates_materialize hsep listsLeaders_effectiveUnder hprincipal
      exact ⟨hcandidates, hcounters, kind_materializeConflicts hprincipal⟩

/-- A rollback offers what stands at its key with the highest admitted counter. -/
lemma mem_candidates_of_rollback (hroll : key ∈ rollbackKeys crypto ratchet root records)
    (hreport : (resolveRecords crypto ratchet root records).conflicted[key]? = some report) :
    (∀ candidate, candidate ∈ report.candidates ↔ ∃ record ∈ records, record.signed = candidate ∧
      record.key = key ∧ record.counter = report.counter) ∧
    report.counter = (currentWatermarks crypto root records)[key]?.getD 0 ∧
    report.kind ≠ .tie := by
  obtain ⟨remembered, hremembered⟩ := Option.isSome_iff_exists.mp
    (ExtTreeMap.isSome_getElem?_iff_mem.mpr hroll)
  rw [conflicted_resolveRecords, ExtTreeMap.getElem?_union, ExtTreeMap.getElem?_map, hremembered,
    Option.map_some, Option.some_or] at hreport
  obtain rfl := Option.some.inj hreport
  refine ⟨fun candidate => ?_, rfl, by simp [rollbackConflict]⟩
  simp only [rollbackConflict, mem_destutter_ne, mem_sortBy, List.mem_map, List.mem_filter,
    Bool.and_eq_true, decide_eq_true_eq]
  exact exists_congr fun record => by tauto

/-- What a record at a conflict's place among the candidates stands for. -/
structure OfferedAt (crypto : CryptoProvider) (ratchet : Ratchet) (root : SelectedRoot)
    (records : List VerifiedRecord) (key : RecordKey) (report : ConflictReport)
    (record : VerifiedRecord) : Prop where
  key_eq : record.key = key
  counter_eq : record.counter = report.counter
  /-- A tie is between records that compete in the second resolution. -/
  tie : report.kind = .tie →
    (finalView crypto ratchet root records).competes record = true
  /-- A rollback offers what stands at the highest admitted counter. -/
  rollback : ∀ remembered, report.kind = .rollback remembered →
    report.counter = (currentWatermarks crypto root records)[key]?.getD 0

lemma offeredAt_of_candidate (hsep : HashesSeparate records)
    (hreport : (resolveRecords crypto ratchet root records).conflicted[key]? = some report)
    (hmem : candidate ∈ report.candidates) :
    ∃ record ∈ records, record.signed = candidate ∧
      OfferedAt crypto ratchet root records key report record := by
  by_cases hroll : key ∈ rollbackKeys crypto ratchet root records
  · obtain ⟨hcandidates, hcounter, hkind⟩ := mem_candidates_of_rollback hroll hreport
    obtain ⟨record, hin, hsigned, hkey, heq⟩ := (hcandidates _).mp hmem
    exact ⟨record, hin, hsigned, hkey, heq, fun h => absurd h hkind, fun _ _ => hcounter⟩
  · obtain ⟨hcandidates, hcounters, hkind⟩ := mem_candidates_of_tie hsep hroll hreport
    obtain ⟨record, hleads, hsigned⟩ := (hcandidates _).mp hmem
    obtain ⟨hin, -, hcompetes, hkey⟩ := View.mem_pool.mp (View.mem_leaders.mp hleads).1
    exact ⟨record, hin, hsigned, hkey, hcounters record hleads, fun _ => hcompetes, by simp [hkind]⟩

/-- The signer of a tied record holds what the record's kind requires. -/
structure TieAuthorized (crypto : CryptoProvider) (ratchet : Ratchet) (root : SelectedRoot)
    (records : List VerifiedRecord) (record : VerifiedRecord) : Prop where
  /-- In the second resolution, where principals are selected under the round before the last. -/
  competing : holdsAuthority (finalView crypto ratchet root records).selecting
    (finalState crypto ratchet root records).authorities
    (admitDeletions crypto root records (rollbackKeys crypto ratchet root records)) record = true
  /-- Once the rounds settle these are the authorities of the report. -/
  settled : (finalState crypto ratchet root records).authorityUnresolved = false →
    holdsAuthority (finalState crypto ratchet root records).authorities
      (finalState crypto ratchet root records).authorities
      (admitDeletions crypto root records (rollbackKeys crypto ratchet root records)) record = true
  /-- While no key has regressed they are the ones that admit counters. -/
  unregressed : rollbackKeys crypto ratchet root records = ∅ →
    (finalState crypto ratchet root records).authorityUnresolved = false →
      holdsAuthority (provisional crypto root records).1.authorities
        (provisional crypto root records).1.authorities (provisional crypto root records).2 record =
          true

lemma tieAuthorized_of_competes {record : VerifiedRecord}
    (h : (finalView crypto ratchet root records).competes record = true) :
    TieAuthorized crypto ratchet root records record := by
  have hheld := (View.competes_iff.mp h).1
  have hauth : (finalView crypto ratchet root records).authorities =
      (finalState crypto ratchet root records).authorities :=
    effectiveView_authorities crypto root records _ _
  rw [hauth] at hheld
  have hsettled : (finalState crypto ratchet root records).authorityUnresolved = false →
      holdsAuthority (finalState crypto ratchet root records).authorities
        (finalState crypto ratchet root records).authorities
        (admitDeletions crypto root records (rollbackKeys crypto ratchet root records)) record =
          true := by
    intro hunresolved
    have hselecting : (finalView crypto ratchet root records).selecting =
        (finalState crypto ratchet root records).authorities :=
      selecting_of_settled crypto root records _ _ hunresolved
    rw [hselecting] at hheld
    exact hheld
  refine ⟨hheld, hsettled, fun hnone hunresolved => ?_⟩
  have hstate : finalState crypto ratchet root records = (provisional crypto root records).1 := by
    rw [finalState, hnone, provisional]
  have hdeletions : admitDeletions crypto root records (rollbackKeys crypto ratchet root records) =
      (provisional crypto root records).2 := by
    rw [hnone, provisional, resolveEffectiveWithDeletions]
  rw [← hstate, ← hdeletions]
  exact hsettled hunresolved

/-- Every record a conflict offers is a verified record of its key and counter. At a tie its
signer was authorised; at a rollback the counter is the highest admitted one. -/
theorem conflict_candidates (crypto : CryptoProvider) (vault : VaultStore) (ratchet : Ratchet)
    {key : RecordKey} {report : ConflictReport} {candidate : VaultRecordV1}
    (hreport : (validateVault crypto vault ratchet).effective.conflicted[key]? = some report)
    (hmem : candidate ∈ report.candidates) :
    ∃ root records, resolvedRecords crypto vault ratchet = some (root, records) ∧
      ∃ record ∈ records, record.signed = candidate ∧ record.key = key ∧
        record.counter = report.counter ∧
        (report.kind = .tie → TieAuthorized crypto ratchet root records record) ∧
        ∀ remembered, report.kind = .rollback remembered →
          report.counter = (admittedCounters crypto vault ratchet)[key]?.getD 0 := by
  cases hresolved : resolvedRecords crypto vault ratchet with
  | none =>
    rw [(validateVault_of_unresolved hresolved).1] at hreport
    simp [EffectiveState.unresolved] at hreport
  | some resolved =>
    obtain ⟨root, records⟩ := resolved
    rw [(validateVault_of_resolved hresolved).1] at hreport
    have hsep : HashesSeparate records := by
      obtain ⟨-, -, rfl⟩ := resolvedRecords_eq_some.mp hresolved
      exact hashesSeparate_of_pairwise distinctHashes_verified
    obtain ⟨record, hin, hsigned, hoffered⟩ := offeredAt_of_candidate hsep hreport hmem
    refine ⟨root, records, rfl, record, hin, hsigned, hoffered.key_eq, hoffered.counter_eq,
      fun htie => tieAuthorized_of_competes (hoffered.tie htie), fun remembered hkind => ?_⟩
    rw [admittedCounters_of_resolved hresolved]
    exact hoffered.rollback remembered hkind

end Reports

/-! ### Candidates without authority -/

section Authorized

variable (crypto : CryptoProvider) (vault : VaultStore) (ratchet : Ratchet)

/-- Every candidate was signed by a user who holds the required authority in the view that admits
counters. -/
def CandidatesAuthorized : Prop :=
  ∀ root records, resolvedRecords crypto vault ratchet = some (root, records) →
    ∀ (key : RecordKey) report, (validateVault crypto vault ratchet).effective.conflicted[key]? =
      some report → ∀ candidate ∈ report.candidates, ∃ record ∈ records,
        record.signed = candidate ∧ AuthorizedIn crypto root records record

/-- The record lies below what is remembered of its key, no record that counts lies above it, and
one that counts lies beside it unless its counter is zero. -/
structure BesideAdmitted (root : SelectedRoot) (records : List VerifiedRecord)
    (record : VerifiedRecord) : Prop where
  below : record.counter < ratchet.watermarks[record.key]?.getD 0
  top : ∀ other, Counts crypto root records record.key other → other.counter ≤ record.counter
  beside : record.counter = 0 ∨
    ∃ other, Counts crypto root records record.key other ∧ other.counter = record.counter

/-- At a key where some record that counts reaches what is remembered, the record is in force once
the regressed keys are inert, another in force there has its counter and a different body, and
none in force lies above. -/
structure TiesAtTop (root : SelectedRoot) (records : List VerifiedRecord)
    (record : VerifiedRecord) : Prop where
  unregressed : ratchet.watermarks[record.key]?.getD 0 = 0 ∨
    ∃ other, Counts crypto root records record.key other ∧
      ratchet.watermarks[record.key]?.getD 0 ≤ other.counter
  inForce : InForce crypto ratchet root records record
  rival : ∃ other, InForce crypto ratchet root records other ∧ other.key = record.key ∧
    other.counter = record.counter ∧ other.body ≠ record.body
  top : ∀ other, InForce crypto ratchet root records other → other.key = record.key →
    other.counter ≤ record.counter

variable {crypto ratchet} {root : SelectedRoot} {records : List VerifiedRecord}
variable {record : VerifiedRecord}

/-- The counter of a record is the highest admitted one if none that counts lies above it and one
lies beside it. -/
lemma currentWatermarks_eq_counter_iff :
    (currentWatermarks crypto root records)[record.key]?.getD 0 = record.counter ↔
      (∀ other, Counts crypto root records record.key other → other.counter ≤ record.counter) ∧
      (record.counter = 0 ∨
        ∃ other, Counts crypto root records record.key other ∧ other.counter = record.counter) := by
  cases hcurrent : (currentWatermarks crypto root records)[record.key]? with
  | none =>
    have hnone := admittedWatermarks_eq_none.mp hcurrent
    simp [hnone, eq_comm]
  | some counter =>
    obtain ⟨⟨top, hcounts, rfl⟩, hall⟩ := admittedWatermarks_eq_some.mp hcurrent
    rw [Option.getD_some]
    constructor
    · intro heq
      exact ⟨fun other hother => (hall other hother).trans_eq heq, Or.inr ⟨top, hcounts, heq⟩⟩
    · rintro ⟨hle, hzero | ⟨other, hother, heq⟩⟩
      · exact le_antisymm (hle top hcounts) (hzero.le.trans (Nat.zero_le _))
      · exact le_antisymm (hle top hcounts) (heq.ge.trans (hall other hother))

/-- A rollback offers a record of the vault exactly if it stands beside what is admitted. -/
lemma besideAdmitted_iff : BesideAdmitted crypto ratchet root records record ↔
    record.key ∈ rollbackKeys crypto ratchet root records ∧
      (currentWatermarks crypto root records)[record.key]?.getD 0 = record.counter := by
  rw [mem_rollbackKeys]
  constructor
  · rintro ⟨hbelow, htop, hbeside⟩
    have heq := currentWatermarks_eq_counter_iff.mpr ⟨htop, hbeside⟩
    exact ⟨heq.symm ▸ hbelow, heq⟩
  · rintro ⟨hbelow, heq⟩
    obtain ⟨htop, hbeside⟩ := currentWatermarks_eq_counter_iff.mp heq
    exact ⟨heq ▸ hbelow, htop, hbeside⟩

/-- A tie offers a record of the vault exactly if it ties at the top. -/
lemma tiesAtTop_iff : TiesAtTop crypto ratchet root records record ↔
    record.key ∉ rollbackKeys crypto ratchet root records ∧
      (finalView crypto ratchet root records).tied records
        (rollbackKeys crypto ratchet root records) record.key = true ∧
      record ∈ (finalView crypto ratchet root records).leaders records
        (rollbackKeys crypto ratchet root records) record.key := by
  constructor
  · rintro ⟨hreached, hforce, ⟨other, hother, hkey, hcounter, hbody⟩, htop⟩
    have hroll : record.key ∉ rollbackKeys crypto ratchet root records :=
      not_mem_rollbackKeys_iff.mpr hreached
    have hrecord : record ∈ (finalView crypto ratchet root records).leaders records
        (rollbackKeys crypto ratchet root records) record.key := by
      refine View.mem_leaders.mpr
        ⟨(mem_pool_iff_inForce hroll).mpr ⟨hforce, rfl⟩, fun rival hrival => ?_⟩
      obtain ⟨hin, hat⟩ := (mem_pool_iff_inForce hroll).mp hrival
      exact htop rival hin hat
    refine ⟨hroll, View.tied_eq_true.mpr ⟨other, ?_, record, hrecord, hbody⟩, hrecord⟩
    refine View.mem_leaders.mpr
      ⟨(mem_pool_iff_inForce hroll).mpr ⟨hother, hkey⟩, fun rival hrival => ?_⟩
    exact ((View.mem_leaders.mp hrecord).2 rival hrival).trans_eq hcounter.symm
  · rintro ⟨hroll, htied, hleads⟩
    obtain ⟨hpool, hall⟩ := View.mem_leaders.mp hleads
    refine ⟨not_mem_rollbackKeys_iff.mp hroll, ((mem_pool_iff_inForce hroll).mp hpool).1, ?_,
      fun other hother hkey => hall other ((mem_pool_iff_inForce hroll).mpr ⟨hother, hkey⟩)⟩
    -- of two leaders with different bodies one differs from the record
    obtain ⟨rival, hrival, hbody⟩ : ∃ rival ∈ (finalView crypto ratchet root records).leaders records
        (rollbackKeys crypto ratchet root records) record.key, rival.body ≠ record.body := by
      obtain ⟨a, ha, b, hb, hne⟩ := View.tied_eq_true.mp htied
      by_cases heq : a.body = record.body
      · exact ⟨b, hb, fun h => hne (heq.trans h.symm)⟩
      · exact ⟨a, ha, heq⟩
    obtain ⟨hin, hkey⟩ := (mem_pool_iff_inForce hroll).mp (View.mem_leaders.mp hrival).1
    exact ⟨rival, hin, hkey, Lww.counter_eq_of_mem_leaders _ hrival hleads, hbody⟩

/-- The envelope of a verified record is a candidate exactly if the record stands beside what is
admitted at a regressed key or ties at the top of another. -/
lemma candidate_iff (hsep : HashesSeparate records) (key : RecordKey) (candidate : VaultRecordV1) :
    (∃ report, (resolveRecords crypto ratchet root records).conflicted[key]? = some report ∧
        candidate ∈ report.candidates) ↔
      ∃ record ∈ records, record.signed = candidate ∧ record.key = key ∧
        (BesideAdmitted crypto ratchet root records record ∨
          TiesAtTop crypto ratchet root records record) := by
  constructor
  · rintro ⟨report, hreport, hmem⟩
    by_cases hroll : key ∈ rollbackKeys crypto ratchet root records
    · obtain ⟨hcandidates, hcounter, -⟩ := mem_candidates_of_rollback hroll hreport
      obtain ⟨record, hin, hsigned, rfl, heq⟩ := (hcandidates _).mp hmem
      exact ⟨record, hin, hsigned, rfl,
        Or.inl (besideAdmitted_iff.mpr ⟨hroll, hcounter.symm.trans heq.symm⟩)⟩
    · obtain ⟨hcandidates, -, -⟩ := mem_candidates_of_tie hsep hroll hreport
      obtain ⟨record, hleads, hsigned⟩ := (hcandidates _).mp hmem
      obtain ⟨hin, -, -, rfl⟩ := View.mem_pool.mp (View.mem_leaders.mp hleads).1
      have htied := ((mem_conflicted_iff_tied crypto ratchet root records _).mp
        (ExtTreeMap.isSome_getElem?_iff_mem.mp (hreport ▸ rfl))).resolve_left hroll
      exact ⟨record, hin, hsigned, rfl, Or.inr (tiesAtTop_iff.mpr ⟨hroll, htied, hleads⟩)⟩
  · rintro ⟨record, hin, rfl, rfl, hbeside | hties⟩
    · obtain ⟨hroll, heq⟩ := besideAdmitted_iff.mp hbeside
      obtain ⟨report, hreport⟩ := Option.isSome_iff_exists.mp (ExtTreeMap.isSome_getElem?_iff_mem.mpr
        ((mem_conflicted_iff_tied crypto ratchet root records _).mpr (Or.inl hroll)))
      obtain ⟨hcandidates, hcounter, -⟩ := mem_candidates_of_rollback hroll hreport
      exact ⟨report, hreport, (hcandidates _).mpr ⟨record, hin, rfl, rfl, heq.symm.trans hcounter.symm⟩⟩
    · obtain ⟨hroll, htied, hleads⟩ := tiesAtTop_iff.mp hties
      obtain ⟨report, hreport⟩ := Option.isSome_iff_exists.mp (ExtTreeMap.isSome_getElem?_iff_mem.mpr
        ((mem_conflicted_iff_tied crypto ratchet root records _).mpr (Or.inr htied)))
      obtain ⟨hcandidates, -, -⟩ := mem_candidates_of_tie hsep hroll hreport
      exact ⟨report, hreport, (hcandidates _).mpr ⟨record, hleads, rfl⟩⟩

variable (crypto ratchet)

/-- Only authorised records are offered exactly if none without authority stands beside what is
admitted at a regressed key, and none that the regressed keys bring back into force ties. -/
theorem candidatesAuthorized_iff : CandidatesAuthorized crypto vault ratchet ↔
    ∀ root records, resolvedRecords crypto vault ratchet = some (root, records) →
      ∀ record ∈ records, ¬ AuthorizedIn crypto root records record →
        ¬ BesideAdmitted crypto ratchet root records record ∧
          ¬ TiesAtTop crypto ratchet root records record := by
  unfold CandidatesAuthorized
  refine forall_congr' fun root => forall_congr' fun records => forall_congr' fun hresolved => ?_
  rw [(validateVault_of_resolved hresolved).1]
  obtain ⟨-, -, hverified⟩ := resolvedRecords_eq_some.mp hresolved
  have hsep : HashesSeparate records := by
    rw [← hverified]
    exact hashesSeparate_of_pairwise distinctHashes_verified
  constructor
  · intro hall record hin hunauthorized
    rw [← not_or]
    intro hoffered
    obtain ⟨report, hreport, hmem⟩ := (candidate_iff hsep _ _).mpr ⟨record, hin, rfl, rfl, hoffered⟩
    obtain ⟨other, hother, hsigned, hauthorized⟩ := hall _ report hreport _ hmem
    rw [← hverified] at hin hother
    rw [eq_of_signed_eq hother hin hsigned] at hauthorized
    exact hunauthorized hauthorized
  · intro hnone key report hreport candidate hmem
    obtain ⟨record, hin, hsigned, -, hoffered⟩ :=
      (candidate_iff hsep key candidate).mp ⟨report, hreport, hmem⟩
    refine ⟨record, hin, hsigned, ?_⟩
    by_contra hunauthorized
    exact not_or.mpr (hnone record hin hunauthorized) hoffered

end Authorized

section Counterexample

open TestSupport

def reader : TestUser := testUser 1

/-- A value of the root and one of a reader at the same counter. -/
def readerVault : VaultStore :=
  .v1 ⟨[vaultRootRecord, userRecord rootUser reader 1, trustRoot reader 1,
    grantRecord 0 rootUser (.user reader.id) (.readKeyspace .all) 2,
    secretRecord rootUser [rootUser] 3, secretRecord reader [reader] 3]⟩

def admin : TestUser := testUser 2

def writer : TestUser := testUser 3

/-- A writer with two values at one counter, deleted by an administrator. -/
def deletedWriterVault : VaultStore :=
  .v1 ⟨[vaultRootRecord, userRecord rootUser admin 1, trustRoot admin 1,
    userRecord rootUser writer 1, trustRoot writer 1,
    grantRecord 0 rootUser (.user admin.id) .administer 2,
    grantRecord 1 rootUser (.user writer.id) (.writeKeyspace .all) 2,
    secretRecord writer [rootUser] 4, secretRecord writer [writer] 4,
    userDeletedRecord admin writer.id 5]⟩

/-- The conflict at the test secret. -/
def testConflict (vault : VaultStore) (ratchet : Ratchet) : Option ConflictReport :=
  (validateVault transparentCrypto vault ratchet).effective.conflicted[RecordKey.secret testSecretId]?

/-- No record of a candidate is authorised where counters are admitted. -/
def unauthorizedIn (vault : VaultStore) (ratchet : Ratchet) (candidate : VaultRecordV1) : Bool :=
  match resolvedRecords transparentCrypto vault ratchet with
  | none => false
  | some (root, records) => records.all fun record => record.signed ≠ candidate ||
      !holdsAuthority (provisional transparentCrypto root records).1.authorities
        (provisional transparentCrypto root records).1.authorities
        (provisional transparentCrypto root records).2 record

lemma not_candidatesAuthorized {vault : VaultStore} {ratchet : Ratchet} {candidate : VaultRecordV1}
    (hmem : ∃ report, testConflict vault ratchet = some report ∧ candidate ∈ report.candidates)
    (hunauthorized : unauthorizedIn vault ratchet candidate = true) :
    ¬ CandidatesAuthorized transparentCrypto vault ratchet := by
  intro hall
  obtain ⟨report, hreport, hmem⟩ := hmem
  unfold unauthorizedIn at hunauthorized
  split at hunauthorized
  · cases hunauthorized
  · next root records hresolved =>
    obtain ⟨record, hin, hsigned, hheld⟩ :=
      hall root records hresolved _ report hreport candidate hmem
    have hnot := List.all_eq_true.mp hunauthorized record hin
    rw [AuthorizedIn] at hheld
    simp [hsigned, hheld] at hnot

lemma exists_testConflict {vault : VaultStore} {ratchet : Ratchet} {kind : ConflictKind}
    {candidate : VaultRecordV1}
    (h : (testConflict vault ratchet).any (fun report =>
      decide (report.kind = kind ∧ candidate ∈ report.candidates)) = true) :
    ∃ report, testConflict vault ratchet = some report ∧ report.kind = kind ∧
      candidate ∈ report.candidates := by
  obtain ⟨report, hreport, hmem⟩ := (Option.any_eq_true _ _).mp h
  exact ⟨report, hreport, of_decide_eq_true hmem⟩

lemma tie_deletedWriterVault :
    ∃ report, testConflict deletedWriterVault (ratchetWith [(.user admin.id, 9)]) = some report ∧
      report.kind = .tie ∧ secretRecord writer [writer] 4 ∈ report.candidates :=
  exists_testConflict (by decide +kernel)

/-- A rolled-back secret offers the value of a reader, and a tie in the second resolution offers
the values of a writer who is deleted in the first. -/
theorem candidates_without_authority :
    ¬ CandidatesAuthorized transparentCrypto readerVault (ratchetWith [(.secret testSecretId, 5)]) ∧
      ¬ CandidatesAuthorized transparentCrypto deletedWriterVault
        (ratchetWith [(.user admin.id, 9)]) := by
  constructor
  · obtain ⟨report, hreport, -, hmem⟩ : ∃ report, testConflict readerVault
        (ratchetWith [(.secret testSecretId, 5)]) = some report ∧ report.kind = .rollback 5 ∧
          secretRecord reader [reader] 3 ∈ report.candidates := exists_testConflict (by decide +kernel)
    exact not_candidatesAuthorized ⟨report, hreport, hmem⟩ (by decide +kernel)
  · obtain ⟨report, hreport, -, hmem⟩ := tie_deletedWriterVault
    exact not_candidatesAuthorized ⟨report, hreport, hmem⟩ (by decide +kernel)

end Counterexample

end Thorax
