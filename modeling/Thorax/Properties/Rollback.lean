import Thorax.Merge
import Thorax.Resolution.Force
import Thorax.TestSupport

/-!
# Rollback detection

What the ratchet protects. Rollbacks are found by comparing the remembered counter of a key with
the highest counter that the first resolution admits there; what is served is decided by the
second resolution, in which the regressed keys are inert.
-/

namespace Thorax

open Collections
open Std (ExtTreeMap ExtTreeSet)

/-! ### No rollback bypass -/

section Bypass

variable (crypto : CryptoProvider) (vault : VaultStore) (ratchet : Ratchet)

/-- Nothing is served below a remembered counter. -/
def ServesAboveWatermarks : Prop :=
  ∀ key remembered, ratchet.watermarks[key]? = some remembered →
    key ∉ (validateVault crypto vault ratchet).effective.conflicted →
    ∀ counter, (validateVault crypto vault ratchet).effective.Serves crypto key counter →
      remembered ≤ counter

/-- A key that a record which counts keeps from regressing is not that of the root user, who is
served without a record; and where every record that reaches what is remembered there turns inert
or dangles, whatever live record is still in force is contested by another. -/
def WatermarksHold (root : SelectedRoot) (records : List VerifiedRecord) : Prop :=
  ∀ key remembered, ratchet.watermarks[key]? = some remembered → 0 < remembered →
    (∃ top, Counts crypto root records key top ∧ remembered ≤ top.counter) →
    key ≠ .user root.root.id ∧
    ((∀ record ∈ records, record.key = key → remembered ≤ record.counter →
        TurnsInert crypto ratchet root records record ∨
          Dangles crypto ratchet root records record) →
      ∀ record, InForce crypto ratchet root records record → record.key = key →
        (finalView crypto ratchet root records).live record.body = true →
        Contested crypto ratchet root records record)

variable {crypto ratchet}

/-- An unresolved state serves nothing. -/
lemma not_serves_unresolved (key : RecordKey) (counter : ℕ) :
    ¬ EffectiveState.unresolved.Serves crypto key counter := by
  have hindex : EffectiveState.unresolved.secretIndex = ∅ := rfl
  cases key with
  | secret k =>
    rintro ⟨active, hmem | ⟨selector, hsel⟩, _⟩
    · obtain ⟨secret, latest, hl, _⟩ := mem_secretRecords.mp hmem
      simp [EffectiveState.latestAuthorizedSecretRecord, hindex] at hl
    · simp [EffectiveState.secretRecord, EffectiveState.liveSecretWinner,
        EffectiveState.latestAuthorizedSecretRecord, hindex] at hsel
  | _ => simp [EffectiveState.Serves, EffectiveState.unresolved]

/-- A key remembered with a positive counter has not regressed if some record that counts reaches
that counter. -/
lemma not_mem_rollbackKeys_of_remembered {root : SelectedRoot} {records : List VerifiedRecord}
    {key : RecordKey} {remembered : ℕ} (hremembered : ratchet.watermarks[key]? = some remembered)
    (hpos : 0 < remembered) : key ∉ rollbackKeys crypto ratchet root records ↔
      ∃ top, Counts crypto root records key top ∧ remembered ≤ top.counter := by
  rw [not_mem_rollbackKeys_iff, hremembered, Option.getD_some]
  exact or_iff_right hpos.ne'

/-- What resolved records serve lies above the remembered counters exactly when the watermarks
hold. -/
lemma servesAbove_resolveRecords_iff {root : SelectedRoot} {records : List VerifiedRecord} :
    (∀ key remembered, ratchet.watermarks[key]? = some remembered →
      key ∉ (resolveRecords crypto ratchet root records).conflicted →
      ∀ counter, (resolveRecords crypto ratchet root records).Serves crypto key counter →
        remembered ≤ counter) ↔ WatermarksHold crypto ratchet root records := by
  constructor
  · intro h key remembered hrem hpos hreached
    have hroll := (not_mem_rollbackKeys_of_remembered hrem hpos).mpr hreached
    constructor
    · rintro rfl
      have hconf : RecordKey.user root.root.id ∉
          (resolveRecords crypto ratchet root records).conflicted := by
        rw [mem_conflicted_iff_tied]
        exact fun h => h.elim hroll not_tied_rootUser
      have := h _ remembered hrem hconf 0 (serves_rootUser.mpr rfl)
      omega
    · -- an uncontested record is served, though all that reach the watermark are out of force
      rintro hlost record hforce rfl hlive
      by_contra huncontested
      obtain ⟨w, hw, hbody, hcounter⟩ := winner_of_not_contested hroll hforce huncontested
      have hroot : record.key ≠ .user root.root.id :=
        (View.key_ne_of_competes (inForce_iff.mp hforce).2).2
      have hconf : record.key ∉ (resolveRecords crypto ratchet root records).conflicted := by
        rw [mem_conflicted_iff_tied]
        rintro (hregressed | htied)
        · exact hroll hregressed
        · simp [View.winner_eq_none.mpr (Or.inr htied)] at hw
      have hle := h _ remembered hrem hconf w.counter
        ((serves_iff hconf hroot).mpr ⟨w, hw, hbody ▸ hlive, rfl⟩)
      obtain ⟨hmem, hable, hpresent⟩ := hforce
      exact (hlost record hmem rfl (hle.trans_eq hcounter)).elim hable hpresent
  · intro h key remembered hrem hconf counter hserves
    have hroll : key ∉ rollbackKeys crypto ratchet root records := fun hr =>
      hconf ((mem_conflicted_iff_tied _ _ _ _ _).mpr (Or.inl hr))
    rcases Nat.eq_zero_or_pos remembered with rfl | hpos
    · exact Nat.zero_le _
    · obtain ⟨hroot, hlost⟩ := h key remembered hrem hpos
        ((not_mem_rollbackKeys_of_remembered hrem hpos).mp hroll)
      obtain ⟨w, hw, hlive, rfl⟩ := (serves_iff hconf hroot).mp hserves
      obtain ⟨hforce, hkey, huncontested⟩ := not_contested_of_winner hroll hw
      by_contra hlt
      refine huncontested (hlost (fun record hmem hat hle => ?_) w hforce hkey hlive)
      -- a record in force that reaches the watermark would be served in place of the winner
      by_contra hable
      rw [not_or] at hable
      have hpool := (mem_pool_iff_inForce hroll).mpr ⟨⟨hmem, hable⟩, hat⟩
      exact hlt (hle.trans (View.counter_le_winner hw hpool))

variable (crypto ratchet)

section Counterexample

open TestSupport

/-- Alice writes a secret above the root's value by a grant of the root. -/
def bypassVault : VaultStore :=
  .v1 ⟨[vaultRootRecord, userRecord rootUser (testUser 1) 1, trustRoot (testUser 1) 1,
    grantRecord 0 rootUser (.user (testUser 1).id) (.writeKeyspace .all) 3,
    secretRecord rootUser [rootUser] 5, secretRecord (testUser 1) [testUser 1] 10]⟩

/-- The machine remembers the secret at the counter of Alice's value and the grant at a higher
counter than the vault shows. -/
def bypassRatchet : Ratchet := ratchetWith [(.grant (grantId 0), 100), (.secret testSecretId, 10)]

end Counterexample

end Bypass

/-! ### Growth without rollback -/

section Growth

variable (crypto : CryptoProvider)

/-- Whom the records of a vault bind a signing key to, unless the key is contested. -/
def signerOf (root : SelectedRoot) (vault : VaultStore) (signingPublicKey : Bytes) :
    Option UserId :=
  let resolution := signerResolution crypto ∅ root (distinctRecords crypto ∅ vault.records)
  if resolution.contestedKeys.contains signingPublicKey then none
  else resolution.signerForKey[signingPublicKey]?

/-- What takes a record out of the counters of a vault that still holds its envelope. -/
inductive Withdrawn (root : SelectedRoot) (vault' : VaultStore) (records' : List VerifiedRecord)
    (record : VerifiedRecord) : Prop
  /-- Another envelope with its hash comes first. -/
  | shadowed (other : VaultRecordV1) (hne : other ≠ record.signed)
      (hfirst : vault'.records.find? (recordHash crypto · = recordHash crypto record.signed) =
        some other)
  /-- Its signing key is contested now, or bound to somebody else. -/
  | disowned (h : signerOf crypto root vault' record.signed.signingPublicKey ≠ some record.signer)
  /-- Its signer no longer holds what it requires. -/
  | stripped (h : ¬ AuthorizedIn crypto root records' record)
  /-- Nobody vouches any longer for the user it introduces. -/
  | unvouched (h : ¬ Vouched records' record)

/-- Wherever everything that stood highest at a key with a positive counter is withdrawn, a record
that did not count before counts at least as high. -/
def WithdrawalsReplaced (root : SelectedRoot) (records : List VerifiedRecord) (vault' : VaultStore)
    (records' : List VerifiedRecord) : Prop :=
  ∀ top, Counts crypto root records top.key top → 0 < top.counter →
    (∀ other, Counts crypto root records top.key other → other.counter ≤ top.counter) →
    (∀ other, Counts crypto root records top.key other → other.counter = top.counter →
      Withdrawn crypto root vault' records' other) →
    ∃ new, Counts crypto root records' top.key new ∧ ¬ Counts crypto root records top.key new ∧
      top.counter ≤ new.counter

variable {crypto} {root : SelectedRoot} {records records' : List VerifiedRecord}
variable {vault vault' : VaultStore} {ratchet ratchet' : Ratchet} {key : RecordKey}
variable {record : VerifiedRecord}

/-- Deduplication keeps the first record of each hash. -/
lemma mem_distinctRecords_iff_first {signed : VaultRecordV1} {seen : BTreeSet HashValue}
    {l : List VaultRecordV1} : signed ∈ distinctRecords crypto seen l ↔
      recordHash crypto signed ∉ seen ∧
        l.find? (recordHash crypto · = recordHash crypto signed) = some signed := by
  induction l generalizing seen with
  | nil => simp [distinctRecords]
  | cons a l ih =>
    rw [distinctRecords]
    by_cases hhash : recordHash crypto a = recordHash crypto signed
    · rw [List.find?_cons_of_pos (by simpa using hhash), Option.some_inj]
      split_ifs with hseen
      · rw [ExtTreeSet.contains_iff_mem, hhash] at hseen
        simp [ih, hseen]
      · rw [ExtTreeSet.contains_iff_mem, hhash] at hseen
        rw [List.mem_cons, ih]
        simp [hhash, hseen, eq_comm]
    · rw [List.find?_cons_of_neg (by simpa using hhash)]
      split_ifs with hseen
      · exact ih
      · rw [List.mem_cons, ih]
        have hne : signed ≠ a := by
          rintro rfl
          exact hhash rfl
        simp [hne, hhash]

/-- A verified record of a vault is verified in another that keeps its envelope and binds its key to
the same signer. -/
lemma mem_records_iff (h : resolvedRecords crypto vault ratchet = some (root, records))
    (h' : resolvedRecords crypto vault' ratchet' = some (root, records')) (hmem : record ∈ records) :
    record ∈ records' ↔ record.signed ∈ distinctRecords crypto ∅ vault'.records ∧
      signerOf crypto root vault' record.signed.signingPublicKey = some record.signer := by
  obtain ⟨-, -, rfl⟩ := resolvedRecords_eq_some.mp h
  obtain ⟨-, -, rfl⟩ := resolvedRecords_eq_some.mp h'
  obtain ⟨signed, -, hjudged⟩ := mem_verifiedRecords.mp hmem
  obtain ⟨hbody, rfl, hhash, hstructure, -, -, haccepts⟩ := judgeRecord_eq_verified.mp hjudged
  simp only [mem_verifiedRecords, judgeRecord_eq_verified, signerOf, Option.ite_none_left_eq_some,
    List.contains_iff_mem]
  constructor
  · rintro ⟨signed', hin, -, rfl, -, -, hcontested, hsigner, -⟩
    exact ⟨hin, hcontested, hsigner⟩
  · rintro ⟨hin, hcontested, hsigner⟩
    exact ⟨_, hin, hbody, rfl, hhash, hstructure, hcontested, hsigner, haccepts⟩

/-- A record that counts in a vault counts in a grown one unless it is withdrawn. -/
lemma counts_grown_iff (h : resolvedRecords crypto vault ratchet = some (root, records))
    (h' : resolvedRecords crypto vault' ratchet' = some (root, records'))
    (hgrown : ∀ signed ∈ vault.records, signed ∈ vault'.records)
    (hcounts : Counts crypto root records key record) :
    Counts crypto root records' key record ↔ ¬ Withdrawn crypto root vault' records' record := by
  obtain ⟨hmem, hkey, hcounter, -⟩ := counts_iff.mp hcounts
  rw [counts_iff, mem_records_iff h h' hmem, mem_distinctRecords_iff_first]
  constructor
  · rintro ⟨⟨⟨-, hfirst⟩, hsigner⟩, -, -, hauthorized, hvouched⟩ (⟨other, hne, hother⟩ | h | h | h)
    · exact hne (Option.some_inj.mp (hother.symm.trans hfirst))
    · exact h hsigner
    · exact h hauthorized
    · exact h hvouched
  · intro hkept
    refine ⟨⟨⟨by simp, ?_⟩, ?_⟩, hkey, hcounter, ?_, ?_⟩
    · -- the envelope is still there, so some envelope of its hash comes first
      obtain ⟨-, -, rfl⟩ := resolvedRecords_eq_some.mp h
      have hheld := hgrown _ (mem_of_mem_distinctRecords (signed_mem_of_verified hmem)).1
      cases hfirst : vault'.records.find? (recordHash crypto · = recordHash crypto record.signed) with
      | none => simpa using List.find?_eq_none.mp hfirst _ hheld
      | some other =>
        by_contra hne
        exact hkept (.shadowed other (fun heq => hne (heq ▸ rfl)) hfirst)
    · by_contra hsigner
      exact hkept (.disowned hsigner)
    · by_contra hauthorized
      exact hkept (.stripped hauthorized)
    · by_contra hvouched
      exact hkept (.unvouched hvouched)

/-- The admitted counters of a grown vault are no lower exactly when withdrawals are replaced. -/
lemma currentWatermarks_le_iff (h : resolvedRecords crypto vault ratchet = some (root, records))
    (h' : resolvedRecords crypto vault' ratchet' = some (root, records'))
    (hgrown : ∀ signed ∈ vault.records, signed ∈ vault'.records) :
    (∀ key : RecordKey, (currentWatermarks crypto root records)[key]?.getD 0 ≤
      (currentWatermarks crypto root records')[key]?.getD 0) ↔
      WithdrawalsReplaced crypto root records vault' records' := by
  constructor
  · intro hle top hcounts hpos htop hwithdrawn
    have hreached := (counter_le_admittedWatermarks hcounts).trans (hle top.key)
    cases hw : (currentWatermarks crypto root records')[top.key]? with
    | none =>
      rw [hw, Option.getD_none] at hreached
      omega
    | some c =>
      obtain ⟨⟨new, hnew, rfl⟩, -⟩ := admittedWatermarks_eq_some.mp hw
      rw [hw, Option.getD_some] at hreached
      refine ⟨new, hnew, fun hold => ?_, hreached⟩
      exact (counts_grown_iff h h' hgrown hold).mp hnew
        (hwithdrawn new hold (le_antisymm (htop new hold) hreached))
  · intro hreplaced key
    cases hw : (currentWatermarks crypto root records)[key]? with
    | none => exact Nat.zero_le _
    | some c =>
      obtain ⟨⟨top, hcounts, rfl⟩, htop⟩ := admittedWatermarks_eq_some.mp hw
      obtain rfl : top.key = key := hcounts.2.1
      rw [Option.getD_some]
      rcases Nat.eq_zero_or_pos top.counter with hzero | hpos
      · exact hzero.le.trans (Nat.zero_le _)
      · by_cases hall : ∀ other, Counts crypto root records top.key other →
            other.counter = top.counter → Withdrawn crypto root vault' records' other
        · obtain ⟨new, hnew, -, hle⟩ := hreplaced top hcounts hpos htop hall
          exact hle.trans (counter_le_admittedWatermarks hnew)
        · push Not at hall
          obtain ⟨other, hother, hcounter, hkept⟩ := hall
          rw [← hcounter]
          exact counter_le_admittedWatermarks ((counts_grown_iff h h' hgrown hother).mpr hkept)

variable (crypto) (ratchet)

section Counterexample

open TestSupport

/-- Alice's value overtakes the root's by a large counter. -/
def grownBase : List VaultRecordV1 :=
  [vaultRootRecord, userRecord rootUser (testUser 1) 2, trustRoot (testUser 1) 2,
    grantRecord 0 rootUser (.user (testUser 1).id) (.writeKeyspace .all) 3,
    secretRecord rootUser [rootUser] 5, secretRecord (testUser 1) [rootUser] 1000000]

def grownVault (appended : VaultRecordV1) : VaultStore := .v1 ⟨grownBase ++ [appended]⟩

def rememberedBase : Ratchet := freshRatchet.applyUpdate (validate grownBase).ratchetUpdate

end Counterexample

end Growth

/-! ### Detection of dropped counters -/

section Detection

variable (crypto : CryptoProvider) (ratchet : Ratchet) (vault : VaultStore)

/-- Every vault of the same root that shows less at a key than `vault` did is in conflict there,
on a machine that remembered `vault`. -/
def DropDetected (root : SelectedRoot) (key : RecordKey) (counter : ℕ) : Prop :=
  ∀ (vault' : VaultStore) (records' : List VerifiedRecord),
    resolvedRecords crypto vault' (ratchet.applyUpdate
      (validateVault crypto vault ratchet).ratchetUpdate) = some (root, records') →
    ((currentWatermarks crypto root records')[key]? = none ∨
      ∃ current, (currentWatermarks crypto root records')[key]? = some current ∧
        current < counter) →
    key ∈ (validateVault crypto vault' (ratchet.applyUpdate
      (validateVault crypto vault ratchet).ratchetUpdate)).effective.conflicted

variable {crypto ratchet vault} {root : SelectedRoot} {records : List VerifiedRecord}
variable {key : RecordKey} {counter : ℕ}

/-- A vault that holds nothing but the root record of another resolves to the same root. -/
lemma resolvedRecords_root_only
    (h : resolvedRecords crypto vault ratchet = some (root, records)) :
    ∃ signed : VaultRecordV1, (∃ r, signed.body = .known (.vaultRoot r)) ∧
      resolvedRecords crypto (.v1 ⟨[signed]⟩) ratchet = some (root,
        (screenRecords crypto ∅ root [signed]).verifiedRecords) := by
  obtain ⟨hversion, hroot, _⟩ := resolvedRecords_eq_some.mp h
  obtain ⟨signed, _, hmatch⟩ := exists_root_record hroot
  obtain ⟨v1⟩ := vault
  have hdistinct : distinctRecords crypto ∅ [signed] = [signed] := by
    simp [distinctRecords]
  refine ⟨signed, ⟨root.root, (rootMatch_eq_some.mp hmatch).1⟩, resolvedRecords_eq_some.mpr
    ⟨hversion, ?_, ?_⟩⟩
  · simp only [VaultStore.records, hdistinct, selectRoot_eq_ok, List.filterMap_cons, hmatch,
      List.filterMap_nil]
  · simp only [VaultStore.records, hdistinct]

/-- Records of roots alone neither count nor compete. -/
lemma root_only_state (ratchet : Ratchet) {signed : VaultRecordV1} {r : VaultRootRecordV1}
    (hbody : signed.body = .known (.vaultRoot r)) :
    (currentWatermarks crypto root (screenRecords crypto ∅ root [signed]).verifiedRecords)[key]? =
        none ∧
      (key ∈ (resolveRecords crypto ratchet root
          (screenRecords crypto ∅ root [signed]).verifiedRecords).conflicted ↔
        key ∈ rollbackKeys crypto ratchet root
          (screenRecords crypto ∅ root [signed]).verifiedRecords) := by
  have hroots : ∀ record ∈ (screenRecords crypto ∅ root [signed]).verifiedRecords,
      record.body = .vaultRoot r := by
    intro record hmem
    have hs : record.signed = signed := by simpa using signed_mem_of_verified hmem
    have hb := body_of_verified hmem
    rw [hs, hbody] at hb
    exact (Evolving.known.inj hb).symm
  refine ⟨admittedWatermarks_eq_none.mpr ?_, ?_⟩
  · rintro record ⟨hmem, _, hsome, _⟩
    simp [hroots record hmem, RecordBodyV1.lwwCounter] at hsome
  · rw [mem_conflicted_iff_tied]
    refine or_iff_left fun htied => ?_
    obtain ⟨a, ha, _⟩ := View.tied_eq_true.mp htied
    obtain ⟨hmem, _, hcomp, _⟩ := View.mem_pool.mp (View.mem_leaders.mp ha).1
    simp [View.competes, hroots a hmem] at hcomp

/-- A drop below an admitted counter is detected in every vault exactly when that counter is
positive or a positive one was remembered before. -/
theorem dropDetected_iff (hvault : resolvedRecords crypto vault ratchet = some (root, records))
    (hadmitted : (admittedCounters crypto vault ratchet)[key]? = some counter) :
    DropDetected crypto ratchet vault root key counter ↔
      0 < counter ∨ 0 < ratchet.watermarks[key]?.getD 0 := by
  rw [admittedCounters_of_resolved hvault] at hadmitted
  have hremembered := watermarks_applyUpdate hvault key
  simp only [hadmitted, Option.getD_some] at hremembered
  constructor
  · intro h
    obtain ⟨signed, ⟨r, hbody⟩, hres⟩ := resolvedRecords_root_only hvault
    have hres' := (resolvedRecords_applyUpdate vault _).trans hres
    have hin := h _ _ hres' (Or.inl (root_only_state ratchet hbody).1)
    rw [(validateVault_of_resolved hres').1, (root_only_state _ hbody).2, mem_rollbackKeys,
      hremembered, (root_only_state ratchet hbody).1, Option.getD_none, lt_max_iff] at hin
    exact hin.symm
  · intro hpos vault' records' hres' hdrop
    rw [(validateVault_of_resolved hres').1, mem_conflicted_iff_tied]
    refine Or.inl (mem_rollbackKeys.mpr ?_)
    rw [hremembered]
    rcases hdrop with hnone | ⟨current, hcurrent, hlt⟩
    · rw [hnone, Option.getD_none]
      omega
    · rw [hcurrent, Option.getD_some]
      omega

section Counterexample

open TestSupport

/-- The first secret of a vault carries counter zero. -/
def firstWriteVault : VaultStore := .v1 ⟨[vaultRootRecord, secretRecord rootUser [rootUser] 0]⟩

def rememberedFirstWrite : Ratchet :=
  freshRatchet.applyUpdate
    (validateVault transparentCrypto firstWriteVault freshRatchet).ratchetUpdate

/-- Dropping that secret is not noticed. -/
theorem drop_of_first_write_undetected :
    (admittedCounters transparentCrypto firstWriteVault
        freshRatchet)[RecordKey.secret testSecretId]? = some 0 ∧
      (admittedCounters transparentCrypto (.v1 ⟨[vaultRootRecord]⟩)
        rememberedFirstWrite)[RecordKey.secret testSecretId]? = none ∧
      (resolvedRecords transparentCrypto (.v1 ⟨[vaultRootRecord]⟩)
        rememberedFirstWrite).map Prod.fst = some selectedRoot ∧
      RecordKey.secret testSecretId ∉ (validateVault transparentCrypto (.v1 ⟨[vaultRootRecord]⟩)
        rememberedFirstWrite).effective.conflicted := by
  refine ⟨?_, ?_, ?_, ?_⟩ <;> decide +kernel

/-- Dropping a secret that carries a positive counter is noticed in every vault. -/
theorem dropDetected_second_write :
    DropDetected transparentCrypto freshRatchet
      (.v1 ⟨[vaultRootRecord, secretRecord rootUser [rootUser] 1]⟩) selectedRoot
      (.secret testSecretId) 1 := by
  have hv : (resolvedRecords transparentCrypto
      (.v1 ⟨[vaultRootRecord, secretRecord rootUser [rootUser] 1]⟩) freshRatchet).map Prod.fst =
      some selectedRoot := rfl
  obtain ⟨⟨root, records⟩, hr, hroot⟩ := Option.map_eq_some_iff.mp hv
  rw [← hroot]
  exact (dropDetected_iff hr rfl).mpr (Or.inl Nat.one_pos)

end Counterexample

end Detection

end Thorax
