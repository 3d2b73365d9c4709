import Thorax.Merge
import Thorax.Resolution.Memory
import Thorax.TestStore

/-!
# The algebra of merging and ratcheting

A merge is refused for what the roots say and is otherwise a union of record sets, so any tree of
merges over the same inputs leaves the same set and the same bytes. Learning what a validation
raised and validating again changes nothing and raises nothing.
-/

namespace Thorax

open Collections
open Std (ExtTreeMap ExtTreeSet)

/-! ### Root records -/

section Roots

variable {crypto : CryptoProvider}

/-- Whether a record declares a root. -/
def VaultRecordV1.isRoot (signed : VaultRecordV1) : Bool :=
  match signed.body with
  | .known (.vaultRoot _) => true
  | _ => false

/-- Vaults that hold the same set of records. -/
def SameRecords (vault vault' : VaultStore) : Prop :=
  ∀ signed, signed ∈ vault.records ↔ signed ∈ vault'.records

lemma mem_rootRecords {records : List VaultRecordV1} {bytes : Bytes} :
    bytes ∈ rootRecords crypto records ↔
      ∃ signed ∈ records, signed.isRoot ∧ crypto.serialize (.record signed) = bytes := by
  rw [rootRecords, mem_collectSet]
  simp only [ExtTreeSet.not_mem_empty, false_or]
  refine exists_congr fun signed => and_congr_right fun _ => ?_
  unfold VaultRecordV1.isRoot
  generalize signed.body = body
  split
  next => simp
  next => simp

variable (crypto) in
lemma rootRecords_ne_empty {records : List VaultRecordV1} :
    rootRecords crypto records ≠ ∅ ↔ ∃ signed ∈ records, signed.isRoot := by
  rw [Ne, ExtTreeSet.eq_empty_iff_forall_not_mem]
  simp only [mem_rootRecords]
  constructor
  · intro h
    by_contra hnone
    push Not at hnone
    exact h fun bytes ⟨signed, hsigned, hroot, _⟩ => hnone signed hsigned hroot
  · rintro ⟨signed, hsigned, hroot⟩ h
    exact h (crypto.serialize (.record signed)) ⟨signed, hsigned, hroot, rfl⟩

variable (crypto) in
lemma rootless_iff {records : List VaultRecordV1} :
    rootRecords crypto records = ∅ ↔ ∀ signed ∈ records, signed.isRoot = false := by
  rw [← not_iff_not, ← Ne, rootRecords_ne_empty]
  simp

lemma rootRecords_congr {records records' : List VaultRecordV1}
    (h : ∀ signed, signed ∈ records ↔ signed ∈ records') :
    rootRecords crypto records = rootRecords crypto records' := by
  ext bytes
  simp only [mem_rootRecords, h]

end Roots

/-! ### Merging -/

section Merging

variable {crypto : CryptoProvider}

/-- An ancestor whose roots agree with those of the sides, or that has none. -/
def BaseAgrees (crypto : CryptoProvider) (roots : BTreeSet Bytes) (base : Option VaultStore) : Prop :=
  rootRecords crypto (baseRecords base) = ∅ ∨ rootRecords crypto (baseRecords base) = roots

lemma baseAgrees_iff {roots : BTreeSet Bytes} {base : Option VaultStore} :
    ¬ BaseAgrees crypto roots base ↔
      ∃ ancestor, base = some ancestor ∧ (∃ signed ∈ ancestor.records, signed.isRoot) ∧
        rootRecords crypto ancestor.records ≠ roots := by
  rw [BaseAgrees, not_or]
  cases base with
  | none => exact iff_of_false (fun h => h.1 rfl) (by simp)
  | some ancestor =>
    simp only [Option.some.injEq, exists_eq_left', ← rootRecords_ne_empty crypto]
    exact Iff.rfl

variable (crypto) in
/-- What a merge comes to, by the roots of its sides. -/
lemma mergeVaults_cases (base : Option VaultStore) (ours theirs : VaultStore) :
    let oursRoots := rootRecords crypto ours.records
    let theirsRoots := rootRecords crypto theirs.records
    ((oursRoots = ∅ ∨ theirsRoots = ∅) ∧
        mergeVaults crypto base ours theirs = .refused .missingRoot) ∨
      ((oursRoots ≠ ∅ ∧ theirsRoots ≠ ∅) ∧
        (oursRoots ≠ theirsRoots ∨ ¬ BaseAgrees crypto oursRoots base) ∧
        mergeVaults crypto base ours theirs = .refused .rootMismatch) ∨
      ((oursRoots ≠ ∅ ∧ theirsRoots = oursRoots ∧ BaseAgrees crypto oursRoots base) ∧
        mergeVaults crypto base ours theirs =
          .merged (.v1 ⟨(baseRecords base ++ ours.records ++ theirs.records).dedup⟩)) := by
  intro oursRoots theirsRoots
  have habsent : base.isSome = false → rootRecords crypto (baseRecords base) = ∅ := by
    intro h
    obtain rfl : base = none := by simpa using h
    rfl
  simp only [mergeVaults, BaseAgrees]
  split_ifs with hmissing hdiffer hbase
  · left
    simpa [ExtTreeSet.isEmpty_iff] using hmissing
  all_goals simp only [Bool.or_eq_true, ExtTreeSet.isEmpty_iff, not_or] at hmissing
  · exact Or.inr (Or.inl ⟨hmissing, Or.inl hdiffer, rfl⟩)
  · simp only [Bool.and_eq_true, Bool.not_eq_true', ExtTreeSet.isEmpty_eq_false_iff,
      decide_eq_true_eq] at hbase
    exact Or.inr (Or.inl ⟨hmissing, Or.inr (not_or.mpr ⟨hbase.1.2, hbase.2⟩), rfl⟩)
  · refine Or.inr (Or.inr ⟨⟨hmissing.1, (not_not.mp hdiffer).symm, ?_⟩, rfl⟩)
    by_contra hneither
    rw [not_or] at hneither
    cases hsome : base.isSome with
    | false => exact hneither.1 (habsent hsome)
    | true =>
      simp [hsome, ExtTreeSet.isEmpty_eq_false_iff, hneither.1] at hbase
      exact hneither.2 hbase

/-- A merge that is not refused keeps the roots of its sides. -/
lemma rootRecords_of_mergeVaults {base : Option VaultStore} {ours theirs merged : VaultStore}
    (h : mergeVaults crypto base ours theirs = .merged merged) :
    rootRecords crypto ours.records ≠ ∅ ∧
      rootRecords crypto theirs.records = rootRecords crypto ours.records ∧
      BaseAgrees crypto (rootRecords crypto ours.records) base ∧
      rootRecords crypto merged.records = rootRecords crypto ours.records := by
  rcases mergeVaults_cases crypto base ours theirs with
    ⟨_, hcase⟩ | ⟨_, _, hcase⟩ | ⟨⟨hours, htheirs, hbase⟩, _⟩
  · simp [hcase] at h
  · simp [hcase] at h
  · refine ⟨hours, htheirs, hbase, ?_⟩
    have hunion : ∀ bytes, bytes ∈ rootRecords crypto merged.records ↔
        bytes ∈ rootRecords crypto (baseRecords base) ∨
          bytes ∈ rootRecords crypto ours.records ∨ bytes ∈ rootRecords crypto theirs.records := by
      intro bytes
      simp only [mem_rootRecords, mem_of_mergeVaults h, or_and_right, exists_or]
    ext bytes
    rw [hunion, htheirs, or_self]
    rcases hbase with hbase | hbase
    · simp [hbase]
    · rw [hbase, or_self]

/-! ### Trees of merges -/

/-- A tree of merges. The ancestor of a merge is any vault, a merged one as well. -/
inductive MergeTree where
  | side (vault : VaultStore)
  | merge (base : Option VaultStore) (ours theirs : MergeTree)

/-- Run the merges of a tree; a refusal is passed on. -/
def MergeTree.run (crypto : CryptoProvider) : MergeTree → MergeOutcome
  | .side vault => .merged vault
  | .merge base ours theirs =>
    match ours.run crypto with
    | .refused refusal => .refused refusal
    | .merged ours =>
      match theirs.run crypto with
      | .refused refusal => .refused refusal
      | .merged theirs => mergeVaults crypto base ours theirs

/-- The records that a tree starts from. -/
def MergeTree.inputs : MergeTree → List VaultRecordV1
  | .side vault => vault.records
  | .merge base ours theirs => baseRecords base ++ ours.inputs ++ theirs.inputs

/-- Every side of a tree carries these roots, and every ancestor these or none. -/
def MergeTree.RootedAt (crypto : CryptoProvider) (roots : BTreeSet Bytes) : MergeTree → Prop
  | .side vault => rootRecords crypto vault.records = roots
  | .merge base ours theirs =>
    BaseAgrees crypto roots base ∧ ours.RootedAt crypto roots ∧ theirs.RootedAt crypto roots

/-- A tree over sides of the same roots runs to the union of its inputs. -/
lemma run_of_rootedAt {tree : MergeTree} {roots : BTreeSet Bytes} (hroots : roots ≠ ∅)
    (h : tree.RootedAt crypto roots) :
    ∃ merged, tree.run crypto = .merged merged ∧ rootRecords crypto merged.records = roots ∧
      ∀ signed, signed ∈ merged.records ↔ signed ∈ tree.inputs := by
  induction tree with
  | side vault => exact ⟨vault, rfl, h, fun _ => Iff.rfl⟩
  | merge base ours theirs ihOurs ihTheirs =>
    obtain ⟨hbase, hours, htheirs⟩ := h
    obtain ⟨left, hleft, hleftRoots, hleftMem⟩ := ihOurs hours
    obtain ⟨right, hright, hrightRoots, hrightMem⟩ := ihTheirs htheirs
    have hrun : (MergeTree.merge base ours theirs).run crypto =
        mergeVaults crypto base left right := by
      simp only [MergeTree.run, hleft, hright]
    have hmerged : ∃ merged, mergeVaults crypto base left right = .merged merged := by
      rcases mergeVaults_cases crypto base left right with
        ⟨hempty, _⟩ | ⟨_, hdiffer, _⟩ | ⟨_, hmerged⟩
      · simp [hleftRoots, hrightRoots, hroots] at hempty
      · simp [hleftRoots, hrightRoots, hbase] at hdiffer
      · exact ⟨_, hmerged⟩
    obtain ⟨merged, hmerged⟩ := hmerged
    refine ⟨merged, hrun.trans hmerged, ?_, ?_⟩
    · rw [(rootRecords_of_mergeVaults hmerged).2.2.2, hleftRoots]
    · intro signed
      rw [mem_of_mergeVaults hmerged, hleftMem, hrightMem]
      simp [MergeTree.inputs]

/-- A tree that runs without refusal was over sides of the same roots. -/
lemma rootedAt_of_run {tree : MergeTree} {merged : VaultStore}
    (h : tree.run crypto = .merged merged) :
    tree.RootedAt crypto (rootRecords crypto merged.records) := by
  induction tree generalizing merged with
  | side vault =>
    obtain rfl := MergeOutcome.merged.inj h
    rfl
  | merge base ours theirs ihOurs ihTheirs =>
    simp only [MergeTree.run] at h
    cases hours : ours.run crypto with
    | refused refusal => simp [hours] at h
    | merged left =>
      cases htheirs : theirs.run crypto with
      | refused refusal => simp [hours, htheirs] at h
      | merged right =>
        simp only [hours, htheirs] at h
        obtain ⟨_, hright, hbase, hmerged⟩ := rootRecords_of_mergeVaults h
        rw [hmerged]
        have hrightRooted := ihTheirs htheirs
        rw [hright] at hrightRooted
        exact ⟨hbase, ihOurs hours, hrightRooted⟩

end Merging

/-! ### The laws of a merge -/

section Laws

variable {provider : StoreProvider}

/-- The serializer writes a set in one way, whatever the order it is visited in. -/
def CanonicalSets (provider : StoreProvider) : Prop :=
  ∀ vault vault' : VaultStore, vault.records.Nodup → vault'.records.Nodup →
    SameRecords vault vault' → provider.vaultCodec.serialize vault =
      provider.vaultCodec.serialize vault'

/-- Outcomes no reader can tell apart: the same refusal, or the same records and the same bytes. -/
def MergeOutcome.Same (provider : StoreProvider) : MergeOutcome → MergeOutcome → Prop
  | .merged vault, .merged vault' =>
    SameRecords vault vault' ∧ encodeVault provider vault = encodeVault provider vault'
  | .refused refusal, .refused refusal' => refusal = refusal'
  | _, _ => False

/-- Vaults of the same records encode to the same bytes. -/
lemma encodeVault_congr (hcanonical : CanonicalSets provider) {vault vault' : VaultStore}
    (h : vault.records.Nodup) (h' : vault'.records.Nodup) (hsame : SameRecords vault vault') :
    encodeVault provider vault = encodeVault provider vault' := by
  have hlength : vault.records.length = vault'.records.length :=
    ((List.perm_ext_iff_of_nodup h h').mpr hsame).length_eq
  simp only [encodeVault, hlength, hcanonical vault vault' h h' hsame]

lemma nodup_of_mergeVaults {crypto : CryptoProvider} {base : Option VaultStore}
    {ours theirs merged : VaultStore} (h : mergeVaults crypto base ours theirs = .merged merged) :
    merged.records.Nodup := by
  rcases mergeVaults_cases crypto base ours theirs with ⟨_, hcase⟩ | ⟨_, _, hcase⟩ | ⟨_, hcase⟩
  · simp [hcase] at h
  · simp [hcase] at h
  · obtain rfl := MergeOutcome.merged.inj (hcase.symm.trans h)
    exact List.nodup_dedup _

/-- Merges of the same sides end alike, whatever the order of the sides and of their records. -/
lemma same_mergeVaults (hcanonical : CanonicalSets provider) {base base' : Option VaultStore}
    {ours ours' theirs theirs' : VaultStore}
    (hbase : ∀ signed, signed ∈ baseRecords base ↔ signed ∈ baseRecords base')
    (hsides : (SameRecords ours ours' ∧ SameRecords theirs theirs') ∨
      (SameRecords ours theirs' ∧ SameRecords theirs ours')) :
    (mergeVaults provider.toCryptoProvider base ours theirs).Same provider
      (mergeVaults provider.toCryptoProvider base' ours' theirs') := by
  have hbaseRoots : rootRecords provider.toCryptoProvider (baseRecords base) = _ :=
    rootRecords_congr hbase
  have hroots : ∀ {vault vault' : VaultStore}, SameRecords vault vault' →
      rootRecords provider.toCryptoProvider vault.records =
        rootRecords provider.toCryptoProvider vault'.records := rootRecords_congr
  have hsideRoots := hsides.imp (fun h => And.intro (hroots h.1) (hroots h.2))
    (fun h => And.intro (hroots h.1) (hroots h.2))
  have hcases := mergeVaults_cases provider.toCryptoProvider base ours theirs
  have hcases' := mergeVaults_cases provider.toCryptoProvider base' ours' theirs'
  simp only [BaseAgrees, hbaseRoots] at hcases hcases'
  -- the sides have the same roots up to their order, so both merges end in the same way
  rcases hcases with ⟨hempty, hcase⟩ | ⟨hnonempty, hdiffer, hcase⟩ | ⟨hagree, hcase⟩
  · have hcase' : mergeVaults provider.toCryptoProvider base' ours' theirs' =
        .refused .missingRoot := by grind
    rw [hcase, hcase']
    exact rfl
  · have hcase' : mergeVaults provider.toCryptoProvider base' ours' theirs' =
        .refused .rootMismatch := by grind
    rw [hcase, hcase']
    exact rfl
  · obtain ⟨merged, hmerged⟩ : ∃ merged, mergeVaults provider.toCryptoProvider base' ours' theirs' =
        .merged merged := by grind
    have hsame : SameRecords
        (.v1 ⟨(baseRecords base ++ ours.records ++ theirs.records).dedup⟩) merged := by
      intro signed
      rw [mem_of_mergeVaults hcase, mem_of_mergeVaults hmerged, hbase signed]
      rcases hsides with ⟨hours, htheirs⟩ | ⟨hours, htheirs⟩
      · rw [hours signed, htheirs signed]
      · rw [hours signed, htheirs signed, @or_comm (signed ∈ theirs'.records)]
    rw [hcase, hmerged]
    exact ⟨hsame, encodeVault_congr hcanonical (nodup_of_mergeVaults hcase)
      (nodup_of_mergeVaults hmerged) hsame⟩

/-- What merging promises. -/
structure MergeLaws (provider : StoreProvider) : Prop where
  missingRoot : ∀ base ours theirs,
    mergeVaults provider.toCryptoProvider base ours theirs = .refused .missingRoot ↔
      (∀ signed ∈ ours.records, signed.isRoot = false) ∨
        ∀ signed ∈ theirs.records, signed.isRoot = false
  rootMismatch : ∀ base ours theirs,
    mergeVaults provider.toCryptoProvider base ours theirs = .refused .rootMismatch ↔
      ((∃ signed ∈ ours.records, signed.isRoot) ∧ ∃ signed ∈ theirs.records, signed.isRoot) ∧
        (rootRecords provider.toCryptoProvider ours.records ≠
            rootRecords provider.toCryptoProvider theirs.records ∨
          ∃ ancestor, base = some ancestor ∧ (∃ signed ∈ ancestor.records, signed.isRoot) ∧
            rootRecords provider.toCryptoProvider ancestor.records ≠
              rootRecords provider.toCryptoProvider ours.records)
  /-- No record of an input is lost and none is added, whatever its body. -/
  union : ∀ base ours theirs merged,
    mergeVaults provider.toCryptoProvider base ours theirs = .merged merged → ∀ signed,
      signed ∈ merged.records ↔
        signed ∈ baseRecords base ∨ signed ∈ ours.records ∨ signed ∈ theirs.records
  commutative : ∀ base ours theirs,
    (mergeVaults provider.toCryptoProvider base ours theirs).Same provider
      (mergeVaults provider.toCryptoProvider base theirs ours)
  idempotent : ∀ vault : VaultStore, vault.records.Nodup →
    (∃ signed ∈ vault.records, signed.isRoot) → ∀ base, base = none ∨ base = some vault →
      (mergeVaults provider.toCryptoProvider base vault vault).Same provider (.merged vault)
  /-- The order in which a side's records are visited does not matter. -/
  unordered : ∀ base base' ours ours' theirs theirs',
    (∀ signed, signed ∈ baseRecords base ↔ signed ∈ baseRecords base') →
      SameRecords ours ours' → SameRecords theirs theirs' →
        (mergeVaults provider.toCryptoProvider base ours theirs).Same provider
          (mergeVaults provider.toCryptoProvider base' ours' theirs')
  /-- A tree of merges is refused unless all its sides share their roots. -/
  rooted : ∀ base ours theirs,
    (∃ merged, (MergeTree.merge base ours theirs).run provider.toCryptoProvider = .merged merged) ↔
      ∃ roots, roots ≠ ∅ ∧
        (MergeTree.merge base ours theirs).RootedAt provider.toCryptoProvider roots
  /-- How merges are nested does not matter: what comes out is the union of what went in. -/
  associative : ∀ base ours theirs base' ours' theirs' merged merged',
    (MergeTree.merge base ours theirs).run provider.toCryptoProvider = .merged merged →
    (MergeTree.merge base' ours' theirs').run provider.toCryptoProvider = .merged merged' →
    (∀ signed, signed ∈ merged.records ↔ signed ∈ (MergeTree.merge base ours theirs).inputs) ∧
      ((∀ signed, signed ∈ (MergeTree.merge base ours theirs).inputs ↔
          signed ∈ (MergeTree.merge base' ours' theirs').inputs) →
        (MergeOutcome.merged merged).Same provider (.merged merged'))

/-- The records of a tree that ran are those of its inputs. -/
lemma mem_of_run {crypto : CryptoProvider} {base : Option VaultStore} {ours theirs : MergeTree}
    {merged : VaultStore} (h : (MergeTree.merge base ours theirs).run crypto = .merged merged) :
    merged.records.Nodup ∧ rootRecords crypto merged.records ≠ ∅ ∧ ∀ signed,
      signed ∈ merged.records ↔ signed ∈ (MergeTree.merge base ours theirs).inputs := by
  have hrooted := rootedAt_of_run h
  obtain ⟨left, right, hmerge⟩ : ∃ left right, mergeVaults crypto base left right =
      .merged merged := by
    simp only [MergeTree.run] at h
    split at h
    · cases h
    · split at h
      · cases h
      · exact ⟨_, _, h⟩
  have hroots : rootRecords crypto merged.records ≠ ∅ := by
    rw [(rootRecords_of_mergeVaults hmerge).2.2.2]
    exact (rootRecords_of_mergeVaults hmerge).1
  obtain ⟨merged', hrun, -, hmem⟩ := run_of_rootedAt hroots hrooted
  obtain rfl := MergeOutcome.merged.inj (h.symm.trans hrun)
  exact ⟨nodup_of_mergeVaults hmerge, hroots, hmem⟩

/-- Merging is a union of sets that share their roots, and a refusal of everything else. -/
theorem mergeVaults_laws (hcanonical : CanonicalSets provider) : MergeLaws provider where
  missingRoot base ours theirs := by
    rw [← rootless_iff provider.toCryptoProvider, ← rootless_iff provider.toCryptoProvider]
    rcases mergeVaults_cases provider.toCryptoProvider base ours theirs with
      ⟨hempty, hcase⟩ | ⟨hnonempty, -, hcase⟩ | ⟨⟨hours, htheirs, -⟩, hcase⟩
    · exact iff_of_true hcase hempty
    · exact iff_of_false (by simp [hcase]) (not_or.mpr hnonempty)
    · exact iff_of_false (by simp [hcase]) (by simp [htheirs, hours])
  rootMismatch base ours theirs := by
    rw [← rootRecords_ne_empty provider.toCryptoProvider,
      ← rootRecords_ne_empty provider.toCryptoProvider, ← baseAgrees_iff]
    rcases mergeVaults_cases provider.toCryptoProvider base ours theirs with
      ⟨hempty, hcase⟩ | ⟨hnonempty, hdiffer, hcase⟩ | ⟨⟨-, htheirs, hbase⟩, hcase⟩
    · refine iff_of_false (by simp [hcase]) fun h => ?_
      rcases hempty with hempty | hempty
      · exact h.1.1 hempty
      · exact h.1.2 hempty
    · exact iff_of_true hcase ⟨hnonempty, hdiffer⟩
    · refine iff_of_false (by simp [hcase]) fun h => ?_
      rcases h.2 with hdiffer | hdiffer
      · exact hdiffer htheirs.symm
      · exact hdiffer hbase
  union base ours theirs merged h := mem_of_mergeVaults h
  commutative base ours theirs :=
    same_mergeVaults hcanonical (fun _ => Iff.rfl) (Or.inr ⟨fun _ => Iff.rfl, fun _ => Iff.rfl⟩)
  idempotent vault hdistinct hroot base hbase := by
    have hrooted : rootRecords provider.toCryptoProvider vault.records ≠ ∅ :=
      (rootRecords_ne_empty _).mpr hroot
    have hagrees : BaseAgrees provider.toCryptoProvider
        (rootRecords provider.toCryptoProvider vault.records) base := by
      rcases hbase with rfl | rfl
      · exact Or.inl rfl
      · exact Or.inr rfl
    have hwithin : ∀ signed, signed ∈ baseRecords base → signed ∈ vault.records := by
      rcases hbase with rfl | rfl
      · exact fun signed h => absurd h List.not_mem_nil
      · exact fun signed h => h
    rcases mergeVaults_cases provider.toCryptoProvider base vault vault with
      ⟨hempty, -⟩ | ⟨-, hdiffer, -⟩ | ⟨-, hcase⟩
    · simp [hrooted] at hempty
    · simp [hagrees] at hdiffer
    · have hsame : SameRecords
          (.v1 ⟨(baseRecords base ++ vault.records ++ vault.records).dedup⟩) vault := by
        intro signed
        rw [mem_of_mergeVaults hcase, or_self]
        exact or_iff_right_of_imp (hwithin signed)
      rw [hcase]
      exact ⟨hsame, encodeVault_congr hcanonical (nodup_of_mergeVaults hcase) hdistinct hsame⟩
  unordered base base' ours ours' theirs theirs' hbase hours htheirs :=
    same_mergeVaults hcanonical hbase (Or.inl ⟨hours, htheirs⟩)
  rooted base ours theirs := by
    constructor
    · rintro ⟨merged, h⟩
      exact ⟨_, (mem_of_run h).2.1, rootedAt_of_run h⟩
    · rintro ⟨roots, hroots, hrooted⟩
      obtain ⟨merged, h, -⟩ := run_of_rootedAt hroots hrooted
      exact ⟨merged, h⟩
  associative base ours theirs base' ours' theirs' merged merged' h h' := by
    obtain ⟨hdistinct, -, hmem⟩ := mem_of_run h
    obtain ⟨hdistinct', -, hmem'⟩ := mem_of_run h'
    refine ⟨hmem, fun hinputs => ?_⟩
    have hsame : SameRecords merged merged' := by
      intro signed
      rw [hmem, hinputs, ← hmem']
    exact ⟨hsame, encodeVault_congr hcanonical hdistinct hdistinct' hsame⟩

end Laws

/-! ### A merge of two branches -/

section Branches

open TestSupport

/-- A serializer of sets that writes a set as the position of the table entry with its elements. -/
def canonicalPosition (table : List VaultStore) (vault : VaultStore) : Except CordError Bytes :=
  match table.find? fun entry => entry.records.isPerm vault.records with
  | some entry => tablePosition table entry
  | none => .error (.malformed "value is not in the table")

def canonicalCodec (table : List VaultStore) : SetCodec VaultStore VaultRecordV1 VaultStore.records where
  serialize := canonicalPosition (table.filter fun vault => vault.records.Nodup)
  deserialize := (tableSetCodec VaultStore.records table).deserialize
  distinct := (tableSetCodec VaultStore.records table).distinct
  roundTrip := by
    intro vault bytes h
    unfold canonicalPosition at h
    split at h
    · next entry hfind =>
      have hperm := List.find?_some hfind
      exact ⟨entry, tableValue_tablePosition h, fun signed => (List.isPerm_iff.mp hperm).mem_iff⟩
    · cases h

/-- Two branches that each add a record of their own to a common ancestor. -/
def ancestorVault : VaultStore := .v1 ⟨[vaultRootRecord]⟩

def oursBranch : VaultStore := .v1 ⟨[vaultRootRecord, secretRecord rootUser [rootUser] 1]⟩

def theirsBranch : VaultStore := .v1 ⟨[secretDeletedRecord rootUser 2, vaultRootRecord]⟩

def branchProvider : StoreProvider :=
  { tableProvider firstSecretTables with
    vaultCodec := canonicalCodec [ancestorVault, oursBranch, theirsBranch,
      .v1 ⟨[vaultRootRecord, secretRecord rootUser [rootUser] 1, secretDeletedRecord rootUser 2]⟩] }

lemma canonicalSets_branchProvider : CanonicalSets branchProvider := by
  intro vault vault' hdistinct hdistinct' hsame
  have hperm : vault.records.Perm vault'.records :=
    (List.perm_ext_iff_of_nodup hdistinct hdistinct').mpr hsame
  have hentry : ∀ entry : VaultStore, entry.records.isPerm vault.records =
      entry.records.isPerm vault'.records := by
    intro entry
    rw [Bool.eq_iff_iff, List.isPerm_iff, List.isPerm_iff]
    exact ⟨fun h => h.trans hperm, fun h => h.trans hperm.symm⟩
  simp only [branchProvider, canonicalCodec, canonicalPosition, hentry]

theorem mergeVaults_laws_branches :
    mergeVaults branchProvider.toCryptoProvider (some ancestorVault) oursBranch theirsBranch =
        .merged (.v1 ⟨[secretRecord rootUser [rootUser] 1, secretDeletedRecord rootUser 2,
          vaultRootRecord]⟩) ∧
      CanonicalSets branchProvider ∧
      (mergeVaults branchProvider.toCryptoProvider (some ancestorVault) oursBranch
        theirsBranch).Same branchProvider
        (mergeVaults branchProvider.toCryptoProvider (some ancestorVault) theirsBranch
          oursBranch) :=
  ⟨by decide +kernel, canonicalSets_branchProvider,
    (mergeVaults_laws canonicalSets_branchProvider).commutative _ _ _⟩

end Branches

/-! ### Ratcheting -/

section Ratcheting

variable (crypto : CryptoProvider) (vault : VaultStore) (ratchet : Ratchet)

lemma RatchetUpdate.eq_empty {update : RatchetUpdate} (hraised : update.raisedWatermarks = ∅)
    (horigins : update.origins = ∅) (hversion : update.raisedFormatVersion = none) :
    update = .empty := by
  obtain ⟨raised, origins, version⟩ := update
  simp only at hraised horigins hversion
  rw [hraised, horigins, hversion]
  rfl

/-- A ratchet that has learned what a validation raised has nothing more to learn from it. -/
lemma ratchetUpdate_applyUpdate :
    (validateVault crypto vault (ratchet.applyUpdate
      (validateVault crypto vault ratchet).ratchetUpdate)).ratchetUpdate = .empty := by
  have hsame : SameVerdict _ (validateVault crypto vault ratchet) :=
    sameVerdict_applyUpdate crypto vault ratchet ∅
  cases hresolved : resolvedRecords crypto vault ratchet with
  | none =>
    have hresolved' := (resolvedRecords_applyUpdate vault vault).trans hresolved
    exact (validateVault_of_unresolved hresolved').2.1
  | some resolved =>
    obtain ⟨root, records⟩ := resolved
    have hresolved' := (resolvedRecords_applyUpdate vault vault).trans hresolved
    have horigins := (validateVaultWithVerified_of_resolved hresolved).2.2.1
    obtain ⟨-, hraised', horigins', -⟩ := validateVaultWithVerified_of_resolved hresolved'
    refine RatchetUpdate.eq_empty ?_ ?_ ?_
    · refine hraised'.trans (ExtTreeMap.ext_getElem? fun key => ?_)
      rw [ExtTreeMap.getElem?_filter', watermarks_applyUpdate hresolved]
      cases (currentWatermarks crypto root records)[key]? with
      | none => rfl
      | some current => simp [Option.filter]
    · refine horigins'.trans (ExtTreeMap.ext_getElem? fun key => ?_)
      rw [ExtTreeMap.getElem?_filter']
      cases hkey : (observedOrigins crypto root records)[key]? with
      | none => rfl
      | some origin =>
        have hknown : key ∈ (ratchet.applyUpdate
            (validateVault crypto vault ratchet).ratchetUpdate).origins := by
          rw [← ExtTreeMap.isSome_getElem?_iff_mem, origins_applyUpdate]
          cases hremembered : ratchet.origins[key]? with
          | some remembered => rfl
          | none =>
            have hnew : (validateVault crypto vault ratchet).ratchetUpdate.origins[key]? = _ :=
              congrArg (·[key]?) horigins
            simp only [ExtTreeMap.getElem?_filter', hkey] at hnew
            have hunknown : ratchet.origins.contains key = false := by
              rw [ExtTreeMap.contains_eq_isSome_getElem?, hremembered]
              rfl
            rw [hnew]
            simp [Option.filter, hunknown]
        simp [Option.filter, hknown]
    · refine (raisedFormatVersion_eq vault).trans (if_neg ?_)
      rintro ⟨hbelow, hclean⟩
      have hversion : (validateVault crypto vault ratchet).ratchetUpdate.raisedFormatVersion = _ :=
        raisedFormatVersion_eq vault
      have hclean' : (validateVault crypto vault ratchet).issues = [] := hsame.2.symm.trans hclean
      -- a clean vault above the remembered version has raised it already
      by_cases hold : ratchet.formatVersion < vault.formatVersion
      · have hraise : (validateVault crypto vault ratchet).ratchetUpdate.raisedFormatVersion =
            some vault.formatVersion := hversion.trans (if_pos ⟨hold, hclean'⟩)
        simp [Ratchet.applyUpdate, hraise] at hbelow
      · have hkeep : (validateVault crypto vault ratchet).ratchetUpdate.raisedFormatVersion = none :=
          hversion.trans (if_neg fun h => hold h.1)
        have hsameVersion : (ratchet.applyUpdate
            (validateVault crypto vault ratchet).ratchetUpdate).formatVersion =
              ratchet.formatVersion := by
          rw [Ratchet.applyUpdate]
          simp only [hkeep]
        rw [hsameVersion] at hbelow
        exact hold hbelow

/-- What `again` tells every reader is what `report` told, and it has nothing left to raise. -/
structure ValidationReport.RepeatedBy (crypto : CryptoProvider)
    (report again : ValidationReport) : Prop where
  effective : again.effective = report.effective
  conflicted : again.effective.conflicted = report.effective.conflicted
  issues : again.issues = report.issues
  secrets : ∀ selector user,
    again.effective.classifySecretForUser crypto selector user =
        report.effective.classifySecretForUser crypto selector user ∧
      again.effective.secretRecord crypto selector =
        report.effective.secretRecord crypto selector ∧
      again.effective.secretIsDeleted crypto selector =
        report.effective.secretIsDeleted crypto selector
  watermarks : again.ratchetUpdate.raisedWatermarks = ∅
  formatVersion : again.ratchetUpdate.raisedFormatVersion = none
  rollbacks : ∀ key, ¬ report.effective.RollbackAt key → ¬ again.effective.RollbackAt key

/-- Learning what a validation raised and validating again says the same and raises nothing. -/
theorem validateVault_applyUpdate :
    (validateVault crypto vault ratchet).RepeatedBy crypto
      (validateVault crypto vault
        (ratchet.applyUpdate (validateVault crypto vault ratchet).ratchetUpdate)) := by
  obtain ⟨heffective, hissues⟩ : SameVerdict
      (validateVault crypto vault
        (ratchet.applyUpdate (validateVault crypto vault ratchet).ratchetUpdate))
      (validateVault crypto vault ratchet) :=
    sameVerdict_applyUpdate crypto vault ratchet ∅
  have hupdate := ratchetUpdate_applyUpdate crypto vault ratchet
  constructor
  · exact heffective
  · rw [heffective]
  · exact hissues
  · intro selector user
    rw [heffective]
    exact ⟨rfl, rfl, rfl⟩
  · rw [hupdate]
    rfl
  · rw [hupdate]
    rfl
  · intro key hkey
    rw [heffective]
    exact hkey

end Ratcheting

end Thorax
