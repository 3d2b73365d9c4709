import Thorax.Frontend.MergeRun
import Thorax.Properties.Algebra
import Thorax.Properties.SecretReadings
import Thorax.Resolution.RecordSets

/-!
# Clones of a repository

A vault file lives on the branches of a git repository, in as many clones as there are people.
Each changes its own file, and files meet only in merges, which the merge driver carries out. In
every run of the clones no record is lost and none is made up, no merge is refused, and clones that
have received the same changes show the same vault.
-/

namespace Thorax

open Collections

/-- The vault file on the branch of each clone, the versions of it in the history of the branch,
and the records that have been added on the branch or merged into it. -/
structure Clones (ι : Type) where
  file : ι → Bytes
  history : ι → Set Bytes
  received : ι → Set VaultRecordV1

section Clones

variable {ι : Type} (provider : StoreProvider)

/-- What git hands the driver as the ancestor of two branches: nothing when they have no common
base, a version in both histories, or a merge of ancestors when there are several. -/
inductive MergeBase (clones : Clones ι) (i j : ι) : Bytes → Prop
  | unrelated : MergeBase clones i j []
  | common (bytes : Bytes) : bytes ∈ clones.history i → bytes ∈ clones.history j →
      MergeBase clones i j bytes
  | virtual (paths : WorkspacePaths) (disk : Disk) {ancestor ours theirs : Bytes} :
      MergeBase clones i j ancestor → MergeBase clones i j ours → MergeBase clones i j theirs →
      MergeBase clones i j
        ((cmdMergeDriver provider paths disk ancestor ours theirs).written.getD ours)

variable [DecidableEq ι]

/-- A clone goes on to another version of the file. -/
def Clones.advance (clones : Clones ι) (i : ι) (file : Bytes) (history : Set Bytes)
    (received : Set VaultRecordV1) : Clones ι where
  file := Function.update clones.file i file
  history := Function.update clones.history i (insert file history)
  received := Function.update clones.received i received

/-- A record is added to a file and committed; a merge whose union has been written is committed,
settled or not; a branch that another has left behind catches up. -/
inductive CloneStep (clones : Clones ι) : Clones ι → Prop
  | change (i : ι) (vault : VaultStore) (signed : VaultRecordV1) (bytes : Bytes) :
      signed.isRoot = false → decodeVault provider (clones.file i) = .ok vault →
      encodeVault provider (vault.appendRecord signed) = .ok bytes →
      CloneStep clones
        (clones.advance i bytes (clones.history i) (insert signed (clones.received i)))
  | merge (i j : ι) (paths : WorkspacePaths) (disk : Disk) (base bytes : Bytes) :
      MergeBase provider clones i j base →
      (cmdMergeDriver provider paths disk base (clones.file i) (clones.file j)).written =
        some bytes →
      CloneStep clones (clones.advance i bytes (clones.history i ∪ clones.history j)
        (clones.received i ∪ clones.received j))
  | forward (i j : ι) : clones.file i ∈ clones.history j →
      CloneStep clones (clones.advance i (clones.file j) (clones.history j) (clones.received j))

abbrev CloneRun (start : Clones ι) : Clones ι → Prop :=
  Relation.ReflTransGen (CloneStep provider) start

omit [DecidableEq ι] in
/-- Every clone starts with the file of one vault. -/
structure Clones.StartsWith (initial : VaultStore) (clones : Clones ι) : Prop where
  nodup : initial.records.Nodup
  file : ∀ i, encodeVault provider initial = .ok (clones.file i)
  history : ∀ i, clones.history i = {clones.file i}
  received : ∀ i, clones.received i = ∅

/-! ### What every run keeps -/

/-- A vault holds the records of the first vault and those received. -/
def VaultStore.Carries (initial vault : VaultStore) (received : Set VaultRecordV1) : Prop :=
  ∀ signed, signed ∈ vault.records ↔ signed ∈ initial.records ∨ signed ∈ received

/-- A version in the history of a branch: a vault of the same roots, without a record that the
branch does not have. -/
def Precedes (initial : VaultStore) (received : Set VaultRecordV1) (bytes : Bytes) : Prop :=
  ∃ vault, decodeVault provider bytes = .ok vault ∧
    rootRecords provider.toCryptoProvider vault.records =
      rootRecords provider.toCryptoProvider initial.records ∧
    ∀ signed ∈ vault.records, signed ∈ initial.records ∨ signed ∈ received

/-- What holds of a clone in every run. -/
structure Clones.SoundAt (initial : VaultStore) (clones : Clones ι) (i : ι) : Prop where
  file : ∃ vault, decodeVault provider (clones.file i) = .ok vault ∧
    initial.Carries vault (clones.received i)
  written : ∃ vault, encodeVault provider vault = .ok (clones.file i) ∧ vault.records.Nodup
  history : ∀ bytes ∈ clones.history i, Precedes provider initial (clones.received i) bytes
  received : ∀ signed ∈ clones.received i, signed.isRoot = false

section Versions

omit [DecidableEq ι]

variable {provider} {clones clones' : Clones ι} {initial vault : VaultStore} {i j k : ι}
  {bytes base : Bytes} {received received' history : Set VaultRecordV1}

lemma nodup_appendRecord {signed : VaultRecordV1} (h : vault.records.Nodup) :
    (vault.appendRecord signed).records.Nodup := by
  rw [VaultStore.records_appendRecord]
  split_ifs with hmem
  · exact h
  · exact h.append (List.nodup_singleton _) (by simpa using hmem)

lemma decodeVault_nil : ∀ vault, decodeVault provider [] ≠ .ok vault := by
  intro vault h
  have hnone : afterMagic vaultMagic [] = none := by decide
  simp [decodeVault, hnone] at h

/-- Records that are no roots leave the roots as they are. -/
lemma VaultStore.Carries.rootRecords (h : initial.Carries vault received)
    (hreceived : ∀ signed ∈ received, signed.isRoot = false) :
    rootRecords provider.toCryptoProvider vault.records =
      rootRecords provider.toCryptoProvider initial.records := by
  ext bytes
  simp only [mem_rootRecords, h _]
  constructor
  · rintro ⟨signed, hsigned | hsigned, hroot, hbytes⟩
    · exact ⟨signed, hsigned, hroot, hbytes⟩
    · simp [hreceived signed hsigned] at hroot
  · rintro ⟨signed, hsigned, hroot, hbytes⟩
    exact ⟨signed, Or.inl hsigned, hroot, hbytes⟩

lemma Clones.SoundAt.carries_of_decodeVault (h : clones.SoundAt provider initial i)
    (hdecode : decodeVault provider (clones.file i) = .ok vault) :
    initial.Carries vault (clones.received i) := by
  obtain ⟨found, hfound, hcarries⟩ := h.file
  obtain rfl := Except.ok.inj (hfound.symm.trans hdecode)
  exact hcarries

lemma Clones.SoundAt.carries_of_encodeVault (h : clones.SoundAt provider initial i)
    (hencode : encodeVault provider vault = .ok (clones.file i)) :
    initial.Carries vault (clones.received i) := by
  obtain ⟨-, found, hfound, -, hmem⟩ := decodeVault_encodeVault hencode
  exact fun signed => (hmem signed).symm.trans (h.carries_of_decodeVault hfound signed)

lemma Precedes.mono (h : Precedes provider initial received bytes) (hle : received ⊆ received') :
    Precedes provider initial received' bytes := by
  obtain ⟨vault, hdecode, hroots, hmem⟩ := h
  exact ⟨vault, hdecode, hroots, fun signed hsigned =>
    (hmem signed hsigned).imp_right fun hreceived => hle hreceived⟩

/-- What a vault that has been written decodes to is a version of the branch. -/
lemma precedes_of_encodeVault (h : encodeVault provider vault = .ok bytes)
    (hcarries : initial.Carries vault received)
    (hreceived : ∀ signed ∈ received, signed.isRoot = false) :
    Precedes provider initial received bytes := by
  obtain ⟨-, vault', hdecode, -, hmem⟩ := decodeVault_encodeVault h
  refine ⟨vault', hdecode, ?_, fun signed hsigned => (hcarries signed).mp ((hmem signed).mp hsigned)⟩
  rw [rootRecords_congr hmem]
  exact hcarries.rootRecords hreceived

/-- A clone that goes on to a vault it has written is sound. -/
lemma soundAt_of_encodeVault (hclone : clones.file i = bytes)
    (hencode : encodeVault provider vault = .ok bytes) (hnodup : vault.records.Nodup)
    (hcarries : initial.Carries vault (clones.received i))
    (hreceived : ∀ signed ∈ clones.received i, signed.isRoot = false)
    (hhistory : ∀ version ∈ clones.history i, version = bytes ∨
      Precedes provider initial (clones.received i) version) :
    clones.SoundAt provider initial i := by
  obtain ⟨-, vault', hdecode, -, hmem⟩ := decodeVault_encodeVault hencode
  refine ⟨⟨vault', hclone ▸ hdecode, fun signed => (hmem signed).trans (hcarries signed)⟩,
    ⟨vault, hclone ▸ hencode, hnodup⟩, fun version hversion => ?_, hreceived⟩
  rcases hhistory version hversion with rfl | hprecedes
  · exact precedes_of_encodeVault hencode hcarries hreceived
  · exact hprecedes

/-- Where both branches have a version, it precedes what they share. -/
lemma Precedes.inter (h : Precedes provider initial received bytes)
    (h' : Precedes provider initial received' bytes) :
    Precedes provider initial (received ∩ received') bytes := by
  obtain ⟨vault, hdecode, hroots, hmem⟩ := h
  obtain ⟨vault', hdecode', -, hmem'⟩ := h'
  obtain rfl := Except.ok.inj (hdecode.symm.trans hdecode')
  refine ⟨vault, hdecode, hroots, fun signed hsigned => ?_⟩
  rcases hmem signed hsigned with hinitial | hreceived
  · exact Or.inl hinitial
  · exact (hmem' signed hsigned).imp_right fun hreceived' => ⟨hreceived, hreceived'⟩

/-- A union of versions is a version. -/
lemma precedes_of_cmdMergeDriver {paths : WorkspacePaths} {disk : Disk}
    {ancestor ours theirs : Bytes}
    (hancestor : ancestor = [] ∨ Precedes provider initial received ancestor)
    (hours : Precedes provider initial received ours)
    (htheirs : Precedes provider initial received theirs)
    (h : (cmdMergeDriver provider paths disk ancestor ours theirs).written = some bytes) :
    Precedes provider initial received bytes := by
  obtain ⟨base, oursVault, theirsVault, merged, hbase, hoursVault, htheirsVault, hmerge, hencode⟩ :=
    cmdMergeDriver_written h
  obtain ⟨vault, hdecode, hroots, hmem⟩ := hours
  obtain rfl := Except.ok.inj (hdecode.symm.trans hoursVault)
  obtain ⟨vault', hdecode', -, hmem'⟩ := htheirs
  obtain rfl := Except.ok.inj (hdecode'.symm.trans htheirsVault)
  have hmemBase : ∀ signed ∈ baseRecords base, signed ∈ initial.records ∨ signed ∈ received := by
    rcases decodeAncestor_eq_some.mp hbase with ⟨-, rfl⟩ | ⟨hne, found, hfound, rfl⟩
    · simp [baseRecords]
    · obtain ⟨vault'', hdecode'', -, hmem''⟩ := hancestor.resolve_left hne
      obtain rfl := Except.ok.inj (hdecode''.symm.trans hfound)
      exact hmem''
  obtain ⟨-, written, hwritten, -, hsame⟩ := decodeVault_encodeVault hencode
  refine ⟨written, hwritten, ?_, fun signed hsigned => ?_⟩
  · rw [rootRecords_congr hsame, (rootRecords_of_mergeVaults hmerge).2.2.2, hroots]
  · rw [hsame, mem_of_mergeVaults hmerge] at hsigned
    rcases hsigned with hsigned | hsigned | hsigned
    · exact hmemBase signed hsigned
    · exact hmem signed hsigned
    · exact hmem' signed hsigned

/-- An ancestor is empty, or a version of both branches. -/
lemma MergeBase.precedes (hi : clones.SoundAt provider initial i)
    (hj : clones.SoundAt provider initial j) (h : MergeBase provider clones i j base) :
    base = [] ∨ Precedes provider initial (clones.received i ∩ clones.received j) base := by
  induction h with
  | unrelated => exact Or.inl rfl
  | common bytes hours htheirs => exact Or.inr ((hi.history _ hours).inter (hj.history _ htheirs))
  | @virtual paths disk ancestor ours theirs _ _ _ ihAncestor ihOurs ihTheirs =>
    cases hwritten : (cmdMergeDriver provider paths disk ancestor ours theirs).written with
    | none => exact ihOurs
    | some bytes =>
      obtain ⟨_, oursVault, theirsVault, _, _, hours, htheirs, _, _⟩ := cmdMergeDriver_written hwritten
      refine Or.inr (precedes_of_cmdMergeDriver ihAncestor (ihOurs.resolve_left ?_)
        (ihTheirs.resolve_left ?_) hwritten)
      · rintro rfl
        exact decodeVault_nil _ hours
      · rintro rfl
        exact decodeVault_nil _ htheirs

/-- Two branches are never refused a merge: their union is written unless it is too large. -/
lemma merges_of_soundAt (hroots : ∃ signed ∈ initial.records, signed.isRoot)
    (hi : clones.SoundAt provider initial i) (hj : clones.SoundAt provider initial j)
    (hbase : MergeBase provider clones i j base) (paths : WorkspacePaths) (disk : Disk) :
    ∃ merged, initial.Carries merged (clones.received i ∪ clones.received j) ∧
      merged.records.Nodup ∧
      (cmdMergeDriver provider paths disk base (clones.file i) (clones.file j)).written =
        (encodeVault provider merged).toOption ∧
      ∀ source, encodeVault provider merged = .error source →
        (cmdMergeDriver provider paths disk base (clones.file i) (clones.file j)).exit =
          .error (.core source) := by
  obtain ⟨oursVault, hours, hoursCarries⟩ := hi.file
  obtain ⟨theirsVault, htheirs, htheirsCarries⟩ := hj.file
  have hoursRoots : rootRecords provider.toCryptoProvider oursVault.records =
      rootRecords provider.toCryptoProvider initial.records := hoursCarries.rootRecords hi.received
  have htheirsRoots : rootRecords provider.toCryptoProvider theirsVault.records =
      rootRecords provider.toCryptoProvider initial.records := htheirsCarries.rootRecords hj.received
  have hnonempty := (rootRecords_ne_empty provider.toCryptoProvider).mpr hroots
  obtain ⟨found, hfound, hagrees, hwithin⟩ : ∃ found, decodeAncestor provider base = some found ∧
      BaseAgrees provider.toCryptoProvider
        (rootRecords provider.toCryptoProvider oursVault.records) found ∧
      ∀ signed ∈ baseRecords found, signed ∈ initial.records ∨ signed ∈ clones.received i := by
    rcases hbase.precedes hi hj with rfl | ⟨vault, hdecode, hvaultRoots, hmem⟩
    · exact ⟨none, rfl, Or.inl rfl, by simp [baseRecords]⟩
    · refine ⟨some vault, decodeAncestor_eq_some.mpr (Or.inr ⟨?_, vault, hdecode, rfl⟩), Or.inr ?_,
        fun signed hsigned => (hmem signed hsigned).imp_right And.left⟩
      · rintro rfl
        exact decodeVault_nil _ hdecode
      · exact hvaultRoots.trans hoursRoots.symm
  rcases mergeVaults_cases provider.toCryptoProvider found oursVault theirsVault with
    ⟨hempty, -⟩ | ⟨-, hdiffer, -⟩ | ⟨-, hmerge⟩
  · rw [hoursRoots, htheirsRoots, or_self] at hempty
    exact absurd hempty hnonempty
  · rcases hdiffer with hdiffer | hdiffer
    · exact absurd (hoursRoots.trans htheirsRoots.symm) hdiffer
    · exact absurd hagrees hdiffer
  · refine ⟨_, fun signed => ?_, nodup_of_mergeVaults hmerge,
      cmdMergeDriver_of_merged hfound hours htheirs hmerge⟩
    rw [mem_of_mergeVaults hmerge, hoursCarries, htheirsCarries, Set.mem_union]
    have := hwithin signed
    tauto

end Versions

/-! ### Runs -/

variable {provider} {clones clones' start : Clones ι} {initial vault : VaultStore} {i j k : ι}
  {bytes base : Bytes}

omit [DecidableEq ι] in
lemma Clones.StartsWith.soundAt (h : start.StartsWith provider initial) (i : ι) :
    start.SoundAt provider initial i := by
  apply soundAt_of_encodeVault rfl (h.file i) h.nodup
  · simp [VaultStore.Carries, h.received i]
  · simp [h.received i]
  · simp [h.history i]

/-- A clone that goes on leaves the others as they are. -/
lemma soundAt_advance {file : Bytes} {history : Set Bytes} {received : Set VaultRecordV1}
    (h : ∀ i, clones.SoundAt provider initial i)
    (hnew : (clones.advance i file history received).SoundAt provider initial i) (k : ι) :
    (clones.advance i file history received).SoundAt provider initial k := by
  by_cases hk : k = i
  · subst hk
    exact hnew
  · obtain ⟨hfile, hwritten, hhistory, hreceived⟩ := h k
    constructor <;> simpa [Clones.advance, hk]

/-- A step keeps every clone sound. -/
lemma CloneStep.soundAt (hroots : ∃ signed ∈ initial.records, signed.isRoot)
    (h : ∀ i, clones.SoundAt provider initial i) (hstep : CloneStep provider clones clones') (k : ι) :
    clones'.SoundAt provider initial k := by
  cases hstep with
  | change i vault signed bytes hroot hvault hbytes =>
    obtain ⟨vault', hvault', hcarries⟩ := (h i).file
    obtain rfl := Except.ok.inj (hvault.symm.trans hvault')
    refine soundAt_advance h (soundAt_of_encodeVault (by simp [Clones.advance]) hbytes
      (nodup_appendRecord (nodup_of_decodeVault hvault)) ?_ ?_ ?_) k
    · intro other
      simp only [VaultStore.mem_appendRecord, hcarries other, Clones.advance, Function.update_self,
        Set.mem_insert_iff]
      tauto
    · simpa [Clones.advance, hroot] using (h i).received
    · simp only [Clones.advance, Function.update_self, Set.mem_insert_iff]
      exact fun version hversion => hversion.imp_right fun hold =>
        ((h i).history version hold).mono (Set.subset_insert _ _)
  | merge i j paths disk base bytes hbase hwritten =>
    obtain ⟨merged, hcarries, hnodup, hmerged, -⟩ :=
      merges_of_soundAt hroots (h i) (h j) hbase paths disk
    have hencode : encodeVault provider merged = .ok bytes := by
      rw [hwritten] at hmerged
      cases hmergedBytes : encodeVault provider merged with
      | error source => simp [hmergedBytes, Except.toOption] at hmerged
      | ok mergedBytes => simpa [hmergedBytes, Except.toOption, eq_comm] using hmerged
    refine soundAt_advance h (soundAt_of_encodeVault (by simp [Clones.advance]) hencode hnodup ?_ ?_
      ?_) k
    · simpa [Clones.advance] using hcarries
    · simp only [Clones.advance, Function.update_self, Set.mem_union]
      rintro signed (hsigned | hsigned)
      · exact (h i).received signed hsigned
      · exact (h j).received signed hsigned
    · simp only [Clones.advance, Function.update_self, Set.mem_insert_iff, Set.mem_union]
      rintro version (rfl | hold | hold)
      · exact Or.inl rfl
      · exact Or.inr (((h i).history version hold).mono Set.subset_union_left)
      · exact Or.inr (((h j).history version hold).mono Set.subset_union_right)
  | forward i j hbehind =>
    refine soundAt_advance h ⟨?_, ?_, ?_, ?_⟩ k
    · simpa [Clones.advance] using (h j).file
    · simpa [Clones.advance] using (h j).written
    · simp only [Clones.advance, Function.update_self, Set.mem_insert_iff]
      rintro version (rfl | hold)
      · obtain ⟨vault, hvault, hcarries⟩ := (h j).file
        exact ⟨vault, hvault, hcarries.rootRecords (h j).received, fun signed => (hcarries signed).mp⟩
      · exact (h j).history version hold
    · simpa [Clones.advance] using (h j).received

lemma CloneRun.soundAt (hroots : ∃ signed ∈ initial.records, signed.isRoot)
    (hstart : start.StartsWith provider initial) (hrun : CloneRun provider start clones) (i : ι) :
    clones.SoundAt provider initial i := by
  induction hrun generalizing i with
  | refl => exact hstart.soundAt i
  | tail _ hstep ih => exact hstep.soundAt hroots ih i

/-- In every run of the clones of a repository that add no further root, each file holds the first
vault and exactly the records its branch has received. A merge of two branches is never refused: its
union is written, unless it is too large for a vault file. Clones that have received the same
records, whose hashes do not collide, show everyone the same vault, and have the same file where the
serializer is canonical. -/
theorem clones_converge (hroots : ∃ signed ∈ initial.records, signed.isRoot)
    (hstart : start.StartsWith provider initial) (hrun : CloneRun provider start clones) :
    (∀ i, ∃ vault, decodeVault provider (clones.file i) = .ok vault ∧
      initial.Carries vault (clones.received i)) ∧
    (∀ i j base paths disk, MergeBase provider clones i j base →
      (cmdMergeDriver provider paths disk base (clones.file i) (clones.file j)).written = none →
      ∃ source, (cmdMergeDriver provider paths disk base (clones.file i) (clones.file j)).exit =
        .error (.core source)) ∧
    ∀ i j, clones.received i = clones.received j →
      (CanonicalSets provider → clones.file i = clones.file j) ∧
      ∀ vault vault', decodeVault provider (clones.file i) = .ok vault →
        decodeVault provider (clones.file j) = .ok vault' →
        CollisionFree provider.toCryptoProvider vault.records → ∀ ratchet,
          JudgedAlike (validateVault provider.toCryptoProvider vault ratchet)
              (validateVault provider.toCryptoProvider vault' ratchet) ∧
            ∀ sealing identity selector,
              getSecretFrom provider sealing (validateVault provider.toCryptoProvider vault ratchet)
                  identity selector =
                getSecretFrom provider sealing
                  (validateVault provider.toCryptoProvider vault' ratchet) identity selector := by
  have hsound := CloneRun.soundAt hroots hstart hrun
  refine ⟨fun i => (hsound i).file, ?_, ?_⟩
  · intro i j base paths disk hbase hnone
    obtain ⟨merged, -, -, hwritten, herror⟩ :=
      merges_of_soundAt hroots (hsound i) (hsound j) hbase paths disk
    cases hencode : encodeVault provider merged with
    | error source => exact ⟨source, herror source hencode⟩
    | ok bytes => simp [hnone, hencode, Except.toOption] at hwritten
  · intro i j hsame
    refine ⟨fun hcanonical => ?_, fun vault vault' hvault hvault' hcf ratchet => ?_⟩
    · obtain ⟨vault, hvault, hnodup⟩ := (hsound i).written
      obtain ⟨vault', hvault', hnodup'⟩ := (hsound j).written
      have hrecords : SameRecords vault vault' := fun signed => by
        rw [(hsound i).carries_of_encodeVault hvault signed,
          (hsound j).carries_of_encodeVault hvault' signed, hsame]
      have hbytes := encodeVault_congr hcanonical hnodup hnodup' hrecords
      rw [hvault, hvault'] at hbytes
      exact Except.ok.inj hbytes
    · have hrecords : ∀ signed, signed ∈ vault.records ↔ signed ∈ vault'.records := fun signed => by
        rw [(hsound i).carries_of_decodeVault hvault signed,
          (hsound j).carries_of_decodeVault hvault' signed, hsame]
      refine ⟨judgedAlike_of_mem hcf hrecords ratchet, fun sealing identity selector => ?_⟩
      exact (sameReading_of_mem hcf hrecords ratchet).getSecretFrom_eq identity selector

end Clones

/-! ### Two clones -/

section Example

open TestSupport

def clonedAncestor : Clones Bool where
  file _ := vaultFile 0
  history _ := {vaultFile 0}
  received _ := ∅

/-- One clone writes a secret and the other deletes it; then the first merges the second, which
catches up. -/
def exchanged : Clones Bool :=
  let written := clonedAncestor.advance false (vaultFile 1) (clonedAncestor.history false)
    (insert (secretRecord rootUser [rootUser] 1) (clonedAncestor.received false))
  let deleted := written.advance true (vaultFile 2) (written.history true)
    (insert (secretDeletedRecord rootUser 2) (written.received true))
  let merged := deleted.advance false (vaultFile 3) (deleted.history false ∪ deleted.history true)
    (deleted.received false ∪ deleted.received true)
  merged.advance true (merged.file false) (merged.history false) (merged.received false)

theorem clones_converge_exchanged :
    CloneRun branchProvider clonedAncestor exchanged ∧ exchanged.file true = exchanged.file false ∧
      ∃ vault, decodeVault branchProvider (exchanged.file true) = .ok vault ∧
        ancestorVault.Carries vault
          ({secretRecord rootUser [rootUser] 1} ∪ {secretDeletedRecord rootUser 2}) := by
  have hfile : encodeVault branchProvider ancestorVault = .ok (vaultFile 0) := by decide
  have hstart : clonedAncestor.StartsWith branchProvider ancestorVault :=
    ⟨by decide, fun _ => hfile, fun _ => rfl, fun _ => rfl⟩
  have hrun : CloneRun branchProvider clonedAncestor exchanged := by
    refine .tail (.tail (.tail (.tail .refl
      (.change false ancestorVault (secretRecord rootUser [rootUser] 1) (vaultFile 1) ?_ ?_ ?_))
      (.change true ancestorVault (secretDeletedRecord rootUser 2) (vaultFile 2) ?_ ?_ ?_))
      (.merge false true testPaths (testDisk none none none) (vaultFile 0) (vaultFile 3)
        (.common _ ?_ ?_) ?_))
      (.forward true false ?_)
    case refine_7 | refine_8 | refine_10 => simp [Clones.advance, clonedAncestor]
    all_goals decide +kernel
  have hconverge := clones_converge (by decide) hstart hrun
  have hreceived : exchanged.received true = exchanged.received false := by
    simp [exchanged, Clones.advance]
  obtain ⟨vault, hvault, hcarries⟩ := hconverge.1 true
  refine ⟨hrun, (hconverge.2.2 true false hreceived).1 canonicalSets_branchProvider, vault, hvault, ?_⟩
  have hrecords : exchanged.received true =
      {secretRecord rootUser [rootUser] 1} ∪ {secretDeletedRecord rootUser 2} := by
    simp [exchanged, Clones.advance, clonedAncestor]
  exact hrecords ▸ hcarries

end Example

end Thorax
