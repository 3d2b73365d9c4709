import Thorax.Errors
import Thorax.Validate.Pipeline

/-!
# Merging and committing

The three-way merge of record sets, and the counter that a commit stamps on the record it appends.
-/

namespace Thorax

open Collections

inductive MergeRefusal where
  | missingRoot
  | rootMismatch
  deriving DecidableEq

inductive MergeOutcome where
  | merged (vault : VaultStore)
  | refused (refusal : MergeRefusal)
  deriving DecidableEq

section Merge

variable (crypto : CryptoProvider)

/-- The canonical bytes of the root records. -/
def rootRecords (records : List VaultRecordV1) : BTreeSet Bytes :=
  collectSet (fun signed =>
    match signed.body with
    | .known (.vaultRoot _) => some (crypto.serialize (.record signed))
    | _ => none) records ∅

/-- The records of an optional ancestor. -/
def baseRecords (base : Option VaultStore) : List VaultRecordV1 :=
  (base.map VaultStore.records).getD []

/-- The union of the records on all sides, refused when the sides do not share their roots. -/
def mergeVaults (base : Option VaultStore) (ours theirs : VaultStore) : MergeOutcome :=
  let oursRoots := rootRecords crypto ours.records
  let theirsRoots := rootRecords crypto theirs.records
  if oursRoots.isEmpty || theirsRoots.isEmpty then .refused .missingRoot
  else if oursRoots ≠ theirsRoots then .refused .rootMismatch
  else if base.isSome && !(rootRecords crypto (baseRecords base)).isEmpty &&
      rootRecords crypto (baseRecords base) ≠ oursRoots then .refused .rootMismatch
  else .merged (.v1 ⟨(baseRecords base ++ ours.records ++ theirs.records).dedup⟩)

variable {crypto}

/-- A merge that is not refused is the union of its sides. -/
lemma mem_of_mergeVaults {base : Option VaultStore} {ours theirs merged : VaultStore}
    (h : mergeVaults crypto base ours theirs = .merged merged) (signed : VaultRecordV1) :
    signed ∈ merged.records ↔
      signed ∈ baseRecords base ∨ signed ∈ ours.records ∨ signed ∈ theirs.records := by
  simp only [mergeVaults] at h
  split_ifs at h
  obtain rfl := MergeOutcome.merged.inj h
  simp [VaultStore.records]

end Merge

/-! ### Commits -/

/-- The counter of the next commit: above everything admitted and above every remembered counter
that a rollback fell below. -/
def commitCounter (effective : EffectiveState) : Except OpsError ℕ :=
  let counter := max (nextCounter effective) effective.rollbackCounterFloor
  if maxLwwCounter < counter then .error .counterExhausted else .ok counter

end Thorax
