import Thorax.Ops.Trust

/-!
# A run of the merge driver

What git calls for a vault that two branches have changed: the driver is given the vault of a
common ancestor and those of the two sides, leaves a vault in the place of ours, and tells git by
its exit whether the path is settled.
-/

namespace Thorax

open Collections

inductive ExitCode where
  | success
  | failure
  deriving DecidableEq

/-- What a run has written in the place of ours, if anything, and how it ends. -/
structure MergeRun where
  written : Option Bytes
  exit : Except OpsError ExitCode

section MergeRuns

variable (provider : StoreProvider)

/-- An empty ancestor is that of branches without a common base, not a broken vault. -/
def decodeAncestor (bytes : Bytes) : Option (Option VaultStore) :=
  if bytes = [] then some none else (decodeVault provider bytes).toOption.map some

/-- The union of the sides is written whether or not it validates; the exit is the validator's
answer under what this machine remembers. -/
def cmdMergeDriver (paths : WorkspacePaths) (disk : Disk) (ancestor ours theirs : Bytes) :
    MergeRun :=
  match decodeAncestor provider ancestor, decodeVault provider ours, decodeVault provider theirs with
  | some base, .ok oursVault, .ok theirsVault =>
    match mergeVaults provider.toCryptoProvider base oursVault theirsVault with
    | .refused _ => ⟨none, .ok .failure⟩
    | .merged merged =>
      match encodeVault provider merged with
      | .error source => ⟨none, .error (.core source)⟩
      | .ok mergedBytes =>
        ⟨some mergedBytes, (checkMergedVault provider paths merged disk).map fun check =>
          if check.conflicts.isEmpty && check.issues.isEmpty then .success else .failure⟩
  | _, _, _ => ⟨none, .ok .failure⟩

/-! ### What a run does -/

variable {provider} {paths : WorkspacePaths} {disk : Disk} {ancestor ours theirs bytes : Bytes}

/-- What is written is the union of the three sides. -/
lemma cmdMergeDriver_written
    (h : (cmdMergeDriver provider paths disk ancestor ours theirs).written = some bytes) :
    ∃ base oursVault theirsVault merged, decodeAncestor provider ancestor = some base ∧
      decodeVault provider ours = .ok oursVault ∧ decodeVault provider theirs = .ok theirsVault ∧
      mergeVaults provider.toCryptoProvider base oursVault theirsVault = .merged merged ∧
      encodeVault provider merged = .ok bytes := by
  unfold cmdMergeDriver at h
  split at h
  · next base oursVault theirsVault hbase hours htheirs =>
    cases hmerge : mergeVaults provider.toCryptoProvider base oursVault theirsVault with
    | refused refusal => simp [hmerge] at h
    | merged merged =>
      cases hencode : encodeVault provider merged with
      | error source => simp [hmerge, hencode] at h
      | ok mergedBytes =>
        obtain rfl : mergedBytes = bytes := by simpa [hmerge, hencode] using h
        exact ⟨base, oursVault, theirsVault, merged, hbase, hours, htheirs, hmerge, hencode⟩
  · simp at h

/-- A run over sides that merge writes the union, unless it is too large for a vault file. -/
lemma cmdMergeDriver_of_merged {base : Option VaultStore} {oursVault theirsVault merged : VaultStore}
    (hbase : decodeAncestor provider ancestor = some base)
    (hours : decodeVault provider ours = .ok oursVault)
    (htheirs : decodeVault provider theirs = .ok theirsVault)
    (hmerge : mergeVaults provider.toCryptoProvider base oursVault theirsVault = .merged merged) :
    (cmdMergeDriver provider paths disk ancestor ours theirs).written =
        (encodeVault provider merged).toOption ∧
      ∀ source, encodeVault provider merged = .error source →
        (cmdMergeDriver provider paths disk ancestor ours theirs).exit = .error (.core source) := by
  simp only [cmdMergeDriver, hbase, hours, htheirs, hmerge]
  cases encodeVault provider merged with
  | error source => simp [Except.toOption]
  | ok mergedBytes => simp [Except.toOption]

lemma decodeAncestor_eq_some {base : Option VaultStore} :
    decodeAncestor provider ancestor = some base ↔
      (ancestor = [] ∧ base = none) ∨
        ancestor ≠ [] ∧ ∃ vault, decodeVault provider ancestor = .ok vault ∧ base = some vault := by
  unfold decodeAncestor
  split_ifs with hempty
  · simp [hempty, eq_comm]
  · cases decodeVault provider ancestor with
    | error source => simp [Except.toOption, hempty]
    | ok vault => simp [Except.toOption, hempty, eq_comm]

end MergeRuns

end Thorax
