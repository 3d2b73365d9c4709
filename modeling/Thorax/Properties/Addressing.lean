import Thorax.Ops.Grounding
import Thorax.Properties.Injections
import Thorax.Properties.SecretIndex
import Thorax.TestSupport

/-!
# Secrets that can be addressed

Validation asks of the selector of a secret that its labels ascend, and the grammar asks for more. A
writer can sign a secret that no text names.
-/

namespace Thorax

open Collections Durable

section Addressing

variable {crypto : CryptoProvider} {vault : VaultStore} {ratchet : Ratchet}
variable {active : ActiveSecretV1}

/-- The labels of a live secret ascend. -/
lemma validateSecretSelector_of_live
    (h : active ∈ (validateVault crypto vault ratchet).effective.secretRecords) :
    validateSecretSelector active.value.selector = .ok () := by
  cases hresolved : resolvedRecords crypto vault ratchet with
  | none =>
    rw [(validateVault_of_unresolved hresolved).1] at h
    obtain ⟨_, latest, hlatest, -, -⟩ := mem_secretRecords.mp h
    simp [EffectiveState.unresolved, EffectiveState.latestAuthorizedSecretRecord] at hlatest
  | some resolved =>
    obtain ⟨root, records⟩ := resolved
    rw [(validateVault_of_resolved hresolved).1] at h
    obtain ⟨_, latest, hlatest, -, hactive⟩ := mem_secretRecords.mp h
    obtain ⟨hmem, -⟩ := EffectiveState.latestAuthorizedSecretRecord_eq_some
      (resolveRecords_indexed crypto ratchet root records) hlatest
    obtain ⟨-, -, rfl⟩ := resolvedRecords_eq_some.mp hresolved
    obtain ⟨hbody, -⟩ := activeSecret_eq_some.mp hactive
    have hstructure := structurallyValidateBody_of_record (structure_of_verified hmem)
    rw [hbody] at hstructure
    obtain ⟨_, hselector, -⟩ := bind_eq_ok.mp hstructure
    exact hselector

end Addressing

/-- A live secret of a validated vault is named by what is printed for it, and gets a valid variable
name, exactly if its tuple is not empty and no segment and no label key or value is. -/
theorem live_addressable_iff {crypto : CryptoProvider} {vault : VaultStore} {ratchet : Ratchet}
    {active : ActiveSecretV1}
    (h : active ∈ (validateVault crypto vault ratchet).effective.secretRecords) :
    (parseSecretSelector (selectorString active.value.selector) = .ok active.value.selector ∧
      validateEnvName (deriveEnvName active.value.selector) = .ok ()) ↔
    active.value.selector.tuple ≠ [] ∧ (∀ segment ∈ active.value.selector.tuple, segment ≠ "") ∧
      ∀ label ∈ active.value.selector.labels, label.key ≠ "" ∧ label.value ≠ "" := by
  have hsorted := validateSecretSelector_iff.mp (validateSecretSelector_of_live h)
  rw [parse_selectorString_iff, validateEnvName_deriveEnvName]
  constructor
  · rintro ⟨hspellable, -⟩
    exact ⟨hspellable.named, hspellable.segments, hspellable.labels⟩
  · rintro ⟨hnamed, hsegments, hlabels⟩
    refine ⟨⟨hnamed, hsegments, hlabels, hsorted⟩, hnamed, fun htuple => ?_⟩
    exact hsegments "" (by simp [htuple]) rfl

open TestSupport

/-- A vault in which the root has signed a secret. -/
def signedSecret (selector : SecretSelectorV1) : VaultStore :=
  .v1 ⟨[vaultRootRecord, signedRecord rootUser (.secret
    ⟨deriveSecretId transparentCrypto selector, selector, ⟨[], [], []⟩, 0⟩)]⟩

lemma exists_signedSecret {selector : SecretSelectorV1}
    (h : ((validateVault transparentCrypto (signedSecret selector) freshRatchet).effective.secretRecords.map
      (·.value.selector)) = [selector]) :
    ∃ active ∈ (validateVault transparentCrypto (signedSecret selector)
      freshRatchet).effective.secretRecords, active.value.selector = selector := by
  have hmem : selector ∈ (validateVault transparentCrypto (signedSecret selector)
      freshRatchet).effective.secretRecords.map (·.value.selector) := by
    rw [h]
    exact List.mem_singleton_self _
  exact List.mem_map.mp hmem

theorem live_addressable_iff_app : ∃ active ∈ (validateVault transparentCrypto
    (signedSecret ⟨["app"], []⟩) freshRatchet).effective.secretRecords,
      parseSecretSelector (selectorString active.value.selector) = .ok active.value.selector := by
  obtain ⟨active, hactive, hselector⟩ :=
    @exists_signedSecret ⟨["app"], []⟩ rfl
  exact ⟨active, hactive, ((live_addressable_iff hactive).mpr (by rw [hselector]; decide)).1⟩

/-- The selector with the empty tuple is printed as the empty text. -/
theorem not_live_addressable : ¬ ∀ crypto vault ratchet,
    ∀ active ∈ (validateVault crypto vault ratchet).effective.secretRecords,
      parseSecretSelector (selectorString active.value.selector) = .ok active.value.selector := by
  intro h
  obtain ⟨active, hactive, hselector⟩ :=
    @exists_signedSecret ⟨[], []⟩ rfl
  have hread := h transparentCrypto _ _ active hactive
  rw [hselector] at hread
  exact absurd hread (by decide)

end Thorax
