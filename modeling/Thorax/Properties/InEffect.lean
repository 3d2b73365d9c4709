import Thorax.Properties.Soundness

/-!
# Objects in effect

An object is in effect with the body that won its key, whatever kind of object it is.
-/

namespace Thorax

open Collections
open Std (ExtTreeMap ExtTreeSet)

/-- The bodies of objects: those whose key does not depend on who signed them. -/
def RecordBodyV1.isObject : RecordBodyV1 → Bool
  | .vaultRoot _ | .entryPoint _ => false
  | _ => true

/-- The object of a record is in effect with just this value. -/
def EffectiveState.InEffect (state : EffectiveState) (body : RecordBodyV1) : Prop :=
  match body with
  | .user r => state.users[r.id]? = some r
  | .userHandle r => state.handles[r.id]? = some r
  | .vaultHandle r => state.vaultHandles[r.id]? = some r
  | .group r => state.groups[r.id]? = some r
  | .groupMember r => state.memberships[r.id]? = some r
  | .grant r => state.grants[r.id]? = some r
  | .secret r => ∃ active ∈ state.secretRecords, active.value = r
  | _ => False

section InEffect

variable {crypto : CryptoProvider} {ratchet : Ratchet} {root : SelectedRoot}
variable {records : List VerifiedRecord} {body : RecordBodyV1}

/-- A value that is read off a winner's body determines that body. -/
lemma bind_winner_iff {V : Type} {winner : Option VerifiedRecord}
    {value? : RecordBodyV1 → Option V} {value : V} {body : RecordBodyV1}
    (hbody : ∀ b, value? b = some value ↔ b = body) :
    (winner.bind fun w => value? w.body) = some value ↔ ∃ w, winner = some w ∧ w.body = body := by
  rw [Option.bind_eq_some_iff]
  exact exists_congr fun w => and_congr_right fun _ => hbody w.body

lemma mem_secretRecords_iff_winner {r : SecretRecordV1}
    (hconf : RecordKey.secret r.id ∉ (resolveRecords crypto ratchet root records).conflicted) :
    (∃ active ∈ (resolveRecords crypto ratchet root records).secretRecords, active.value = r) ↔
      ∃ w, finalWinner crypto ratchet root records (.secret r.id) = some w ∧
        w.body = .secret r := by
  rw [finalWinner, ← latest_iff_winner hconf]
  constructor
  · rintro ⟨active, hactive, rfl⟩
    obtain ⟨secret, latest, hlatest, _, hact⟩ := mem_secretRecords.mp hactive
    have hbody : latest.body = .secret active.value := by
      unfold EffectiveState.activeSecret at hact
      split at hact
      next value hb =>
        obtain rfl := Option.some.inj hact
        exact hb
      next => cases hact
    have hkey := (EffectiveState.latestAuthorizedSecretRecord_eq_some
      (resolveRecords_indexed crypto ratchet root records) hlatest).2.1
    simp only [secretIndexKey, hbody, secretRecordIdentity, Option.ite_none_right_eq_some,
      Option.some.injEq] at hkey
    exact ⟨latest, hkey.2 ▸ hlatest, hbody⟩
  · rintro ⟨latest, hlatest, hbody⟩
    refine ⟨⟨latest.signed, r⟩, mem_secretRecords.mpr ⟨r.id, latest, hlatest, ?_, ?_⟩, rfl⟩
    · simpa [VerifiedRecord.key, hbody, recordKeyFor] using hconf
    · simp [EffectiveState.activeSecret, hbody]

/-- At a key that is not in conflict, the value in effect is the body that won; a user has to be
vouched for as well. -/
lemma EffectiveState.inEffect_iff {signer : UserId} (hobject : body.isObject = true)
    (hlive : body.isDeletion = false)
    (hconf : recordKeyFor body signer ∉ (resolveRecords crypto ratchet root records).conflicted)
    (hroot : recordKeyFor body signer ≠ .user root.root.id) :
    (resolveRecords crypto ratchet root records).InEffect body ↔
      (∃ w, finalWinner crypto ratchet root records (recordKeyFor body signer) = some w ∧
        w.body = body) ∧
        ∀ r, body = .user r →
          r.id ∈ entryPointUsers records (rollbackKeys crypto ratchet root records) := by
  cases body with
  | user r =>
    have hne : r.id ≠ root.root.id := fun heq => hroot (congrArg RecordKey.user heq)
    have hget : (resolveRecords crypto ratchet root records).users[r.id]? =
        (finalWinner crypto ratchet root records (.user r.id)).bind fun w => w.body.user?.filter
          fun _ => (entryPointUsers records (rollbackKeys crypto ratchet root records)).contains
            r.id := (getElem?_effective_users crypto root records _ _ r.id).trans (if_neg hne)
    rw [InEffect, hget, Option.bind_eq_some_iff]
    simp only [Option.filter_eq_some_iff, ExtTreeSet.contains_iff_mem, recordKeyFor]
    constructor
    · rintro ⟨w, hw, hbody, hvouched⟩
      refine ⟨⟨w, hw, ?_⟩, fun r' hr' => RecordBodyV1.user.inj hr' ▸ hvouched⟩
      cases hb : w.body <;> simp_all [RecordBodyV1.user?]
    · rintro ⟨⟨w, hw, hbody⟩, hvouched⟩
      exact ⟨w, hw, by rw [hbody]; rfl, hvouched r rfl⟩
  | userHandle r =>
    rw [and_iff_left fun r' hr' => by cases hr']
    have hget : (resolveRecords crypto ratchet root records).handles[r.id]? =
        (finalWinner crypto ratchet root records (.userHandle r.id)).bind (·.body.userHandle?) :=
      getElem?_effective_handles crypto root records _ _ r.id
    rw [InEffect, hget]
    exact bind_winner_iff fun b => by cases b <;> simp [RecordBodyV1.userHandle?]
  | vaultHandle r =>
    rw [and_iff_left fun r' hr' => by cases hr']
    have hget : (resolveRecords crypto ratchet root records).vaultHandles[r.id]? =
        (finalWinner crypto ratchet root records (.vaultHandle r.id)).bind (·.body.vaultHandle?) :=
      getElem?_effective_vaultHandles crypto root records _ _ r.id
    rw [InEffect, hget]
    exact bind_winner_iff fun b => by cases b <;> simp [RecordBodyV1.vaultHandle?]
  | group r =>
    rw [and_iff_left fun r' hr' => by cases hr']
    have hget : (resolveRecords crypto ratchet root records).groups[r.id]? =
        (finalWinner crypto ratchet root records (.group r.id)).bind (·.body.group?) :=
      getElem?_effective_groups crypto root records _ _ r.id
    rw [InEffect, hget]
    exact bind_winner_iff fun b => by cases b <;> simp [RecordBodyV1.group?]
  | groupMember r =>
    rw [and_iff_left fun r' hr' => by cases hr']
    have hget : (resolveRecords crypto ratchet root records).memberships[r.id]? =
        (finalWinner crypto ratchet root records (.groupMember r.id)).bind (·.body.groupMember?) :=
      getElem?_effective_memberships crypto root records _ _ r.id
    rw [InEffect, hget]
    exact bind_winner_iff fun b => by cases b <;> simp [RecordBodyV1.groupMember?]
  | grant r =>
    rw [and_iff_left fun r' hr' => by cases hr']
    have hget : (resolveRecords crypto ratchet root records).grants[r.id]? =
        (finalWinner crypto ratchet root records (.grant r.id)).bind (·.body.grant?) :=
      getElem?_effective_grants crypto root records _ _ r.id
    rw [InEffect, hget]
    exact bind_winner_iff fun b => by cases b <;> simp [RecordBodyV1.grant?]
  | secret r => exact (mem_secretRecords_iff_winner hconf).trans (by simp [recordKeyFor])
  | vaultRoot r => cases hobject
  | entryPoint r => cases hobject
  | _ => cases hlive

end InEffect

end Thorax
