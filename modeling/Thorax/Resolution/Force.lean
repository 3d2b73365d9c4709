import Thorax.Resolution.Counters
import Thorax.Resolution.Served

/-!
# Force

Why a record is in force: its signer holds the authority that its kind requires, and the principals
it names are there. Both are judged once the regressed keys are inert, whereas counters are admitted
before that.
-/

namespace Thorax

open Collections

/-- The authority that the kind of a record requires of its signer. Principals are judged under
one set of authorities, handles and secrets under another; gated deletions are admitted one by
one, and an entry point speaks for its signer alone. -/
def holdsAuthority (selecting authorities : Authorities) (admittedDeletions : BTreeSet HashValue)
    (record : VerifiedRecord) : Bool :=
  match record.body with
  | .vaultRoot _ | .entryPoint _ => true
  | .userDeleted _ | .groupDeleted _ | .grantDeleted _ =>
    admittedDeletions.contains record.recordHash
  | .user _ | .group _ | .groupMember _ | .groupMemberDeleted _ =>
    (signerAuth selecting record.signer).administer
  | .grant grant => (signerAuth selecting record.signer).canCreatePermission grant.permission
  | .userHandle _ | .vaultHandle _ => (signerAuth authorities record.signer).administer
  | .secret secret => (signerAuth authorities record.signer).canWrite secret.selector
  | .secretDeleted secret => (signerAuth authorities record.signer).canWrite secret.selector

/-- A record names a principal that the view does not have, or the root, whose key no record
takes. -/
def View.dangles (view : View) (record : VerifiedRecord) : Bool :=
  match record.body with
  | .vaultRoot _ => true
  | .entryPoint _ => !view.users.contains record.signer
  | .user user => decide (user.id = view.rootUser)
  | .userDeleted deleted => decide (deleted.id = view.rootUser)
  | .groupMember member =>
    !(view.groups.contains member.groupId && principalExists member.memberId view.users view.groups)
  | .grant grant => !principalExists grant.subjectId view.users view.groups
  | .userHandle handle => !view.users.contains handle.userId
  | .group _ | .groupDeleted _ | .groupMemberDeleted _ | .grantDeleted _ | .vaultHandle _
  | .secret _ | .secretDeleted _ => false

/-- What competes is authorised and names nobody who is absent. -/
lemma View.competes_iff {view : View} {record : VerifiedRecord} :
    view.competes record = true ↔
      holdsAuthority view.selecting view.authorities view.admitted record = true ∧
        view.dangles record = false := by
  unfold View.competes holdsAuthority View.dangles
  cases record.body <;> simp [and_comm, and_assoc, and_left_comm]

/-! ### Where counters are admitted -/

section Provisional

variable (crypto : CryptoProvider) (root : SelectedRoot) (records : List VerifiedRecord)

/-- The signer holds what the record requires in the view that admits counters. -/
def AuthorizedIn (record : VerifiedRecord) : Prop :=
  holdsAuthority (provisional crypto root records).1.authorities
    (provisional crypto root records).1.authorities (provisional crypto root records).2 record = true

/-- A user a record introduces has signed an entry point. -/
def Vouched (record : VerifiedRecord) : Prop :=
  ∀ user, record.body = .user user → user.id ∈ entryPointSigners records

variable {crypto root records} {record : VerifiedRecord} {key : RecordKey}

/-- A record counts if its signer holds what it requires; a user has to be vouched for too. -/
lemma counts_iff : Counts crypto root records key record ↔
    record ∈ records ∧ record.key = key ∧ record.body.lwwCounter.isSome ∧
      AuthorizedIn crypto root records record ∧ Vouched records record := by
  unfold Counts CountsAt
  refine and_congr_right fun hmem => and_congr_right fun _ => and_congr_right fun _ => ?_
  unfold recordAdmitted AuthorizedIn holdsAuthority Vouched
  cases hb : record.body with
  | entryPoint entryPoint =>
    simpa using mem_entryPointSigners.mpr ⟨record, hmem, rfl, entryPoint, hb⟩
  | user user => simp [EffectiveState.authorityForUser, signerAuth]
  | _ => simp [EffectiveState.authorityForUser, signerAuth]

end Provisional

/-! ### Once the regressed keys are inert -/

section Final

variable (crypto : CryptoProvider) (ratchet : Ratchet) (root : SelectedRoot)
variable (records : List VerifiedRecord)

/-- The signer of a record lacks what its kind requires once the regressed keys are inert. -/
def TurnsInert (record : VerifiedRecord) : Prop :=
  holdsAuthority (finalView crypto ratchet root records).selecting
    (finalView crypto ratchet root records).authorities
    (finalView crypto ratchet root records).admitted record = false

/-- A record names somebody who is absent once the regressed keys are inert. -/
def Dangles (record : VerifiedRecord) : Prop :=
  (finalView crypto ratchet root records).dangles record = true

/-- A record is in force once the regressed keys are inert. -/
def InForce (record : VerifiedRecord) : Prop :=
  record ∈ records ∧ ¬ TurnsInert crypto ratchet root records record ∧
    ¬ Dangles crypto ratchet root records record

/-- Another record in force at the key lies above the record, or beside it with another body. -/
def Contested (record : VerifiedRecord) : Prop :=
  ∃ other, InForce crypto ratchet root records other ∧ other.key = record.key ∧
    (record.counter < other.counter ∨ other.counter = record.counter ∧ other.body ≠ record.body)

variable {crypto ratchet root records} {record : VerifiedRecord} {key : RecordKey}

lemma inForce_iff : InForce crypto ratchet root records record ↔
    record ∈ records ∧ (finalView crypto ratchet root records).competes record = true := by
  simp [InForce, TurnsInert, Dangles, View.competes_iff]

lemma mem_pool_iff_inForce (hkey : key ∉ rollbackKeys crypto ratchet root records) :
    record ∈ (finalView crypto ratchet root records).pool records
        (rollbackKeys crypto ratchet root records) key ↔
      InForce crypto ratchet root records record ∧ record.key = key := by
  rw [View.mem_pool, inForce_iff]
  constructor
  · rintro ⟨hmem, -, hcompetes, rfl⟩
    exact ⟨⟨hmem, hcompetes⟩, rfl⟩
  · rintro ⟨⟨hmem, hcompetes⟩, rfl⟩
    exact ⟨hmem, hkey, hcompetes, rfl⟩

/-- The competition at a key settles on the body of a record in force exactly if it is not
contested. -/
lemma winner_of_not_contested (hkey : record.key ∉ rollbackKeys crypto ratchet root records)
    (hforce : InForce crypto ratchet root records record)
    (huncontested : ¬ Contested crypto ratchet root records record) :
    ∃ w, (finalView crypto ratchet root records).winner records
        (rollbackKeys crypto ratchet root records) record.key = some w ∧
      w.body = record.body ∧ w.counter = record.counter := by
  have hrest : ∀ other ∈ (finalView crypto ratchet root records).pool records
      (rollbackKeys crypto ratchet root records) record.key, other.counter ≤ record.counter ∧
        (other.counter = record.counter → other.body = record.body) := by
    intro other hother
    obtain ⟨hotherForce, hat⟩ := (mem_pool_iff_inForce hkey).mp hother
    refine ⟨?_, fun hcounter => ?_⟩
    · by_contra hlt
      exact huncontested ⟨other, hotherForce, hat, Or.inl (not_le.mp hlt)⟩
    · by_contra hbody
      exact huncontested ⟨other, hotherForce, hat, Or.inr ⟨hcounter, hbody⟩⟩
  have hpool := (mem_pool_iff_inForce hkey).mpr ⟨hforce, rfl⟩
  have hleads : record ∈ (finalView crypto ratchet root records).leaders records
      (rollbackKeys crypto ratchet root records) record.key :=
    View.mem_leaders.mpr ⟨hpool, fun other hother => (hrest other hother).1⟩
  cases hw : (finalView crypto ratchet root records).winner records
      (rollbackKeys crypto ratchet root records) record.key with
  | none =>
    rcases View.winner_eq_none.mp hw with hnil | htied
    · simp [hnil] at hpool
    · obtain ⟨a, ha, b, hb, hne⟩ := View.tied_eq_true.mp htied
      have hsame : ∀ other ∈ (finalView crypto ratchet root records).leaders records
          (rollbackKeys crypto ratchet root records) record.key, other.body = record.body :=
        fun other hother => (hrest other (View.mem_leaders.mp hother).1).2
          (Lww.counter_eq_of_mem_leaders _ hother hleads)
      exact absurd ((hsame a ha).trans (hsame b hb).symm) hne
  | some w =>
    obtain ⟨hwleads, hbodies⟩ := View.winner_eq_some hw
    exact ⟨w, rfl, (hbodies record hleads).symm, Lww.counter_eq_of_mem_leaders _ hwleads hleads⟩

/-- What a key settles on is in force and not contested. -/
lemma not_contested_of_winner {w : VerifiedRecord}
    (hkey : key ∉ rollbackKeys crypto ratchet root records)
    (hw : (finalView crypto ratchet root records).winner records
      (rollbackKeys crypto ratchet root records) key = some w) :
    InForce crypto ratchet root records w ∧ w.key = key ∧
      ¬ Contested crypto ratchet root records w := by
  obtain ⟨hleads, hbodies⟩ := View.winner_eq_some hw
  obtain ⟨hforce, rfl⟩ := (mem_pool_iff_inForce hkey).mp (View.mem_leaders.mp hleads).1
  refine ⟨hforce, rfl, ?_⟩
  rintro ⟨other, hother, hat, habove⟩
  have hpool := (mem_pool_iff_inForce hkey).mpr ⟨hother, hat⟩
  have hle := View.counter_le_winner hw hpool
  rcases habove with hlt | ⟨hcounter, hbody⟩
  · omega
  · refine hbody (hbodies other (View.mem_leaders.mpr ⟨hpool, fun rival hrival => ?_⟩))
    exact (View.counter_le_winner hw hrival).trans_eq hcounter.symm

end Final

end Thorax
