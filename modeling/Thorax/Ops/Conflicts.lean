import Thorax.Ops.Session

/-!
# Conflicts

What can be done about a key without an effective winner. Accepting a rollback is local to the
machine: it lowers the remembered counter of one key to what the session's report says the vault
shows, writes the ratchet, and looks only then whether the conflict is gone.
-/

namespace Thorax

open Collections Durable

/-- Lower what is remembered at a key. Where nothing survives, the key is forgotten with its
origin. -/
def Ratchet.acceptAt (self : Ratchet) (key : RecordKey) (acceptedCounter : ℕ) : Ratchet :=
  if acceptedCounter = 0 then
    { self with watermarks := self.watermarks.erase key, origins := self.origins.erase key }
  else { self with watermarks := self.watermarks.insert key acceptedCounter }

structure AcceptRollbackOutput where
  key : RecordKey
  rememberedCounter : ℕ
  acceptedCounter : ℕ
  deriving DecidableEq

/-- The rollback that a report shows at a key, with the remembered and the surviving counter. -/
def rollbackToAccept (report : ValidationReport) (key : RecordKey) : Except OpsError (ℕ × ℕ) :=
  match report.effective.conflicted[key]? with
  | none => .error (.conflictNotResolvable "no conflict exists at this key")
  | some conflict =>
    match conflict.kind with
    | .rollback remembered => .ok (remembered, conflict.counter)
    | .tie => .error (.conflictNotResolvable
        "only rollback conflicts can be accepted — a tie needs an explicit winner")

/-- The surviving counter is that of the report before the locks are taken. -/
def acceptRollback (provider : StoreProvider) (contended : Bool) (key : RecordKey) :
    SessionProgram AcceptRollbackOutput := do
  let session ← current
  let (remembered, accepted) ← onDisk (check (rollbackToAccept session.report key))
  rewriteRatchet provider contended fun trust => trust.acceptAt key accepted
  let session ← current
  .ensure (!session.report.effective.conflicted.contains key)
    (.operationNotEffective "accepting the rollback did not clear the conflict")
  pure ⟨key, remembered, accepted⟩

section AcceptAt

variable {self : Ratchet} {key : RecordKey} {counter : ℕ}

/-- What is remembered of an accepted counter. -/
def acceptedWatermark (counter : ℕ) : Option ℕ := if counter = 0 then none else some counter

@[simp] lemma getD_acceptedWatermark : (acceptedWatermark counter).getD 0 = counter := by
  unfold acceptedWatermark
  split_ifs with h <;> simp [h]

@[simp] lemma Ratchet.trustedRoot_acceptAt : (self.acceptAt key counter).trustedRoot =
    self.trustedRoot := by
  unfold Ratchet.acceptAt
  split_ifs <;> rfl

@[simp] lemma Ratchet.formatVersion_acceptAt : (self.acceptAt key counter).formatVersion =
    self.formatVersion := by
  unfold Ratchet.acceptAt
  split_ifs <;> rfl

@[simp] lemma Ratchet.unknownRecords_acceptAt : (self.acceptAt key counter).unknownRecords =
    self.unknownRecords := by
  unfold Ratchet.acceptAt
  split_ifs <;> rfl

lemma Ratchet.watermarks_acceptAt (other : RecordKey) :
    (self.acceptAt key counter).watermarks[other]? =
      if other = key then acceptedWatermark counter else self.watermarks[other]? := by
  unfold Ratchet.acceptAt acceptedWatermark
  by_cases hkey : other = key
  · subst hkey
    rw [if_pos rfl]
    split_ifs <;> simp
  · have hcmp : compare key other ≠ .eq := fun h => hkey (Std.LawfulEqCmp.eq_of_compare h).symm
    rw [if_neg hkey]
    split_ifs <;> simp [Std.ExtTreeMap.getElem?_erase, Std.ExtTreeMap.getElem?_insert, hcmp]

lemma Ratchet.origins_acceptAt (other : RecordKey) :
    (self.acceptAt key counter).origins[other]? =
      if other = key ∧ counter = 0 then none else self.origins[other]? := by
  unfold Ratchet.acceptAt
  by_cases hzero : counter = 0
  · by_cases hkey : other = key
    · subst hkey
      simp [hzero]
    · have hcmp : compare key other ≠ .eq := fun h => hkey (Std.LawfulEqCmp.eq_of_compare h).symm
      simp [hzero, hkey, Std.ExtTreeMap.getElem?_erase, hcmp]
  · simp [hzero]

/-- Forgetting a key keeps origins legible. -/
lemma Ratchet.OriginsLegible.acceptAt (h : self.OriginsLegible) :
    (self.acceptAt key counter).OriginsLegible := by
  intro other origin horigin
  rw [Ratchet.origins_acceptAt] at horigin
  split_ifs at horigin with hforgotten
  obtain ⟨hremembered, hread⟩ := h other origin horigin
  refine ⟨?_, hread⟩
  rw [Ratchet.watermarks_acceptAt]
  split_ifs with hkey
  · have hcounter : counter ≠ 0 := fun hzero => hforgotten ⟨hkey, hzero⟩
    simp [acceptedWatermark, hcounter]
  · exact hremembered

/-- Where the ratchet already remembers the accepted counter, nothing changes. -/
lemma Ratchet.acceptAt_eq_self (hlegible : self.OriginsLegible)
    (h : self.watermarks[key]? = acceptedWatermark counter) : self.acceptAt key counter = self := by
  have hwatermarks : (self.acceptAt key counter).watermarks = self.watermarks := by
    refine Std.ExtTreeMap.ext_getElem? fun other => ?_
    rw [Ratchet.watermarks_acceptAt]
    split_ifs with hkey
    · rw [hkey, h]
    · rfl
  have horigins : (self.acceptAt key counter).origins = self.origins := by
    refine Std.ExtTreeMap.ext_getElem? fun other => ?_
    rw [Ratchet.origins_acceptAt]
    split_ifs with hforgotten
    · obtain ⟨rfl, rfl⟩ := hforgotten
      cases horigin : self.origins[other]? with
      | none => rfl
      | some origin => exact absurd h (hlegible other origin horigin).1
    · rfl
  cases hself : self.acceptAt key counter
  have hroot : (self.acceptAt key counter).trustedRoot = self.trustedRoot :=
    self.trustedRoot_acceptAt
  have hversion : (self.acceptAt key counter).formatVersion = self.formatVersion :=
    self.formatVersion_acceptAt
  have hunknown : (self.acceptAt key counter).unknownRecords = self.unknownRecords :=
    self.unknownRecords_acceptAt
  simp only [hself] at hwatermarks horigins hroot hversion hunknown
  subst hwatermarks horigins hroot hversion hunknown
  rfl

end AcceptAt

end Thorax
