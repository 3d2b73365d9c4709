import Thorax.Properties.Readmission
import Thorax.Properties.Reconcile

/-!
# Counters above a rollback

A record has to pass everything that is admitted and everything that a rollback fell below, or it does
not count. The commits of one record see to it. The batches take the next counter as it is, so theirs
pass only where no rollback remembers more than is admitted, and as long as there is room below the
ceiling. With such room a lost user who is added again is taken back, if whoever adds the user keeps
the authority to.
-/

namespace Thorax

open Collections Durable
open Std (ExtTreeMap)

/-! ### Counters -/

section Counters

variable {effective : EffectiveState} {counter : ℕ}

/-- A counter above everything admitted and everything a rollback fell below, and within the
ceiling. -/
structure ClearsRollbacks (effective : EffectiveState) (counter : ℕ) : Prop where
  admitted : ∀ max, effective.admittedCounterMax = some max → max < counter
  remembered : ∀ (key : RecordKey) conflict remembered, effective.conflicted[key]? = some conflict →
    conflict.kind = .rollback remembered → remembered < counter
  ceiling : counter ≤ maxLwwCounter

/-- Nothing above the ceiling is admitted. -/
def EffectiveState.WithinCeiling (self : EffectiveState) : Prop :=
  ∀ max, self.admittedCounterMax = some max → max ≤ maxLwwCounter

lemma rollbackCounterFloor_le_iff : effective.rollbackCounterFloor ≤ counter ↔
    ∀ (key : RecordKey) conflict remembered, effective.conflicted[key]? = some conflict →
      conflict.kind = .rollback remembered → saturatingAdd remembered 1 ≤ counter := by
  rw [← not_lt, EffectiveState.rollbackCounterFloor, lt_getD_max?]
  simp only [List.mem_filterMap, not_exists, not_and, not_lt]
  constructor
  · intro h key conflict remembered hconflict hkind
    refine h _ ⟨(key, conflict), ExtTreeMap.mem_toList_iff_getElem?_eq_some.mpr hconflict, ?_⟩
    simp [hkind]
  · rintro h floor ⟨⟨key, conflict⟩, hentry, hfloor⟩
    rw [ExtTreeMap.mem_toList_iff_getElem?_eq_some] at hentry
    cases hkind : conflict.kind with
    | tie => simp [hkind] at hfloor
    | rollback remembered =>
      simp only [hkind, Option.some.injEq] at hfloor
      exact hfloor ▸ h key conflict remembered hentry hkind

/-- From the next counter on, only the floor and the ceiling are left to look at. -/
lemma clearsRollbacks_iff (hceiling : effective.WithinCeiling)
    (hnext : nextCounter effective ≤ counter) : ClearsRollbacks effective counter ↔
      effective.rollbackCounterFloor ≤ counter ∧ counter ≤ maxLwwCounter := by
  rw [rollbackCounterFloor_le_iff]
  constructor
  · intro h
    refine ⟨fun key conflict remembered hconflict hkind => ?_, h.ceiling⟩
    have hlt := h.remembered key conflict remembered hconflict hkind
    simp only [saturatingAdd]
    omega
  · rintro ⟨hfloor, hle⟩
    refine ⟨fun max hmax => ?_, fun key conflict remembered hconflict hkind => ?_, hle⟩
    · have hbound := hceiling max hmax
      simp only [nextCounter, hmax, saturatingAdd, maxLwwCounter] at hnext hbound
      omega
    · have hclears := hfloor key conflict remembered hconflict hkind
      simp only [saturatingAdd, maxLwwCounter] at hclears hle
      omega

/-- The counter of a commit of one record clears every rollback. -/
lemma clearsRollbacks_of_commitCounter (hceiling : effective.WithinCeiling)
    (h : commitCounter effective = .ok counter) : ClearsRollbacks effective counter := by
  simp only [commitCounter] at h
  split_ifs at h with hexhausted
  obtain rfl := Except.ok.inj h
  exact (clearsRollbacks_iff hceiling (le_max_left _ _)).mpr
    ⟨le_max_right _ _, not_lt.mp hexhausted⟩

/-- What validation admits is within the ceiling. -/
lemma withinCeiling_validateVault (crypto : CryptoProvider) (vault : VaultStore) (ratchet : Ratchet) :
    (validateVault crypto vault ratchet).effective.WithinCeiling := by
  intro max hmax
  cases hresolved : resolvedRecords crypto vault ratchet with
  | none =>
    rw [(validateVault_of_unresolved hresolved).1] at hmax
    cases hmax
  | some resolved =>
    obtain ⟨root, records⟩ := resolved
    rw [(validateVault_of_resolved hresolved).1] at hmax
    obtain ⟨hmem, -⟩ := List.max?_eq_some_iff.mp hmax
    obtain ⟨key, hkey⟩ := mem_values.mp hmem
    obtain ⟨⟨record, hcounts, rfl⟩, -⟩ := admittedWatermarks_eq_some.mp hkey
    exact counter_le_of_resolved hresolved record hcounts.1

end Counters

/-! ### Records of a batch -/

section Batches

variable {effective : EffectiveState} {counter : ℕ} {signed : VaultRecordV1}
variable {records : List VaultRecordV1} {build : ℕ → Except HazmatError VaultRecordV1}
variable {builds : List (ℕ → Except HazmatError VaultRecordV1)}

/-- The counter that an envelope carries. -/
def VaultRecordV1.counter? (signed : VaultRecordV1) : Option ℕ :=
  match signed.body with
  | .known body => body.lwwCounter
  | .unknown _ => none

/-- An envelope whose counter clears every rollback. -/
def VaultRecordV1.Clears (effective : EffectiveState) (signed : VaultRecordV1) : Prop :=
  ∃ counter, signed.counter? = some counter ∧ ClearsRollbacks effective counter

/-- Whatever is built at a counter carries it. -/
def Stamps (build : ℕ → Except HazmatError VaultRecordV1) : Prop :=
  ∀ counter signed, build counter = .ok signed → signed.counter? = some counter

lemma counter?_signedPayload {crypto : CryptoProvider} {signer : RecordSigner} {body : RecordBodyV1}
    (h : Hazmat.signedPayload crypto signer body = .ok signed) :
    signed.counter? = body.lwwCounter := by
  rw [VaultRecordV1.counter?, (Hazmat.body_of_signedPayload h).1]

lemma stamps_signedPayload {crypto : CryptoProvider} {signer : RecordSigner}
    {body : ℕ → RecordBodyV1} (hbody : ∀ counter, (body counter).lwwCounter = some counter) :
    Stamps fun counter => Hazmat.signedPayload crypto signer (body counter) :=
  fun counter _ h => (counter?_signedPayload h).trans (hbody counter)

/-- There is room for some counters, from the next one on: no rollback remembers more than is
admitted, and the ceiling is not met. -/
def EffectiveState.HasRoom (self : EffectiveState) (count : ℕ) : Prop :=
  self.rollbackCounterFloor ≤ nextCounter self ∧ nextCounter self + count ≤ maxLwwCounter + 1

lemma clears_iff_of_counter? (hcounter : signed.counter? = some counter) :
    signed.Clears effective ↔ ClearsRollbacks effective counter := by
  rw [VaultRecordV1.Clears, hcounter]
  simp

/-- The records that are built in ascending order clear every rollback if the first counter is above
the floor and the last one within the ceiling. -/
lemma clears_buildAscending (hceiling : effective.WithinCeiling)
    (hstamps : ∀ build ∈ builds, Stamps build) (hnext : nextCounter effective ≤ counter)
    (h : buildAscending counter builds = .ok records) :
    (∀ signed ∈ records, signed.Clears effective) ↔
      builds = [] ∨ effective.rollbackCounterFloor ≤ counter ∧
        counter + builds.length ≤ maxLwwCounter + 1 := by
  induction builds generalizing counter records with
  | nil =>
    obtain rfl := Except.ok.inj h
    simp
  | cons build builds ih =>
    simp only [buildAscending, bind_eq_ok] at h
    obtain ⟨first, hfirst, others, hothers, h⟩ := h
    obtain rfl := Except.ok.inj h
    have hcounter := hstamps build List.mem_cons_self counter first hfirst
    rw [List.forall_mem_cons, clears_iff_of_counter? hcounter, clearsRollbacks_iff hceiling hnext]
    have hgrows : nextCounter effective ≤ saturatingAdd counter 1 ∨ maxLwwCounter < counter := by
      simp only [saturatingAdd, maxLwwCounter]
      omega
    rcases hgrows with hgrows | habove
    · rw [ih (fun other hother => hstamps other (List.mem_cons_of_mem _ hother)) hgrows hothers]
      simp only [List.length_cons, reduceCtorEq, false_or]
      cases builds with
      | nil => simp
      | cons next builds =>
        simp only [saturatingAdd, maxLwwCounter, List.length_cons, reduceCtorEq, false_or]
        omega
    · refine iff_of_false (fun hclears => ?_) ?_
      · exact absurd hclears.1.2 (not_le.mpr habove)
      · rintro (hnil | ⟨-, hroom⟩)
        · cases hnil
        · rw [List.length_cons] at hroom
          omega

end Batches

/-! ### Writes -/

/-- The operations that commit, with what they are given. -/
inductive Write where
  | setSecret (identity : UnlockedIdentity) (selector : SecretSelectorV1) (value : SecretValueV1)
      (random : SealRandomness)
  | deleteSecret (identity : UnlockedIdentity) (selector : SecretSelectorV1)
  | setUserHandle (signer : RecordSigner) (handle : String) (user : UserId)
  | setVaultHandle (signer : RecordSigner) (handle : String)
  | grantPermission (signer : RecordSigner) (subject : PrincipalRefV1)
      (permission : GrantPermissionV1) (seed : IdSeed)
  | deleteGrant (signer : RecordSigner) (grant : GrantId) (permission : GrantPermissionV1)
  | createGroup (signer : RecordSigner) (seed : IdSeed) (handle : String)
  | addGroupMember (signer : RecordSigner) (group : GroupId) (member : PrincipalRefV1)
  | deleteGroupMember (signer : RecordSigner) (group : GroupId) (member : PrincipalRefV1)
  | addUser (signer user : RecordSigner)
  | deleteUser (signer : RecordSigner) (user : UserId) (reason : Option String)
  | deleteGroup (signer : RecordSigner) (group : GroupId)
  | convergeReaders (identity : UnlockedIdentity) (random : SecretSelectorV1 → SealRandomness)

section Writes

variable (provider : StoreProvider) (sealing : SealProvider) (contended : Bool)
variable (transactionId : Bytes)

/-- Run a program for its effect alone. -/
def discard {α : Type} (program : SessionProgram α) : SessionProgram Unit := do
  let _ ← program
  pure ()

def Write.program : Write → SessionProgram Unit
  | .setSecret identity selector value random => discard
      (setSecretValue provider sealing contended transactionId identity selector value random)
  | .deleteSecret identity selector => discard
      (Thorax.deleteSecret provider contended transactionId identity selector)
  | .setUserHandle signer handle user => discard
      (LockedSession.setUserHandle provider contended transactionId signer handle user)
  | .setVaultHandle signer handle => discard
      (LockedSession.setVaultHandle provider contended transactionId signer handle)
  | .grantPermission signer subject permission seed => discard
      (LockedSession.grantPermission provider contended transactionId signer subject permission seed)
  | .deleteGrant signer grant permission => discard
      (LockedSession.deleteGrant provider contended transactionId signer grant permission)
  | .createGroup signer seed handle => discard
      (LockedSession.createGroup provider contended transactionId signer seed handle)
  | .addGroupMember signer group member => discard
      (LockedSession.addGroupMember provider contended transactionId signer group member)
  | .deleteGroupMember signer group member => discard
      (LockedSession.deleteGroupMember provider contended transactionId signer group member)
  | .addUser signer user => discard
      (LockedSession.addUser provider contended transactionId signer user)
  | .deleteUser signer user reason => discard
      (LockedSession.deleteUser provider contended transactionId signer user reason)
  | .deleteGroup signer group => discard
      (LockedSession.deleteGroup provider contended transactionId signer group)
  | .convergeReaders identity random => discard
      (Thorax.convergeReaders provider sealing contended transactionId identity random)

/-- What a write needs of the state that its commit starts from, to clear every rollback of it: for one
record nothing, for a batch room for its records. `before` is the session that the write was called
on. -/
def Write.Clearing (before : LockedSession) (effective : EffectiveState) : Write → Prop
  | .addUser _ _ => effective.HasRoom 1
  | .deleteUser signer user _ =>
    effective.HasRoom (1 + (userCascade provider.toCryptoProvider signer effective user).length)
  | .deleteGroup signer group =>
    effective.HasRoom (1 + (groupCascade provider.toCryptoProvider signer effective group).length)
  | .convergeReaders identity _ =>
    openedCandidates provider sealing before.report identity = [] ∨ effective.HasRoom 1
  | _ => True

end Writes

section Commits

variable {provider : StoreProvider} {sealing : SealProvider} {contended : Bool}
variable {transactionId : Bytes} {disk : Disk} {session session' : LockedSession}
variable {state : Disk × LockedSession} {α : Type}

/-- Between the session that a commit starts from and the vault after it, some records are
appended. -/
def Appends (start : LockedSession) (records : List VaultRecordV1) (after : LockedSession) : Prop :=
  after.vault = records.foldl VaultStore.appendRecord start.vault

lemma ends_discard {program : SessionProgram α} {start : Disk × LockedSession} {done : Unit} :
    (discard program).Ends start done state ↔ ∃ output, program.Ends start output state := by
  simp [discard]

/-- A batch that is committed has been built on the state that the commit starts from. -/
lemma ends_batch {change : BatchChange α} {output : α}
    (h : (commit provider contended transactionId change.toChange).Ends (disk, session) output
      state) : ∃ start records, StartsFrom provider disk session start ∧
        change.build start.report = .ok (records, output) ∧ Appends start records state.2 := by
  obtain ⟨hresult, rfl⟩ := h
  obtain ⟨start, next, hstarts, hproject, rfl, hvault, -⟩ := startsFrom_of_commit hresult
  obtain ⟨-, vault, output, hupdate, hnext, houtput, -⟩ := project_eq_ok.mp hproject
  simp only [BatchChange.toChange, bind_eq_ok, Prod.exists] at hupdate
  obtain ⟨records, built, hbuild, hupdate⟩ := hupdate
  obtain ⟨rfl, rfl⟩ := Prod.mk.inj (Except.ok.inj hupdate)
  exact ⟨start, records, hstarts, houtput ▸ hbuild, hvault.trans hnext⟩

/-- A record that is committed has been built at a counter that clears every rollback. -/
lemma ends_commitRecord {change : RecordChange α} {output : α}
    (h : (commitRecord provider contended transactionId change).Ends (disk, session) output state) :
    ∃ start signed counter, StartsFrom provider disk session start ∧
      commitCounter start.report.effective = .ok counter ∧
      change.build start.report counter = .ok (signed, output) ∧
      Appends start [signed] state.2 := by
  simp only [commitRecord, Program.ends_bind, Program.ends_pure] at h
  obtain ⟨⟨output', hash⟩, _, hcommit, rfl, rfl⟩ := h
  rw [← RecordChange.toChange_toBatch] at hcommit
  obtain ⟨start, records, hstarts, hbuild, happends⟩ := ends_batch hcommit
  simp only [RecordChange.toBatch, bind_eq_ok, Prod.exists] at hbuild
  obtain ⟨counter, hcounter, signed, built, hsigned, hbuild⟩ := hbuild
  obtain ⟨rfl, hsame⟩ := Prod.mk.inj (Except.ok.inj hbuild)
  obtain ⟨rfl, -⟩ := Prod.mk.inj hsame
  exact ⟨start, signed, counter, hstarts, hcounter, hsigned, happends⟩

end Commits

/-! ### What is stamped -/

section Stamped

variable {crypto : CryptoProvider} {signer : RecordSigner} {α : Type}

/-- A mutation of one record stamps it with the counter it is built at. -/
def RecordChange.Stamps (change : RecordChange α) : Prop :=
  ∀ report counter signed output, change.build report counter = .ok (signed, output) →
    signed.counter? = some counter

lemma stamps_principalChange {output : α} {build : ℕ → Except HazmatError VaultRecordV1}
    {holds : EffectiveState → Bool} {message : String} (hbuild : Stamps build) :
    (principalChange output build holds message).Stamps := by
  intro report counter signed built h
  simp only [principalChange, bind_eq_ok, mapError_eq_ok] at h
  obtain ⟨made, hmade, h⟩ := h
  obtain ⟨rfl, -⟩ := Prod.mk.inj (Except.ok.inj h)
  exact hbuild counter made hmade

lemma stamps_principalDeletion {output : α} {build : ℕ → Except HazmatError VaultRecordV1}
    {holds : EffectiveState → Bool} {missing message : String} (hbuild : Stamps build) :
    (principalDeletion output build holds missing message).Stamps := by
  intro report counter signed built h
  simp only [principalDeletion, bind_eq_ok, mapError_eq_ok] at h
  obtain ⟨_, -, made, hmade, h⟩ := h
  obtain ⟨rfl, -⟩ := Prod.mk.inj (Except.ok.inj h)
  exact hbuild counter made hmade

lemma stamps_sealedSecretRecord {provider : StoreProvider} {sealing : SealProvider}
    {identity : UnlockedIdentity} {report : ValidationReport} {selector : SecretSelectorV1}
    {value : SecretValueV1} {random : SealRandomness} {counter : ℕ} {signed : VaultRecordV1}
    {payload : SealedPayloadV1} (h : sealedSecretRecord provider sealing identity report selector value
      random counter = .ok (signed, payload)) : signed.counter? = some counter := by
  obtain ⟨-, hsigned⟩ := sealedSecretRecord_eq_ok.mp h
  exact counter?_signedPayload hsigned

/-- Every deletion of a cascade is stamped. -/
lemma stamps_dependentDeletions {effective : EffectiveState} {principal : PrincipalRefV1}
    {dependent : GroupMemberRecordV1 → Bool} {build : ℕ → Except HazmatError VaultRecordV1}
    (h : build ∈ dependentDeletions crypto signer effective principal dependent) : Stamps build := by
  rcases List.mem_append.mp h with h | h
  · obtain ⟨membership, -, rfl⟩ := List.mem_map.mp h
    exact stamps_signedPayload fun _ => rfl
  · obtain ⟨grant, -, rfl⟩ := List.mem_map.mp h
    exact stamps_signedPayload fun _ => rfl

end Stamped

/-! ### Room above what is remembered -/

section Room

variable {provider : StoreProvider} {envelopes : Set VaultRecordV1} {session : LockedSession}

/-- Where there is room from the next counter on, nothing that is remembered lies above it. -/
lemma LockedSession.Settled.remembered_le_nextCounter (h : session.Settled provider envelopes)
    (hclean : session.report.issues = []) (hroom : session.report.effective.HasRoom 1)
    (key : RecordKey) {remembered : ℕ}
    (hremembered : session.remembered.watermarks[key]? = some remembered) :
    remembered ≤ nextCounter session.report.effective := by
  obtain ⟨root, records, hresolved, hbefore, halike, -⟩ := h.resolved hclean
  rw [← resolveRecords_of_alike halike] at hbefore
  rw [hbefore] at hroom ⊢
  by_cases hkey : key ∈ rollbackKeys provider.toCryptoProvider session.remembered root records
  · obtain ⟨found, hfound⟩ :=
      Option.isSome_iff_exists.mp (ExtTreeMap.isSome_getElem?_iff_mem.mpr hkey)
    obtain rfl : remembered = found :=
      Option.some.inj (hremembered.symm.trans (rollbackKeys_eq_some.mp hfound).1)
    have hfloor : saturatingAdd remembered 1 - 1 < (resolveRecords provider.toCryptoProvider
        session.remembered root records).rollbackCounterFloor := by
      refine lt_rollbackCounterFloor_iff.mpr ⟨key, remembered, hfound, ?_⟩
      simp only [saturatingAdd]
      omega
    obtain ⟨hle, hceiling⟩ := hroom
    simp only [saturatingAdd, maxLwwCounter] at hfloor hceiling
    omega
  · rcases Nat.eq_zero_or_pos remembered with rfl | hpos
    · exact Nat.zero_le _
    · obtain ⟨top, hcounts, hle⟩ := (not_mem_rollbackKeys_of_remembered hremembered hpos).mp hkey
      exact hle.trans ((lt_nextCounter_iff (counter_le_of_resolved hresolved)).mpr
        ⟨key, top, hcounts, le_rfl⟩).le

end Room

/-! ### Every write -/

section Main

variable {provider : StoreProvider} {sealing : SealProvider} {contended : Bool}
variable {transactionId : Bytes} {disk : Disk} {session : LockedSession}
variable {state : Disk × LockedSession} {envelopes : Set VaultRecordV1} {α : Type}

/-- What a commit has appended, and when all of it clears the rollbacks that it started under. -/
def AppendsClearing (provider : StoreProvider) (disk : Disk) (session after : LockedSession)
    (clearing : EffectiveState → Prop) : Prop :=
  ∃ start records, (StartsFrom provider disk session start ∨ start = session ∧ records = []) ∧
    Appends start records after ∧
    ((∀ signed ∈ records, signed.Clears start.report.effective) ↔ clearing start.report.effective)

section Starts

variable (hstarts : ∀ start, StartsFrom provider disk session start →
  start.report.effective.WithinCeiling)

include hstarts

/-- A commit of one record clears every rollback. -/
lemma appendsClearing_commitRecord {change : RecordChange α} {output : α}
    (hstamps : change.Stamps)
    (h : (commitRecord provider contended transactionId change).Ends (disk, session) output state) :
    AppendsClearing provider disk session state.2 fun _ => True := by
  obtain ⟨start, signed, counter, hstart, hcounter, hbuild, happends⟩ := ends_commitRecord h
  refine ⟨start, [signed], .inl hstart, happends, iff_of_true ?_ trivial⟩
  rintro other (_ | ⟨_, _ | _⟩)
  exact ⟨counter, hstamps _ _ _ _ hbuild,
    clearsRollbacks_of_commitCounter (hstarts start hstart) hcounter⟩

/-- A deletion with its cascade clears every rollback if there is room for all of it. -/
lemma appendsClearing_ascending {change : BatchChange α} {output : α}
    {builds : EffectiveState → List (ℕ → Except HazmatError VaultRecordV1)}
    (hstamps : ∀ effective, ∀ build ∈ builds effective, Stamps build)
    (hnonempty : ∀ effective, builds effective ≠ [])
    (hbuilds : ∀ report records output, change.build report = .ok (records, output) →
      buildAscending (nextCounter report.effective) (builds report.effective) = .ok records)
    (h : (commit provider contended transactionId change.toChange).Ends (disk, session) output
      state) :
    AppendsClearing provider disk session state.2 fun effective =>
      effective.HasRoom (builds effective).length := by
  obtain ⟨start, records, hstart, hbuild, happends⟩ := ends_batch h
  refine ⟨start, records, .inl hstart, happends, ?_⟩
  rw [clears_buildAscending (hstarts start hstart) (hstamps _) le_rfl (hbuilds _ _ _ hbuild)]
  exact or_iff_right (hnonempty _)

/-- Records at the next counter clear every rollback if there is room for one. -/
lemma clears_at_next {start : LockedSession} {records : List VaultRecordV1}
    (hstart : StartsFrom provider disk session start) (hne : records ≠ [])
    (hcounter : ∀ signed ∈ records, signed.counter? = some (nextCounter start.report.effective)) :
    (∀ signed ∈ records, signed.Clears start.report.effective) ↔
      start.report.effective.HasRoom 1 := by
  have hclears : ∀ signed ∈ records, signed.Clears start.report.effective ↔
      start.report.effective.HasRoom 1 := by
    intro signed hsigned
    rw [clears_iff_of_counter? (hcounter signed hsigned),
      clearsRollbacks_iff (hstarts start hstart) le_rfl, EffectiveState.HasRoom, Nat.add_le_add_iff_right]
  constructor
  · intro hall
    obtain ⟨signed, hsigned⟩ := List.exists_mem_of_ne_nil records hne
    exact (hclears signed hsigned).mp (hall signed hsigned)
  · exact fun hroom signed hsigned => (hclears signed hsigned).mpr hroom

/-- A secret is written by one record. -/
lemma appendsClearing_writeSecret {signer : RecordSigner} {selector : SecretSelectorV1}
    {change : RecordChange α} {output : α} (hstamps : change.Stamps)
    (h : (writeSecret provider contended transactionId signer selector change).Ends (disk, session)
      output state) : AppendsClearing provider disk session state.2 fun _ => True := by
  simp only [writeSecret, current, onDisk, Program.ends_bind, Program.ends_read, Program.ends_zoom,
    ends_check] at h
  obtain ⟨_, _, ⟨-, rfl⟩, _, _, ⟨_, ⟨-, rfl⟩, rfl⟩, _, _, ⟨_, ⟨-, rfl⟩, rfl⟩, h⟩ := h
  exact appendsClearing_commitRecord hstarts hstamps h

/-- A user and its entry point are added at one counter. -/
lemma appendsClearing_addUser {signer user : RecordSigner} {output : UserId}
    (h : (LockedSession.addUser provider contended transactionId signer user).Ends (disk, session)
      output state) : AppendsClearing provider disk session state.2 (EffectiveState.HasRoom · 1) := by
  simp only [LockedSession.addUser, onDisk, Program.ends_bind, Program.ends_zoom, ends_check] at h
  obtain ⟨_, _, ⟨_, ⟨-, rfl⟩, rfl⟩, _, _, ⟨_, ⟨-, rfl⟩, rfl⟩, h⟩ := h
  obtain ⟨start, records, hstart, hbuild, happends⟩ := ends_batch h
  refine ⟨start, records, .inl hstart, happends, ?_⟩
  simp only [addUserChange, bind_eq_ok, mapError_eq_ok] at hbuild
  obtain ⟨member, hmember, hbuild⟩ := hbuild
  cases hroot : start.report.effective.rootUserId with
  | none => simp [hroot] at hbuild
  | some root =>
    simp only [hroot, bind_eq_ok, mapError_eq_ok] at hbuild
    obtain ⟨entryPoint, hentryPoint, hbuild⟩ := hbuild
    obtain ⟨rfl, -⟩ := Prod.mk.inj (Except.ok.inj hbuild)
    refine clears_at_next hstarts hstart (List.cons_ne_nil _ _) ?_
    rintro signed (_ | ⟨_, _ | ⟨_, _ | _⟩⟩)
    · exact counter?_signedPayload hmember
    · exact counter?_signedPayload hentryPoint

/-- A deletion of a user clears every rollback if there is room for it and its cascade. -/
lemma appendsClearing_deleteUser {signer : RecordSigner} {user output : UserId}
    {reason : Option String}
    (h : (LockedSession.deleteUser provider contended transactionId signer user reason).Ends
      (disk, session) output state) :
    AppendsClearing provider disk session state.2 fun effective => effective.HasRoom
      (1 + (userCascade provider.toCryptoProvider signer effective user).length) := by
  simp only [Nat.add_comm 1, ← List.length_cons (a := Hazmat.userDeletedRecord
    provider.toCryptoProvider signer user reason)]
  refine appendsClearing_ascending hstarts (fun effective build hbuild => ?_)
    (fun _ => List.cons_ne_nil _ _) (fun report records made hmade => ?_) h
  · rcases List.mem_cons.mp hbuild with rfl | hbuild
    · exact stamps_signedPayload fun _ => rfl
    · exact stamps_dependentDeletions hbuild
  · simp only [deleteUserChange, bind_eq_ok] at hmade
    obtain ⟨_, -, hmade⟩ := hmade
    split_ifs at hmade
    obtain ⟨built, hbuilt, hmade⟩ := bind_eq_ok.mp hmade
    obtain ⟨rfl, -⟩ := Prod.mk.inj (Except.ok.inj hmade)
    exact mapError_eq_ok.mp hbuilt

lemma appendsClearing_deleteGroup {signer : RecordSigner} {group output : GroupId}
    (h : (LockedSession.deleteGroup provider contended transactionId signer group).Ends
      (disk, session) output state) :
    AppendsClearing provider disk session state.2 fun effective => effective.HasRoom
      (1 + (groupCascade provider.toCryptoProvider signer effective group).length) := by
  simp only [Nat.add_comm 1, ← List.length_cons (a := Hazmat.groupDeletedRecord
    provider.toCryptoProvider signer group)]
  refine appendsClearing_ascending hstarts (fun effective build hbuild => ?_)
    (fun _ => List.cons_ne_nil _ _) (fun report records made hmade => ?_) h
  · rcases List.mem_cons.mp hbuild with rfl | hbuild
    · exact stamps_signedPayload fun _ => rfl
    · exact stamps_dependentDeletions hbuild
  · simp only [deleteGroupChange, bind_eq_ok, mapError_eq_ok] at hmade
    obtain ⟨_, -, built, hbuilt, hmade⟩ := hmade
    obtain ⟨rfl, -⟩ := Prod.mk.inj (Except.ok.inj hmade)
    exact hbuilt

lemma appendsClearing_convergeReaders {identity : UnlockedIdentity}
    {random : SecretSelectorV1 → SealRandomness} {output : ReconcileOutput}
    (h : (convergeReaders provider sealing contended transactionId identity random).Ends
      (disk, session) output state) :
    AppendsClearing provider disk session state.2 fun effective =>
      openedCandidates provider sealing session.report identity = [] ∨ effective.HasRoom 1 := by
  simp only [convergeReaders, current, Program.ends_bind, Program.ends_read] at h
  obtain ⟨_, _, ⟨hcurrent, rfl⟩, h⟩ := h
  obtain rfl := Except.ok.inj hcurrent
  by_cases hopened : openedCandidates provider sealing session.report identity = []
  · simp only [hopened, if_true, Program.ends_pure] at h
    obtain ⟨-, rfl⟩ := h
    exact ⟨session, [], .inr ⟨rfl, rfl⟩, rfl, iff_of_true (by simp) (.inl hopened)⟩
  · rw [if_neg hopened] at h
    simp only [Program.ends_bind, Program.ends_pure] at h
    obtain ⟨_, _, ⟨hresult, hlast⟩, -, rfl⟩ := h
    obtain ⟨start, next, hstart, hproject, -, hvault, -⟩ := startsFrom_of_commit hresult
    rw [hlast] at hvault
    obtain ⟨-, vault, _, hupdate, hnext, -⟩ := project_eq_ok.mp hproject
    obtain ⟨appended, rfl, hmade, honly⟩ := convergeChange_eq_ok hupdate
    refine ⟨start, appended, .inl hstart, hvault.trans hnext, ?_⟩
    refine (clears_at_next hstarts hstart (fun hnil => ?_) fun signed hsigned => ?_).trans
      (or_iff_right hopened).symm
    · obtain ⟨secret, hsecret⟩ := List.exists_mem_of_ne_nil _ hopened
      obtain ⟨signed, hsigned, -⟩ := hmade secret hsecret
      simp [hnil] at hsigned
    · obtain ⟨secret, -, payload, hsealed⟩ := honly signed hsigned
      exact stamps_sealedSecretRecord hsealed

end Starts

lemma stamps_setSecretChange {identity : UnlockedIdentity} {selector : SecretSelectorV1}
    {value : SecretValueV1} {random : SealRandomness} :
    (setSecretChange provider sealing identity selector value random).Stamps := by
  intro report counter signed output h
  simp only [setSecretChange, bind_eq_ok, Prod.exists] at h
  obtain ⟨_, payload, hsealed, h⟩ := h
  obtain ⟨rfl, -⟩ := Prod.mk.inj (Except.ok.inj h)
  exact stamps_sealedSecretRecord hsealed

lemma stamps_deleteSecretChange {signer : RecordSigner} {selector : SecretSelectorV1} :
    (deleteSecretChange provider signer selector).Stamps := by
  intro report counter signed output h
  simp only [deleteSecretChange, bind_eq_ok, mapError_eq_ok] at h
  obtain ⟨_, hmade, h⟩ := h
  obtain ⟨rfl, -⟩ := Prod.mk.inj (Except.ok.inj h)
  exact counter?_signedPayload hmade

/-- What a write appends clears the rollbacks if it is of one record or of a batch that has room. -/
lemma Write.appendsClearing
    (hstarts : ∀ start, StartsFrom provider disk session start →
      start.report.effective.WithinCeiling) {write : Write} {done : Unit}
    {state : Disk × LockedSession}
    (h : (write.program provider sealing contended transactionId).Ends (disk, session) done state) :
    AppendsClearing provider disk session state.2 (write.Clearing provider sealing session) := by
  cases write with
  | setSecret identity selector value random =>
    obtain ⟨output, hends⟩ := ends_discard.mp h
    exact appendsClearing_writeSecret hstarts stamps_setSecretChange hends
  | deleteSecret identity selector =>
    obtain ⟨output, hends⟩ := ends_discard.mp h
    exact appendsClearing_writeSecret hstarts stamps_deleteSecretChange hends
  | setUserHandle signer handle user =>
    obtain ⟨output, hends⟩ := ends_discard.mp h
    simp only [LockedSession.setUserHandle, onDisk, Program.ends_bind, Program.ends_zoom,
      ends_check] at hends
    obtain ⟨_, _, ⟨_, ⟨-, rfl⟩, rfl⟩, hends⟩ := hends
    exact appendsClearing_commitRecord hstarts
      (stamps_principalChange (stamps_signedPayload fun _ => rfl)) hends
  | setVaultHandle signer handle =>
    obtain ⟨output, hends⟩ := ends_discard.mp h
    simp only [LockedSession.setVaultHandle, onDisk, Program.ends_bind, Program.ends_zoom,
      ends_check] at hends
    obtain ⟨_, _, ⟨_, ⟨-, rfl⟩, rfl⟩, _, _, ⟨_, ⟨-, rfl⟩, rfl⟩, hends⟩ := hends
    exact appendsClearing_commitRecord hstarts
      (stamps_principalChange (stamps_signedPayload fun _ => rfl)) hends
  | grantPermission signer subject permission seed =>
    obtain ⟨output, hends⟩ := ends_discard.mp h
    simp only [LockedSession.grantPermission, onDisk, Program.ends_bind, Program.ends_zoom,
      ends_check] at hends
    obtain ⟨_, _, ⟨_, ⟨-, rfl⟩, rfl⟩, hends⟩ := hends
    exact appendsClearing_commitRecord hstarts
      (stamps_principalChange (stamps_signedPayload fun _ => rfl)) hends
  | deleteGrant signer grant permission =>
    obtain ⟨output, hends⟩ := ends_discard.mp h
    exact appendsClearing_commitRecord hstarts
      (stamps_principalDeletion (stamps_signedPayload fun _ => rfl)) hends
  | createGroup signer seed handle =>
    obtain ⟨output, hends⟩ := ends_discard.mp h
    simp only [LockedSession.createGroup, onDisk, Program.ends_bind, Program.ends_zoom,
      ends_check] at hends
    obtain ⟨_, _, ⟨_, ⟨-, rfl⟩, rfl⟩, hends⟩ := hends
    exact appendsClearing_commitRecord hstarts
      (stamps_principalChange (stamps_signedPayload fun _ => rfl)) hends
  | addGroupMember signer group member =>
    obtain ⟨output, hends⟩ := ends_discard.mp h
    exact appendsClearing_commitRecord hstarts
      (stamps_principalChange (stamps_signedPayload fun _ => rfl)) hends
  | deleteGroupMember signer group member =>
    obtain ⟨output, hends⟩ := ends_discard.mp h
    exact appendsClearing_commitRecord hstarts
      (stamps_principalDeletion (stamps_signedPayload fun _ => rfl)) hends
  | addUser signer user =>
    obtain ⟨output, hends⟩ := ends_discard.mp h
    exact appendsClearing_addUser hstarts hends
  | deleteUser signer user reason =>
    obtain ⟨output, hends⟩ := ends_discard.mp h
    exact appendsClearing_deleteUser hstarts hends
  | deleteGroup signer group =>
    obtain ⟨output, hends⟩ := ends_discard.mp h
    exact appendsClearing_deleteGroup hstarts hends
  | convergeReaders identity random =>
    obtain ⟨output, hends⟩ := ends_discard.mp h
    exact appendsClearing_convergeReaders hstarts hends

end Main

/-! ### A vault that lost a user -/

section Example

open TestSupport

def lostUser : TestUser := testUser 1

def newUser : TestUser := testUser 2

def lossyVault : VaultStore := .v1 ⟨[vaultRootRecord]⟩

/-- A user is remembered of whom the vault has nothing left. -/
def lossyRatchet : Ratchet := ratchetWith [(.entryPoint lostUser.id, 5), (.user lostUser.id, 5)]

/-- The vault that has more on it than was remembered of the user. -/
def roomyVault : VaultStore := .v1 ⟨[vaultRootRecord, secretRecord rootUser [rootUser] 5]⟩

def lossyReport (vault : VaultStore) : ValidationReport :=
  validateVault emptyProvider.toCryptoProvider vault lossyRatchet

/-- A vault with one more user. -/
def regrownVault (vault : VaultStore) (user : TestUser) : VaultStore :=
  (((addUserChange emptyProvider.toCryptoProvider (testSigner rootUser)
    (testSigner user)).toChange.update vault (lossyReport vault)).toOption.map Prod.fst).getD vault

def lossyRemembered (vault : VaultStore) : Ratchet :=
  lossyRatchet.applyUpdate (lossyReport vault).ratchetUpdate

def regrownRatchet (vault : VaultStore) (user : TestUser) : Ratchet :=
  (lossyRemembered vault).applyUpdate (validateVault emptyProvider.toCryptoProvider
    (regrownVault vault user) (lossyRemembered vault)).ratchetUpdate

def roomyJournal : TransactionV1 :=
  { reconcileJournal 3 with
    vaultBefore := .hash (fileDigest (vaultFile 2))
    nextRatchetBytes := ratchetFile 2 }

def lossyProvider : StoreProvider := tableProvider
  { vaults := [lossyVault, regrownVault lossyVault newUser, roomyVault,
      regrownVault roomyVault lostUser]
    ratchets := [ratchetStore lossyRatchet, ratchetStore (regrownRatchet lossyVault newUser),
      ratchetStore (regrownRatchet roomyVault lostUser)]
    transactions := [reconcileJournal 1, roomyJournal]
    caches := [] }

def lossyDisk : Disk := testDisk (some (vaultFile 0)) (some (ratchetFile 0)) none

def lossySession : LockedSession := loadedSession lossyProvider lossyVault 0 lossyRatchet

def lossyAdd (user : TestUser) : Outcome (Disk × LockedSession) OpsError Unit :=
  (Write.addUser (testSigner rootUser) (testSigner user)).program lossyProvider transparentSeal false
    (List.replicate 32 7) (lossyDisk, lossySession)

def roomyDisk : Disk := testDisk (some (vaultFile 2)) (some (ratchetFile 0)) none

def roomySession : LockedSession := loadedSession lossyProvider roomyVault 2 lossyRatchet

def roomyAdd : Outcome (Disk × LockedSession) OpsError Unit :=
  (Write.addUser (testSigner rootUser) (testSigner lostUser)).program lossyProvider transparentSeal
    false (List.replicate 32 7) (roomyDisk, roomySession)

def roomyEnvelopes : Set VaultRecordV1 := {signed | signed ∈ roomyVault.records}

lemma decodes_roomy : decodeVault lossyProvider (vaultFile 2) = .ok roomyVault := by decide +kernel

lemma within_roomyDisk : roomyDisk.Within roomyEnvelopes lossyProvider := by
  intro path bytes vault hfile hvault
  simp only [roomyDisk, testDisk] at hfile
  split_ifs at hfile
  obtain rfl := Option.some.inj hfile
  obtain rfl := Except.ok.inj (decodes_roomy.symm.trans hvault)
  exact fun signed hsigned => hsigned

lemma hashesIdentify_roomy : HashesIdentify lossyProvider.toCryptoProvider roomyEnvelopes := by
  have hinj : ∀ a ∈ roomyVault.records, ∀ b ∈ roomyVault.records,
      recordHash lossyProvider.toCryptoProvider a = recordHash lossyProvider.toCryptoProvider b →
        a = b := by decide
  exact hinj

lemma atDisk_roomy : roomySession.AtDisk lossyProvider roomyDisk where
  vault := rfl
  length := by decide
  decodes := ⟨roomyVault, decodes_roomy, fun _ => Iff.rfl⟩
  root := rfl
  ratchet := ⟨ratchetFile 0, rfl, by decide, rfl, rfl⟩
  transaction := rfl
  joinCommit := rfl

lemma admits_roomy : roomySession.Admits lossyProvider roomyDisk false (List.replicate 32 7)
    (addUserChange lossyProvider.toCryptoProvider (testSigner rootUser)
      (testSigner lostUser)).toChange := by
  have hupdate : ((addUserChange lossyProvider.toCryptoProvider (testSigner rootUser) (testSigner
      lostUser)).toChange.update roomySession.vault roomySession.report).map Prod.fst =
        .ok (regrownVault roomyVault lostUser) := by decide +kernel
  have hvault : encodeVault lossyProvider (regrownVault roomyVault lostUser) = .ok (vaultFile 3) := by
    decide +kernel
  have hratchet : encodeRatchet lossyProvider lossyRatchet = .ok (ratchetFile 0) := rfl
  refine atDisk_roomy.admits rfl hupdate (by decide +kernel) hvault hratchet
    (show _ = Except.ok (ratchetFile 2) by decide +kernel)
    (show _ = Except.ok (transactionFile 1) from rfl) (by decide) (by decide)

def lossyEnvelopes : Set VaultRecordV1 := {signed | signed ∈ lossyVault.records}

end Example

end Thorax
