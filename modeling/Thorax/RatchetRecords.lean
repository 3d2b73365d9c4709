import Thorax.Ratchet

/-!
# Ratchet records

The typed facts into which a ratchet is flattened, on disk and in invitations, and the three ways
in which one ratchet takes over what another remembers: an update of a validation, a list of
facts, and a whole ratchet. What a ratchet remembers is a point of a join-semilattice (a counter
or nothing at every key, and a format version), and each of the three joins to it.
-/

namespace Thorax

open Collections

/-- One fact of a ratchet: the counter remembered for an object, with the preimage of its
identifier where one is remembered; the format version; or the root the ratchet belongs to. -/
inductive RatchetRecordV1 where
  | user (id : UserId) (counter : ℕ)
  | userHandle (id : UserHandleId) (counter : ℕ) (handle : String)
  | vaultHandle (id : VaultHandleId) (counter : ℕ) (handle : String)
  | group (id : GroupId) (counter : ℕ)
  | groupMember (id : GroupMemberId) (counter : ℕ) (membership : Option (GroupId × PrincipalRefV1))
  | grant (id : GrantId) (counter : ℕ)
  | secret (id : SecretId) (counter : ℕ) (selector : SecretSelectorV1)
  | entryPoint (id : UserId) (counter : ℕ)
  | formatVersion (version : ℕ)
  | trustedRoot (trustedRoot : HashValue)
  deriving DecidableEq

namespace RatchetRecordV1

/-- The fact for a counter at a key. An origin that is missing or of another kind is written as
the empty value; the vault root has no fact. -/
def forKey (key : RecordKey) (counter : ℕ) (origin : Option KeyOrigin) : Option RatchetRecordV1 :=
  match key with
  | .vaultRoot => none
  | .entryPoint id => some (.entryPoint id counter)
  | .user id => some (.user id counter)
  | .userHandle id => some (.userHandle id counter
      (match origin with
      | some (.userHandle handle) => handle
      | _ => ""))
  | .vaultHandle id => some (.vaultHandle id counter
      (match origin with
      | some (.vaultHandle handle) => handle
      | _ => ""))
  | .group id => some (.group id counter)
  | .groupMember id => some (.groupMember id counter
      (match origin with
      | some (.groupMember groupId memberId) => some (groupId, memberId)
      | _ => none))
  | .grant id => some (.grant id counter)
  | .secret id => some (.secret id counter
      (match origin with
      | some (.secret selector) => selector
      | _ => ⟨[], []⟩))

/-- The remembered preimage, unless it is the empty value. -/
def origin : RatchetRecordV1 → Option KeyOrigin
  | .userHandle _ _ handle => if handle = "" then none else some (.userHandle handle)
  | .vaultHandle _ _ handle => if handle = "" then none else some (.vaultHandle handle)
  | .groupMember _ _ membership => membership.map fun m => .groupMember m.1 m.2
  | .secret _ _ selector => if selector.tuple = [] then none else some (.secret selector)
  | _ => none

def key : RatchetRecordV1 → Option RecordKey
  | .formatVersion _ | .trustedRoot _ => none
  | .user id _ => some (.user id)
  | .userHandle id _ _ => some (.userHandle id)
  | .vaultHandle id _ _ => some (.vaultHandle id)
  | .group id _ => some (.group id)
  | .groupMember id _ _ => some (.groupMember id)
  | .grant id _ => some (.grant id)
  | .secret id _ _ => some (.secret id)
  | .entryPoint id _ => some (.entryPoint id)

/-- The monotone value of a fact; the root is a scope and not a counter. -/
def counter : RatchetRecordV1 → ℕ
  | .user _ counter | .userHandle _ counter _ | .vaultHandle _ counter _ | .group _ counter
  | .groupMember _ counter _ | .grant _ counter | .secret _ counter _ | .entryPoint _ counter =>
    counter
  | .formatVersion version => version
  | .trustedRoot _ => 0

variable {key : RecordKey} {counter : ℕ} {origin : Option KeyOrigin} {record : RatchetRecordV1}

lemma forKey_eq_none : forKey key counter origin = none ↔ key = .vaultRoot := by
  cases key <;> simp [forKey]

lemma key_forKey (h : forKey key counter origin = some record) : record.key = some key := by
  cases key <;> simp only [forKey, Option.some.injEq, reduceCtorEq] at h <;> subst h <;> rfl

lemma counter_forKey (h : forKey key counter origin = some record) : record.counter = counter := by
  cases key <;> simp only [forKey, Option.some.injEq, reduceCtorEq] at h <;> subst h <;> rfl

/-- The fact for a key is not the scope of a ratchet. -/
lemma forKey_ne_trustedRoot {root : HashValue} :
    forKey key counter origin ≠ some (.trustedRoot root) := by
  cases key <;> simp [forKey]

/-- An origin that a fact carries is carried by every fact made for its key with it. -/
lemma origin_forKey {fact : RatchetRecordV1} {carried : KeyOrigin} (hkey : record.key = some key)
    (hcarried : record.origin = some carried)
    (hfact : forKey key counter (some carried) = some fact) : fact.origin = some carried := by
  cases record <;> simp only [RatchetRecordV1.key, Option.some.injEq, reduceCtorEq] at hkey <;>
    subst hkey <;> simp only [RatchetRecordV1.origin, reduceCtorEq] at hcarried
  case userHandle | vaultHandle | secret =>
    split_ifs at hcarried with hempty
    obtain rfl := Option.some.inj hcarried
    obtain rfl := Option.some.inj hfact
    exact if_neg hempty
  case groupMember =>
    obtain ⟨membership, rfl, rfl⟩ := Option.map_eq_some_iff.mp hcarried
    obtain rfl := Option.some.inj hfact
    rfl

end RatchetRecordV1

/-- The facts of a ratchet: one for each remembered key, the format version if there is one, and
the root. -/
def Ratchet.toRecords (self : Ratchet) : List RatchetRecordV1 :=
  self.watermarks.toList.filterMap
      (fun entry => RatchetRecordV1.forKey entry.1 entry.2 self.origins[entry.1]?) ++
    (if 0 < self.formatVersion then [.formatVersion self.formatVersion] else []) ++
    [.trustedRoot self.trustedRoot]

/-- Take over one fact. The root is the scope of a ratchet and is never taken over. -/
def Ratchet.absorbRecord (self : Ratchet) (record : RatchetRecordV1) : Ratchet :=
  match record with
  | .trustedRoot _ => self
  | .formatVersion version => { self with formatVersion := max self.formatVersion version }
  | keyed =>
    match keyed.key with
    | none => self
    | some key =>
      { self with
        watermarks := self.watermarks.alter key fun remembered =>
          some (max (remembered.getD 0) keyed.counter)
        origins :=
          match keyed.origin with
          | some origin => self.origins.alter key fun remembered => some (remembered.getD origin)
          | none => self.origins }

/-! ### What a ratchet remembers -/

/-- A counter or nothing at each key, and a format version. -/
abbrev Memory := (RecordKey → WithBot ℕ) × ℕ

/-- The map of counters as a function. -/
def countersOf (watermarks : BTreeMap RecordKey ℕ) : RecordKey → WithBot ℕ := fun key =>
  (watermarks[key]? : Option ℕ)

lemma countersOf_injective : Function.Injective countersOf := by
  intro a b h
  apply Std.ExtTreeMap.ext_getElem?
  intro key
  exact congrFun h key

lemma le_countersOf_iff {watermarks : BTreeMap RecordKey ℕ} {key : RecordKey} {counter : ℕ} :
    ((counter : ℕ) : WithBot ℕ) ≤ countersOf watermarks key ↔
      ∃ remembered, watermarks[key]? = some remembered ∧ counter ≤ remembered := by
  rw [countersOf]
  cases h : watermarks[key]? with
  | none =>
    simp only [reduceCtorEq, false_and, exists_false, iff_false]
    exact WithBot.not_coe_le_bot counter
  | some remembered =>
    simp only [Option.some.injEq, exists_eq_left']
    exact WithBot.coe_le_coe

namespace RatchetUpdate

/-- What an update adds. -/
def memory (update : RatchetUpdate) : Memory :=
  (countersOf update.raisedWatermarks, update.raisedFormatVersion.getD 0)

end RatchetUpdate

namespace RatchetRecordV1

/-- What a fact adds. -/
def memory (record : RatchetRecordV1) : Memory :=
  match record with
  | .formatVersion version => (⊥, version)
  | keyed => (fun key => if keyed.key = some key then (keyed.counter : WithBot ℕ) else ⊥, 0)

/-- The root adds nothing. -/
lemma memory_trustedRoot (root : HashValue) : (trustedRoot root).memory = ⊥ := by
  refine Prod.ext (funext fun key => ?_) rfl
  simp [memory, RatchetRecordV1.key]

/-- A keyed fact lies below what has its counter at its key. -/
lemma memory_le_iff_of_key {record : RatchetRecordV1} {key : RecordKey} {bound : Memory}
    (h : record.key = some key) :
    record.memory ≤ bound ↔ (record.counter : WithBot ℕ) ≤ bound.1 key := by
  have hmemory : record.memory =
      (fun k => if key = k then (record.counter : WithBot ℕ) else ⊥, 0) := by
    cases record <;> simp_all [memory, RatchetRecordV1.key]
  rw [hmemory]
  constructor
  · intro hle
    simpa using hle.1 key
  · intro hle
    refine ⟨fun k => ?_, Nat.zero_le _⟩
    simp only
    split_ifs with hk
    · exact hk ▸ hle
    · exact bot_le

end RatchetRecordV1

namespace Ratchet

def memory (self : Ratchet) : Memory := (countersOf self.watermarks, self.formatVersion)

/-- What of a ratchet its facts carry: everything but a counter at the vault root. -/
def storedMemory (self : Ratchet) : Memory :=
  (fun key => if key = .vaultRoot then ⊥ else countersOf self.watermarks key, self.formatVersion)

variable {self other : Ratchet}

lemma memory_eq_iff : self.memory = other.memory ↔
    self.watermarks = other.watermarks ∧ self.formatVersion = other.formatVersion := by
  simp [memory, countersOf_injective.eq_iff]

lemma storedMemory_le_memory (self : Ratchet) : self.storedMemory ≤ self.memory := by
  refine ⟨fun key => ?_, le_refl _⟩
  simp only [storedMemory, memory]
  split_ifs
  · exact bot_le
  · exact le_refl _

lemma storedMemory_mono (h : self.memory ≤ other.memory) :
    self.storedMemory ≤ other.storedMemory := by
  refine ⟨fun key => ?_, h.2⟩
  simp only [storedMemory]
  split_ifs
  · exact bot_le
  · exact h.1 key

/-- Without a counter at the vault root the facts carry everything. -/
lemma storedMemory_eq_memory (h : self.watermarks[RecordKey.vaultRoot]? = none) :
    self.storedMemory = self.memory := by
  refine Prod.ext (funext fun key => ?_) rfl
  simp only [storedMemory, memory]
  split_ifs with hkey
  · subst hkey
    exact (congrArg (fun c : Option ℕ => (c : WithBot ℕ)) h).symm
  · rfl

/-- An update is joined. -/
lemma memory_applyUpdate (self : Ratchet) (update : RatchetUpdate) :
    (self.applyUpdate update).memory = self.memory ⊔ update.memory := by
  refine Prod.ext (funext fun key => ?_) ?_
  · simp only [memory, RatchetUpdate.memory, countersOf, getElem?_applyUpdate, Prod.fst_sup,
      Pi.sup_apply]
    cases update.raisedWatermarks[key]? with
    | none => exact (sup_bot_eq _).symm
    | some counter =>
      cases self.watermarks[key]? with
      | none =>
        simp only [Option.getD_none, Nat.zero_max]
        exact (bot_sup_eq (counter : WithBot ℕ)).symm
      | some remembered => exact WithBot.coe_sup remembered counter
  · simp only [memory, RatchetUpdate.memory, applyUpdate, Prod.snd_sup]
    cases update.raisedFormatVersion <;> simp

/-- Raising the counter at one key is a join. -/
private lemma memory_raise (self : Ratchet) (raised : RecordKey) (counter : ℕ)
    (origins : BTreeMap RecordKey KeyOrigin) :
    memory { self with
      watermarks := self.watermarks.alter raised fun remembered =>
        some (max (remembered.getD 0) counter)
      origins := origins } =
      self.memory ⊔ (fun key => if some raised = some key then (counter : WithBot ℕ) else ⊥, 0) := by
  refine Prod.ext (funext fun key => ?_) (by simp [memory])
  simp only [memory, countersOf, Prod.fst_sup, Pi.sup_apply, Option.some.injEq]
  by_cases hkey : raised = key
  · subst hkey
    simp only [Std.ExtTreeMap.getElem?_alter_self, if_true]
    cases self.watermarks[raised]? with
    | none =>
      simp only [Option.getD_none, Nat.zero_max]
      exact (bot_sup_eq (counter : WithBot ℕ)).symm
    | some remembered => exact WithBot.coe_sup remembered counter
  · have hcmp : compare raised key ≠ .eq := fun h => hkey (Std.LawfulEqCmp.eq_of_compare h)
    simp only [Std.ExtTreeMap.getElem?_alter, hcmp, if_false, hkey]
    exact (sup_bot_eq _).symm

/-- A fact is joined. -/
lemma memory_absorbRecord (self : Ratchet) (record : RatchetRecordV1) :
    (self.absorbRecord record).memory = self.memory ⊔ record.memory := by
  cases record with
  | trustedRoot root =>
    rw [RatchetRecordV1.memory_trustedRoot, sup_bot_eq]
    rfl
  | formatVersion version =>
    refine Prod.ext (funext fun key => ?_) (by simp [memory, absorbRecord, RatchetRecordV1.memory])
    simp [memory, absorbRecord, RatchetRecordV1.memory]
  | _ => exact memory_raise self _ _ _

lemma mem_toRecords {record : RatchetRecordV1} : record ∈ self.toRecords ↔
    (∃ key counter, self.watermarks[key]? = some counter ∧
      RatchetRecordV1.forKey key counter self.origins[key]? = some record) ∨
    (0 < self.formatVersion ∧ record = .formatVersion self.formatVersion) ∨
    record = .trustedRoot self.trustedRoot := by
  simp only [toRecords, List.mem_append, List.mem_filterMap, Prod.exists,
    Std.ExtTreeMap.mem_toList_iff_getElem?_eq_some, List.mem_singleton, or_assoc]
  refine or_congr Iff.rfl (or_congr ?_ Iff.rfl)
  split_ifs with h <;> simp [h]

/-- The facts of a ratchet lie below what its stored memory lies below. -/
lemma storedMemory_le_iff {bound : Memory} :
    self.storedMemory ≤ bound ↔ ∀ record ∈ self.toRecords, record.memory ≤ bound := by
  constructor
  · rintro ⟨hcounters, hversion⟩ record hrecord
    rcases mem_toRecords.mp hrecord with ⟨key, counter, hkey, hfact⟩ | ⟨-, rfl⟩ | rfl
    · have hroot : key ≠ .vaultRoot := by
        intro h
        simp [RatchetRecordV1.forKey_eq_none.mpr h] at hfact
      rw [RatchetRecordV1.memory_le_iff_of_key (RatchetRecordV1.key_forKey hfact),
        RatchetRecordV1.counter_forKey hfact]
      have := hcounters key
      simp only [storedMemory, hroot, countersOf, hkey] at this
      exact this
    · exact ⟨fun _ => bot_le, hversion⟩
    · rw [RatchetRecordV1.memory_trustedRoot]
      exact bot_le
  · intro h
    refine ⟨fun key => ?_, ?_⟩
    · simp only [storedMemory]
      split_ifs with hroot
      · exact bot_le
      · cases hkey : self.watermarks[key]? with
        | none =>
          simp only [countersOf, hkey]
          exact bot_le
        | some counter =>
          obtain ⟨record, hfact⟩ : ∃ record,
              RatchetRecordV1.forKey key counter self.origins[key]? = some record :=
            Option.ne_none_iff_exists'.mp fun h => hroot (RatchetRecordV1.forKey_eq_none.mp h)
          have hle := h record (mem_toRecords.mpr (Or.inl ⟨key, counter, hkey, hfact⟩))
          rw [RatchetRecordV1.memory_le_iff_of_key (RatchetRecordV1.key_forKey hfact),
            RatchetRecordV1.counter_forKey hfact] at hle
          simp only [countersOf, hkey]
          exact hle
    · rcases Nat.eq_zero_or_pos self.formatVersion with hzero | hpos
      · simp [storedMemory, hzero]
      · exact (h _ (mem_toRecords.mpr (Or.inr (Or.inl ⟨hpos, rfl⟩)))).2

/-- A new ratchet remembers nothing. -/
@[simp] lemma memory_new (trustedRoot : HashValue) : (new trustedRoot).memory = ⊥ := by
  refine Prod.ext (funext fun key => ?_) rfl
  simp only [memory, new, countersOf, Std.ExtTreeMap.getElem?_empty]
  rfl

/-- Taking over a list of facts is a join of each of them. -/
lemma memory_absorbRecords_le_iff {records : List RatchetRecordV1} {bound : Memory} :
    (records.foldl absorbRecord self).memory ≤ bound ↔
      self.memory ≤ bound ∧ ∀ record ∈ records, record.memory ≤ bound := by
  induction records generalizing self with
  | nil => simp
  | cons record records ih => simp [ih, memory_absorbRecord, and_assoc]

/-- Taking over the facts of a ratchet joins what they carry. -/
lemma memory_absorb_toRecords (self after : Ratchet) :
    (after.toRecords.foldl absorbRecord self).memory = self.memory ⊔ after.storedMemory := by
  apply eq_of_forall_ge_iff
  intro bound
  rw [memory_absorbRecords_le_iff, sup_le_iff, storedMemory_le_iff]

@[simp] lemma trustedRoot_applyUpdate (self : Ratchet) (update : RatchetUpdate) :
    (self.applyUpdate update).trustedRoot = self.trustedRoot := rfl

@[simp] lemma unknownRecords_applyUpdate (self : Ratchet) (update : RatchetUpdate) :
    (self.applyUpdate update).unknownRecords = self.unknownRecords := rfl

/-- Facts leave the root and the unknown records alone. -/
lemma scope_absorbRecords (self : Ratchet) (records : List RatchetRecordV1) :
    (records.foldl absorbRecord self).trustedRoot = self.trustedRoot ∧
      (records.foldl absorbRecord self).unknownRecords = self.unknownRecords := by
  induction records generalizing self with
  | nil => exact ⟨rfl, rfl⟩
  | cons record records ih =>
    have hscope : (self.absorbRecord record).trustedRoot = self.trustedRoot ∧
        (self.absorbRecord record).unknownRecords = self.unknownRecords := by
      cases record <;> exact ⟨rfl, rfl⟩
    rw [List.foldl_cons, (ih _).1, (ih _).2]
    exact hscope

/-- A ratchet made of facts has no counter at the vault root. -/
lemma vaultRoot_absorbRecords {records : List RatchetRecordV1}
    (h : self.watermarks[RecordKey.vaultRoot]? = none) :
    (records.foldl absorbRecord self).watermarks[RecordKey.vaultRoot]? = none := by
  induction records generalizing self with
  | nil => exact h
  | cons record records ih =>
    apply ih
    have hrecord : record.memory.1 .vaultRoot = ⊥ := by
      cases record <;> simp [RatchetRecordV1.memory, RatchetRecordV1.key]
    have hjoin := congrFun (congrArg Prod.fst (memory_absorbRecord self record)) .vaultRoot
    rw [Prod.fst_sup, Pi.sup_apply, hrecord, sup_bot_eq] at hjoin
    exact hjoin.trans h

/-! ### Origins -/

/-- Every origin belongs to a remembered key and is read back from the fact that carries it. -/
def OriginsLegible (self : Ratchet) : Prop :=
  ∀ (key : RecordKey) (origin : KeyOrigin), self.origins[key]? = some origin →
    self.watermarks[key]? ≠ none ∧
    ∀ counter record, RatchetRecordV1.forKey key counter (some origin) = some record →
      record.origin = some origin

/-- What a keyed fact changes. -/
lemma absorbRecord_of_key {record : RatchetRecordV1} {key : RecordKey} (h : record.key = some key) :
    self.absorbRecord record = { self with
      watermarks := self.watermarks.alter key fun remembered =>
        some (max (remembered.getD 0) record.counter)
      origins := match record.origin with
        | some origin => self.origins.alter key fun remembered => some (remembered.getD origin)
        | none => self.origins } := by
  cases record <;> simp_all [absorbRecord, RatchetRecordV1.key]

lemma absorbRecord_of_unkeyed {record : RatchetRecordV1} (h : record.key = none) :
    (self.absorbRecord record).watermarks = self.watermarks ∧
      (self.absorbRecord record).origins = self.origins := by
  cases record <;> simp_all [absorbRecord, RatchetRecordV1.key]

/-- The first origin of a key is kept. -/
lemma origins_absorbRecord (self : Ratchet) (record : RatchetRecordV1) (key : RecordKey) :
    (self.absorbRecord record).origins[key]? =
      self.origins[key]?.or (if record.key = some key then record.origin else none) := by
  cases hrecord : record.key with
  | none => simp [(absorbRecord_of_unkeyed hrecord).2]
  | some raised =>
    rw [absorbRecord_of_key hrecord]
    cases record.origin with
    | none => simp
    | some origin =>
      by_cases hkey : raised = key
      · subst hkey
        simp only [Std.ExtTreeMap.getElem?_alter_self, if_true]
        cases self.origins[raised]? <;> rfl
      · have hcmp : compare raised key ≠ .eq := fun h => hkey (Std.LawfulEqCmp.eq_of_compare h)
        simp [Std.ExtTreeMap.getElem?_alter, hcmp, hkey]

/-- After a list of facts a key has its old origin, or the first that a fact carries. -/
lemma origins_absorbRecords (records : List RatchetRecordV1) (key : RecordKey) :
    (records.foldl absorbRecord self).origins[key]? =
      self.origins[key]?.or (records.findSome? fun record =>
        if record.key = some key then record.origin else none) := by
  induction records generalizing self with
  | nil => simp
  | cons record records ih =>
    rw [List.foldl_cons, ih, origins_absorbRecord, Option.or_assoc, List.findSome?_cons]
    cases (if record.key = some key then record.origin else none) <;> rfl

/-- The facts of a ratchet give its legible origins back. -/
lemma origins_absorb_toRecords {records : List RatchetRecordV1} (hlegible : self.OriginsLegible)
    (hroot : self.watermarks[RecordKey.vaultRoot]? = none)
    (hmem : ∀ record, record.key ≠ none → (record ∈ records ↔ record ∈ self.toRecords))
    (root : HashValue) (key : RecordKey) :
    (records.foldl absorbRecord (new root)).origins[key]? = self.origins[key]? := by
  have hfact : ∀ record ∈ records, record.key = some key → ∃ counter,
      self.watermarks[key]? = some counter ∧
        RatchetRecordV1.forKey key counter self.origins[key]? = some record := by
    intro record hrecord hkey
    have hstored := (hmem record (by simp [hkey])).mp hrecord
    rcases mem_toRecords.mp hstored with ⟨other, counter, hcounter, hother⟩ | ⟨-, rfl⟩ | rfl
    · obtain rfl : other = key := by simpa [RatchetRecordV1.key_forKey hother] using hkey
      exact ⟨counter, hcounter, hother⟩
    · simp [RatchetRecordV1.key] at hkey
    · simp [RatchetRecordV1.key] at hkey
  have hnew : (new root).origins[key]? = none := Std.ExtTreeMap.getElem?_empty
  rw [origins_absorbRecords, hnew, Option.none_or]
  cases horigin : self.origins[key]? with
  | none =>
    rw [List.findSome?_eq_none_iff]
    intro record hrecord
    split_ifs with hkey
    · obtain ⟨counter, -, hforKey⟩ := hfact record hrecord hkey
      rw [horigin] at hforKey
      cases key <;> simp only [RatchetRecordV1.forKey, Option.some.injEq, reduceCtorEq] at hforKey <;>
        subst hforKey <;> rfl
    · rfl
  | some origin =>
    obtain ⟨hremembered, hread⟩ := hlegible key origin horigin
    obtain ⟨counter, hcounter⟩ := Option.ne_none_iff_exists'.mp hremembered
    obtain ⟨record, hforKey⟩ : ∃ record,
        RatchetRecordV1.forKey key counter (some origin) = some record := by
      refine Option.ne_none_iff_exists'.mp fun h => ?_
      rw [RatchetRecordV1.forKey_eq_none] at h
      simp [h, hroot] at hcounter
    have hkey := RatchetRecordV1.key_forKey hforKey
    have hrecord : record ∈ records := (hmem record (by simp [hkey])).mpr
      (mem_toRecords.mpr (Or.inl ⟨key, counter, hcounter, by rw [horigin]; exact hforKey⟩))
    cases hfound : records.findSome? fun record =>
        if record.key = some key then record.origin else none with
    | none =>
      have hnone := List.findSome?_eq_none_iff.mp hfound record hrecord
      simp [hkey, hread counter record hforKey] at hnone
    | some found =>
      obtain ⟨other, hother, hsome⟩ := List.exists_of_findSome?_eq_some hfound
      split_ifs at hsome with hotherKey
      obtain ⟨counter', hcounter', hforKey'⟩ := hfact other hother hotherKey
      rw [horigin] at hforKey'
      rw [← hsome, hread counter' other hforKey']

/-- Facts keep origins legible. -/
lemma OriginsLegible.absorbRecord (h : self.OriginsLegible) (record : RatchetRecordV1) :
    (self.absorbRecord record).OriginsLegible := by
  intro key origin horigin
  rw [origins_absorbRecord] at horigin
  have hkept : self.watermarks[key]? ≠ none ∨ record.key = some key →
      (self.absorbRecord record).watermarks[key]? ≠ none := by
    intro hkey
    cases hrecord : record.key with
    | none =>
      rw [(absorbRecord_of_unkeyed hrecord).1]
      exact hkey.resolve_right (by simp [hrecord])
    | some raised =>
      rw [absorbRecord_of_key hrecord]
      by_cases heq : raised = key
      · subst heq
        simp
      · have hcmp : compare raised key ≠ .eq := fun h => heq (Std.LawfulEqCmp.eq_of_compare h)
        simp only [Std.ExtTreeMap.getElem?_alter, hcmp, if_false]
        exact hkey.resolve_right (by simp [hrecord, heq])
  rcases Option.or_eq_some_iff.mp horigin with hself | ⟨-, hnew⟩
  · obtain ⟨hremembered, hread⟩ := h key origin hself
    exact ⟨hkept (Or.inl hremembered), hread⟩
  · split_ifs at hnew with hkey
    exact ⟨hkept (Or.inr hkey), fun counter fact hfact =>
      RatchetRecordV1.origin_forKey hkey hnew hfact⟩

lemma OriginsLegible.absorbRecords (h : self.OriginsLegible) (records : List RatchetRecordV1) :
    (records.foldl Ratchet.absorbRecord self).OriginsLegible := by
  induction records generalizing self with
  | nil => exact h
  | cons record records ih => exact ih (h.absorbRecord record)

lemma originsLegible_new (root : HashValue) : (new root).OriginsLegible := by
  intro key origin horigin
  rw [show (new root).origins[key]? = none from Std.ExtTreeMap.getElem?_empty] at horigin
  cases horigin

/-! ### Keeping what was remembered -/

/-- The newer ratchet is for the same root, lowers and loses no counter, does not lower the format
version and drops no unknown record. -/
structure Keeps (older newer : Ratchet) : Prop where
  trustedRoot : newer.trustedRoot = older.trustedRoot
  watermarks : ∀ (key : RecordKey) (counter : ℕ), older.watermarks[key]? = some counter →
    ∃ remembered, newer.watermarks[key]? = some remembered ∧ counter ≤ remembered
  formatVersion : older.formatVersion ≤ newer.formatVersion
  unknownRecords : ∀ unknown ∈ older.unknownRecords, unknown ∈ newer.unknownRecords

lemma memory_le_iff : self.memory ≤ other.memory ↔
    (∀ (key : RecordKey) (counter : ℕ), self.watermarks[key]? = some counter →
      ∃ remembered, other.watermarks[key]? = some remembered ∧ counter ≤ remembered) ∧
    self.formatVersion ≤ other.formatVersion := by
  rw [Prod.le_def, Pi.le_def]
  refine and_congr (forall_congr' fun key => ?_) Iff.rfl
  simp only [memory, ← le_countersOf_iff]
  cases hkey : self.watermarks[key]? with
  | none =>
    simp only [countersOf, hkey, reduceCtorEq, false_imp_iff, implies_true, iff_true]
    exact bot_le
  | some counter =>
    simp only [Option.some.injEq, forall_eq']
    simp only [countersOf, hkey]
    exact Iff.rfl

lemma keeps_of_memory (hroot : other.trustedRoot = self.trustedRoot)
    (hmemory : self.memory ≤ other.memory)
    (hunknown : ∀ unknown ∈ self.unknownRecords, unknown ∈ other.unknownRecords) :
    self.Keeps other :=
  ⟨hroot, (memory_le_iff.mp hmemory).1, (memory_le_iff.mp hmemory).2, hunknown⟩

lemma Keeps.memory_le (h : self.Keeps other) : self.memory ≤ other.memory :=
  memory_le_iff.mpr ⟨h.watermarks, h.formatVersion⟩

/-- What a newer ratchet does not remember, the older one did not. -/
lemma Keeps.eq_none (h : self.Keeps other) {key : RecordKey}
    (hkey : other.watermarks[key]? = none) : self.watermarks[key]? = none := by
  cases hself : self.watermarks[key]? with
  | none => rfl
  | some counter =>
    obtain ⟨remembered, hother, -⟩ := h.watermarks key counter hself
    simp [hkey] at hother

@[refl] lemma Keeps.refl (self : Ratchet) : self.Keeps self :=
  keeps_of_memory rfl (le_refl _) fun _ h => h

@[trans] lemma Keeps.trans {last : Ratchet} (h : self.Keeps other) (h' : other.Keeps last) :
    self.Keeps last :=
  keeps_of_memory (h'.trustedRoot.trans h.trustedRoot) (h.memory_le.trans h'.memory_le)
    fun unknown hu => h'.unknownRecords unknown (h.unknownRecords unknown hu)

lemma keeps_applyUpdate (self : Ratchet) (update : RatchetUpdate) :
    self.Keeps (self.applyUpdate update) :=
  keeps_of_memory rfl (by rw [memory_applyUpdate]; exact le_sup_left) fun _ h => h

end Ratchet

end Thorax
