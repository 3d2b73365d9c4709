import Thorax.Properties.AcceptRollback
import Thorax.Properties.Addressing
import Thorax.TestStore

/-!
# The ratchet in memory and the ratchet in its file

A ratchet grows by the updates of validations, by single facts and by being read from a file. In
its file it is a set of facts. A fact carries the name of its key along with the counter, an empty
name stands for none, and a name whose key has no counter has no fact at all.
-/

namespace Thorax

open Collections

/-! ### Names of keys -/

/-- A name of the kind of its key, with a handle that is there. -/
def KeyOrigin.Fits : RecordKey → KeyOrigin → Prop
  | .userHandle _, .userHandle handle | .vaultHandle _, .vaultHandle handle => handle ≠ ""
  | .groupMember _, .groupMember _ _ | .secret _, .secret _ => True
  | _, _ => False

/-- A name that a fact tells from none: of the names that fit, all but that of the secret without
a tuple. -/
def KeyOrigin.Tellable : KeyOrigin → Prop
  | .secret selector => selector.tuple ≠ []
  | _ => True

instance : DecidablePred KeyOrigin.Tellable
  | .secret selector => inferInstanceAs (Decidable (selector.tuple ≠ []))
  | .userHandle _ | .vaultHandle _ | .groupMember _ _ => isTrue trivial

section Names

variable {key : RecordKey} {origin : KeyOrigin}

/-- A fact gives the name it is made with back exactly if it can tell it. -/
lemma legible_iff_tellable (h : origin.Fits key) :
    (∀ counter record, RatchetRecordV1.forKey key counter (some origin) = some record →
      record.origin = some origin) ↔ origin.Tellable := by
  cases key <;> cases origin <;>
    simp_all [KeyOrigin.Fits, KeyOrigin.Tellable, RatchetRecordV1.forKey, RatchetRecordV1.origin]

lemma fits_of_fact {fact : RatchetRecordV1} (hkey : fact.key = some key)
    (horigin : fact.origin = some origin) : origin.Fits key := by
  cases fact <;> simp only [RatchetRecordV1.key, Option.some.injEq, reduceCtorEq] at hkey <;>
    subst hkey <;> simp only [RatchetRecordV1.origin, reduceCtorEq] at horigin
  case userHandle | vaultHandle =>
    split_ifs at horigin with hempty
    obtain rfl := Option.some.inj horigin
    exact hempty
  case groupMember =>
    obtain ⟨membership, -, rfl⟩ := Option.map_eq_some_iff.mp horigin
    trivial
  case secret =>
    split_ifs at horigin
    obtain rfl := Option.some.inj horigin
    trivial

/-- A fact about a secret without a tuple has no labels either. -/
def RatchetRecordV1.Plain : RatchetRecordV1 → Prop
  | .secret _ _ selector => selector.tuple = [] → selector.labels = []
  | _ => True

/-- A plain fact is made of its key, its counter and its name. -/
lemma forKey_eq_self {fact : RatchetRecordV1} (hkey : fact.key = some key) :
    RatchetRecordV1.forKey key fact.counter fact.origin = some fact ↔ fact.Plain := by
  cases fact <;> simp only [RatchetRecordV1.key, Option.some.injEq, reduceCtorEq] at hkey <;>
    subst hkey
  case userHandle id counter handle | vaultHandle id counter handle =>
    by_cases hempty : handle = "" <;>
      simp [RatchetRecordV1.forKey, RatchetRecordV1.origin, RatchetRecordV1.counter,
        RatchetRecordV1.Plain, hempty]
  case groupMember id counter membership =>
    cases membership <;>
      simp [RatchetRecordV1.forKey, RatchetRecordV1.origin, RatchetRecordV1.counter,
        RatchetRecordV1.Plain]
  case secret id counter selector =>
    obtain ⟨tuple, labels⟩ := selector
    by_cases hempty : tuple = [] <;>
      simp [RatchetRecordV1.forKey, RatchetRecordV1.origin, RatchetRecordV1.counter,
        RatchetRecordV1.Plain, hempty, eq_comm]
  all_goals simp [RatchetRecordV1.forKey, RatchetRecordV1.counter, RatchetRecordV1.Plain]

end Names

/-! ### What validations name -/

section Validations

variable {crypto : CryptoProvider} {vault : VaultStore} {ratchet : Ratchet}
variable {known : BTreeSet HashValue} {key : RecordKey} {origin : KeyOrigin}

/-- The name of a well-formed record fits the key of the record. -/
lemma fits_of_structure {root : VaultRootRecordV1} {record : VerifiedRecord}
    (horigin : recordOrigin record.body = some origin)
    (hstruct : structurallyValidateRecord crypto record.signed record.body root = .ok ()) :
    origin.Fits record.key := by
  have hhandle : isValidHandle "" = false := by decide
  unfold VerifiedRecord.key
  cases hbody : record.body <;> rw [hbody] at horigin hstruct <;>
    simp only [recordOrigin, Option.some.injEq, reduceCtorEq] at horigin <;> subst horigin <;>
    simp only [recordKeyFor, KeyOrigin.Fits]
  case userHandle =>
    rintro hempty
    have hvalid := (userHandle_of_structure hstruct).1
    rw [hempty, hhandle] at hvalid
    cases hvalid
  case vaultHandle =>
    rintro hempty
    have hvalid := (vaultHandle_of_structure hstruct).1
    rw [hempty, hhandle] at hvalid
    cases hvalid

/-- A validation names keys by names that fit them. -/
lemma fits_of_validated (h : (validateVaultWithVerified crypto vault ratchet
    known).ratchetUpdate.origins[key]? = some origin) : origin.Fits key := by
  cases hresolved : resolvedWith crypto known vault ratchet with
  | none =>
    rw [(validateVaultWithVerified_of_unresolved hresolved).2.1] at h
    simp [RatchetUpdate.empty] at h
  | some resolved =>
    obtain ⟨root, records⟩ := resolved
    obtain ⟨-, -, rfl⟩ := resolvedWith_eq_some.mp hresolved
    have hobserved := (learned_of_resolved hresolved).2 key origin h
    rw [observedOrigins, admittedOrigins, getElem?_collectNew] at hobserved
    simp only [Std.ExtTreeMap.getElem?_empty, Option.none_or, Option.map_eq_some_iff] at hobserved
    obtain ⟨entry, hfind, rfl⟩ := hobserved
    obtain rfl : entry.1 = key := by simpa using List.find?_some hfind
    obtain ⟨record, hrecord, hnamed⟩ := List.mem_filterMap.mp (List.mem_of_find?_eq_some hfind)
    split_ifs at hnamed
    obtain ⟨name, hname, rfl⟩ := Option.map_eq_some_iff.mp hnamed
    exact fits_of_structure hname (structure_of_verified hrecord)

/-- No validation raises a counter at the vault root. -/
lemma vaultRoot_not_raised : (validateVaultWithVerified crypto vault ratchet
    known).ratchetUpdate.raisedWatermarks[RecordKey.vaultRoot]? = none := by
  cases hresolved : resolvedWith crypto known vault ratchet with
  | none =>
    rw [(validateVaultWithVerified_of_unresolved hresolved).2.1]
    simp [RatchetUpdate.empty]
  | some resolved =>
    obtain ⟨root, records⟩ := resolved
    rw [Option.eq_none_iff_forall_ne_some]
    intro counter hraised
    have hcurrent := (learned_of_resolved hresolved).1 .vaultRoot counter hraised
    obtain ⟨⟨record, ⟨-, hkey, hcounter, -⟩, -⟩, -⟩ := admittedWatermarks_eq_some.mp hcurrent
    cases hbody : record.body <;>
      simp [VerifiedRecord.key, recordKeyFor, hbody] at hkey
    simp [hbody, RecordBodyV1.lwwCounter] at hcounter

end Validations

/-! ### Ratchets in memory -/

namespace Ratchet

variable {self : Ratchet}

/-- No counter at the vault root, and names that fit their keys. -/
structure Formed (ratchet : Ratchet) : Prop where
  vaultRoot : ratchet.watermarks[RecordKey.vaultRoot]? = none
  fits : ∀ (key : RecordKey) (origin : KeyOrigin), ratchet.origins[key]? = some origin →
    origin.Fits key

/-- Every named key has a counter, and a name that a fact tells from none. -/
def NamesTold (self : Ratchet) : Prop :=
  ∀ (key : RecordKey) (origin : KeyOrigin), self.origins[key]? = some origin →
    self.watermarks[key]? ≠ none ∧ origin.Tellable

/-- An update names a key anew only if the key has a counter, before or by the update, and only by
a name that a fact tells from none. -/
def TellsNames (self : Ratchet) (update : RatchetUpdate) : Prop :=
  ∀ (key : RecordKey) (origin : KeyOrigin), update.origins[key]? = some origin →
    self.origins[key]? = none →
    (self.watermarks[key]? ≠ none ∨ update.raisedWatermarks[key]? ≠ none) ∧ origin.Tellable

lemma Formed.legible_iff (h : self.Formed) : self.OriginsLegible ↔ self.NamesTold :=
  forall₂_congr fun key origin => imp_congr_right fun horigin =>
    and_congr_right fun _ => legible_iff_tellable (h.fits key origin horigin)

lemma formed_new (root : HashValue) : (new root).Formed :=
  ⟨Std.ExtTreeMap.getElem?_empty, fun key origin h => by simp [new] at h⟩

lemma namesTold_new (root : HashValue) : (new root).NamesTold := by
  intro key origin h
  simp [new] at h

lemma Formed.absorbRecord (h : self.Formed) (record : RatchetRecordV1) :
    (self.absorbRecord record).Formed := by
  have hroot : ([record].foldl Ratchet.absorbRecord self).watermarks[RecordKey.vaultRoot]? = none :=
    vaultRoot_absorbRecords h.vaultRoot
  refine ⟨hroot, fun key origin horigin => ?_⟩
  rw [origins_absorbRecord] at horigin
  rcases Option.or_eq_some_iff.mp horigin with hself | ⟨-, hnew⟩
  · exact h.fits key origin hself
  · split_ifs at hnew with hkey
    exact fits_of_fact hkey hnew

lemma Formed.absorbRecords (h : self.Formed) (records : List RatchetRecordV1) :
    (records.foldl Ratchet.absorbRecord self).Formed := by
  induction records generalizing self with
  | nil => exact h
  | cons record records ih => exact ih (h.absorbRecord record)

lemma formed_of_decodeRatchet {provider : StoreProvider} {path : StorePath} {bytes : Bytes}
    (h : decodeRatchet provider path bytes = .ok self) : self.Formed := by
  obtain ⟨_, records, _, _, hinto⟩ := decodeRatchet_eq_ok.mp h
  obtain ⟨root, -, rfl⟩ := Option.map_eq_some_iff.mp hinto
  have hformed := (formed_new root).absorbRecords (records.filterMap knownFact)
  exact ⟨hformed.vaultRoot, hformed.fits⟩

lemma Formed.applyUpdate (h : self.Formed) (crypto : CryptoProvider) (vault : VaultStore)
    (validated : Ratchet) (known : BTreeSet HashValue) :
    (self.applyUpdate (validateVaultWithVerified crypto vault validated
      known).ratchetUpdate).Formed := by
  refine ⟨?_, fun key origin horigin => ?_⟩
  · rw [getElem?_applyUpdate, vaultRoot_not_raised]
    exact h.vaultRoot
  · rw [origins_applyUpdate] at horigin
    rcases Option.or_eq_some_iff.mp horigin with hself | ⟨-, hlearned⟩
    · exact h.fits key origin hself
    · exact fits_of_validated hlearned

/-- An update leaves the names told exactly if it tells what it names anew. -/
lemma NamesTold.applyUpdate_iff (h : self.NamesTold) {update : RatchetUpdate} :
    (self.applyUpdate update).NamesTold ↔ self.TellsNames update := by
  have hcounter : ∀ key : RecordKey, (self.applyUpdate update).watermarks[key]? ≠ none ↔
      self.watermarks[key]? ≠ none ∨ update.raisedWatermarks[key]? ≠ none := by
    intro key
    rw [getElem?_applyUpdate]
    cases update.raisedWatermarks[key]? <;> simp
  constructor
  · intro hafter key origin hupdate hnew
    have horigin : (self.applyUpdate update).origins[key]? = some origin := by
      rw [origins_applyUpdate, hnew, Option.none_or, hupdate]
    rw [← hcounter]
    exact hafter key origin horigin
  · intro htells key origin horigin
    rw [origins_applyUpdate] at horigin
    rw [hcounter]
    rcases Option.or_eq_some_iff.mp horigin with hself | ⟨hnew, hlearned⟩
    · exact ⟨Or.inl (h key origin hself).1, (h key origin hself).2⟩
    · exact htells key origin hlearned hnew

end Ratchet

section Runs

variable (provider : StoreProvider) (permits : Ratchet → RatchetUpdate → Prop)

/-- The ratchets that a run of the program can have in memory: new ones, ones read from a file,
and what facts and the updates of validations, of any vault under any ratchet, make of them. The
run applies only updates that are permitted. -/
inductive RatchetReached : Ratchet → Prop
  | new (root : HashValue) : RatchetReached (.new root)
  | update {ratchet : Ratchet} (vault : VaultStore) (validated : Ratchet)
      (known : BTreeSet HashValue) : RatchetReached ratchet →
      permits ratchet (validateVaultWithVerified provider.toCryptoProvider vault validated
        known).ratchetUpdate →
      RatchetReached (ratchet.applyUpdate (validateVaultWithVerified provider.toCryptoProvider vault
        validated known).ratchetUpdate)
  | absorb {ratchet : Ratchet} (record : RatchetRecordV1) : RatchetReached ratchet →
      RatchetReached (ratchet.absorbRecord record)
  | decode {ratchet : Ratchet} (path : StorePath) (bytes : Bytes) :
      decodeRatchet provider path bytes = .ok ratchet → RatchetReached ratchet

variable {provider permits} {ratchet : Ratchet}

lemma RatchetReached.formed (h : RatchetReached provider permits ratchet) : ratchet.Formed := by
  induction h with
  | new root => exact Ratchet.formed_new root
  | update vault validated known _ _ ih => exact ih.applyUpdate _ vault validated known
  | absorb record _ ih => exact ih.absorbRecord record
  | decode path bytes hread => exact Ratchet.formed_of_decodeRatchet hread

/-- What a file says, and what a fact adds, is told. -/
lemma RatchetReached.namesTold (h : RatchetReached provider Ratchet.TellsNames ratchet) :
    ratchet.NamesTold := by
  induction h with
  | new root => exact Ratchet.namesTold_new root
  | update vault validated known _ htells ih => exact ih.applyUpdate_iff.mpr htells
  | absorb record hreached ih =>
    have hformed := hreached.formed
    exact (hformed.absorbRecord record).legible_iff.mp ((hformed.legible_iff.mpr ih).absorbRecord
      record)
  | decode path bytes hread =>
    exact (Ratchet.formed_of_decodeRatchet hread).legible_iff.mp (originsLegible_of_decodeRatchet hread)

end Runs

/-- A formed ratchet is read back as it was exactly if its names are told. -/
lemma Ratchet.Formed.agrees_iff {provider : StoreProvider} {ratchet : Ratchet} {bytes : Bytes}
    (h : ratchet.Formed) (path : StorePath) (hbytes : encodeRatchet provider ratchet = .ok bytes) :
    ∃ stored, decodeRatchet provider path bytes = .ok stored ∧
      (ratchet.Agrees stored ↔ ratchet.NamesTold) := by
  obtain ⟨stored, hread, hstored⟩ := storedAs_of_encodeRatchet path hbytes
  refine ⟨stored, hread, fun hagrees => ?_, fun htold => ?_⟩
  · have hlegible := originsLegible_of_decodeRatchet hread
    rw [Ratchet.OriginsLegible, hagrees.origins, hagrees.watermarks] at hlegible
    exact h.legible_iff.mp hlegible
  · have hmemory : stored.memory = ratchet.memory := by
      rw [hstored.memory, Ratchet.storedMemory_eq_memory h.vaultRoot]
    obtain ⟨hwatermarks, hversion⟩ := Ratchet.memory_eq_iff.mp hmemory
    exact ⟨hstored.trustedRoot, hwatermarks,
      origins_of_encodeRatchet hbytes hread (h.legible_iff.mpr htold) h.vaultRoot, hversion,
      hstored.unknownRecords⟩

/-! ### Canonical files -/

section Facts

variable {self : Ratchet} {records : List RatchetRecordV1} {key : RecordKey}

lemma Ratchet.watermarks_absorbRecord (record : RatchetRecordV1) :
    (self.absorbRecord record).watermarks[key]? =
      if record.key = some key then some (max (self.watermarks[key]?.getD 0) record.counter)
      else self.watermarks[key]? := by
  cases hrecord : record.key with
  | none => simp [(absorbRecord_of_unkeyed hrecord).1]
  | some raised =>
    rw [absorbRecord_of_key hrecord]
    by_cases hkey : raised = key
    · subst hkey
      simp
    · have hcmp : compare raised key ≠ .eq := fun h => hkey (Std.LawfulEqCmp.eq_of_compare h)
      simp [Std.ExtTreeMap.getElem?_alter, hcmp, hkey]

/-- Where at most one fact stands for a key, a new ratchet takes over its counter. -/
lemma Ratchet.watermarks_absorbRecords {fact : RatchetRecordV1} (hkey : fact.key = some key)
    (hunique : ∀ other ∈ records, other.key = some key → other = fact) :
    (records.foldl Ratchet.absorbRecord self).watermarks[key]? =
      if fact ∈ records then some (max (self.watermarks[key]?.getD 0) fact.counter)
      else self.watermarks[key]? := by
  induction records generalizing self with
  | nil => simp
  | cons record records ih =>
    obtain ⟨hhead, htail⟩ := List.forall_mem_cons.mp hunique
    rw [List.foldl_cons, ih htail, watermarks_absorbRecord]
    by_cases hrecord : record.key = some key
    · obtain rfl := hhead hrecord
      by_cases hmem : record ∈ records <;> simp [hrecord, hmem]
    · have hne : fact ≠ record := fun heq => hrecord (heq ▸ hkey)
      simp [hrecord, hne]

/-- A key that no fact stands for is left alone. -/
lemma Ratchet.watermarks_absorbRecords_of_not (h : ∀ record ∈ records, record.key ≠ some key) :
    (records.foldl Ratchet.absorbRecord self).watermarks[key]? = self.watermarks[key]? := by
  induction records generalizing self with
  | nil => rfl
  | cons record records ih =>
    obtain ⟨hhead, htail⟩ := List.forall_mem_cons.mp h
    rw [List.foldl_cons, ih htail, watermarks_absorbRecord, if_neg hhead]

lemma Ratchet.formatVersion_absorbRecords_le {bound : ℕ} :
    (records.foldl Ratchet.absorbRecord self).formatVersion ≤ bound ↔
      self.formatVersion ≤ bound ∧
        ∀ version, RatchetRecordV1.formatVersion version ∈ records → version ≤ bound := by
  induction records generalizing self with
  | nil => simp
  | cons record records ih =>
    rw [List.foldl_cons, ih]
    cases record <;> simp [absorbRecord, RatchetRecordV1.key, and_assoc]

/-- Where one fact tells the format version, a new ratchet takes it over. -/
lemma Ratchet.formatVersion_absorbRecords {version : ℕ} {root : HashValue}
    (hmem : RatchetRecordV1.formatVersion version ∈ records)
    (hunique : ∀ other, RatchetRecordV1.formatVersion other ∈ records → other = version) :
    (records.foldl Ratchet.absorbRecord (.new root)).formatVersion = version := by
  apply le_antisymm
  · exact formatVersion_absorbRecords_le.mpr
      ⟨Nat.zero_le _, fun other hother => (hunique other hother).le⟩
  · exact (formatVersion_absorbRecords_le.mp (le_refl _)).2 version hmem

/-- Where at most one fact stands for a key, a new ratchet takes over its name. -/
lemma Ratchet.origins_absorbRecords_of_unique {fact : RatchetRecordV1} {root : HashValue}
    (hkey : fact.key = some key) (hmem : fact ∈ records)
    (hunique : ∀ other ∈ records, other.key = some key → other = fact) :
    (records.foldl Ratchet.absorbRecord (.new root)).origins[key]? = fact.origin := by
  have hnew : (Ratchet.new root).origins[key]? = none := Std.ExtTreeMap.getElem?_empty
  rw [origins_absorbRecords, hnew, Option.none_or]
  cases hfound : records.findSome? fun record =>
      if record.key = some key then record.origin else none with
  | none =>
    have hnone := List.findSome?_eq_none_iff.mp hfound fact hmem
    rw [if_pos hkey] at hnone
    exact hnone.symm
  | some origin =>
    obtain ⟨other, hother, hsome⟩ := List.exists_of_findSome?_eq_some hfound
    split_ifs at hsome with hotherKey
    rw [← hsome, hunique other hother hotherKey]

end Facts

/-- At most one fact stands for each thing that is remembered, no fact says that the format has no
version, and a secret without a tuple has no labels. -/
structure CanonicalFacts (records : List (Evolving RatchetRecordV1)) : Prop where
  roots : ∀ root root', .known (.trustedRoot root) ∈ records →
    .known (.trustedRoot root') ∈ records → root = root'
  versions : ∀ version, .known (.formatVersion version) ∈ records → 0 < version ∧
    ∀ version', .known (.formatVersion version') ∈ records → version' = version
  keys : ∀ fact other key, .known fact ∈ records → .known other ∈ records →
    fact.key = some key → other.key = some key → other = fact
  plain : ∀ fact, .known fact ∈ records → fact.Plain

section Files

variable {ratchet : Ratchet} {records : List (Evolving RatchetRecordV1)}

/-- The facts of a formed ratchet whose names are told are canonical. -/
lemma canonicalFacts_of_store (hformed : ratchet.Formed) (htold : ratchet.NamesTold)
    (h : ∀ record, record ∈ ratchetStore ratchet ↔ record ∈ records) : CanonicalFacts records := by
  have hfact : ∀ fact, Evolving.known fact ∈ records ↔ fact ∈ ratchet.toRecords := fun fact => by
    rw [← h, mem_ratchetStore]
  have hunkeyed : ∀ {key counter origin fact}, RatchetRecordV1.forKey key counter origin = some fact →
      fact.key ≠ none := fun hforKey hnone => by
    simp [RatchetRecordV1.key_forKey hforKey] at hnone
  have hroot : ∀ root, .known (.trustedRoot root) ∈ records → root = ratchet.trustedRoot := by
    intro root hmem
    rcases Ratchet.mem_toRecords.mp ((hfact _).mp hmem) with ⟨_, _, _, hforKey⟩ | ⟨-, heq⟩ | heq
    · exact absurd rfl (hunkeyed hforKey)
    · cases heq
    · exact RatchetRecordV1.trustedRoot.inj heq
  have hversion : ∀ version, .known (.formatVersion version) ∈ records →
      0 < ratchet.formatVersion ∧ version = ratchet.formatVersion := by
    intro version hmem
    rcases Ratchet.mem_toRecords.mp ((hfact _).mp hmem) with ⟨_, _, _, hforKey⟩ | ⟨hpos, heq⟩ | heq
    · exact absurd rfl (hunkeyed hforKey)
    · exact ⟨hpos, RatchetRecordV1.formatVersion.inj heq⟩
    · cases heq
  have hkeyed : ∀ fact key, .known fact ∈ records → fact.key = some key → ∃ counter,
      ratchet.watermarks[key]? = some counter ∧
        RatchetRecordV1.forKey key counter ratchet.origins[key]? = some fact := by
    intro fact key hmem hkey
    rcases Ratchet.mem_toRecords.mp ((hfact _).mp hmem) with
      ⟨other, counter, hcounter, hforKey⟩ | ⟨-, rfl⟩ | rfl
    · obtain rfl : other = key := by simpa [RatchetRecordV1.key_forKey hforKey] using hkey
      exact ⟨counter, hcounter, hforKey⟩
    · cases hkey
    · cases hkey
  refine ⟨fun root root' hmem hmem' => (hroot root hmem).trans (hroot root' hmem').symm,
    fun version hmem => ?_, fun fact other key hmem hother hkey hkey' => ?_, fun fact hmem => ?_⟩
  · obtain ⟨hpos, rfl⟩ := hversion version hmem
    exact ⟨hpos, fun version' hmem' => (hversion version' hmem').2⟩
  · obtain ⟨counter, hcounter, hforKey⟩ := hkeyed fact key hmem hkey
    obtain ⟨counter', hcounter', hforKey'⟩ := hkeyed other key hother hkey'
    obtain rfl := Option.some.inj (hcounter.symm.trans hcounter')
    exact Option.some.inj (hforKey'.symm.trans hforKey)
  · cases hkey : fact.key with
    | none => cases fact <;> trivial
    | some key =>
      obtain ⟨counter, -, hforKey⟩ := hkeyed fact key hmem hkey
      rw [← forKey_eq_self hkey, RatchetRecordV1.counter_forKey hforKey]
      cases horigin : ratchet.origins[key]? with
      | none =>
        have hnone : fact.origin = none := by
          rw [horigin] at hforKey
          cases key <;> simp only [RatchetRecordV1.forKey, Option.some.injEq, reduceCtorEq] at hforKey <;>
            subst hforKey <;> rfl
        rw [hnone, ← horigin, hforKey]
      | some origin =>
        have hlegible := (hformed.legible_iff.mpr htold key origin horigin).2 counter fact
          (horigin ▸ hforKey)
        rw [hlegible, ← horigin, hforKey]

/-- Canonical facts are those of the ratchet they are read as. -/
lemma store_of_canonicalFacts (h : CanonicalFacts records)
    (hinto : intoRatchet records = some ratchet) (record : Evolving RatchetRecordV1) :
    record ∈ ratchetStore ratchet ↔ record ∈ records := by
  obtain ⟨root, hlast, rfl⟩ := Option.map_eq_some_iff.mp hinto
  have hroot : Evolving.known (.trustedRoot root) ∈ records := by
    obtain ⟨found, hfound, hnamed⟩ := List.mem_filterMap.mp (List.mem_of_getLast? hlast)
    rcases found with fact | raw
    · cases fact <;> simp only [namedRoot, Option.some.injEq, reduceCtorEq] at hnamed
      exact hnamed ▸ hfound
    · cases hnamed
  have hfacts : ∀ fact : RatchetRecordV1, fact.key ≠ none →
      (fact ∈ records.filterMap knownFact ↔ .known fact ∈ records) := fun fact hkeyed =>
    mem_filterMap_knownFact hkeyed
  have hversion : ∀ version, RatchetRecordV1.formatVersion version ∈ records.filterMap knownFact ↔
      .known (.formatVersion version) ∈ records := by
    intro version
    rw [List.mem_filterMap]
    constructor
    · rintro ⟨found, hfound, hknown⟩
      rcases found with fact | raw
      · cases fact <;> simp_all [knownFact]
      · cases hknown
    · exact fun hmem => ⟨_, hmem, rfl⟩
  have hunique : ∀ fact key, .known fact ∈ records → fact.key = some key →
      ∀ other ∈ records.filterMap knownFact, other.key = some key → other = fact :=
    fun fact key hmem hkey other hother hotherKey =>
      h.keys fact other key hmem ((hfacts other (by simp [hotherKey])).mp hother) hkey hotherKey
  have hremembered : ∀ fact key, .known fact ∈ records → fact.key = some key →
      ((records.filterMap knownFact).foldl Ratchet.absorbRecord (.new root)).watermarks[key]? =
        some fact.counter ∧
      RatchetRecordV1.forKey key fact.counter ((records.filterMap knownFact).foldl
        Ratchet.absorbRecord (.new root)).origins[key]? = some fact := by
    intro fact key hmem hkey
    have hin := (hfacts fact (by simp [hkey])).mpr hmem
    have hsame := hunique fact key hmem hkey
    rw [Ratchet.watermarks_absorbRecords hkey hsame, if_pos hin,
      Ratchet.origins_absorbRecords_of_unique hkey hin hsame, forKey_eq_self hkey]
    exact ⟨by simp [Ratchet.new], h.plain fact hmem⟩
  rw [mem_ratchetStore]
  rcases record with fact | raw
  · simp only [Ratchet.mem_toRecords]
    constructor
    · rintro (⟨key, counter, hcounter, hforKey⟩ | ⟨hpos, rfl⟩ | rfl)
      · -- a counter comes from a fact, and there is one fact for its key
        obtain ⟨other, hother, hotherKey⟩ : ∃ other ∈ records.filterMap knownFact,
            other.key = some key := by
          by_contra hnone
          push Not at hnone
          rw [Ratchet.watermarks_absorbRecords_of_not hnone] at hcounter
          simp [Ratchet.new] at hcounter
        have hmem := (hfacts other (by simp [hotherKey])).mp hother
        obtain ⟨hcounter', hforKey'⟩ := hremembered other key hmem hotherKey
        obtain rfl := Option.some.inj (hcounter.symm.trans hcounter')
        rwa [← Option.some.inj (hforKey'.symm.trans hforKey)]
      · obtain ⟨version, hmem⟩ : ∃ version,
            RatchetRecordV1.formatVersion version ∈ records.filterMap knownFact := by
          by_contra hnone
          push Not at hnone
          exact absurd (Ratchet.formatVersion_absorbRecords_le.mpr
            ⟨le_refl 0, fun version hmem => absurd hmem (hnone version)⟩) (not_le.mpr hpos)
        have hknown := (hversion version).mp hmem
        rwa [Ratchet.formatVersion_absorbRecords hmem fun other hother =>
          (h.versions version hknown).2 other ((hversion other).mp hother)]
      · rwa [(Ratchet.scope_absorbRecords _ _).1]
    · intro hmem
      cases hkey : fact.key with
      | some key =>
        obtain ⟨hcounter, hforKey⟩ := hremembered fact key hmem hkey
        exact Or.inl ⟨key, fact.counter, hcounter, hforKey⟩
      | none =>
        cases fact <;> simp only [RatchetRecordV1.key, reduceCtorEq] at hkey
        case formatVersion version =>
          obtain ⟨hpos, hsame⟩ := h.versions version hmem
          have hversion' := @Ratchet.formatVersion_absorbRecords (records.filterMap knownFact)
            version root ((hversion version).mpr hmem) fun other hother =>
              hsame other ((hversion other).mp hother)
          exact Or.inr (Or.inl ⟨hpos.trans_eq hversion'.symm, by rw [hversion']⟩)
        case trustedRoot root' =>
          refine Or.inr (Or.inr ?_)
          rw [(Ratchet.scope_absorbRecords _ _).1, h.roots root' root hmem hroot]
          rfl
  · simp only [List.mem_filterMap]
    constructor
    · rintro ⟨found, hfound, hraw⟩
      rcases found with fact | raw'
      · cases hraw
      · obtain rfl := UnknownRatchetRecord.mk.inj (Option.some.inj hraw)
        exact hfound
    · exact fun hmem => ⟨_, hmem, rfl⟩

end Files

/-! ### Round trips -/

section RoundTrips

variable {provider : StoreProvider} {ratchet : Ratchet} {bytes : Bytes}

/-- The facts of a ratchet are distinct. -/
lemma nodup_toRecords (ratchet : Ratchet) : ratchet.toRecords.Nodup := by
  have hkeyed : (ratchet.watermarks.toList.filterMap fun entry =>
      RatchetRecordV1.forKey entry.1 entry.2 ratchet.origins[entry.1]?).Nodup := by
    refine List.Pairwise.filterMap _ ?_ Std.ExtTreeMap.distinct_keys_toList
    intro entry other hdistinct fact hfact other' hother heq
    have hkey := (RatchetRecordV1.key_forKey hfact).symm.trans
      ((congrArg RatchetRecordV1.key heq).trans (RatchetRecordV1.key_forKey hother))
    exact hdistinct (by rw [Option.some.inj hkey]; exact Std.ReflCmp.compare_self)
  have hunkeyed : ∀ fact ∈ ratchet.watermarks.toList.filterMap fun entry =>
      RatchetRecordV1.forKey entry.1 entry.2 ratchet.origins[entry.1]?, fact.key ≠ none := by
    intro fact hfact
    obtain ⟨entry, -, hforKey⟩ := List.mem_filterMap.mp hfact
    simp [RatchetRecordV1.key_forKey hforKey]
  have hrest : ((if 0 < ratchet.formatVersion then [RatchetRecordV1.formatVersion
      ratchet.formatVersion] else []) ++
      [RatchetRecordV1.trustedRoot ratchet.trustedRoot]).Nodup := by
    split_ifs <;> simp
  rw [Ratchet.toRecords, List.append_assoc]
  refine hkeyed.append hrest fun fact hfact hother => hunkeyed fact hfact ?_
  split_ifs at hother
  · rcases List.mem_cons.mp hother with rfl | hother
    · rfl
    · rw [List.mem_singleton.mp hother]
      rfl
  · rw [List.nil_append, List.mem_singleton] at hother
    rw [hother]
    rfl

lemma nodup_ratchetStore (h : ratchet.unknownRecords.Nodup) : (ratchetStore ratchet).Nodup := by
  have hunknown : Function.Injective fun unknown : UnknownRatchetRecord =>
      (Evolving.unknown unknown.raw : Evolving RatchetRecordV1) := by
    rintro ⟨raw⟩ ⟨raw'⟩ heq
    obtain rfl := Evolving.unknown.inj heq
    rfl
  refine ((nodup_toRecords ratchet).map fun _ _ => Evolving.known.inj).append (h.map hunknown) ?_
  intro record hfact hraw
  obtain ⟨fact, -, rfl⟩ := List.mem_map.mp hfact
  obtain ⟨raw, -, heq⟩ := List.mem_map.mp hraw
  cases heq

/-- The serializer writes a set in the one way in which it reads it, in whatever order the set is
visited. -/
def CanonicalRatchets (provider : StoreProvider) : Prop :=
  ∀ payload records, provider.ratchetCodec.deserialize payload = .ok records →
    ∀ visited : List (Evolving RatchetRecordV1), visited.Nodup →
      (∀ record, record ∈ visited ↔ record ∈ records) →
      provider.ratchetCodec.serialize visited = .ok payload

/-- A file is written back as it was exactly if its facts are canonical. -/
lemma encodeRatchet_decodeRatchet_iff (hcanonical : CanonicalRatchets provider)
    {path : StorePath} {payload : Bytes} {records : List (Evolving RatchetRecordV1)}
    (hread : decodeRatchet provider path bytes = .ok ratchet)
    (hmagic : afterMagic ratchetMagic bytes = some payload)
    (hrecords : provider.ratchetCodec.deserialize payload = .ok records) :
    encodeRatchet provider ratchet = .ok bytes ↔ CanonicalFacts records := by
  obtain ⟨payload', records', hmagic', hrecords', hinto⟩ := decodeRatchet_eq_ok.mp hread
  obtain rfl := Option.some.inj (hmagic.symm.trans hmagic')
  obtain rfl := Except.ok.inj (hrecords.symm.trans hrecords')
  have hformed := Ratchet.formed_of_decodeRatchet hread
  constructor
  · intro hwritten
    unfold encodeRatchet at hwritten
    cases hserialize : provider.ratchetCodec.serialize (ratchetStore ratchet) with
    | error source => simp [hserialize] at hwritten
    | ok written =>
      simp only [hserialize, Except.ok.injEq] at hwritten
      obtain rfl : written = payload := by
        rw [← hwritten, afterMagic_append] at hmagic
        exact Option.some.inj hmagic
      obtain ⟨stored, hstored, hsame⟩ := provider.ratchetCodec.roundTrip hserialize
      obtain rfl := Except.ok.inj (hstored.symm.trans hrecords)
      exact canonicalFacts_of_store hformed
        (hformed.legible_iff.mp (originsLegible_of_decodeRatchet hread)) fun record =>
          (hsame record).symm
  · intro hfacts
    have hdistinct : records.Nodup := provider.ratchetCodec.distinct hrecords
    have hunknown : ratchet.unknownRecords.Nodup := by
      obtain ⟨root, -, rfl⟩ := Option.map_eq_some_iff.mp hinto
      refine hdistinct.filterMap fun record record' unknown hunknown hunknown' => ?_
      rcases record with fact | raw
      · cases hunknown
      · rcases record' with fact' | raw'
        · cases hunknown'
        · have heq := hunknown.trans hunknown'.symm
          obtain rfl := UnknownRatchetRecord.mk.inj (Option.some.inj heq)
          rfl
    have hserialize := hcanonical payload records hrecords _ (nodup_ratchetStore hunknown)
      (store_of_canonicalFacts hfacts hinto)
    simp only [encodeRatchet, hserialize, eq_append_of_afterMagic hmagic]

/-- A ratchet that a run has in memory is what its file says if and only if each of its names is
of a remembered key and is not that of a secret without a tuple, as is so in every run whose
updates name nothing else; and a file is what its ratchet is written as if and only if it has at
most one fact for each thing that is remembered, and no labels without a tuple. -/
theorem ratchet_roundTrip (hcanonical : CanonicalRatchets provider) (path : StorePath) :
    (encodeRatchet provider ratchet = .ok bytes →
      (∀ permits, RatchetReached provider permits ratchet →
        ∃ stored, decodeRatchet provider path bytes = .ok stored ∧
          (ratchet.Agrees stored ↔ ratchet.NamesTold)) ∧
      (RatchetReached provider Ratchet.TellsNames ratchet →
        ∃ stored, decodeRatchet provider path bytes = .ok stored ∧ ratchet.Agrees stored)) ∧
    (decodeRatchet provider path bytes = .ok ratchet → ∀ payload records,
      afterMagic ratchetMagic bytes = some payload →
      provider.ratchetCodec.deserialize payload = .ok records →
      (encodeRatchet provider ratchet = .ok bytes ↔ CanonicalFacts records)) := by
  refine ⟨fun hbytes => ⟨fun permits hreached => ?_, fun hreached => ?_⟩, ?_⟩
  · exact hreached.formed.agrees_iff path hbytes
  · obtain ⟨stored, hread, hagrees⟩ := hreached.formed.agrees_iff path hbytes
    exact ⟨stored, hread, hagrees.mpr hreached.namesTold⟩
  · exact fun hread payload records hmagic hrecords =>
      encodeRatchet_decodeRatchet_iff hcanonical hread hmagic hrecords

end RoundTrips

/-! ### A secret without a tuple -/

section Unnamed

open TestSupport

/-- A serializer of sets that writes a set as the position of the table entry with its elements. -/
def canonicalRatchetCodec (table : List (List (Evolving RatchetRecordV1))) :
    SetCodec (List (Evolving RatchetRecordV1)) (Evolving RatchetRecordV1) id where
  serialize records :=
    match (table.filter fun entry => entry.Nodup).find? fun entry => entry.isPerm records with
    | some entry => tablePosition (table.filter fun entry => entry.Nodup) entry
    | none => .error (.malformed "value is not in the table")
  deserialize := (tableSetCodec id table).deserialize
  distinct := (tableSetCodec id table).distinct
  roundTrip := by
    intro records bytes h
    split at h
    · next entry hfind =>
      have hperm := List.find?_some hfind
      exact ⟨entry, tableValue_tablePosition h, fun record => (List.isPerm_iff.mp hperm).mem_iff⟩
    · cases h

/-- The root writes a secret at a counter. -/
def countedSecret (selector : SecretSelectorV1) (counter : ℕ) : VaultStore :=
  .v1 ⟨[vaultRootRecord, signedRecord rootUser (.secret
    ⟨deriveSecretId transparentCrypto selector, selector, ⟨[], [], []⟩, counter⟩)]⟩

/-- What a validation under a fresh ratchet lets it learn. -/
def lessonsOf (vault : VaultStore) : RatchetUpdate :=
  (validateVaultWithVerified (tableProvider firstSecretTables).toCryptoProvider vault freshRatchet
    ∅).ratchetUpdate

def learnedFrom (vault : VaultStore) : Ratchet := freshRatchet.applyUpdate (lessonsOf vault)

/-- Two counters for one user. -/
def doubledFacts : List (Evolving RatchetRecordV1) :=
  [.known (.trustedRoot testRoot), .known (.user rootUser.id 1), .known (.user rootUser.id 2)]

def unnamedTable : List (List (Evolving RatchetRecordV1)) :=
  [ratchetStore (learnedFrom (countedSecret ⟨[], []⟩ 1)),
    ratchetStore (learnedFrom (countedSecret ⟨["app"], []⟩ 1)), doubledFacts,
    [.known (.trustedRoot testRoot), .known (.user rootUser.id 2)]]

def unnamedProvider : StoreProvider :=
  { tableProvider firstSecretTables with ratchetCodec := canonicalRatchetCodec unnamedTable }

lemma canonicalRatchets_unnamed : CanonicalRatchets unnamedProvider := by
  intro payload records hread visited hdistinct hsame
  have hrecords : records.Nodup := unnamedProvider.ratchetCodec.distinct hread
  have hperm : visited.Perm records := (List.perm_ext_iff_of_nodup hdistinct hrecords).mpr hsame
  have hentry : ∀ entry : List (Evolving RatchetRecordV1),
      entry.isPerm visited = entry.isPerm records := by
    intro entry
    rw [Bool.eq_iff_iff, List.isPerm_iff, List.isPerm_iff]
    exact ⟨fun h => h.trans hperm, fun h => h.trans hperm.symm⟩
  have hserialize : unnamedProvider.ratchetCodec.serialize visited =
      unnamedProvider.ratchetCodec.serialize records := by
    simp only [unnamedProvider, canonicalRatchetCodec, hentry]
  have hentries : ∀ position : Fin unnamedTable.length,
      unnamedProvider.ratchetCodec.serialize unnamedTable[position] =
        .ok [UInt8.ofNat position] := by
    decide +kernel
  have hkept : (unnamedTable.filter fun entry => entry.Nodup) = unnamedTable := by decide +kernel
  change tableValue (unnamedTable.filter fun entry => entry.Nodup) payload = .ok records at hread
  rw [hkept] at hread
  unfold tableValue at hread
  split at hread
  · next position =>
    cases hget : unnamedTable[position.toNat]? with
    | none => simp [hget] at hread
    | some entry =>
      obtain ⟨hlt, hfound⟩ := List.getElem?_eq_some_iff.mp hget
      simp only [hget, Except.ok.injEq] at hread
      have hwritten := hentries ⟨position.toNat, hlt⟩
      rw [hserialize, ← hread, ← hfound]
      simpa using hwritten
  · cases hread

lemma reached_learned {permits : Ratchet → RatchetUpdate → Prop} {vault : VaultStore}
    (h : permits freshRatchet (lessonsOf vault)) :
    RatchetReached unnamedProvider permits (learnedFrom vault) :=
  @RatchetReached.update unnamedProvider permits freshRatchet vault freshRatchet ∅ (.new _) h

lemma tellsNames_app : freshRatchet.TellsNames (lessonsOf (countedSecret ⟨["app"], []⟩ 1)) := by
  have hentries : ∀ entry ∈ (lessonsOf (countedSecret ⟨["app"], []⟩ 1)).origins.toList,
      (lessonsOf (countedSecret ⟨["app"], []⟩ 1)).raisedWatermarks[entry.1]? ≠ none ∧
        entry.2.Tellable := by decide +kernel
  intro key origin horigin _
  obtain ⟨hraised, htellable⟩ := hentries (key, origin)
    (Std.ExtTreeMap.mem_toList_iff_getElem?_eq_some.mpr horigin)
  exact ⟨Or.inr hraised, htellable⟩

/-- A ratchet that has learned of a secret is what its file says. -/
theorem ratchet_roundTrip_app : ∃ stored, decodeRatchet unnamedProvider (.ratchet testRoot)
    (ratchetFile 1) = .ok stored ∧ (learnedFrom (countedSecret ⟨["app"], []⟩ 1)).Agrees stored := by
  have hbytes : encodeRatchet unnamedProvider (learnedFrom (countedSecret ⟨["app"], []⟩ 1)) =
      .ok (ratchetFile 1) := by decide +kernel
  exact ((ratchet_roundTrip canonicalRatchets_unnamed (.ratchet testRoot)).1 hbytes).2
    (reached_learned tellsNames_app)

/-- A ratchet that has learned of a secret without a tuple forgets its name in its file, and of two
counters of a user only the higher is written. -/
theorem not_ratchet_roundTrip :
    (¬ ∀ provider, CanonicalRatchets provider → ∀ ratchet path bytes,
      RatchetReached provider (fun _ _ => True) ratchet →
      encodeRatchet provider ratchet = .ok bytes →
      ∃ stored, decodeRatchet provider path bytes = .ok stored ∧ ratchet.Agrees stored) ∧
    ¬ ∀ provider, CanonicalRatchets provider → ∀ ratchet path bytes,
      decodeRatchet provider path bytes = .ok ratchet →
      encodeRatchet provider ratchet = .ok bytes := by
  refine ⟨fun h => ?_, fun h => ?_⟩
  · obtain ⟨stored, hread, hagrees⟩ := h unnamedProvider canonicalRatchets_unnamed
      (learnedFrom (countedSecret ⟨[], []⟩ 1)) (.ratchet testRoot) (ratchetFile 0)
      (reached_learned trivial) (by decide +kernel)
    have hnames : (decodeRatchet unnamedProvider (.ratchet testRoot) (ratchetFile 0)).map
        (·.origins) = .ok ∅ := by decide +kernel
    rw [hread] at hnames
    have hempty := hagrees.origins.symm.trans (Except.ok.inj hnames)
    exact absurd hempty (by decide +kernel)
  · have hother : (decodeRatchet unnamedProvider (.ratchet testRoot) (ratchetFile 2)).bind
        (encodeRatchet unnamedProvider) = .ok (ratchetFile 3) := by decide +kernel
    cases hread : decodeRatchet unnamedProvider (.ratchet testRoot) (ratchetFile 2) with
    | error e =>
      rw [hread] at hother
      cases hother
    | ok ratchet =>
      have hwritten := h unnamedProvider canonicalRatchets_unnamed ratchet (.ratchet testRoot)
        (ratchetFile 2) hread
      rw [hread] at hother
      exact absurd (hwritten.symm.trans hother) (by decide)

end Unnamed

end Thorax
