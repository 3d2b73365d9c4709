import Thorax.TestStore
import Thorax.Update.State

/-!
# Releases are not rolled back

Every operation on the update state moves what is remembered forward, whether it ends, fails or is
cut off, and in particular when it is cut off between the write of the state file and the removal
of the markers it was carried over from. So in every run no epoch decreases, and what was recorded
for an epoch stays.
-/

namespace Thorax.Update

open Durable

/-! ### Moving forward -/

/-- No older epoch, and for the same epoch the same version and every hash already recorded. -/
structure AcceptedReleaseV1.Follows (older newer : AcceptedReleaseV1) : Prop where
  epoch : older.epoch ≤ newer.epoch
  version : newer.epoch = older.epoch → newer.version = older.version
  hash : newer.epoch = older.epoch → ∀ hash, older.signedManifestSha256 = some hash →
    newer.signedManifestSha256 = some hash

lemma AcceptedReleaseV1.Follows.refl (release : AcceptedReleaseV1) : release.Follows release :=
  ⟨le_refl _, fun _ => rfl, fun _ _ h => h⟩

lemma AcceptedReleaseV1.Follows.trans {older newer last : AcceptedReleaseV1}
    (h : older.Follows newer) (h' : newer.Follows last) : older.Follows last := by
  have hsame : last.epoch = older.epoch →
      newer.epoch = older.epoch ∧ last.epoch = newer.epoch := by
    intro hepoch
    have hfirst := h.epoch
    have hsecond := h'.epoch
    omega
  constructor
  · exact h.epoch.trans h'.epoch
  · intro hepoch
    obtain ⟨hfirst, hsecond⟩ := hsame hepoch
    exact (h'.version hsecond).trans (h.version hfirst)
  · intro hepoch hash hhash
    obtain ⟨hfirst, hsecond⟩ := hsame hepoch
    exact h'.hash hsecond hash (h.hash hfirst hash hhash)

/-- A remembered release is still remembered, or a later one is. -/
def Retains (older newer : Option AcceptedReleaseV1) : Prop :=
  ∀ release, older = some release → ∃ later, newer = some later ∧ release.Follows later

lemma retains_refl (remembered : Option AcceptedReleaseV1) : Retains remembered remembered :=
  fun release h => ⟨release, h, .refl release⟩

lemma Retains.trans {older newer last : Option AcceptedReleaseV1} (h : Retains older newer)
    (h' : Retains newer last) : Retains older last := by
  intro release hrelease
  obtain ⟨later, hlater, hfollows⟩ := h release hrelease
  obtain ⟨latest, hlatest, hfollows'⟩ := h' later hlater
  exact ⟨latest, hlatest, hfollows.trans hfollows'⟩

structure UpdateStateV1.Follows (older newer : UpdateStateV1) : Prop where
  seen : Retains older.highestSeen newer.highestSeen
  installed : Retains older.highestInstalled newer.highestInstalled

lemma UpdateStateV1.Follows.refl (state : UpdateStateV1) : state.Follows state :=
  ⟨retains_refl _, retains_refl _⟩

lemma UpdateStateV1.Follows.trans {older newer last : UpdateStateV1} (h : older.Follows newer)
    (h' : newer.Follows last) : older.Follows last :=
  ⟨h.seen.trans h'.seen, h.installed.trans h'.installed⟩

/-- Nothing is forgotten when a release is accepted. -/
lemma retains_of_advance {current next : Option AcceptedReleaseV1} {offered : AcceptedReleaseV1}
    {field : String} {changed : Bool} (h : advance current offered field = .ok (next, changed)) :
    Retains current next := by
  rintro remembered rfl
  simp only [advance] at h
  split_ifs at h with hlower hhigher hversion
  · obtain ⟨rfl, -⟩ := Prod.mk.inj (Except.ok.inj h)
    exact ⟨offered, rfl, hhigher.le, fun heq => absurd heq hhigher.ne', fun heq => absurd heq hhigher.ne'⟩
  · -- the epoch is the remembered one: at most a missing hash is filled in
    cases hremembered : remembered.signedManifestSha256 with
    | none =>
      cases hoffered : offered.signedManifestSha256 with
      | none =>
        rw [hremembered, hoffered] at h
        obtain ⟨rfl, -⟩ := Prod.mk.inj (Except.ok.inj h)
        exact retains_refl _ _ rfl
      | some incoming =>
        rw [hremembered, hoffered] at h
        obtain ⟨rfl, -⟩ := Prod.mk.inj (Except.ok.inj h)
        refine ⟨_, rfl, le_refl _, fun _ => rfl, fun _ hash hhash => ?_⟩
        simp [hremembered] at hhash
    | some existing =>
      cases hoffered : offered.signedManifestSha256 with
      | none =>
        rw [hremembered, hoffered] at h
        obtain ⟨rfl, -⟩ := Prod.mk.inj (Except.ok.inj h)
        exact retains_refl _ _ rfl
      | some incoming =>
        simp only [hremembered, hoffered] at h
        split_ifs at h
        obtain ⟨rfl, -⟩ := Prod.mk.inj (Except.ok.inj h)
        exact retains_refl _ _ rfl

/-! ### The state file -/

/-- The two errors that refuse a release because of what is remembered. -/
def StateError.Refuses : StateError → Prop
  | .rollback _ _ _ | .equivocation _ => True
  | _ => False

/-- The installed release is not newer than the newest one seen. -/
def UpdateStateV1.Ordered (state : UpdateStateV1) : Prop :=
  ∀ installed, state.highestInstalled = some installed →
    ∃ seen, state.highestSeen = some seen ∧ installed.epoch ≤ seen.epoch

section Files

variable {codec : Codec UpdateStateV1} {state : UpdateStateV1} {dir : StateDir} {bytes : Bytes}

lemma validateRelease_eq_error {release : AcceptedReleaseV1} {error : StateError}
    (h : validateRelease release = .error error) : ¬ error.Refuses := by
  unfold validateRelease at h
  split_ifs at h
  · obtain rfl := Except.error.inj h
    exact id
  · obtain rfl := Except.error.inj h
    exact id

lemma validateState_eq_error {error : StateError} (h : validateState state = .error error) :
    ¬ error.Refuses := by
  unfold validateState at h
  cases hseen : state.highestSeen.forM validateRelease with
  | error e =>
    rw [hseen] at h
    obtain rfl := Except.error.inj h
    cases hrelease : state.highestSeen with
    | none => simp [hrelease, pure, Except.pure] at hseen
    | some release =>
      rw [hrelease] at hseen
      exact validateRelease_eq_error hseen
  | ok _ =>
    rw [hseen] at h
    cases hinstalled : state.highestInstalled with
    | none => simp [hinstalled, bind, Except.bind] at h
    | some installed =>
      simp only [hinstalled, bind, Except.bind] at h
      cases hrelease : validateRelease installed with
      | error e =>
        rw [hrelease] at h
        exact validateRelease_eq_error (hrelease.trans h)
      | ok _ =>
        simp only [hrelease] at h
        split at h
        · obtain rfl := Except.error.inj h
          exact id
        · split_ifs at h
          obtain rfl := Except.error.inj h
          exact id

lemma ordered_of_validateState (h : validateState state = .ok ()) : state.Ordered := by
  intro installed hinstalled
  unfold validateState at h
  obtain ⟨⟨⟩, -, h⟩ := bind_eq_ok.mp h
  rw [hinstalled] at h
  obtain ⟨⟨⟩, -, h⟩ := bind_eq_ok.mp h
  cases hseen : state.highestSeen with
  | none => simp [hseen] at h
  | some seen =>
    simp only [hseen] at h
    split_ifs at h with hnewer
    exact ⟨seen, rfl, not_lt.mp hnewer⟩

lemma encodeState_eq_error {error : StateError} (h : encodeState codec state = .error error) :
    ¬ error.Refuses := by
  unfold encodeState at h
  split at h
  · obtain rfl := Except.error.inj h
    exact id
  · split_ifs at h
    obtain rfl := Except.error.inj h
    exact id

/-- What was checked and encoded is read back. -/
lemma readStateFile_of_encodeState (hvalid : validateState state = .ok ())
    (h : encodeState codec state = .ok bytes) (hfile : dir.stateFile = some bytes) :
    bytes.length ≤ maxUpdateStateBytes ∧ readStateFile codec dir = .ok (some state) := by
  unfold encodeState at h
  cases hpayload : codec.serialize state with
  | error source => simp [hpayload] at h
  | ok payload =>
    simp only [hpayload] at h
    split_ifs at h with hlen
    obtain rfl := Except.ok.inj h
    have hdecode : decodeState codec (updateStateMagic ++ payload) = .ok state := by
      simp [decodeState, codec.roundTrip hpayload, hvalid]
    refine ⟨not_lt.mp hlen, ?_⟩
    simp only [readStateFile, hfile, readBounded, if_neg hlen, hdecode, Except.map]

lemma validateState_of_readStateFile (h : readStateFile codec dir = .ok (some state)) :
    dir.stateFile ≠ none ∧ validateState state = .ok () := by
  unfold readStateFile at h
  cases hfile : dir.stateFile with
  | none => simp [hfile, readBounded] at h
  | some bytes =>
    refine ⟨by simp, ?_⟩
    simp only [hfile, readBounded] at h
    split_ifs at h
    simp only [decodeState] at h
    cases hpayload : afterMagic updateStateMagic bytes with
    | none => simp [hpayload, Except.map] at h
    | some payload =>
      simp only [hpayload] at h
      cases hread : codec.deserialize payload with
      | error source => simp [hread, Except.map] at h
      | ok read =>
        simp only [hread] at h
        cases hvalid : validateState read with
        | error source => simp [hvalid, Except.map] at h
        | ok _ =>
          simp only [hvalid, Except.map, Except.ok.injEq, Option.some.injEq] at h
          exact h ▸ hvalid

lemma readStateFile_eq_none : readStateFile codec dir = .ok none ↔ dir.stateFile = none := by
  constructor
  · intro h
    cases hfile : dir.stateFile with
    | none => rfl
    | some bytes =>
      unfold readStateFile at h
      simp only [hfile, readBounded] at h
      split_ifs at h
      cases hdecode : decodeState codec bytes <;> simp [hdecode, Except.map] at h
  · intro h
    simp [readStateFile, h, readBounded]

lemma readStateFile_congr {dir' : StateDir} (h : dir'.stateFile = dir.stateFile) :
    readStateFile codec dir' = readStateFile codec dir := by
  simp only [readStateFile, h]

lemma readStateFile_eq_error {error : StateError} (h : readStateFile codec dir = .error error) :
    ¬ error.Refuses := by
  unfold readStateFile at h
  cases hfile : readBounded dir.stateFile maxUpdateStateBytes with
  | error source =>
    cases source with
    | notFound => simp [hfile] at h
    | invalidData detail =>
      rw [hfile] at h
      obtain rfl := Except.error.inj h
      exact id
  | ok bytes =>
    simp only [hfile, decodeState] at h
    cases hpayload : afterMagic updateStateMagic bytes with
    | none =>
      simp only [hpayload, Except.map, Except.error.injEq] at h
      subst h
      exact id
    | some payload =>
      simp only [hpayload] at h
      cases hread : codec.deserialize payload with
      | error source =>
        simp only [hread, Except.map, Except.error.injEq] at h
        subst h
        exact id
      | ok read =>
        simp only [hread] at h
        cases hvalid : validateState read with
        | error source =>
          simp only [hvalid, Except.map, Except.error.injEq] at h
          exact validateState_eq_error (h ▸ hvalid)
        | ok _ => simp [hvalid, Except.map] at h

/-- A state is written in full or not at all, and a failure to write it refuses no release. -/
lemma meets_writeState {crash : StateDir → Prop} {post : Except StateError Unit → StateDir → Prop}
    (hok : ∀ dir', dir'.legacy = dir.legacy → readStateFile codec dir' = .ok (some state) →
      crash dir ∧ post (.ok ()) dir')
    (herror : ∀ error, ¬ error.Refuses → post (.error error) dir) :
    (writeState codec state).Meets dir crash post := by
  cases hvalid : validateState state with
  | error error => simpa [writeState, hvalid] using herror error (validateState_eq_error hvalid)
  | ok _ =>
    cases hencode : encodeState codec state with
    | error error =>
      simpa [writeState, hvalid, hencode] using herror error (encodeState_eq_error hencode)
    | ok bytes =>
      let dir' : StateDir := { dir with stateFile := some bytes }
      have hfile : dir'.stateFile = some bytes := rfl
      obtain ⟨hlen, hread⟩ := readStateFile_of_encodeState hvalid hencode hfile
      have hbounded : readBounded (some bytes) maxUpdateStateBytes = .ok bytes := by
        simp [readBounded, hlen]
      simpa [writeState, hvalid, hencode, hbounded, hread, dir'] using hok dir' rfl hread

end Files

/-! ### Loading and carrying over -/

section Operations

variable {codec : Codec UpdateStateV1} {dir dir' : StateDir}

variable (codec dir) in
/-- The stored state is the one before, or the one the markers told where there was none. -/
def Carried (dir' : StateDir) : Prop :=
  dir'.stateFile = dir.stateFile ∨
    dir.stateFile = none ∧ ∃ entries, dir.legacy = some entries ∧
      readStateFile codec dir' = .ok (some (legacyState entries))

lemma carried_refl : Carried codec dir dir := Or.inl rfl

/-- Markers are removed one by one, and the state file stays. -/
lemma meets_removeMarkers {P : StateDir → Prop} (names : List String) (hdir : P dir)
    (hremove : ∀ t name, P t → P (t.removeMarker name)) :
    (removeMarkers names).Meets dir P fun r t => r = .ok () ∧ P t := by
  induction names generalizing dir with
  | nil => simpa [removeMarkers] using hdir
  | cons name names ih =>
    rw [removeMarkers, Program.meets_bind, Program.meets_write]
    exact ⟨hdir, ih (hremove dir name hdir)⟩

lemma legacyState_of_isEmpty {entries : List LegacyEntry}
    (h : (entries.filterMap LegacyEntry.marker).isEmpty) : legacyState entries = .empty := by
  rw [List.isEmpty_iff] at h
  simp [legacyState, h, UpdateStateV1.empty]

/-- A load returns what is stored afterwards, and nothing where nothing is. -/
def ReturnsStored (codec : Codec UpdateStateV1) (state : UpdateStateV1) (dir' : StateDir) : Prop :=
  readStateFile codec dir' = .ok (some state) ∨ dir'.stateFile = none ∧ state = .empty

lemma meets_migrateLegacyLocked (hfile : dir.stateFile = none) :
    (migrateLegacyLocked codec).Meets dir (Carried codec dir) fun r t => Carried codec dir t ∧
      match r with
      | .ok state => ReturnsStored codec state t
      | .error error => ¬ error.Refuses := by
  rw [migrateLegacyLocked, Program.meets_bind, Program.meets_read]
  cases hlegacy : dir.legacy with
  | none => exact Program.meets_pure.mpr ⟨carried_refl, Or.inr ⟨hfile, rfl⟩⟩
  | some entries =>
    simp only
    split_ifs with hmarkers
    · exact Program.meets_pure.mpr
        ⟨carried_refl, Or.inr ⟨hfile, legacyState_of_isEmpty hmarkers⟩⟩
    · rw [Program.meets_bind]
      apply meets_writeState
      · intro dir' _ hread
        -- from here on the state file is the one just written
        let P : StateDir → Prop := fun t => readStateFile codec t = .ok (some (legacyState entries))
        have hP : ∀ t, P t → Carried codec dir t :=
          fun t ht => Or.inr ⟨hfile, entries, hlegacy, ht⟩
        refine ⟨carried_refl, ?_⟩
        simp only [Program.meets_bind]
        refine (meets_removeMarkers (P := P) _ hread fun t name ht => ht).mono hP ?_
        rintro r t ⟨rfl, ht⟩
        have hlast : P t.removeEmptyLegacy := by
          unfold StateDir.removeEmptyLegacy
          split_ifs
          · exact ht
          · exact ht
        simp only [Program.meets_write, Program.meets_pure]
        exact ⟨hP t ht, hP _ hlast, Or.inl hlast⟩
      · exact fun error herror => ⟨carried_refl, herror⟩

lemma meets_loadOrMigrateLocked :
    (loadOrMigrateLocked codec).Meets dir (Carried codec dir) fun r t => Carried codec dir t ∧
      match r with
      | .ok state => ReturnsStored codec state t
      | .error error => ¬ error.Refuses := by
  rw [loadOrMigrateLocked, Program.meets_bind, Program.meets_read]
  cases hread : readStateFile codec dir with
  | error error => exact ⟨carried_refl, readStateFile_eq_error hread⟩
  | ok stored =>
    cases stored with
    | some state => exact Program.meets_pure.mpr ⟨carried_refl, Or.inl hread⟩
    | none => exact meets_migrateLegacyLocked (readStateFile_eq_none.mp hread)

/-! ### One operation -/

inductive Operation where
  | readUpdateState
  | acceptSeen (release : AcceptedReleaseV1)
  | recordInstalled (release : AcceptedReleaseV1)

/-- An operation, by a process that does or does not get the lock. -/
def Operation.program (codec : Codec UpdateStateV1) (contended : Bool) :
    Operation → Program StateDir StateError Unit
  | .readUpdateState => do
    let _ ← Update.readUpdateState codec contended
  | .acceptSeen release => acceptSeenIn codec contended release
  | .recordInstalled release => recordInstalledIn codec contended release

variable (codec) in
/-- A state that could be read moves forward. -/
def MovesForward (dir dir' : StateDir) : Prop :=
  ∀ stored, readStateFile codec dir = .ok stored →
    ∃ stored', readStateFile codec dir' = .ok stored' ∧
      ∀ state, stored = some state → ∃ state', stored' = some state' ∧ state.Follows state'

lemma movesForward_refl : MovesForward codec dir dir := by
  intro stored hread
  exact ⟨stored, hread, fun state h => ⟨state, h, .refl state⟩⟩

lemma MovesForward.trans {last : StateDir} (h : MovesForward codec dir dir')
    (h' : MovesForward codec dir' last) : MovesForward codec dir last := by
  intro stored hread
  obtain ⟨stored', hread', hfollows⟩ := h stored hread
  obtain ⟨stored'', hread'', hfollows'⟩ := h' stored' hread'
  refine ⟨stored'', hread'', fun state hstate => ?_⟩
  obtain ⟨state', hstate', hstep⟩ := hfollows state hstate
  obtain ⟨state'', hstate'', hstep'⟩ := hfollows' state' hstate'
  exact ⟨state'', hstate'', hstep.trans hstep'⟩

lemma Carried.movesForward (h : Carried codec dir dir') : MovesForward codec dir dir' := by
  rcases h with hsame | ⟨hnone, entries, -, hread⟩
  · intro stored hstored
    exact ⟨stored, (readStateFile_congr hsame).trans hstored, fun state h => ⟨state, h, .refl state⟩⟩
  · intro stored hstored
    obtain rfl : none = stored :=
      Except.ok.inj ((readStateFile_eq_none.mpr hnone).symm.trans hstored)
    exact ⟨_, hread, by simp⟩

/-- Writing what follows the loaded state moves forward. -/
lemma movesForward_of_write {state next : UpdateStateV1} (hloaded : ReturnsStored codec state dir)
    (hfollows : state.Follows next) (hread : readStateFile codec dir' = .ok (some next)) :
    MovesForward codec dir dir' := by
  intro stored hstored
  refine ⟨some next, hread, ?_⟩
  rintro old rfl
  rcases hloaded with hloaded | ⟨hnone, -⟩
  · obtain rfl := Option.some.inj (Except.ok.inj (hloaded.symm.trans hstored))
    exact ⟨next, rfl, hfollows⟩
  · rw [readStateFile_eq_none.mpr hnone] at hstored
    simp at hstored

/-- What an operation may leave: a state that moved forward, and after a refusal the loaded one. -/
def Leaves (codec : Codec UpdateStateV1) (dir : StateDir) (r : Except StateError Unit)
    (t : StateDir) : Prop :=
  MovesForward codec dir t ∧ ∀ error, r = .error error → error.Refuses → Carried codec dir t

/-- What every operation does once it has loaded a state: compute the next one, and write it if it
is new. -/
lemma meets_update {load : StateDir} {state next : UpdateStateV1} {changed : Bool}
    (hcarried : Carried codec dir load) (hloaded : ReturnsStored codec state load)
    (hfollows : state.Follows next) :
    (Program.skipWhen (!changed) (writeState codec next)).Meets load (MovesForward codec dir)
      (Leaves codec dir) := by
  rw [Program.meets_skipWhen]
  split_ifs
  · exact ⟨hcarried.movesForward, fun _ h => by simp at h⟩
  · apply meets_writeState
    · intro dir' _ hread
      exact ⟨hcarried.movesForward,
        hcarried.movesForward.trans (movesForward_of_write hloaded hfollows hread),
        fun _ h => by simp at h⟩
    · exact fun error herror => ⟨hcarried.movesForward, fun _ _ _ => hcarried⟩

lemma leaves_error {error : StateError} {t : StateDir} (hcarried : Carried codec dir t) :
    Leaves codec dir (.error error) t :=
  ⟨hcarried.movesForward, fun _ _ _ => hcarried⟩

/-- An operation that loads the state and then goes on. -/
lemma meets_load_bind {next : UpdateStateV1 → Program StateDir StateError Unit}
    (hnext : ∀ state t, Carried codec dir t → ReturnsStored codec state t →
      (next state).Meets t (MovesForward codec dir) (Leaves codec dir)) :
    (loadOrMigrateLocked codec >>= next).Meets dir (MovesForward codec dir)
      (Leaves codec dir) := by
  rw [Program.meets_bind]
  refine meets_loadOrMigrateLocked.mono (fun _ h => h.movesForward) ?_
  rintro (error | state) t ⟨hcarried, hreturns⟩
  · exact leaves_error hcarried
  · exact hnext state t hcarried hreturns

/-- An operation that takes the lock first. -/
lemma meets_lock_bind {contended : Bool} {next : Unit → Program StateDir StateError Unit}
    (hnext : (next ()).Meets dir (MovesForward codec dir) (Leaves codec dir)) :
    (acquireLock contended >>= next).Meets dir (MovesForward codec dir) (Leaves codec dir) := by
  rw [Program.meets_bind, acquireLock, Program.meets_ensure]
  split_ifs
  · exact hnext
  · exact leaves_error carried_refl

lemma meets_acceptSeenIn (contended : Bool) (release : AcceptedReleaseV1) :
    (acceptSeenIn codec contended release).Meets dir (MovesForward codec dir)
      (Leaves codec dir) := by
  rw [acceptSeenIn, Program.meets_bind, Program.meets_read]
  cases validateRelease release with
  | error error => exact leaves_error carried_refl
  | ok _ =>
    apply meets_lock_bind
    apply meets_load_bind
    intro state t hcarried hreturns
    rw [Program.meets_bind, Program.meets_read]
    cases hadvance : advance state.highestSeen release "seen" with
    | error error => exact leaves_error hcarried
    | ok advanced =>
      obtain ⟨seen, changed⟩ := advanced
      exact meets_update hcarried hreturns
        ⟨retains_of_advance hadvance, retains_refl state.highestInstalled⟩

lemma meets_recordInstalledIn (contended : Bool) (release : AcceptedReleaseV1) :
    (recordInstalledIn codec contended release).Meets dir (MovesForward codec dir)
      (Leaves codec dir) := by
  rw [recordInstalledIn, Program.meets_bind, Program.meets_read]
  cases validateRelease release with
  | error error => exact leaves_error carried_refl
  | ok _ =>
    apply meets_lock_bind
    apply meets_load_bind
    intro state t hcarried hreturns
    rw [Program.meets_bind, Program.meets_read]
    cases hseen : (if state.highestSeen.all (·.epoch ≤ release.epoch) then
        advance state.highestSeen release "seen" else .ok (state.highestSeen, false)) with
    | error error => exact leaves_error hcarried
    | ok advancedSeen =>
      obtain ⟨seen, seenChanged⟩ := advancedSeen
      have hretains : Retains state.highestSeen seen := by
        split_ifs at hseen
        · exact retains_of_advance hseen
        · obtain ⟨rfl, -⟩ := Prod.mk.inj (Except.ok.inj hseen)
          exact retains_refl _
      simp only
      rw [Program.meets_bind, Program.meets_read]
      cases hinstalled : advance state.highestInstalled release "installed" with
      | error error => exact leaves_error hcarried
      | ok advancedInstalled =>
        obtain ⟨installed, installedChanged⟩ := advancedInstalled
        exact meets_update hcarried hreturns ⟨hretains, retains_of_advance hinstalled⟩

lemma Operation.meets_program (operation : Operation) (contended : Bool) :
    (operation.program codec contended).Meets dir (MovesForward codec dir)
      (Leaves codec dir) := by
  cases operation with
  | readUpdateState =>
    rw [Operation.program, Program.meets_bind, Update.readUpdateState, Program.meets_bind,
      acquireLock, Program.meets_ensure]
    split_ifs
    · refine meets_loadOrMigrateLocked.mono (fun _ h => h.movesForward) ?_
      rintro (error | state) t ⟨hcarried, -⟩
      · exact leaves_error hcarried
      · exact Program.meets_pure.mpr ⟨hcarried.movesForward, fun _ h => by simp at h⟩
    · exact leaves_error carried_refl
  | acceptSeen release => exact meets_acceptSeenIn contended release
  | recordInstalled release => exact meets_recordInstalledIn contended release

end Operations

/-! ### Runs -/

section Runs

variable (codec : Codec UpdateStateV1)

/-- One operation, ended or cut off. -/
def UpdateStep (dir dir' : StateDir) : Prop :=
  ∃ operation contended, (Operation.program codec contended operation).Leaves dir dir'

/-- Any number of operations, in any order. -/
def UpdateRun : StateDir → StateDir → Prop := Relation.ReflTransGen (UpdateStep codec)

variable {codec} {start dir last : StateDir}

lemma UpdateStep.movesForward (h : UpdateStep codec dir last) : MovesForward codec dir last := by
  obtain ⟨operation, contended, hleaves⟩ := h
  apply Program.Meets.leaves _ hleaves
  exact (operation.meets_program contended).mono (fun _ h => h) fun _ _ h => h.1

lemma UpdateRun.movesForward (h : UpdateRun codec dir last) : MovesForward codec dir last := by
  induction h with
  | refl => exact movesForward_refl
  | tail _ hstep ih => exact ih.trans hstep.movesForward

/-- No epoch decreases over a run, nothing recorded for an epoch changes, the installed release is
never newer than the newest one seen, every stored state can be read, and a refused release leaves
the stored state as it was loaded. -/
structure ReleasesKept (codec : Codec UpdateStateV1) (dir last : StateDir) : Prop where
  readable : ∃ stored, readStateFile codec last = .ok stored ∧
    ∀ state, stored = some state → validateState state = .ok () ∧ state.Ordered
  kept : ∀ state, readStateFile codec dir = .ok (some state) →
    ∃ state', readStateFile codec last = .ok (some state') ∧ state.Follows state'
  refused : ∀ operation contended error,
    (Operation.program codec contended operation last).result = .error error → error.Refuses →
    Carried codec last (Operation.program codec contended operation last).last

/-- Over every run from a directory whose state file, if it has one, can be read. -/
theorem releases_kept (hstart : ∃ stored, readStateFile codec start = .ok stored)
    (hbefore : UpdateRun codec start dir) (hafter : UpdateRun codec dir last) :
    ReleasesKept codec dir last := by
  obtain ⟨stored, hstored⟩ := hstart
  obtain ⟨stored', hread, -⟩ :=
    hbefore.movesForward.trans hafter.movesForward stored hstored
  constructor
  · refine ⟨stored', hread, fun state hstate => ?_⟩
    have hvalid := (validateState_of_readStateFile (hstate ▸ hread)).2
    exact ⟨hvalid, ordered_of_validateState hvalid⟩
  · intro state hstate
    obtain ⟨later, hlater, hfollows⟩ := hafter.movesForward (some state) hstate
    obtain ⟨state', rfl, hstep⟩ := hfollows state rfl
    exact ⟨state', hlater, hstep⟩
  · intro operation contended error herror hrefuses
    exact (operation.meets_program contended).result.2 error herror hrefuses

end Runs

/-! ### A directory with markers -/

open TestSupport

/-- An older release has left a marker for version 1.0.2. -/
def markedDir : StateDir := ⟨none, some [⟨some "1000002", true⟩]⟩

def markedState : UpdateStateV1 := ⟨some ⟨"1.0.2", 1000002, none⟩, none⟩

def markedCodec : Codec UpdateStateV1 := tableCodec [markedState]

def offeredRelease : AcceptedReleaseV1 := ⟨"1.0.1", 1000001, none⟩

/-- The refused operation has stored what the marker told. -/
theorem refused_release_stores_markers :
    (acceptSeenIn markedCodec false offeredRelease markedDir).result =
        .error (.rollback "seen" 1000001 1000002) ∧
      readStateFile markedCodec markedDir = .ok none ∧
      readStateFile markedCodec (acceptSeenIn markedCodec false offeredRelease markedDir).last =
        .ok (some markedState) := by
  decide +kernel

/-- The marker is carried over by one operation and kept by the next. -/
theorem releases_kept_markers :
    ReleasesKept markedCodec (acceptSeenIn markedCodec false offeredRelease markedDir).last
      (acceptSeenIn markedCodec false offeredRelease
        (acceptSeenIn markedCodec false offeredRelease markedDir).last).last := by
  have hstep : ∀ dir, UpdateRun markedCodec dir
      (acceptSeenIn markedCodec false offeredRelease dir).last :=
    fun dir => .single ⟨.acceptSeen offeredRelease, false, Or.inr rfl⟩
  exact releases_kept ⟨none, by decide +kernel⟩ (hstep markedDir) (hstep _)

end Thorax.Update
