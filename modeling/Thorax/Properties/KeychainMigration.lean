import Thorax.Keychain.Migration
import Thorax.TestStore

/-!
# Migrations of the keychain lose nothing

Until its last step a migration only adds split files, and only where there were none. Its last
step drops what it took out of the source, and by then each of it has been read back from its split
file. So at every point at which a migration can be cut off, whatever was readable before is still
readable from its split file or from its source.
-/

namespace Thorax.Keychain

open Durable Program

variable {provider : KeychainProvider} {trustedRoot : HashValue}
  {files before after : KeychainFiles} {sealed : SealedIdentityV1} {current : CurrentUserV1}

/-! ### What can be read -/

/-- The keychain file can be read and holds the record. -/
def HoldsRecord (provider : KeychainProvider) (files : KeychainFiles) (source : KeychainPath)
    (record : Evolving KeychainRecordV1) : Prop :=
  ∃ records, readKeychainRecordsAt provider files source = .ok records ∧ record ∈ records

/-- The split file of the identity can be read and holds it. -/
def HoldsIdentity (provider : KeychainProvider) (files : KeychainFiles)
    (sealed : SealedIdentityV1) : Prop :=
  readIdentityAt provider files sealed.trustedRoot
    (identityPath sealed.trustedRoot sealed.userId) sealed.userId = .ok (some sealed)

/-- The split file of the root's selector can be read and holds it. -/
def HoldsCurrentUser (provider : KeychainProvider) (files : KeychainFiles)
    (trustedRoot : HashValue) (current : CurrentUserV1) : Prop :=
  readCurrentUserAt provider files (currentUserPath trustedRoot) = .ok (some current)

lemma readKeychainRecordsAt_congr {source : KeychainPath} (h : after source = before source) :
    readKeychainRecordsAt provider after source = readKeychainRecordsAt provider before source := by
  simp only [readKeychainRecordsAt, h]

lemma holdsRecord_congr {source : KeychainPath} {record : Evolving KeychainRecordV1}
    (h : after source = before source) :
    HoldsRecord provider after source record ↔ HoldsRecord provider before source record := by
  simp only [HoldsRecord, readKeychainRecordsAt_congr h]

/-- A missing keychain file holds no record. -/
lemma not_holdsRecord_of_none {source : KeychainPath} {record : Evolving KeychainRecordV1}
    (h : files source = none) : ¬ HoldsRecord provider files source record := by
  simp [HoldsRecord, readKeychainRecordsAt, readFileBounded, h]

lemma readIdentityAt_congr {path : KeychainPath} {user : UserId}
    (h : after path = before path) : readIdentityAt provider after trustedRoot path user =
      readIdentityAt provider before trustedRoot path user := by
  simp only [readIdentityAt, h]

lemma readCurrentUserAt_congr {path : KeychainPath} (h : after path = before path) :
    readCurrentUserAt provider after path = readCurrentUserAt provider before path := by
  simp only [readCurrentUserAt, h]

/-- Only a missing file reads as no identity, and only a file that is there as one. -/
lemma isSome_of_readIdentityAt {path : KeychainPath} {user : UserId}
    {result : Option SealedIdentityV1}
    (h : readIdentityAt provider files trustedRoot path user = .ok result) :
    (files path).isSome = result.isSome := by
  cases hfile : files path with
  | none =>
    simp only [readIdentityAt, hfile, readFileBounded, Except.ok.injEq] at h
    simp [← h]
  | some bytes =>
    by_cases hlen : maxIdentityBytes < bytes.length
    · simp [readIdentityAt, hfile, readFileBounded, hlen] at h
    · simp only [readIdentityAt, hfile, readFileBounded, hlen, if_false, bind_eq_ok] at h
      obtain ⟨sealed, -, h⟩ := h
      split at h
      · cases h
      · cases h
        rfl

lemma isSome_of_readCurrentUserAt {path : KeychainPath} {result : Option CurrentUserV1}
    (h : readCurrentUserAt provider files path = .ok result) :
    (files path).isSome = result.isSome := by
  cases hfile : files path with
  | none =>
    simp only [readCurrentUserAt, hfile, readFileBounded, Except.ok.injEq] at h
    simp [← h]
  | some bytes =>
    by_cases hlen : maxCurrentUserBytes < bytes.length
    · simp [readCurrentUserAt, hfile, readFileBounded, hlen] at h
    · simp only [readCurrentUserAt, hfile, readFileBounded, hlen, if_false, bind_eq_ok] at h
      obtain ⟨current, -, h⟩ := h
      cases h
      rfl

/-- What a record holds can be read from its split file. -/
def HoldsSplit (provider : KeychainProvider) (trustedRoot : HashValue) (files : KeychainFiles) :
    Evolving KeychainRecordV1 → Prop
  | .known (.identity sealed) => HoldsIdentity provider files sealed
  | .known (.currentUser current) => HoldsCurrentUser provider files trustedRoot current
  | .unknown _ => False

/-! ### Files that are only added -/

/-- Every split file that was there is as it was. -/
def KeepsSplit (before after : KeychainFiles) : Prop :=
  ∀ path bytes, path.file ≠ .keychain → before path = some bytes → after path = some bytes

lemma KeepsSplit.eq_of_isSome {path : KeychainPath} (h : KeepsSplit before after)
    (hsplit : path.file ≠ .keychain) (hpath : (before path).isSome) :
    after path = before path := by
  obtain ⟨bytes, hbytes⟩ := Option.isSome_iff_exists.mp hpath
  rw [hbytes, h path bytes hsplit hbytes]

/-- What a split file holds, it goes on holding. -/
lemma KeepsSplit.holdsIdentity (h : KeepsSplit before after)
    (hholds : HoldsIdentity provider before sealed) : HoldsIdentity provider after sealed := by
  have hsome := isSome_of_readIdentityAt hholds
  have hsame := h.eq_of_isSome (by simp [identityPath]) hsome
  rwa [HoldsIdentity, readIdentityAt_congr hsame]

lemma KeepsSplit.holdsCurrentUser (h : KeepsSplit before after)
    (hholds : HoldsCurrentUser provider before trustedRoot current) :
    HoldsCurrentUser provider after trustedRoot current := by
  have hsome := isSome_of_readCurrentUserAt hholds
  have hsame := h.eq_of_isSome (by simp [currentUserPath]) hsome
  rwa [HoldsCurrentUser, readCurrentUserAt_congr hsame]

lemma KeepsSplit.holdsSplit {record : Evolving KeychainRecordV1} (h : KeepsSplit before after)
    (hholds : HoldsSplit provider trustedRoot before record) :
    HoldsSplit provider trustedRoot after record := by
  match record, hholds with
  | .known (.identity _), hholds => exact h.holdsIdentity hholds
  | .known (.currentUser _), hholds => exact h.holdsCurrentUser hholds

lemma KeepsSplit.trans {between : KeychainFiles} (h : KeepsSplit before between)
    (h' : KeepsSplit between after) : KeepsSplit before after :=
  fun path bytes hsplit hbytes => h' path bytes hsplit (h path bytes hsplit hbytes)

/-- A change of a source is none of a split file. -/
lemma keepsSplit_update {source : KeychainPath} (hsource : source.file = .keychain)
    (content : Option Bytes) : KeepsSplit files (Function.update files source content) := by
  intro path bytes hsplit hbytes
  have hne : path ≠ source := by
    rintro rfl
    exact hsplit hsource
  rwa [Function.update_of_ne hne]

/-- Every file that was there is as it was, and no source has come. -/
structure Grows (before after : KeychainFiles) : Prop where
  split : KeepsSplit before after
  sources : ∀ path, path.file = .keychain → after path = before path

lemma Grows.refl (files : KeychainFiles) : Grows files files :=
  ⟨fun _ _ _ h => h, fun _ _ => rfl⟩

lemma Grows.trans {between : KeychainFiles} (h : Grows before between)
    (h' : Grows between after) : Grows before after where
  split := h.split.trans h'.split
  sources path hpath := (h'.sources path hpath).trans (h.sources path hpath)

instance : IsPreorder KeychainFiles Grows where
  refl := Grows.refl
  trans _ _ _ := Grows.trans

/-- A split file that was missing may be written. -/
lemma grows_update {path : KeychainPath} (bytes : Bytes) (hmissing : files path = none)
    (hsplit : path.file ≠ .keychain) : Grows files (Function.update files path (some bytes)) where
  split other _ _ hother := by
    have hne : other ≠ path := by
      rintro rfl
      simp [hmissing] at hother
    rwa [Function.update_of_ne hne]
  sources other hother := by
    have hne : other ≠ path := by
      rintro rfl
      exact hsplit hother
    rw [Function.update_of_ne hne]

/-! ### Splitting -/

lemma advances_writePrivateAtomic {path : KeychainPath} (bytes : Bytes)
    (hmissing : files path = none) (hsplit : path.file ≠ .keychain) :
    Advances Grows (writePrivateAtomic path bytes) files fun _ _ => True :=
  advances_write (grows_update bytes hmissing hsplit) trivial

lemma advances_writeIdentityExact {path : KeychainPath} {user : UserId}
    (hmissing : files path = none) (hsplit : path.file ≠ .keychain) :
    Advances Grows (writeIdentityExact provider trustedRoot path user sealed) files fun _ t =>
      readIdentityAt provider t trustedRoot path user = .ok (some sealed) := by
  apply advances_ensure_bind
  intro _
  apply advances_read_bind
  intro bytes _
  apply advances_ensure_bind
  intro _
  apply advances_bind (advances_writePrivateAtomic bytes hmissing hsplit)
  intro _ t _
  -- only what has been read back counts as written
  apply advances_read_bind
  intro written hwritten
  apply advances_ensure
  intro hsame
  rw [hwritten, of_decide_eq_true hsame]

lemma advances_writeCurrentUserExact {path : KeychainPath} (hmissing : files path = none)
    (hsplit : path.file ≠ .keychain) :
    Advances Grows (writeCurrentUserExact provider path current) files fun _ t =>
      readCurrentUserAt provider t path = .ok (some current) := by
  apply advances_read_bind
  intro bytes _
  apply advances_ensure_bind
  intro _
  apply advances_bind (advances_writePrivateAtomic bytes hmissing hsplit)
  intro _ t _
  apply advances_read_bind
  intro written hwritten
  apply advances_ensure
  intro hsame
  rw [hwritten, of_decide_eq_true hsame]

/-- An identity of the root is in its split file once it has been split off. -/
lemma advances_splitIdentity (conflict : String) (hroot : sealed.trustedRoot = trustedRoot) :
    Advances Grows (splitIdentity provider trustedRoot conflict sealed) files fun _ t =>
      HoldsIdentity provider t sealed := by
  subst hroot
  apply advances_read_bind
  intro existing hexisting
  have hfile := isSome_of_readIdentityAt hexisting
  cases existing with
  | none =>
    exact advances_writeIdentityExact (by simpa using hfile) (by simp [identityPath])
  | some existing =>
    apply advances_ensure
    intro hsame
    rw [of_decide_eq_true hsame] at hexisting
    exact hexisting

lemma advances_splitCurrentUser (conflict : String) :
    Advances Grows (splitCurrentUser provider trustedRoot conflict current) files fun _ t =>
      HoldsCurrentUser provider t trustedRoot current := by
  apply advances_read_bind
  intro existing hexisting
  have hfile := isSome_of_readCurrentUserAt hexisting
  cases existing with
  | none =>
    exact advances_writeCurrentUserExact (by simpa using hfile) (by simp [currentUserPath])
  | some existing =>
    apply advances_ensure
    intro hsame
    rw [of_decide_eq_true hsame] at hexisting
    exact hexisting

/-- Identities of the root are in their split files once they all have been split off. -/
lemma advances_splitIdentities (conflict : String) {identities : List SealedIdentityV1}
    (hroots : ∀ sealed ∈ identities, sealed.trustedRoot = trustedRoot) :
    Advances Grows (identities.forM (splitIdentity provider trustedRoot conflict)) files
      fun _ t => ∀ sealed ∈ identities, HoldsIdentity provider t sealed :=
  advances_forM (fun sealed t => HoldsIdentity provider t sealed)
    (fun _ _ _ h => h.split.holdsIdentity)
    fun sealed hsealed _ => advances_splitIdentity conflict (hroots sealed hsealed)

lemma advances_splitCurrentUsers (conflict : String) {selectors : List CurrentUserV1} :
    Advances Grows (selectors.forM (splitCurrentUser provider trustedRoot conflict)) files
      fun _ t => ∀ current ∈ selectors, HoldsCurrentUser provider t trustedRoot current :=
  advances_forM (fun current t => HoldsCurrentUser provider t trustedRoot current)
    (fun _ _ _ h => h.split.holdsCurrentUser) fun _ _ _ => advances_splitCurrentUser conflict

/-- Verifying changes nothing. -/
lemma advances_verifyIdentities {identities : List SealedIdentityV1} :
    Advances Grows (identities.forM (verifyIdentity provider trustedRoot)) files
      fun _ _ => ∀ sealed ∈ identities, True :=
  advances_forM (fun _ _ => True) (fun _ _ _ _ h => h) fun _ _ _ =>
    advances_read_bind fun _ _ => advances_ensure fun _ => trivial

lemma advances_verifyCurrentUsers {selectors : List CurrentUserV1} :
    Advances Grows (selectors.forM (verifyCurrentUser provider trustedRoot)) files
      fun _ _ => ∀ current ∈ selectors, True :=
  advances_forM (fun _ _ => True) (fun _ _ _ _ h => h) fun _ _ _ =>
    advances_read_bind fun _ _ => advances_ensure fun _ => trivial

/-! ### What a combined keychain holds -/

/-- What has been found of a record while the records are collected. -/
def Collected (trustedRoot : HashValue) (found : List SealedIdentityV1 × Option CurrentUserV1) :
    Evolving KeychainRecordV1 → Prop
  | .known (.identity sealed) => sealed.trustedRoot = trustedRoot ∧ sealed ∈ found.1
  | .known (.currentUser current) => found.2 = some current
  | .unknown _ => True

/-- Collecting goes on with what it has found, and finds identities of the root only. -/
lemma collectRecord_eq_ok {source : KeychainPath}
    {found found' : List SealedIdentityV1 × Option CurrentUserV1}
    {record : Evolving KeychainRecordV1}
    (h : collectRecord trustedRoot source found record = .ok found') :
    Collected trustedRoot found' record ∧
      (∀ other, Collected trustedRoot found other → Collected trustedRoot found' other) ∧
      ∀ sealed ∈ found'.1, sealed ∈ found.1 ∨ sealed.trustedRoot = trustedRoot := by
  cases record with
  | unknown raw =>
    cases h
    exact ⟨trivial, fun _ h => h, fun _ h => Or.inl h⟩
  | known record =>
    cases record with
    | identity sealed =>
      simp only [collectRecord] at h
      split at h
      · cases h
      next hroot =>
      cases h
      refine ⟨⟨not_not.mp hroot, by simp⟩, fun other hother => ?_, fun other hother => ?_⟩
      · match other, hother with
        | .known (.identity _), hother => exact ⟨hother.1, List.mem_append_left _ hother.2⟩
        | .known (.currentUser _), hother => exact hother
        | .unknown _, _ => trivial
      · rcases List.mem_append.mp hother with hother | hother
        · exact Or.inl hother
        · rw [List.mem_singleton.mp hother]
          exact Or.inr (not_not.mp hroot)
    | currentUser candidate =>
      simp only [collectRecord] at h
      split at h
      · cases h
      next hnone =>
      cases h
      refine ⟨rfl, fun other hother => ?_, fun _ h => Or.inl h⟩
      match other, hother with
      | .known (.identity _), hother => exact hother
      | .known (.currentUser _), hother =>
        have hsome : found.2.isSome := Option.isSome_iff_exists.mpr ⟨_, hother⟩
        exact absurd hsome hnone
      | .unknown _, _ => trivial

lemma foldlM_collectRecord_eq_ok {source : KeychainPath}
    {records : List (Evolving KeychainRecordV1)}
    {found found' : List SealedIdentityV1 × Option CurrentUserV1}
    (h : records.foldlM (collectRecord trustedRoot source) found = .ok found') :
    (∀ record ∈ records, Collected trustedRoot found' record) ∧
      (∀ other, Collected trustedRoot found other → Collected trustedRoot found' other) ∧
      ∀ sealed ∈ found'.1, sealed ∈ found.1 ∨ sealed.trustedRoot = trustedRoot := by
  induction records generalizing found with
  | nil =>
    cases h
    exact ⟨by simp, fun _ h => h, fun _ h => Or.inl h⟩
  | cons record records ih =>
    rw [List.foldlM_cons, bind_eq_ok] at h
    obtain ⟨next, hrecord, hrest⟩ := h
    obtain ⟨hfirst, hkept, hnew⟩ := collectRecord_eq_ok hrecord
    obtain ⟨hall, hkept', hnew'⟩ := ih hrest
    refine ⟨List.forall_mem_cons.mpr ⟨hkept' _ hfirst, hall⟩,
      fun other hother => hkept' _ (hkept _ hother), fun sealed hsealed => ?_⟩
    rcases hnew' sealed hsealed with hsealed | hroot
    · exact hnew sealed hsealed
    · exact Or.inr hroot

/-! ### The two migrations -/

/-- The migrations of one root. The legacy keychains are those of any user. -/
inductive Migration where
  | combined
  | legacy (user : UserId)

def Migration.source (trustedRoot : HashValue) : Migration → KeychainPath
  | .combined => keychainPath trustedRoot
  | .legacy user => legacyIdentityPath user

def Migration.run (provider : KeychainProvider) (trustedRoot : HashValue) :
    Migration → Program KeychainFiles KeychainError Unit
  | .combined => migrateRootCombinedLocked provider trustedRoot
  | .legacy user => migrateLegacyUserLocked provider trustedRoot (legacyIdentityPath user)

/-- The records a migration takes out of its source. -/
def Migration.Takes (trustedRoot : HashValue) : Migration → Evolving KeychainRecordV1 → Prop
  | _, .known (.identity sealed) => sealed.trustedRoot = trustedRoot
  | .combined, .known (.currentUser _) => True
  | _, _ => False

/-- How a migration ends that succeeds: beside its source it has only added files, what it takes
lies in split files, the rest is where it was, and it would do nothing more. -/
structure Finished (provider : KeychainProvider) (trustedRoot : HashValue) (migration : Migration)
    (before after : KeychainFiles) : Prop where
  grows : ∃ grown, Grows before grown ∧
    ∀ path, path ≠ migration.source trustedRoot → after path = grown path
  taken : ∀ record, HoldsRecord provider before (migration.source trustedRoot) record →
    migration.Takes trustedRoot record → HoldsSplit provider trustedRoot after record
  left : ∀ record, HoldsRecord provider before (migration.source trustedRoot) record →
    ¬ migration.Takes trustedRoot record →
      HoldsRecord provider after (migration.source trustedRoot) record
  rests : (migration.run provider trustedRoot).Rests after

lemma Migration.file_source (migration : Migration) :
    (migration.source trustedRoot).file = .keychain := by
  cases migration <;> rfl

/-- Without a source there is nothing to do. -/
lemma rests_of_none {migration : Migration} (h : files (migration.source trustedRoot) = none) :
    (migration.run provider trustedRoot).Rests files := by
  cases migration with
  | combined =>
    rw [Rests, Migration.run, migrateRootCombinedLocked, meets_bind, meets_read]
    simp only [Migration.source] at h
    simp [h]
  | legacy user =>
    rw [Rests, Migration.run, migrateLegacyUserLocked, meets_bind, meets_read]
    simp only [Migration.source] at h
    simp [h]

/-- The combined keychain is removed once all it holds lies in split files. -/
lemma achieves_splitCombined :
    (splitCombined provider trustedRoot (keychainPath trustedRoot)).Achieves (Grows files) files
      fun _ t => Finished provider trustedRoot .combined files t := by
  apply achieves_read_bind (Grows.refl files)
  intro records hrecords
  apply achieves_ensure_bind (Grows.refl files)
  intro hknown
  apply achieves_read_bind (Grows.refl files)
  intro found hfound
  obtain ⟨hall, -, hroots⟩ := foldlM_collectRecord_eq_ok hfound
  have hroot : ∀ sealed ∈ found.1, sealed.trustedRoot = trustedRoot := fun sealed hsealed =>
    (hroots sealed hsealed).resolve_left (by simp)
  -- the split files are written, then verified
  refine achieves_bind (advances_splitIdentities _ hroot) fun _ t₁ h₁ => ?_
  refine achieves_bind ((advances_splitCurrentUsers _).after h₁.1) fun _ t₂ h₂ => ?_
  have hgrows₂ := h₁.1.trans h₂.1
  refine achieves_bind (advances_verifyIdentities.after hgrows₂) fun _ t₃ h₃ => ?_
  have hgrows₃ := hgrows₂.trans h₃.1
  refine achieves_bind (advances_verifyCurrentUsers.after hgrows₃) fun _ t₄ h₄ => ?_
  have hgrows₄ := hgrows₃.trans h₄.1
  have htaken : ∀ record, HoldsRecord provider files (keychainPath trustedRoot) record →
      Migration.combined.Takes trustedRoot record ∧ HoldsSplit provider trustedRoot t₄ record := by
    rintro record ⟨records', hrecords', hrecord⟩
    obtain rfl := Except.ok.inj (hrecords.symm.trans hrecords')
    have hcollected := hall record hrecord
    match record, hrecord, hcollected with
    | .known (.identity sealed), _, hcollected =>
      have hholds := h₁.2 sealed hcollected.2
      exact ⟨hcollected.1, (h₂.1.trans (h₃.1.trans h₄.1)).split.holdsIdentity hholds⟩
    | .known (.currentUser current), _, hcollected =>
      have hholds := h₂.2 current (by simp [show found.2 = some current from hcollected])
      exact ⟨trivial, (h₃.1.trans h₄.1).split.holdsCurrentUser hholds⟩
    | .unknown raw, hrecord, _ =>
      simpa [Evolving.known?] using List.all_eq_true.mp hknown _ hrecord
  refine achieves_write hgrows₄ ⟨⟨t₄, hgrows₄, fun path hne => Function.update_of_ne hne _ _⟩,
    fun record hholds _ => (keepsSplit_update rfl none).holdsSplit (htaken record hholds).2,
    fun record hholds hnot => absurd (htaken record hholds).1 hnot, rests_of_none ?_⟩
  exact Function.update_self _ _ _

/-! ### The legacy keychain -/

lemma mem_migrating {records : List (Evolving KeychainRecordV1)} :
    sealed ∈ records.filterMap (migratingIdentity? trustedRoot) ↔
      .known (.identity sealed) ∈ records ∧ sealed.trustedRoot = trustedRoot := by
  rw [List.mem_filterMap]
  constructor
  · rintro ⟨record, hrecord, hsealed⟩
    match record, hrecord, hsealed with
    | .known (.identity other), hrecord, hsealed =>
      simp only [migratingIdentity?, Option.ite_none_right_eq_some, Option.some.injEq] at hsealed
      obtain ⟨hroot, rfl⟩ := hsealed
      exact ⟨hrecord, hroot⟩
  · rintro ⟨hrecord, hroot⟩
    exact ⟨_, hrecord, by simp [migratingIdentity?, hroot]⟩

lemma takes_legacy_iff {user : UserId} {record : Evolving KeychainRecordV1} :
    (Migration.legacy user).Takes trustedRoot record ↔
      (migratingIdentity? trustedRoot record).isSome := by
  match record with
  | .known (.identity sealed) => simp [Migration.Takes, migratingIdentity?]
  | .known (.currentUser current) => simp [Migration.Takes, migratingIdentity?]
  | .unknown raw => simp [Migration.Takes, migratingIdentity?]

/-- What remains of a keychain takes no more bytes, so it can be read again. -/
lemma readKeychainRecordsAt_rewritten {source : KeychainPath} {bytes : Bytes}
    {records kept : List (Evolving KeychainRecordV1)} (hpresent : (files source).isSome)
    (hrecords : readKeychainRecordsAt provider files source = .ok records)
    (hkept : kept.Sublist records) (hbytes : encodeKeychainRecords provider kept = .ok bytes)
    (hafter : after source = some bytes) :
    ∃ rewritten, readKeychainRecordsAt provider after source = .ok rewritten ∧
      ∀ record, record ∈ rewritten ↔ record ∈ kept := by
  obtain ⟨old, hold⟩ := Option.isSome_iff_exists.mp hpresent
  simp only [readKeychainRecordsAt, hold, readFileBounded] at hrecords
  split_ifs at hrecords with hlen
  simp only [decodeKeychainRecords] at hrecords
  cases hmagic : afterMagic keychainMagic old with
  | none => simp [hmagic] at hrecords
  | some payload =>
    simp only [hmagic, mapError_eq_ok] at hrecords
    obtain rfl := eq_append_of_afterMagic hmagic
    simp only [encodeKeychainRecords, bind_eq_ok, mapError_eq_ok] at hbytes
    obtain ⟨payload', hpayload', hbytes⟩ := hbytes
    obtain rfl := Except.ok.inj hbytes
    obtain ⟨rewritten, hrewritten, hmem⟩ := provider.keychainCodec.roundTrip hpayload'
    refine ⟨rewritten, ?_, hmem⟩
    have hshorter := provider.length_le_of_sublist hrecords hkept hpayload'
    have hfits : ¬ maxLegacyKeychainBytes < (keychainMagic ++ payload').length := by
      rw [List.length_append] at hlen ⊢
      omega
    simp only [readKeychainRecordsAt, hafter, readFileBounded, if_neg hfits, decodeKeychainRecords,
      afterMagic_append, hrewritten, mapError_ok]

/-- A legacy keychain without identities of the root is left alone. -/
lemma rests_of_forall {user : UserId} {records : List (Evolving KeychainRecordV1)}
    (hrecords : readKeychainRecordsAt provider files (legacyIdentityPath user) = .ok records)
    (hnone : ∀ record ∈ records, migratingIdentity? trustedRoot record = none) :
    ((Migration.legacy user).run provider trustedRoot).Rests files := by
  have hmigrating : records.filterMap (migratingIdentity? trustedRoot) = [] :=
    List.filterMap_eq_nil_iff.mpr hnone
  rw [Rests, Migration.run, migrateLegacyUserLocked, meets_bind, meets_read]
  simp only [meets_skipWhen]
  split
  · exact ⟨trivial, trivial⟩
  · rw [splitLegacy, meets_bind, meets_read, hrecords]
    simp [hmigrating]

/-- What is left of a legacy keychain is what was not taken out of it. -/
lemma achieves_rewriteLegacy {user : UserId} {grown : KeychainFiles}
    {records : List (Evolving KeychainRecordV1)}
    (hpresent : (files (legacyIdentityPath user)).isSome)
    (hrecords : readKeychainRecordsAt provider files (legacyIdentityPath user) = .ok records)
    (hgrows : Grows files grown)
    (hsplit : ∀ sealed ∈ records.filterMap (migratingIdentity? trustedRoot),
      HoldsIdentity provider grown sealed) :
    (rewriteLegacy provider (legacyIdentityPath user)
      (records.filter fun record => (migratingIdentity? trustedRoot record).isNone)).Achieves
        (Grows files) grown fun _ t => Finished provider trustedRoot (.legacy user) files t := by
  have hbeside : ∀ content path, path ≠ legacyIdentityPath user →
      Function.update grown (legacyIdentityPath user) content path = grown path :=
    fun content path hne => Function.update_of_ne hne _ _
  have htaken : ∀ content record, HoldsRecord provider files (legacyIdentityPath user) record →
      (Migration.legacy user).Takes trustedRoot record → HoldsSplit provider trustedRoot
        (Function.update grown (legacyIdentityPath user) content) record := by
    rintro content record ⟨records', hrecords', hrecord⟩ htakes
    obtain rfl := Except.ok.inj (hrecords.symm.trans hrecords')
    match record, hrecord, htakes with
    | .known (.identity sealed), hrecord, htakes =>
      exact (keepsSplit_update rfl content).holdsIdentity
        (hsplit sealed (mem_migrating.mpr ⟨hrecord, htakes⟩))
  have hleft : ∀ record, HoldsRecord provider files (legacyIdentityPath user) record →
      ¬ (Migration.legacy user).Takes trustedRoot record →
        record ∈ records.filter fun record => (migratingIdentity? trustedRoot record).isNone := by
    rintro record ⟨records', hrecords', hrecord⟩ htakes
    obtain rfl := Except.ok.inj (hrecords.symm.trans hrecords')
    rw [takes_legacy_iff, Bool.not_eq_true, Option.isSome_eq_false_iff] at htakes
    exact List.mem_filter.mpr ⟨hrecord, htakes⟩
  have hself : ∀ content, Function.update grown (legacyIdentityPath user) content
      (legacyIdentityPath user) = content := fun content => Function.update_self _ _ _
  rw [rewriteLegacy]
  split
  next hempty =>
    -- nothing remains, and the file goes
    have hgone : ∀ record, HoldsRecord provider files (legacyIdentityPath user) record →
        (Migration.legacy user).Takes trustedRoot record := fun record hholds => by
      by_contra htakes
      rw [List.isEmpty_iff.mp hempty] at hleft
      exact absurd (hleft record hholds htakes) List.not_mem_nil
    exact achieves_write hgrows ⟨⟨grown, hgrows, hbeside none⟩, htaken none,
      fun record hholds htakes => absurd (hgone record hholds) htakes, rests_of_none (hself none)⟩
  next =>
    apply achieves_read_bind hgrows
    intro bytes hbytes
    obtain ⟨rewritten, hrewritten, hmem⟩ := readKeychainRecordsAt_rewritten hpresent hrecords
      List.filter_sublist hbytes (hself (some bytes))
    have hsame : rewritten ⊆ records.filter (fun record =>
        (migratingIdentity? trustedRoot record).isNone) ∧ records.filter (fun record =>
          (migratingIdentity? trustedRoot record).isNone) ⊆ rewritten :=
      ⟨fun record => (hmem record).mp, fun record => (hmem record).mpr⟩
    have hfinished : Finished provider trustedRoot (.legacy user) files
        (Function.update grown (legacyIdentityPath user) (some bytes)) := by
      refine ⟨⟨grown, hgrows, hbeside _⟩, htaken _, fun record hholds htakes =>
        ⟨rewritten, hrewritten, (hmem record).mpr (hleft record hholds htakes)⟩,
        rests_of_forall hrewritten fun record hrecord => ?_⟩
      exact Option.isNone_iff_eq_none.mp (List.mem_filter.mp ((hmem record).mp hrecord)).2
    simp only [Achieves, writePrivateAtomic, meets_bind, meets_write, meets_read, meets_ensure,
      hrewritten, hsame, decide_true, and_self, if_true]
    exact ⟨hgrows, hfinished⟩

/-- The identities of the root go out of a legacy keychain once they lie in split files. -/
lemma achieves_splitLegacy {user : UserId} (hpresent : (files (legacyIdentityPath user)).isSome) :
    (splitLegacy provider trustedRoot (legacyIdentityPath user)).Achieves (Grows files) files
      fun _ t => Finished provider trustedRoot (.legacy user) files t := by
  apply achieves_read_bind (Grows.refl files)
  intro records hrecords
  refine achieves_bind (advances_splitIdentities _ fun sealed hsealed =>
    (mem_migrating.mp hsealed).2) fun _ grown hgrown => ?_
  rw [Achieves, meets_skipWhen]
  split
  next hempty =>
    have hnone : ∀ record ∈ records, migratingIdentity? trustedRoot record = none :=
      List.filterMap_eq_nil_iff.mp (List.isEmpty_iff.mp hempty)
    have hsource : grown (legacyIdentityPath user) = files (legacyIdentityPath user) :=
      hgrown.1.sources _ rfl
    refine ⟨⟨grown, hgrown.1, fun _ _ => rfl⟩, ?_, fun record hholds _ =>
      (holdsRecord_congr hsource).mpr hholds,
      rests_of_forall ((readKeychainRecordsAt_congr hsource).trans hrecords) hnone⟩
    rintro record ⟨records', hrecords', hrecord⟩ htakes
    obtain rfl := Except.ok.inj (hrecords.symm.trans hrecords')
    rw [takes_legacy_iff, hnone record hrecord] at htakes
    cases htakes
  next => exact achieves_rewriteLegacy hpresent hrecords hgrown.1 hgrown.2

/-- What a migration does to the files. -/
lemma achieves_run (migration : Migration) (files : KeychainFiles) :
    (migration.run provider trustedRoot).Achieves (Grows files) files fun _ t =>
      Finished provider trustedRoot migration files t := by
  cases hpresent : (files (migration.source trustedRoot)).isSome with
  | false =>
    have hnone : files (migration.source trustedRoot) = none := by simpa using hpresent
    have hrests := @rests_of_none provider _ _ _ hnone
    refine Meets.mono hrests (fun _ h => h.elim) ?_
    rintro r t ⟨rfl, rfl⟩
    exact ⟨⟨t, Grows.refl t, fun _ _ => rfl⟩,
      fun record hholds => absurd hholds (not_holdsRecord_of_none hnone),
      fun record hholds _ => hholds, hrests⟩
  | true =>
    cases migration with
    | combined =>
      simp only [Migration.source] at hpresent
      apply achieves_read_bind (Grows.refl files)
      rintro present hread
      obtain rfl := Except.ok.inj hread
      rw [hpresent]
      exact achieves_splitCombined
    | legacy user =>
      simp only [Migration.source] at hpresent
      apply achieves_read_bind (Grows.refl files)
      rintro present hread
      obtain rfl := Except.ok.inj hread
      rw [hpresent]
      exact achieves_splitLegacy hpresent

/-! ### Any number of runs -/

/-- The records that can go to split files: identities of the root, and its own selector. -/
def Movable (trustedRoot dir : HashValue) : Evolving KeychainRecordV1 → Prop
  | .known (.identity sealed) => sealed.trustedRoot = trustedRoot
  | .known (.currentUser _) => dir = trustedRoot
  | .unknown _ => False

lemma Migration.movable_of_takes {migration : Migration} {record : Evolving KeychainRecordV1}
    (h : migration.Takes trustedRoot record) :
    Movable trustedRoot (migration.source trustedRoot).dir record := by
  match migration, record, h with
  | .combined, .known (.identity _), h => exact h
  | .legacy _, .known (.identity _), h => exact h
  | .combined, .known (.currentUser _), _ => rfl

/-- Split files are as they were, and a record has left its source for its split file only. -/
structure Carries (provider : KeychainProvider) (trustedRoot : HashValue)
    (before after : KeychainFiles) : Prop where
  split : KeepsSplit before after
  records : ∀ dir record, HoldsRecord provider before ⟨dir, .keychain⟩ record →
    HoldsRecord provider after ⟨dir, .keychain⟩ record ∨
      Movable trustedRoot dir record ∧ HoldsSplit provider trustedRoot after record

instance : IsPreorder KeychainFiles (Carries provider trustedRoot) where
  refl _ := ⟨fun _ _ _ h => h, fun _ _ h => Or.inl h⟩
  trans before between after h h' := by
    refine ⟨h.split.trans h'.split, fun dir record hholds => ?_⟩
    rcases h.records dir record hholds with hholds | ⟨hmovable, hsplit⟩
    · exact h'.records dir record hholds
    · exact Or.inr ⟨hmovable, h'.split.holdsSplit hsplit⟩

lemma Grows.carries (h : Grows before after) : Carries provider trustedRoot before after :=
  ⟨h.split, fun _ _ hholds => Or.inl ((holdsRecord_congr (h.sources _ rfl)).mpr hholds)⟩

lemma Finished.carries {migration : Migration}
    (h : Finished provider trustedRoot migration before after) :
    Carries provider trustedRoot before after := by
  obtain ⟨grown, hgrows, hbeside⟩ := h.grows
  refine ⟨fun path bytes hsplit hbytes => ?_, fun dir record hholds => ?_⟩
  · have hne : path ≠ migration.source trustedRoot := by
      rintro rfl
      exact hsplit migration.file_source
    rw [hbeside path hne]
    exact hgrows.split path bytes hsplit hbytes
  · by_cases hsource : (⟨dir, .keychain⟩ : KeychainPath) = migration.source trustedRoot
    · by_cases htakes : migration.Takes trustedRoot record
      · have hmovable := Migration.movable_of_takes htakes
        rw [← hsource] at hmovable
        exact Or.inr ⟨hmovable, h.taken record (hsource ▸ hholds) htakes⟩
      · exact Or.inl (hsource ▸ h.left record (hsource ▸ hholds) htakes)
    · have hsame := (hbeside _ hsource).trans (hgrows.sources ⟨dir, .keychain⟩ rfl)
      exact Or.inl ((holdsRecord_congr hsame).mpr hholds)

lemma carries_of_leaves {migration : Migration}
    (h : (migration.run provider trustedRoot).Leaves before after) :
    Carries provider trustedRoot before after := by
  rcases (achieves_run migration before).leaves h with hgrows | ⟨_, hfinished⟩
  · exact hgrows.carries
  · exact hfinished.carries

/-- A keychain file of which nothing was lost: what its split files hold is unchanged, what its
sources hold is still there or in its split file, and what is not the root's is still there. -/
structure LosesNothing (provider : KeychainProvider) (trustedRoot : HashValue)
    (before after : KeychainFiles) : Prop where
  splitFiles : ∀ path bytes, path.file ≠ .keychain → before path = some bytes →
    after path = some bytes
  identity : ∀ sealed, HoldsIdentity provider before sealed → HoldsIdentity provider after sealed
  currentUser : ∀ current, HoldsCurrentUser provider before trustedRoot current →
    HoldsCurrentUser provider after trustedRoot current
  sourceIdentity : ∀ dir sealed,
    HoldsRecord provider before ⟨dir, .keychain⟩ (.known (.identity sealed)) →
      HoldsRecord provider after ⟨dir, .keychain⟩ (.known (.identity sealed)) ∨
        HoldsIdentity provider after sealed
  sourceCurrentUser : ∀ current,
    HoldsRecord provider before (keychainPath trustedRoot) (.known (.currentUser current)) →
      HoldsRecord provider after (keychainPath trustedRoot) (.known (.currentUser current)) ∨
        HoldsCurrentUser provider after trustedRoot current
  otherRoots : ∀ dir sealed, sealed.trustedRoot ≠ trustedRoot →
    HoldsRecord provider before ⟨dir, .keychain⟩ (.known (.identity sealed)) →
      HoldsRecord provider after ⟨dir, .keychain⟩ (.known (.identity sealed))
  otherSelectors : ∀ dir current, dir ≠ trustedRoot →
    HoldsRecord provider before ⟨dir, .keychain⟩ (.known (.currentUser current)) →
      HoldsRecord provider after ⟨dir, .keychain⟩ (.known (.currentUser current))
  unknown : ∀ dir raw, HoldsRecord provider before ⟨dir, .keychain⟩ (.unknown raw) →
    HoldsRecord provider after ⟨dir, .keychain⟩ (.unknown raw)

lemma Carries.losesNothing (h : Carries provider trustedRoot before after) :
    LosesNothing provider trustedRoot before after where
  splitFiles := h.split
  identity _ := h.split.holdsIdentity
  currentUser _ := h.split.holdsCurrentUser
  sourceIdentity dir _ hholds := (h.records dir _ hholds).imp id fun hmoved => hmoved.2
  sourceCurrentUser _ hholds := (h.records trustedRoot _ hholds).imp id fun hmoved => hmoved.2
  otherRoots dir _ hother hholds :=
    (h.records dir _ hholds).resolve_right fun hmoved => hother hmoved.1
  otherSelectors dir _ hother hholds :=
    (h.records dir _ hholds).resolve_right fun hmoved => hother hmoved.1
  unknown dir _ hholds := (h.records dir _ hholds).resolve_right fun hmoved => hmoved.1

/-! ### Conflicts -/

/-- The split file that a record would go to is there and does not hold it. -/
def Conflicts (provider : KeychainProvider) (trustedRoot : HashValue) (files : KeychainFiles) :
    Evolving KeychainRecordV1 → Prop
  | .known (.identity sealed) =>
    (files (identityPath sealed.trustedRoot sealed.userId)).isSome ∧
      ¬ HoldsIdentity provider files sealed
  | .known (.currentUser current) =>
    (files (currentUserPath trustedRoot)).isSome ∧
      ¬ HoldsCurrentUser provider files trustedRoot current
  | .unknown _ => False

/-- A split file that is there is never made to hold something else. -/
lemma Conflicts.not_holdsSplit {record : Evolving KeychainRecordV1}
    (h : Conflicts provider trustedRoot before record) (hkeeps : KeepsSplit before after) :
    ¬ HoldsSplit provider trustedRoot after record := by
  intro hholds
  match record, h, hholds with
  | .known (.identity sealed), h, hholds =>
    have hsame := hkeeps.eq_of_isSome (by simp [identityPath]) h.1
    apply h.2
    rwa [HoldsIdentity, ← readIdentityAt_congr hsame]
  | .known (.currentUser current), h, hholds =>
    have hsame := hkeeps.eq_of_isSome (by simp [currentUserPath]) h.1
    apply h.2
    rwa [HoldsCurrentUser, ← readCurrentUserAt_congr hsame]

/-- The run fails, and at every point the source is as it was. -/
def Refuses (provider : KeychainProvider) (trustedRoot : HashValue) (migration : Migration)
    (files : KeychainFiles) : Prop :=
  (∃ e, (migration.run provider trustedRoot files).result = .error e) ∧
    ∀ t, (migration.run provider trustedRoot).Leaves files t →
      t (migration.source trustedRoot) = files (migration.source trustedRoot)

lemma refuses_of_conflicts {migration : Migration} {record : Evolving KeychainRecordV1}
    (hholds : HoldsRecord provider files (migration.source trustedRoot) record)
    (htakes : migration.Takes trustedRoot record)
    (hconflicts : Conflicts provider trustedRoot files record) :
    Refuses provider trustedRoot migration files := by
  have hnever : ∀ t, ¬ Finished provider trustedRoot migration files t := fun t ht =>
    hconflicts.not_holdsSplit ht.carries.split (ht.taken record hholds htakes)
  have hrun := @achieves_run provider trustedRoot migration files
  constructor
  · cases hresult : (migration.run provider trustedRoot files).result with
    | error e => exact ⟨e, rfl⟩
    | ok u => exact absurd (hrun.ends ⟨hresult, rfl⟩) (hnever _)
  · intro t ht
    rcases hrun.leaves ht with hgrows | ⟨_, hfinished⟩
    · exact hgrows.sources _ migration.file_source
    · exact absurd hfinished (hnever t)

/-- Migrations lose nothing. However many runs are made, and wherever each is cut off, all that was
readable is readable; a run that meets a split file with other content fails and leaves its source;
and a run that has succeeded has nothing left to do. -/
theorem migrations_loseNothing (provider : KeychainProvider) (trustedRoot : HashValue) :
    (∀ before after, Runs (Set.range (Migration.run provider trustedRoot)) before after →
      LosesNothing provider trustedRoot before after) ∧
    (∀ (migration : Migration) files record,
      HoldsRecord provider files (migration.source trustedRoot) record →
        migration.Takes trustedRoot record → Conflicts provider trustedRoot files record →
          Refuses provider trustedRoot migration files) ∧
    ∀ (migration : Migration) before after,
      (migration.run provider trustedRoot).Ends before () after →
        (migration.run provider trustedRoot).Rests after := by
  refine ⟨fun before after hruns => ?_, fun _ _ _ => refuses_of_conflicts,
    fun migration before after hends => ((achieves_run migration before).ends hends).rests⟩
  have hcarries : Carries provider trustedRoot before after := by
    apply hruns.keeps
    rintro _ ⟨migration, rfl⟩ s t hleaves
    exact carries_of_leaves hleaves
  exact hcarries.losesNothing

section Example

open TestSupport

def sealedUser : SealedIdentityV1 :=
  ⟨testRoot, rootUser.id, ⟨"argon2id", 65536, 3, 1⟩, [1], [2], [3]⟩

/-- Keychains with an identity and a record of a later version, and without the identity. -/
def testKeychain : KeychainProvider where
  keychainCodec := tableSetCodec id
    [[.known (.identity sealedUser), .unknown [9]], [.unknown [9]]]
  identityCodec := tableCodec [sealedUser]
  currentUserCodec := tableCodec []
  length_le_of_sublist := by
    intro payload payload' records kept hread _ hwritten
    have hpayload : payload.length = 1 := by
      cases payload with
      | nil => cases hread
      | cons byte rest =>
        cases rest with
        | nil => rfl
        | cons byte' rest => cases hread
    have hpayload' : payload'.length = 1 := by
      simp only [tableSetCodec, tablePosition] at hwritten
      split at hwritten
      · split_ifs at hwritten
        cases hwritten
        rfl
      · cases hwritten
    rw [hpayload, hpayload']

def legacyFiles : KeychainFiles := fun path =>
  if path = legacyIdentityPath rootUser.id then some (keychainMagic ++ [0]) else none

/-- A legacy keychain is rewritten without the identity, and then rests. -/
theorem migrations_loseNothing_legacy :
    ((Migration.legacy rootUser.id).run testKeychain testRoot legacyFiles).passed.length = 2 ∧
      ((Migration.legacy rootUser.id).run testKeychain testRoot).Rests
        ((Migration.legacy rootUser.id).run testKeychain testRoot legacyFiles).last :=
  ⟨by decide, (migrations_loseNothing testKeychain testRoot).2.2 _ legacyFiles _ ⟨rfl, rfl⟩⟩

end Example

end Thorax.Keychain
