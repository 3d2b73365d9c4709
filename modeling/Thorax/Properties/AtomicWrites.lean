import Thorax.Store.AtomicWrites

/-!
# Writes that a crash cannot tear

Everything the store does rests on writes that take place as a whole or not at all. Down at the
calls of the file system a write is none of this: it can fail half way, and a crash can leave any
part of what has not been synced. Followed call by call, a crash leaves the old content of the file
or the new one, and the new one once the write has succeeded.
-/

namespace Thorax

open FileSystem FileSystem.State FileProgram Remote

variable {P Dir : Type} [DecidableEq Dir] {replaces : Bool} {parent : FileName P → Dir}

/-! ### Following a program -/

/-- The files of the store, the temporary ones left out. -/
def FileName.Kept (name : FileName P) : Prop := ∃ path, name = .file path

lemma not_kept_temporaryPathFor {path : P} {random : ℕ} :
    ¬ (temporaryPathFor path random).Kept := by
  rintro ⟨other, hother⟩
  cases hother

/-- Before each call and at the end, a crash leaves what is admitted. -/
def fileDiscipline [DecidableEq P] (replaces : Bool) (parent : FileName P → Dir)
    (admitted : FileName P → Option Bytes → Prop) :
    Discipline (State (FileName P) UInt8) (FileCall P) Call.Reply where
  serves state call reply later := Serves replaces parent state call reply later
  rely := Eq
  allowed state _ := state.Within FileName.Kept admitted

section Rules

variable [DecidableEq P] {admitted : FileName P → Option Bytes → Prop} {state : State (FileName P) UInt8} {α : Type}

lemma upholds_ask {call : FileCall P}
    {post : Except (FileError P) call.Reply → State (FileName P) UInt8 → Prop}
    (hwithin : state.Within FileName.Kept admitted)
    (h : ∀ reply later, Serves replaces parent state call reply later → post (.ok reply) later) :
    (Program.ask call : FileProgram P call.Reply).Upholds (fileDiscipline replaces parent admitted)
      state post := by
  rintro _ rfl
  exact ⟨hwithin, h⟩

/-- A call ends the program where it fails. -/
lemma upholds_request {name : FileName P} {call : FileCall P}
    {post : Except (FileError P) call.Answer → State (FileName P) UInt8 → Prop}
    (hwithin : state.Within FileName.Kept admitted)
    (hok : ∀ answer later, Serves replaces parent state call (.ok answer) later →
      post (.ok answer) later)
    (herror : ∀ kind later, Serves replaces parent state call (.error kind) later →
      post (.error (name, kind)) later) :
    (request name call).Upholds (fileDiscipline replaces parent admitted) state post := by
  refine Program.upholds_bind.mpr (upholds_ask hwithin fun reply later hserves => ?_)
  cases reply with
  | ok answer => exact hok answer later hserves
  | error kind => exact herror kind later hserves

/-- A temporary file can be removed at any time. -/
lemma upholds_discard {path : P} {random : ℕ} {error : FileError P}
    (hwithin : state.Within FileName.Kept admitted) :
    (discard (temporaryPathFor path random) error : FileProgram P α).Upholds
      (fileDiscipline replaces parent admitted) state fun result later =>
        later.Within FileName.Kept admitted ∧ ∀ a, result ≠ .ok a := by
  refine Program.upholds_bind.mpr (upholds_ask hwithin fun reply later hserves => ?_)
  refine ⟨?_, fun _ hok => by cases hok⟩
  cases hserves with
  | refused => exact hwithin
  | removed => exact hwithin.setOther not_kept_temporaryPathFor (by simp)

/-- A call that changes no file. -/
def Harmless : FileCall P → Prop
  | .createDirAll _ | .setPermissions _ => True
  | _ => False

omit [DecidableEq P] in
lemma asks_request {name : FileName P} {call : FileCall P} (h : Harmless call) :
    (request name call).Asks Harmless :=
  Program.asks_bind (Program.asks_ask.mpr h) fun _ => Program.asks_lift

lemma upholds_harmless {program : FileProgram P α} (h : program.Asks Harmless)
    (hwithin : state.Within FileName.Kept admitted) :
    program.Upholds (fileDiscipline replaces parent admitted) state fun _ later => later = state := by
  refine (Program.upholds_of_asks h (fun _ => rfl) ?_ ?_ ?_ ?_).mono fun _ _ heq => heq.symm
  · exact fun {_ _ _} h h' => h.trans h'
  · exact fun hrely => hrely
  · rintro _ _ rfl _
    exact hwithin
  · intro before call reply later hharmless hserves
    cases hserves <;> first | rfl | exact hharmless.elim

/-- A call comes first; where it fails, what is left is admitted. -/
lemma upholds_request_bind {name : FileName P} {call : FileCall P}
    {rest : call.Answer → FileProgram P Unit} {goal : State (FileName P) UInt8 → Prop}
    (hwithin : state.Within FileName.Kept admitted)
    (herror : ∀ kind later, Serves replaces parent state call (.error kind) later →
      later.Within FileName.Kept admitted)
    (hok : ∀ answer later, Serves replaces parent state call (.ok answer) later →
      (rest answer).Upholds (fileDiscipline replaces parent admitted) later fun result last =>
        last.Within FileName.Kept admitted ∧ (result = .ok () → goal last)) :
    (request name call >>= rest).Upholds (fileDiscipline replaces parent admitted) state
      fun result last => last.Within FileName.Kept admitted ∧ (result = .ok () → goal last) := by
  refine Program.upholds_bind.mpr (upholds_request hwithin hok fun kind later hserves => ?_)
  exact ⟨herror kind later hserves, fun hok => by cases hok⟩

end Rules

/-! ### Replacing a file -/

section Replacing

variable {files : FileName P → Option Bytes} {path : P} {random : ℕ} {bytes : Bytes}
  {state : State (FileName P) UInt8} {file : ℕ}

/-- The files are as they were. -/
def Unchanged (files : FileName P → Option Bytes) (name : FileName P) (content : Option Bytes) : Prop :=
  content = files name

/-- The files are as they were, but for one, which may also have the new content, and be gone where
a rename does not replace its destination. -/
def Replacing (replaces : Bool) (files : FileName P → Option Bytes) (path : P)
    (new : Option Bytes) (name : FileName P) (content : Option Bytes) : Prop :=
  content = files name ∨ name = .file path ∧
    (content = new ∨ replaces = false ∧ content = none)

lemma replacing_of_unchanged {new : Option Bytes}
    (h : state.Within FileName.Kept (Unchanged files)) :
    state.Within FileName.Kept (Replacing replaces files path new) :=
  h.mono fun _ _ => Or.inl

/-- The temporary file has been written and synced. -/
structure Prepared (path : P) (random : ℕ) (bytes : Bytes) (file : ℕ)
    (state : State (FileName P) UInt8) : Prop where
  entry : state.entries (temporaryPathFor path random) = some file
  synced : state.inodes file = ⟨bytes, true⟩

lemma Prepared.allocated (h : Prepared path random bytes file state)
    (hallocated : state.Allocated) : file < state.nextInode := by
  apply hallocated (temporaryPathFor path random)
  rw [mayBe, h.entry]
  exact List.mem_cons_self

/-- The file is in its place. -/
structure Placed (path : P) (bytes : Bytes) (file : ℕ) (state : State (FileName P) UInt8) :
    Prop where
  entry : state.entries (.file path) = some file
  synced : state.inodes file = ⟨bytes, true⟩

lemma ne_temporaryPathFor : FileName.file path ≠ temporaryPathFor path random := by
  intro heq
  cases heq

variable [DecidableEq P]

/-- A rename that goes through puts the file in its place. -/
lemma placed_of_renamed (hwithin : state.Within FileName.Kept (Replacing replaces files path (some bytes)))
    (hprepared : Prepared path random bytes file state) {later : State (FileName P) UInt8}
    (hserves : Serves replaces parent state (.rename (temporaryPathFor path random) (.file path))
      (.ok ()) later) :
    later.Within FileName.Kept (Replacing replaces files path (some bytes)) ∧
      Placed path bytes file later := by
  cases hserves with
  | renamed _ _ hentry hne =>
    obtain rfl := Option.some.inj (hprepared.entry.symm.trans hentry)
    have hfile := hprepared.allocated hwithin.allocated
    have hplaced : (state.setEntry (.file path) (some file)).Within FileName.Kept
        (Replacing replaces files path (some bytes)) := by
      refine (hwithin.setEntry ?_ fun found => recovers_synced hprepared.synced).mono ?_
      · rintro _ ⟨⟩
        exact hfile
      · rintro name content (hold | ⟨rfl, rfl⟩)
        · exact hold
        · exact Or.inr ⟨rfl, Or.inl rfl⟩
    refine ⟨hplaced.setOther not_kept_temporaryPathFor (by simp), ?_, hprepared.synced⟩
    simp [State.setEntry, ne_temporaryPathFor]

/-- Where a rename does not replace its destination, the destination goes first. -/
lemma replacing_of_removed (hreplaces : replaces = false)
    (hwithin : state.Within FileName.Kept (Unchanged files)) :
    (state.setEntry (.file path) none).Within FileName.Kept
      (Replacing replaces files path (some bytes)) := by
  have hgone : (state.setEntry (.file path) none).Within FileName.Kept
      (Also (Unchanged files) (.file path) none) :=
    hwithin.setEntry (by simp) fun _ hfound => hfound
  refine hgone.mono ?_
  rintro name content (hold | ⟨rfl, rfl⟩)
  · exact Or.inl hold
  · exact Or.inr ⟨rfl, Or.inr ⟨hreplaces, rfl⟩⟩

/-- The rename that replaces the file, or gives up. -/
lemma upholds_renameOver
    (hwithin : state.Within FileName.Kept (Replacing replaces files path (some bytes)))
    (hprepared : Prepared path random bytes file state) :
    (renameOver (temporaryPathFor path random) (.file path)).Upholds
      (fileDiscipline replaces parent (Replacing replaces files path (some bytes))) state
        fun result later => later.Within FileName.Kept (Replacing replaces files path (some bytes)) ∧
          (result = .ok () → Placed path bytes file later) := by
  refine Program.upholds_bind.mpr (upholds_ask hwithin fun reply later hserves => ?_)
  cases reply with
  | ok answer =>
    obtain ⟨hlater, hplaced⟩ := placed_of_renamed hwithin hprepared hserves
    exact ⟨hlater, fun _ => hplaced⟩
  | error kind =>
    cases hserves with
    | refused =>
      exact (upholds_discard hwithin).mono fun _ _ h => ⟨h.1, fun hok => absurd hok (h.2 ())⟩

lemma upholds_replaceFile (hwithin : state.Within FileName.Kept (Unchanged files))
    (hprepared : Prepared path random bytes file state) :
    (replaceFile (temporaryPathFor path random) (.file path)).Upholds
      (fileDiscipline replaces parent (Replacing replaces files path (some bytes))) state
        fun result later => later.Within FileName.Kept (Replacing replaces files path (some bytes)) ∧
          (result = .ok () → Placed path bytes file later) := by
  have hreplacing : state.Within FileName.Kept (Replacing replaces files path (some bytes)) :=
    replacing_of_unchanged hwithin
  have hdiscard : ∀ kind, (discard (temporaryPathFor path random) (.file path, kind) :
      FileProgram P Unit).Upholds (fileDiscipline replaces parent
        (Replacing replaces files path (some bytes))) state fun result later =>
          later.Within FileName.Kept (Replacing replaces files path (some bytes)) ∧
            (result = .ok () → Placed path bytes file later) := fun kind =>
    (upholds_discard hreplacing).mono fun _ _ h => ⟨h.1, fun hok => absurd hok (h.2 ())⟩
  refine Program.upholds_bind.mpr (upholds_ask hreplacing fun reply later hserves => ?_)
  cases reply with
  | ok answer =>
    obtain ⟨hlater, hplaced⟩ := placed_of_renamed hreplacing hprepared hserves
    exact ⟨hlater, fun _ => hplaced⟩
  | error kind =>
    cases hserves with
    | refused _ _ hrefuses =>
      cases kind with
      | notFound => exact hdiscard _
      | other => exact hdiscard _
      | alreadyExists =>
        refine Program.upholds_bind.mpr (upholds_request hreplacing ?_ ?_)
        · intro answer later hserves
          cases hserves with
          | removed =>
            have hstill : Prepared path random bytes file (state.setEntry (.file path) none) := by
              refine ⟨?_, hprepared.synced⟩
              have hother : (state.setEntry (.file path) none).entries (temporaryPathFor path random) =
                  state.entries (temporaryPathFor path random) := by
                simp [State.setEntry, ne_temporaryPathFor.symm]
              exact hother.trans hprepared.entry
            exact upholds_renameOver (replacing_of_removed hrefuses hwithin) hstill
        · intro kind later hserves
          cases hserves with
          | refused => exact ⟨hreplacing, fun hok => by cases hok⟩

/-- Beside the file that is written, nothing changes; once the write has succeeded, the file holds
the new content. -/
def Replaced (files : FileName P → Option Bytes) (path : P) (new : Option Bytes) :
    FileName P → Option Bytes → Prop :=
  Unchanged (Function.update files (.file path) new)

lemma replacing_of_replaced {name : FileName P} {content new : Option Bytes}
    (h : Replaced files path new name content) : Replacing replaces files path new name content := by
  by_cases hname : name = .file path
  · subst hname
    exact Or.inr ⟨rfl, Or.inl (by simpa [Replaced, Unchanged] using h)⟩
  · exact Or.inl (by simpa [Replaced, Unchanged, hname] using h)

/-- Syncing the directory makes the replacement final. -/
lemma replaced_of_only {new : Option Bytes}
    (h : state.Within FileName.Kept (Only (Replacing replaces files path new) (.file path) new)) :
    state.Within FileName.Kept (Replaced files path new) := by
  refine h.mono fun name content honly => ?_
  unfold Only at honly
  unfold Replaced Unchanged
  split_ifs at honly with hname
  · rw [hname, Function.update_self, honly]
  · rw [Function.update_of_ne hname]
    rcases honly with hold | ⟨hsame, -⟩
    · exact hold
    · exact absurd hsame hname

lemma replaced_of_synced
    (hwithin : state.Within FileName.Kept (Replacing replaces files path (some bytes)))
    (hplaced : Placed path bytes file state) :
    (state.syncDirectory parent (.file path)).Within FileName.Kept
      (Replaced files path (some bytes)) := by
  refine replaced_of_only (hwithin.syncDirectory fun found hfound =>
    recovers_synced hplaced.synced ?_)
  rwa [hplaced.entry] at hfound

/-- A call on the temporary file, to which no file that is kept is exposed. -/
lemma upholds_requestOrDiscard {call : FileCall P}
    {post : Except (FileError P) Unit → State (FileName P) UInt8 → Prop}
    (hwithin : state.Within FileName.Kept (Unchanged files))
    (hok : ∀ answer later, Serves replaces parent state call (.ok answer) later →
      post (.ok ()) later)
    (herror : ∀ kind later, Serves replaces parent state call (.error kind) later →
      later.Within FileName.Kept (Unchanged files))
    (hpost : ∀ result later, later.Within FileName.Kept (Replacing replaces files path (some bytes)) →
      result ≠ .ok () → post result later) :
    (requestOrDiscard (temporaryPathFor path random) call).Upholds
      (fileDiscipline replaces parent (Replacing replaces files path (some bytes))) state post := by
  refine Program.upholds_bind.mpr (upholds_ask (replacing_of_unchanged hwithin)
    fun reply later hserves => ?_)
  cases reply with
  | ok answer => exact hok answer later hserves
  | error kind =>
    refine (upholds_discard (replacing_of_unchanged (herror kind later hserves))).mono ?_
    exact fun result last h => hpost result last h.1 (h.2 ())

/-- What was done to the temporary file that is not kept: it was filled, or something failed. -/
structure Fills (files : FileName P → Option Bytes) (path : P) (random : ℕ) (file : ℕ)
    (inode : Inode UInt8) (state : State (FileName P) UInt8) : Prop where
  within : state.Within FileName.Kept (Unchanged files)
  apart : state.Apart FileName.Kept file
  entry : state.entries (temporaryPathFor path random) = some file
  inode : state.inodes file = inode

omit [DecidableEq P] in
lemma Fills.setInode {inode inode' : Inode UInt8} (h : Fills files path random file inode state) :
    Fills files path random file inode' (state.setInode file inode') :=
  ⟨h.within.setInode h.apart inode', h.apart, h.entry, Function.update_self ..⟩

/-- The file is written and synced. -/
lemma upholds_fill {rest : FileProgram P Unit}
    {post : Except (FileError P) Unit → State (FileName P) UInt8 → Prop}
    (h : Fills files path random file ⟨[], false⟩ state)
    (hrest : ∀ later : State (FileName P) UInt8, Fills files path random file ⟨bytes, true⟩ later →
      rest.Upholds (fileDiscipline replaces parent (Replacing replaces files path (some bytes))) later post)
    (hpost : ∀ result later, later.Within FileName.Kept (Replacing replaces files path (some bytes)) →
      result ≠ .ok () → post result later) :
    (do
      requestOrDiscard (temporaryPathFor path random) (.writeAll file bytes)
      requestOrDiscard (temporaryPathFor path random) (.syncAll file)
      rest : FileProgram P Unit).Upholds
      (fileDiscipline replaces parent (Replacing replaces files path (some bytes))) state post := by
  refine Program.upholds_bind.mpr (upholds_requestOrDiscard h.within ?_ ?_ ?_)
  · intro answer written hserves
    cases hserves with
    | wrote =>
      have hwritten : Fills files path random file ⟨bytes, false⟩ (state.append file bytes) := by
        simp only [State.append, h.inode, List.nil_append]
        exact h.setInode
      refine Program.upholds_bind.mpr (upholds_requestOrDiscard hwritten.within ?_ ?_ ?_)
      · intro answer later hserves
        cases hserves with
        | synced =>
          apply hrest
          simp only [State.sync, hwritten.inode]
          exact hwritten.setInode
      · intro kind later hserves
        cases hserves with
        | refused => exact hwritten.within
      · intro result later hlater hresult
        cases result with
        | ok _ => exact absurd rfl hresult
        | error e => exact hpost _ later hlater (by simp)
  · intro kind later hserves
    cases hserves with
    | refused => exact h.within
    | wroteInPart => exact h.setInode.within
  · intro result later hlater hresult
    cases result with
    | ok _ => exact absurd rfl hresult
    | error e => exact hpost _ later hlater (by simp)

/-- The file that is filled takes its place. -/
lemma upholds_place {finish : FileProgram P Unit} (hfinish : finish.Asks Harmless)
    (h : Fills files path random file ⟨bytes, true⟩ state) :
    (do
      replaceFile (temporaryPathFor path random) (.file path)
      finish
      syncParentDirectory (.file path) : FileProgram P Unit).Upholds
      (fileDiscipline replaces parent (Replacing replaces files path (some bytes))) state
        fun result later => later.Within FileName.Kept (Replacing replaces files path (some bytes)) ∧
          (result = .ok () → later.Within FileName.Kept (Replaced files path (some bytes))) := by
  refine Program.upholds_bind.mpr ((upholds_replaceFile h.within ⟨h.entry, h.inode⟩).mono ?_)
  rintro result placed ⟨hwithin, hplaced⟩
  cases result with
  | error e => exact ⟨hwithin, fun hok => by cases hok⟩
  | ok _ =>
    refine Program.upholds_bind.mpr ((upholds_harmless hfinish hwithin).mono ?_)
    rintro result last rfl
    cases result with
    | error e => exact ⟨hwithin, fun hok => by cases hok⟩
    | ok _ =>
      refine upholds_request hwithin (fun answer later hserves => ?_) fun kind later hserves => ?_
      · cases hserves with
        | syncedParent =>
          have hreplaced : (last.syncDirectory parent (.file path)).Within FileName.Kept
              (Replaced files path (some bytes)) := replaced_of_synced hwithin (hplaced rfl)
          exact ⟨hreplaced.mono fun _ _ => replacing_of_replaced, fun _ => hreplaced⟩
      · cases hserves with
        | refused => exact ⟨hwithin, fun hok => by cases hok⟩

/-- Whatever fails, and wherever a crash comes: the old content or the new one, and the new one
after a success. -/
theorem upholds_writeThroughTemporary {prepare finish : FileProgram P Unit}
    (hprepare : prepare.Asks Harmless) (hfinish : finish.Asks Harmless)
    (hwithin : state.Within FileName.Kept (Unchanged files)) :
    (writeThroughTemporary prepare finish path random bytes).Upholds
      (fileDiscipline replaces parent (Replacing replaces files path (some bytes))) state
        fun result later => later.Within FileName.Kept (Replacing replaces files path (some bytes)) ∧
          (result = .ok () → later.Within FileName.Kept (Replaced files path (some bytes))) := by
  have hreplacing : ∀ {state : State (FileName P) UInt8}, state.Within FileName.Kept (Unchanged files) →
      state.Within FileName.Kept (Replacing replaces files path (some bytes)) := replacing_of_unchanged
  refine Program.upholds_bind.mpr ((upholds_harmless hprepare (hreplacing hwithin)).mono ?_)
  rintro result _ rfl
  cases result with
  | error error => exact ⟨hreplacing hwithin, fun hok => by cases hok⟩
  | ok _ =>
    refine Program.upholds_bind.mpr (upholds_request (hreplacing hwithin) ?_ ?_)
    · intro file opened hserves
      cases hserves with
      | created =>
        have hnot : ¬ (temporaryPathFor path random).Kept := not_kept_temporaryPathFor
        obtain ⟨hcreated, hapart⟩ := hwithin.create hnot
        refine upholds_fill ⟨hcreated, hapart, ?_, ?_⟩ (fun later hfilled => ?_) ?_
        · simp [State.create, State.setEntry]
        · simp [State.create, State.setEntry, State.setInode]
        · exact upholds_place hfinish hfilled
        · exact fun result later hlater hresult => ⟨hlater, fun hok => absurd hok hresult⟩
    · intro kind later hserves
      cases hserves with
      | refused => exact ⟨hreplacing hwithin, fun hok => by cases hok⟩

lemma upholds_writePrivateAtomic (hwithin : state.Within FileName.Kept (Unchanged files)) :
    (writePrivateAtomic path random bytes).Upholds
      (fileDiscipline replaces parent (Replacing replaces files path (some bytes))) state
        fun result later => later.Within FileName.Kept (Replacing replaces files path (some bytes)) ∧
          (result = .ok () → later.Within FileName.Kept (Replaced files path (some bytes))) := by
  refine upholds_writeThroughTemporary (Program.asks_bind (asks_request ?_) fun _ => asks_request ?_)
    (asks_request ?_) hwithin
  · trivial
  · trivial
  · trivial

/-! ### Removing a file, and writing one that must not be there -/

omit [DecidableEq P] in
lemma visible_eq (hwithin : state.Within FileName.Kept (Unchanged files)) :
    files (.file path) = state.visible (.file path) :=
  (hwithin.visible ⟨path, rfl⟩).symm

/-- A removal leaves the old content or none, and none after a success. -/
theorem upholds_removeFileDurable (hwithin : state.Within FileName.Kept (Unchanged files)) :
    (removeFileDurable path).Upholds
      (fileDiscipline replaces parent (Replacing replaces files path none)) state
        fun result later => later.Within FileName.Kept (Replacing replaces files path none) ∧
          (result = .ok () → later.Within FileName.Kept (Replaced files path none)) := by
  have hreplacing : state.Within FileName.Kept (Replacing replaces files path none) :=
    replacing_of_unchanged hwithin
  refine Program.upholds_bind.mpr (upholds_ask hreplacing fun reply later hserves => ?_)
  cases hserves with
  | removed =>
    have hremoved : (state.setEntry (.file path) none).Within FileName.Kept
        (Also (Unchanged files) (.file path) none) :=
      hwithin.setEntry (by simp) fun _ hfound => hfound
    have hwithin' : (state.setEntry (.file path) none).Within FileName.Kept
        (Replacing replaces files path none) := by
      refine hremoved.mono ?_
      rintro name content (hold | ⟨rfl, rfl⟩)
      · exact Or.inl hold
      · exact Or.inr ⟨rfl, Or.inl rfl⟩
    refine upholds_request hwithin' (fun answer last hserves => ?_) fun kind last hserves => ?_
    · cases hserves with
      | syncedParent =>
        have hsynced : ((state.setEntry (.file path) none).syncDirectory parent (.file path)).Within
            FileName.Kept (Replaced files path none) := by
          apply replaced_of_only
          refine hwithin'.syncDirectory fun found hfound => ?_
          simpa [State.setEntry, Recovers] using hfound
        exact ⟨hsynced.mono fun _ _ => replacing_of_replaced, fun _ => hsynced⟩
    · cases hserves with
      | refused => exact ⟨hwithin', fun hok => by cases hok⟩
  | refused _ kind hrefuses =>
    cases kind with
    | notFound =>
      -- the file was not there
      have hnone : files (.file path) = none := by
        rw [visible_eq hwithin, visible, hrefuses, Option.map_none]
      refine ⟨hreplacing, fun _ => ?_⟩
      unfold Replaced
      rwa [Function.update_eq_self_iff.mpr hnone.symm]
    | alreadyExists => exact ⟨hreplacing, fun hok => by cases hok⟩
    | other => exact ⟨hreplacing, fun hok => by cases hok⟩

/-- The files are as they were, but a file that was not there may have come. -/
def Creating (files : FileName P → Option Bytes) (path : P) (bytes : Bytes)
    (name : FileName P) (content : Option Bytes) : Prop :=
  content = files name ∨ name = .file path ∧ files name = none ∧ content = some bytes

/-- What an output leaves once it has succeeded. -/
def Created (files : FileName P → Option Bytes) (path : P) (bytes : Bytes)
    (state : State (FileName P) UInt8) : Prop :=
  files (.file path) = none ∧ state.Within FileName.Kept (Replaced files path (some bytes))

omit [DecidableEq P] in
lemma creating_of_unchanged (h : state.Within FileName.Kept (Unchanged files)) :
    state.Within FileName.Kept (Creating files path bytes) :=
  h.mono fun _ _ => Or.inl

/-- Syncing the directory makes the output final. -/
lemma upholds_syncParent_created
    (hwithin : state.Within FileName.Kept (Creating files path bytes))
    (hnone : files (.file path) = none) (hplaced : Placed path bytes file state) :
    (syncParentDirectory (.file path)).Upholds
      (fileDiscipline replaces parent (Creating files path bytes)) state fun result later =>
        later.Within FileName.Kept (Creating files path bytes) ∧
          (result = .ok () → Created files path bytes later) := by
  refine upholds_request hwithin (fun answer last hserves => ?_) fun kind last hserves => ?_
  · cases hserves with
    | syncedParent =>
      have hsynced : (state.syncDirectory parent (.file path)).Within FileName.Kept
          (Replaced files path (some bytes)) := by
        apply replaced_of_synced _ hplaced
        · exact true
        · refine hwithin.mono fun name content hcontent => ?_
          rcases hcontent with hold | ⟨rfl, -, rfl⟩
          · exact Or.inl hold
          · exact Or.inr ⟨rfl, Or.inl rfl⟩
      refine ⟨hsynced.mono fun name content hcontent => ?_, fun _ => ⟨hnone, hsynced⟩⟩
      by_cases hname : name = .file path
      · subst hname
        exact Or.inr ⟨rfl, hnone, by simpa [Replaced, Unchanged] using hcontent⟩
      · exact Or.inl (by simpa [Replaced, Unchanged, hname] using hcontent)
  · cases hserves with
    | refused => exact ⟨hwithin, fun hok => by cases hok⟩

/-- The output is linked to its name, which must be free, and its temporary name is dropped. -/
lemma upholds_linkTemporary (h : Fills files path random file ⟨bytes, true⟩ state) :
    (linkTemporary (temporaryPathFor path random) (.file path)).Upholds
      (fileDiscipline replaces parent (Creating files path bytes)) state
        fun result later => later.Within FileName.Kept (Creating files path bytes) ∧
          (result = .ok () → Created files path bytes later) := by
  have hcreating : state.Within FileName.Kept (Creating files path bytes) :=
    creating_of_unchanged h.within
  refine Program.upholds_bind.mpr (upholds_ask hcreating fun reply linked hserves => ?_)
  cases hserves with
  | refused =>
    exact (upholds_discard hcreating).mono fun _ _ h => ⟨h.1, fun hok => absurd hok (h.2 ())⟩
  | linked _ _ hentry hfree =>
    obtain rfl := Option.some.inj (h.entry.symm.trans hentry)
    have hprepared : Prepared path random bytes file state := ⟨h.entry, h.inode⟩
    have hnone : files (.file path) = none := by
      rw [visible_eq h.within, visible, hfree, Option.map_none]
    have hlinked : (state.setEntry (.file path) (some file)).Within FileName.Kept
        (Creating files path bytes) := by
      refine (h.within.setEntry ?_ fun found => recovers_synced h.inode).mono ?_
      · rintro _ ⟨⟩
        exact hprepared.allocated h.within.allocated
      · rintro name content (hold | ⟨rfl, rfl⟩)
        · exact Or.inl hold
        · exact Or.inr ⟨rfl, hnone, rfl⟩
    refine upholds_request_bind hlinked (fun kind later hserves => ?_)
      fun answer dropped hserves => ?_
    · cases hserves with
      | refused => exact hlinked
    · cases hserves with
      | removed =>
        apply upholds_syncParent_created (hlinked.setOther not_kept_temporaryPathFor (by simp)) hnone
        exact ⟨by simp [State.setEntry, ne_temporaryPathFor], h.inode⟩

/-- An output that is not forced never replaces a file: whatever fails, and wherever a crash comes,
a file that was there is as it was, and where there was none there is none or the whole output. -/
theorem writePrivateOutput_neverReplaces (hwithin : state.Within FileName.Kept (Unchanged files)) :
    (writePrivateOutput path random bytes false).Upholds
      (fileDiscipline replaces parent (Creating files path bytes)) state
        fun result later => later.Within FileName.Kept (Creating files path bytes) ∧
          (result = .ok () → Created files path bytes later) := by
  have hnot : ¬ (temporaryPathFor path random).Kept := not_kept_temporaryPathFor
  refine upholds_request_bind (creating_of_unchanged hwithin) (fun kind later hserves => ?_)
    fun answer made hserves => ?_
  · cases hserves with
    | refused => exact creating_of_unchanged hwithin
  obtain rfl : made = state := by
    cases hserves
    rfl
  refine upholds_request_bind (creating_of_unchanged hwithin) (fun kind later hserves => ?_)
    fun file created hserves => ?_
  · cases hserves with
    | refused => exact creating_of_unchanged hwithin
  have hempty : Fills files path random file ⟨[], false⟩ created := by
    cases hserves with
    | created =>
      obtain ⟨hcreated, hapart⟩ := hwithin.create hnot
      exact ⟨hcreated, hapart, by simp [State.create, State.setEntry],
        by simp [State.create, State.setEntry, State.setInode]⟩
  refine upholds_request_bind (creating_of_unchanged hempty.within) (fun kind later hserves => ?_)
    fun answer written hserves => ?_
  · cases hserves with
    | refused => exact creating_of_unchanged hempty.within
    | wroteInPart => exact creating_of_unchanged hempty.setInode.within
  have hwritten : Fills files path random file ⟨bytes, false⟩ written := by
    cases hserves with
    | wrote =>
      simp only [State.append, hempty.inode, List.nil_append]
      exact hempty.setInode
  refine upholds_request_bind (creating_of_unchanged hwritten.within) (fun kind later hserves => ?_)
    fun answer synced hserves => ?_
  · cases hserves with
    | refused => exact creating_of_unchanged hwritten.within
  have hsynced : Fills files path random file ⟨bytes, true⟩ synced := by
    cases hserves with
    | synced =>
      simp only [State.sync, hwritten.inode]
      exact hwritten.setInode
  exact upholds_linkTemporary hsynced

end Replacing

/-! ### The store's writes -/

/-- The file of a disk at a path. -/
def Disk.content (disk : Disk) : StorePath → Option Bytes
  | .vault path => disk.vaults path
  | .ratchet root => (disk.roots root).ratchet
  | .transaction root => (disk.roots root).transaction
  | .joinCommit root => (disk.roots root).joinCommit
  | .cache root user => (disk.roots root).caches user
  | .transactionFile | .kubernetesSecret => none

def Disk.files (disk : Disk) : FileName StorePath → Option Bytes
  | .file path => disk.content path
  | .temporary _ _ => none

/-- These are the files of the disk. -/
def Disk.Stored (disk : Disk) (contents : FileName StorePath → Option Bytes) : Prop :=
  ∀ path, contents (.file path) = disk.content path

/-- The writes that the operations make steps of. -/
inductive StoreWrite where
  | vault (path : Path) (bytes : Bytes)
  | ratchet (root : HashValue) (bytes : Bytes)
  | transaction (root : HashValue) (bytes : Bytes)
  | cache (root : HashValue) (user : UserId) (bytes : Bytes)
  | removeTransaction (root : HashValue)
  | removeJoinCommit (root : HashValue)

namespace StoreWrite

def path : StoreWrite → StorePath
  | .vault path _ => .vault path
  | .ratchet root _ => .ratchet root
  | .transaction root _ | .removeTransaction root => .transaction root
  | .cache root user _ => .cache root user
  | .removeJoinCommit root => .joinCommit root

def content : StoreWrite → Option Bytes
  | .vault _ bytes | .ratchet _ bytes | .transaction _ bytes | .cache _ _ bytes => some bytes
  | .removeTransaction _ | .removeJoinCommit _ => none

/-- The step that a write is taken for. -/
def change : StoreWrite → Disk → Disk
  | .vault path bytes => fun disk => disk.setVault path bytes
  | .ratchet root bytes => fun disk => disk.setRatchet root bytes
  | .transaction root bytes => fun disk => disk.setTransaction root (some bytes)
  | .cache root user bytes => fun disk => disk.setCache root user bytes
  | .removeTransaction root => fun disk => disk.setTransaction root none
  | .removeJoinCommit root => fun disk => disk.removeJoinCommit root

/-- The calls by which it is made. -/
def program (write : StoreWrite) (random : ℕ) : FileProgram StorePath Unit :=
  match write with
  | .vault path bytes => writeAtomic (.vault path) random bytes
  | .ratchet root bytes => writePrivateAtomic (.ratchet root) random bytes
  | .transaction root bytes => writePrivateAtomic (.transaction root) random bytes
  | .cache root user bytes => writePrivateAtomic (.cache root user) random bytes
  | .removeTransaction root => removeFileDurable (.transaction root)
  | .removeJoinCommit root => removeFileDurable (.joinCommit root)

variable {write : StoreWrite} {disk : Disk} {parent : FileName StorePath → Dir}

/-- The step changes the file of the write and no other. -/
lemma content_change : (write.change disk).content =
    Function.update disk.content write.path write.content := by
  funext place
  cases write <;> cases place <;> simp [change, Disk.content, StoreWrite.path, content,
    Disk.setVault, Disk.setRatchet, Disk.setTransaction, Disk.removeJoinCommit, Disk.setCache,
    Disk.modifyRoot, Function.update_apply]
  all_goals split_ifs <;> simp_all

lemma files_change : (write.change disk).files =
    Function.update disk.files (.file write.path) write.content := by
  funext name
  cases name with
  | file path =>
    simp only [Disk.files, content_change]
    by_cases hpath : path = write.path
    · simp [hpath]
    · simp [hpath, Disk.files]
  | temporary path random => simp [Disk.files]

variable (write disk) in
/-- A crash, which any reader can take for one, leaves what the step leaves when it is cut off or
done. Only where a rename does not replace its destination can the file be gone. -/
def Atomic (replaces : Bool) (state : State (FileName StorePath) UInt8) : Prop :=
  ∀ contents, state.Crash contents →
    (∃ left, (Durable.Program.write write.change : Durable.Program Disk StoreError Unit).Leaves
      disk left ∧ left.Stored contents) ∨
    replaces = false ∧
      ∀ path, contents (.file path) = Function.update disk.content write.path none path

lemma atomic_of_within {state : State (FileName StorePath) UInt8}
    (h : state.Within FileName.Kept (Replacing replaces disk.files write.path write.content)) :
    write.Atomic disk replaces state := by
  intro contents hcrash
  have hname : ∀ path, Replacing replaces disk.files write.path write.content (.file path)
      (contents (.file path)) := fun path => h.holds _ ⟨path, rfl⟩ _ (hcrash _)
  have hother : ∀ path, path ≠ write.path → contents (.file path) = disk.content path := by
    intro path hpath
    rcases hname path with hold | ⟨hsame, -⟩
    · exact hold
    · exact absurd (FileName.file.inj hsame) hpath
  rcases hname write.path with hold | ⟨-, hnew | ⟨hreplaces, hgone⟩⟩
  · refine Or.inl ⟨disk, Or.inl (by simp [Durable.Program.write]), fun path => ?_⟩
    by_cases hpath : path = write.path
    · rw [hpath]
      exact hold
    · exact hother path hpath
  · refine Or.inl ⟨write.change disk, Or.inr rfl, fun path => ?_⟩
    rw [content_change]
    by_cases hpath : path = write.path
    · rw [hpath, Function.update_self, hnew]
    · rw [Function.update_of_ne hpath, hother path hpath]
  · refine Or.inr ⟨hreplaces, fun path => ?_⟩
    by_cases hpath : path = write.path
    · rw [hpath, Function.update_self, hgone]
    · rw [Function.update_of_ne hpath, hother path hpath]

/-- Every write of the store keeps to its file, and takes place as a whole or not at all. -/
lemma upholds_program {random : ℕ} {state : State (FileName StorePath) UInt8}
    (hstate : state.Within FileName.Kept (Unchanged disk.files)) :
    (write.program random).Upholds (fileDiscipline replaces parent
      (Replacing replaces disk.files write.path write.content)) state fun result later =>
        later.Within FileName.Kept (Replacing replaces disk.files write.path write.content) ∧
          (result = .ok () → later.Within FileName.Kept
            (Replaced disk.files write.path write.content)) := by
  cases write with
  | vault path bytes =>
    apply upholds_writeThroughTemporary _ Program.asks_pure hstate
    apply asks_request
    trivial
  | ratchet root bytes => exact upholds_writePrivateAtomic hstate
  | transaction root bytes => exact upholds_writePrivateAtomic hstate
  | cache root user bytes => exact upholds_writePrivateAtomic hstate
  | removeTransaction root => exact upholds_removeFileDurable hstate
  | removeJoinCommit root => exact upholds_removeFileDurable hstate

/-- The discipline of a program that is followed only through what it may ask for. -/
lemma upholds_of_allowed {rules rules' : Discipline (State (FileName StorePath) UInt8)
    (FileCall StorePath) Call.Reply} {program : FileProgram StorePath Unit}
    {state : State (FileName StorePath) UInt8}
    {post : Except (FileError StorePath) Unit → State (FileName StorePath) UInt8 → Prop}
    (h : program.Upholds rules state post)
    (hrely : ∀ {before later}, rules'.rely before later → rules.rely before later)
    (hserves : ∀ {before call reply later}, rules'.serves before call reply later →
      rules.serves before call reply later)
    (hallowed : ∀ before call, rules.allowed before call → rules'.allowed before call) :
    program.Upholds rules' state post := by
  induction program generalizing state with
  | done result => exact h
  | call op next ih =>
    intro before hbefore
    obtain ⟨hop, hnext⟩ := h before (hrely hbefore)
    exact ⟨hallowed before op hop, fun reply later hlater => ih reply (hnext reply later (hserves hlater))⟩

/-- Call by call, every write of the store is the one step it is taken for: whatever fails, and
wherever a crash comes or a reader looks, the files are those of a step that is cut off or done; and
once the write has succeeded, a crash leaves the files of the step done. -/
theorem storeWrites_refine (write : StoreWrite) (random : ℕ)
    {state : State (FileName StorePath) UInt8}
    (hstate : state.Within FileName.Kept (Unchanged disk.files)) :
    (write.program random).Upholds
      { serves := fun before call reply later => Serves replaces parent before call reply later
        rely := Eq
        allowed := fun before _ => write.Atomic disk replaces before }
      state fun result later => write.Atomic disk replaces later ∧
        (result = .ok () → later.Within FileName.Kept (Unchanged (write.change disk).files)) := by
  have hprogram : (write.program random).Upholds (fileDiscipline replaces parent
      (Replacing replaces disk.files write.path write.content)) state fun result later =>
        later.Within FileName.Kept (Replacing replaces disk.files write.path write.content) ∧
          (result = .ok () → later.Within FileName.Kept
            (Replaced disk.files write.path write.content)) := upholds_program hstate
  refine upholds_of_allowed (hprogram.mono fun result later h => ⟨atomic_of_within h.1, ?_⟩)
    (fun hrely => hrely) (fun hserves => hserves) fun _ _ hwithin => atomic_of_within hwithin
  rw [files_change]
  exact h.2

end StoreWrite

/-! ### A vault in an empty directory -/

/-- No file has ever been written. -/
def blankFiles : State (FileName StorePath) UInt8 := ⟨fun _ => ⟨[], true⟩, 0, fun _ => none, fun _ => []⟩

def blankDisk : Disk := ⟨fun _ => none, fun _ => ⟨none, none, none, fun _ => none, none⟩⟩

lemma within_blankFiles : blankFiles.Within FileName.Kept (Unchanged blankDisk.files) := by
  constructor
  · intro name file hfile
    simp [blankFiles, mayBe] at hfile
  · rintro name ⟨path, rfl⟩ content ⟨entry, hentry, hrecovers⟩
    obtain rfl : entry = none := by simpa [blankFiles, mayBe] using hentry
    rw [show content = none from hrecovers]
    cases path <;> rfl

/-- The first vault is there once its write has succeeded, whatever crashes after it. -/
theorem storeWrites_refine_first :
    ((StoreWrite.vault (.unix []) [1]).program 0).Upholds
      { serves := fun before call reply later =>
          Serves true (fun _ : FileName StorePath => ()) before call reply later
        rely := Eq
        allowed := fun before _ => (StoreWrite.vault (.unix []) [1]).Atomic blankDisk true before }
      blankFiles fun result later =>
        (StoreWrite.vault (.unix []) [1]).Atomic blankDisk true later ∧
          (result = .ok () → later.Within FileName.Kept
            (Unchanged ((StoreWrite.vault (.unix []) [1]).change blankDisk).files)) :=
  StoreWrite.storeWrites_refine (.vault (.unix []) [1]) 0 within_blankFiles

/-- An output to a free name. -/
theorem writePrivateOutput_neverReplaces_first :
    (writePrivateOutput (.vault (.unix [])) 0 [1] false).Upholds
      (fileDiscipline true (fun _ : FileName StorePath => ())
        (Creating blankDisk.files (.vault (.unix [])) [1])) blankFiles
        fun result later =>
          later.Within FileName.Kept (Creating blankDisk.files (.vault (.unix [])) [1]) ∧
            (result = .ok () → Created blankDisk.files (.vault (.unix [])) [1] later) :=
  writePrivateOutput_neverReplaces within_blankFiles

end Thorax
