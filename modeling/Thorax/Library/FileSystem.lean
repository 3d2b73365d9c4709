import Mathlib.Data.List.Infix
import Mathlib.Logic.Function.Basic
import Thorax.Library.Remote

/-!
# Files that outlast a crash

The calls by which programs change files, and what a crash can leave of their effects. The content
of a file survives a crash if it has been synced since it was last written, and otherwise the file
can hold anything. A name that was changed can come back as any of the entries it had since its
directory was last synced. A call can fail with or without a part of its effect. The rules at the
end say what one call does to the contents that a crash can leave.
-/

namespace FileSystem

open Remote

variable {Name Dir α : Type}

/-- A file: what its readers see, and whether that has been forced to the disk. -/
structure Inode (α : Type) where
  data : List α
  synced : Bool

structure State (Name α : Type) where
  inodes : ℕ → Inode α
  nextInode : ℕ
  entries : Name → Option ℕ
  /-- The entries that a crash can bring back. -/
  replaced : Name → List (Option ℕ)

inductive ErrorKind where
  | alreadyExists
  | notFound
  | other
  deriving DecidableEq

inductive Call (Name α : Type) where
  | createDirAll (name : Name)
  | createNew (name : Name)
  | writeAll (file : ℕ) (data : List α)
  | syncAll (file : ℕ)
  | rename (source destination : Name)
  | removeFile (name : Name)
  | hardLink (source destination : Name)
  | setPermissions (name : Name)
  | syncParent (name : Name)

def Call.Answer : Call Name α → Type
  | .createNew _ => ℕ
  | _ => Unit

abbrev Call.Reply (call : Call Name α) : Type := Except ErrorKind call.Answer

namespace State

section Crashes

variable (state : State Name α)

/-! ### Crashes -/

/-- What a name with this entry can hold after a crash. -/
def Recovers (entry : Option ℕ) (content : Option (List α)) : Prop :=
  match entry with
  | none => content = none
  | some file => ∃ data, content = some data ∧
      ((state.inodes file).synced = true → data = (state.inodes file).data)

/-- The entries that a name can have after a crash. -/
def mayBe (name : Name) : List (Option ℕ) := state.entries name :: state.replaced name

/-- A crash can leave this content under the name. -/
def MayHold (name : Name) (content : Option (List α)) : Prop :=
  ∃ entry ∈ state.mayBe name, state.Recovers entry content

def setInode (file : ℕ) (inode : Inode α) : State Name α :=
  { state with inodes := Function.update state.inodes file inode }

/-- What readers find. -/
def visible (name : Name) : Option (List α) :=
  (state.entries name).map fun file => (state.inodes file).data

/-- A crash can leave these contents. -/
def Crash (contents : Name → Option (List α)) : Prop :=
  ∀ name, state.MayHold name (contents name)

/-- No name has a file that is not there yet. -/
def Allocated : Prop := ∀ name file, some file ∈ state.mayBe name → file < state.nextInode

/-- After a crash, each of the names that are kept holds what is admitted. -/
structure Within (kept : Name → Prop) (admitted : Name → Option (List α) → Prop) : Prop where
  allocated : state.Allocated
  holds : ∀ name, kept name → ∀ content, state.MayHold name content → admitted name content

/-- None of the names that are kept has the file. -/
def Apart (kept : Name → Prop) (file : ℕ) : Prop :=
  ∀ name, kept name → some file ∉ state.mayBe name

variable {state} {state' : State Name α} {kept : Name → Prop}
  {admitted admitted' : Name → Option (List α) → Prop} {name : Name} {file : ℕ} {data : List α}

lemma mayHold_visible (state : State Name α) (name : Name) :
    state.MayHold name (state.visible name) := by
  refine ⟨state.entries name, List.mem_cons_self, ?_⟩
  unfold visible
  cases state.entries name with
  | none => rfl
  | some file => exact ⟨_, rfl, fun _ => rfl⟩

/-- What readers find, a crash can leave. -/
lemma Within.visible (h : state.Within kept admitted) (hname : kept name) :
    admitted name (state.visible name) := h.holds name hname _ (state.mayHold_visible name)

lemma Within.mono (h : state.Within kept admitted)
    (himp : ∀ name content, admitted name content → admitted' name content) :
    state.Within kept admitted' :=
  ⟨h.allocated, fun name hname content hcontent => himp name content (h.holds name hname content hcontent)⟩

/-- A name that keeps its entries, whose files keep what they hold. -/
lemma mayHold_of_same (hmay : state'.mayBe name = state.mayBe name)
    (hinodes : ∀ file, some file ∈ state.mayBe name → state'.inodes file = state.inodes file)
    {content : Option (List α)} (h : state'.MayHold name content) : state.MayHold name content := by
  obtain ⟨entry, hentry, hrecovers⟩ := h
  rw [hmay] at hentry
  refine ⟨entry, hentry, ?_⟩
  cases entry with
  | none => exact hrecovers
  | some file =>
    obtain ⟨data, hcontent, hsynced⟩ := hrecovers
    rw [hinodes file hentry] at hsynced
    exact ⟨data, hcontent, hsynced⟩

/-- Nothing changes for the names that are kept. -/
lemma Within.same (h : state.Within kept admitted) (hallocated : state'.Allocated)
    (hmay : ∀ name, kept name → state'.mayBe name = state.mayBe name)
    (hinodes : ∀ name, kept name → ∀ file, some file ∈ state.mayBe name →
      state'.inodes file = state.inodes file) : state'.Within kept admitted :=
  ⟨hallocated, fun name hname _ hcontent =>
    h.holds name hname _ (mayHold_of_same (hmay name hname) (hinodes name hname) hcontent)⟩

lemma Within.setInode (h : state.Within kept admitted) (hapart : state.Apart kept file)
    (inode : Inode α) : (state.setInode file inode).Within kept admitted := by
  have hallocated : (state.setInode file inode).Allocated := h.allocated
  apply h.same hallocated
  · exact fun _ _ => rfl
  · intro name hname other hother
    have hne : other ≠ file := by
      rintro rfl
      exact hapart name hname hother
    exact Function.update_of_ne hne _ _

/-- A synced file holds what it holds. -/
lemma recovers_synced (hfile : state.inodes file = ⟨data, true⟩) {found : Option (List α)}
    (h : state.Recovers (some file) found) : found = some data := by
  obtain ⟨recovered, rfl, hrecovered⟩ := h
  rw [hfile] at hrecovered
  rw [hrecovered rfl]

end Crashes

section Calls

/-! ### Calls -/

variable [DecidableEq Name] (state : State Name α)

def setEntry (name : Name) (entry : Option ℕ) : State Name α :=
  { state with
    entries := Function.update state.entries name entry
    replaced := Function.update state.replaced name (state.entries name :: state.replaced name) }

/-- A new file under a name. -/
def create (name : Name) : State Name α :=
  { (state.setInode state.nextInode ⟨[], false⟩).setEntry name (some state.nextInode) with
    nextInode := state.nextInode + 1 }

def append (file : ℕ) (data : List α) : State Name α :=
  state.setInode file ⟨(state.inodes file).data ++ data, false⟩

def sync (file : ℕ) : State Name α :=
  state.setInode file ⟨(state.inodes file).data, true⟩

/-- The names beside a name are as they are seen. -/
def syncDirectory [DecidableEq Dir] (parent : Name → Dir) (name : Name) : State Name α :=
  { state with
    replaced := fun other => if parent other = parent name then [] else state.replaced other }

/-- Whether a call can fail with an error; `replaces` says that a rename replaces its destination. -/
def Refuses (replaces : Bool) : Call Name α → ErrorKind → Prop
  | .rename _ _, .alreadyExists => replaces = false
  | .removeFile name, .notFound => state.entries name = none
  | _, _ => True

/-- What a call may be answered, and what it leaves. -/
inductive Serves [DecidableEq Dir] (replaces : Bool) (parent : Name → Dir) (state : State Name α) :
    (call : Call Name α) → call.Reply → State Name α → Prop
  | refused (call : Call Name α) (kind : ErrorKind) (h : state.Refuses replaces call kind) :
      Serves replaces parent state call (.error kind) state
  | madeDirectory (name : Name) : Serves replaces parent state (.createDirAll name) (.ok ()) state
  | created (name : Name) (h : state.entries name = none) :
      Serves replaces parent state (.createNew name) (.ok state.nextInode) (state.create name)
  | wrote (file : ℕ) (data : List α) :
      Serves replaces parent state (.writeAll file data) (.ok ()) (state.append file data)
  | wroteInPart (file : ℕ) (data part : List α) (kind : ErrorKind) (h : part <+: data) :
      Serves replaces parent state (.writeAll file data) (.error kind) (state.append file part)
  | synced (file : ℕ) : Serves replaces parent state (.syncAll file) (.ok ()) (state.sync file)
  | renamed (source destination : Name) {file : ℕ} (h : state.entries source = some file)
      (hne : source ≠ destination) :
      Serves replaces parent state (.rename source destination) (.ok ())
        ((state.setEntry destination (some file)).setEntry source none)
  | removed (name : Name) {file : ℕ} (h : state.entries name = some file) :
      Serves replaces parent state (.removeFile name) (.ok ()) (state.setEntry name none)
  | linked (source destination : Name) {file : ℕ} (h : state.entries source = some file)
      (hnone : state.entries destination = none) :
      Serves replaces parent state (.hardLink source destination) (.ok ())
        (state.setEntry destination (some file))
  | permitted (name : Name) : Serves replaces parent state (.setPermissions name) (.ok ()) state
  | syncedParent (name : Name) :
      Serves replaces parent state (.syncParent name) (.ok ()) (state.syncDirectory parent name)

/-! ### What a call does to the contents that a crash can leave -/

variable {state} {kept : Name → Prop} {admitted : Name → Option (List α) → Prop} {name : Name}

lemma mayBe_setEntry_of_ne {other : Name} {entry : Option ℕ} (hne : other ≠ name) :
    (state.setEntry name entry).mayBe other = state.mayBe other := by
  simp [mayBe, setEntry, hne]

@[simp] lemma mayBe_setEntry {entry : Option ℕ} :
    (state.setEntry name entry).mayBe name = entry :: state.mayBe name := by
  simp [mayBe, setEntry]

lemma Allocated.setEntry (h : state.Allocated) {entry : Option ℕ}
    (hentry : ∀ file, entry = some file → file < state.nextInode) :
    (state.setEntry name entry).Allocated := by
  intro other file hfile
  by_cases hother : other = name
  · subst hother
    rw [mayBe_setEntry] at hfile
    rcases List.mem_cons.mp hfile with hnew | hold
    · exact hentry file hnew.symm
    · exact h other file hold
  · rw [mayBe_setEntry_of_ne hother] at hfile
    exact h other file hfile

/-- One more content is admitted under a name. -/
def Also (admitted : Name → Option (List α) → Prop) (name : Name) (content : Option (List α)) :
    Name → Option (List α) → Prop :=
  fun other found => admitted other found ∨ other = name ∧ found = content

/-- A name gets an entry. -/
lemma Within.setEntry (h : state.Within kept admitted) {entry : Option ℕ}
    {content : Option (List α)} (hentry : ∀ file, entry = some file → file < state.nextInode)
    (hcontent : ∀ found, state.Recovers entry found → found = content) :
    (state.setEntry name entry).Within kept (Also admitted name content) := by
  refine ⟨h.allocated.setEntry hentry, fun other hother found hfound => ?_⟩
  by_cases hsame : other = name
  · subst hsame
    obtain ⟨recalled, hrecalled, hrecovers⟩ := hfound
    rw [mayBe_setEntry] at hrecalled
    rcases List.mem_cons.mp hrecalled with rfl | hold
    · exact Or.inr ⟨rfl, hcontent found hrecovers⟩
    · exact Or.inl (h.holds other hother found ⟨recalled, hold, hrecovers⟩)
  · refine Or.inl (h.holds other hother found ?_)
    exact mayHold_of_same (mayBe_setEntry_of_ne hsame) (fun _ _ => rfl) hfound

/-- A name that is not kept gets an entry. -/
lemma Within.setOther (h : state.Within kept admitted) {entry : Option ℕ} (hname : ¬ kept name)
    (hentry : ∀ file, entry = some file → file < state.nextInode) :
    (state.setEntry name entry).Within kept admitted := by
  apply h.same (h.allocated.setEntry hentry)
  · intro other hother
    apply mayBe_setEntry_of_ne
    rintro rfl
    exact hname hother
  · exact fun _ _ _ _ => rfl

/-- A new file belongs to none of the names that are kept. -/
lemma Within.create (h : state.Within kept admitted) (hname : ¬ kept name) :
    (state.create name).Within kept admitted ∧ (state.create name).Apart kept state.nextInode := by
  have hapart : state.Apart kept state.nextInode := fun other _ hmem =>
    lt_irrefl _ (h.allocated other _ hmem)
  have hinode := h.setInode hapart ⟨[], false⟩
  have hmay : ∀ other, kept other → (state.create name).mayBe other = state.mayBe other := by
    intro other hother
    have hne : other ≠ name := by
      rintro rfl
      exact hname hother
    simp [State.create, mayBe, State.setEntry, State.setInode, hne]
  refine ⟨hinode.same ?_ hmay fun _ _ _ _ => rfl, ?_⟩
  · intro other file hfile
    show file < state.nextInode + 1
    by_cases hother : other = name
    · subst hother
      have hcases : some file = some state.nextInode ∨ some file ∈ state.mayBe other := by
        simpa [State.create, mayBe, State.setEntry, State.setInode] using hfile
      rcases hcases with hnew | hold
      · exact Option.some.inj hnew ▸ Nat.lt_succ_self _
      · exact (h.allocated other file hold).trans (Nat.lt_succ_self _)
    · have hold : some file ∈ state.mayBe other := by
        simpa [State.create, mayBe, State.setEntry, State.setInode, hother] using hfile
      exact (h.allocated other file hold).trans (Nat.lt_succ_self _)
  · intro other hother
    rw [hmay other hother]
    exact hapart other hother

/-- Nothing but this content is admitted under a name. -/
def Only (admitted : Name → Option (List α) → Prop) (name : Name) (content : Option (List α)) :
    Name → Option (List α) → Prop :=
  fun other found => if other = name then found = content else admitted other found

/-- Once the directory has been synced, the name can only hold what its entry holds. -/
lemma Within.syncDirectory [DecidableEq Dir] {parent : Name → Dir} (h : state.Within kept admitted)
    {content : Option (List α)}
    (hcontent : ∀ found, state.Recovers (state.entries name) found → found = content) :
    (state.syncDirectory parent name).Within kept (Only admitted name content) := by
  have hmay : ∀ other entry, entry ∈ (state.syncDirectory parent name).mayBe other →
      entry ∈ state.mayBe other := by
    intro other entry hentry
    rcases List.mem_cons.mp hentry with rfl | hold
    · exact List.mem_cons_self
    · have hreplaced : entry ∈ if parent other = parent name then [] else state.replaced other := hold
      split_ifs at hreplaced with hparent
      · simp at hreplaced
      · exact List.mem_cons_of_mem _ hreplaced
  refine ⟨fun other file hfile => h.allocated other file (hmay other _ hfile), ?_⟩
  intro other hother found hfound
  obtain ⟨entry, hentry, hrecovers⟩ := hfound
  unfold Only
  split_ifs with hsame
  · subst hsame
    obtain rfl : entry = state.entries other := by
      simpa [mayBe, State.syncDirectory] using hentry
    exact hcontent found hrecovers
  · exact h.holds other hother found ⟨entry, hmay other entry hentry, hrecovers⟩

end Calls

end State

end FileSystem
