import Mathlib.Order.Nat
import Mathlib.Tactic.Common

/-!
# Versioned objects

A server that keeps one object under a version of its own choosing. A writer names the version it
has read, and the server refuses a write that names any other and a creation while the object
exists. A write that goes through therefore replaces exactly what its writer had read, however
long it was under way.
-/

namespace Versioned

structure Stored (α : Type) where
  value : α
  version : ℕ
  deriving DecidableEq

/-- The object, and the number of versions handed out so far. -/
structure Slot (α : Type) where
  stored : Option (Stored α)
  issued : ℕ
  deriving DecidableEq

inductive Write (α : Type) where
  | create (value : α)
  | replace (version : ℕ) (value : α)
  deriving DecidableEq

inductive Answer where
  | done
  | conflict
  | missing
  deriving DecidableEq

variable {α : Type}

def Write.value : Write α → α
  | .create value => value
  | .replace _ value => value

namespace Slot

def put (slot : Slot α) (value : α) : Slot α := ⟨some ⟨value, slot.issued⟩, slot.issued + 1⟩

def handle (slot : Slot α) : Write α → Slot α × Answer
  | .create value =>
    match slot.stored with
    | none => (slot.put value, .done)
    | some _ => (slot, .conflict)
  | .replace version value =>
    match slot.stored with
    | none => (slot, .missing)
    | some stored => if stored.version = version then (slot.put value, .done) else (slot, .conflict)

/-- The stored version has been handed out. -/
def Fresh (slot : Slot α) : Prop := ∀ stored, slot.stored = some stored → stored.version < slot.issued

/-- The write names what is stored now. -/
def Accepts (slot : Slot α) : Write α → Prop
  | .create _ => slot.stored = none
  | .replace version _ => ∃ stored, slot.stored = some stored ∧ stored.version = version

/-- A write is done in full or not at all. -/
lemma handle_cases (slot : Slot α) (write : Write α) :
    (slot.Accepts write ∧ slot.handle write = (slot.put write.value, .done)) ∨
      (¬ slot.Accepts write ∧ (slot.handle write).1 = slot ∧ (slot.handle write).2 ≠ .done) := by
  cases write with
  | create value =>
    cases h : slot.stored with
    | none => exact Or.inl ⟨h, by simp [handle, h, Write.value]⟩
    | some stored => exact Or.inr ⟨by simp [Accepts, h], by simp [handle, h]⟩
  | replace version value =>
    cases h : slot.stored with
    | none => exact Or.inr ⟨by simp [Accepts, h], by simp [handle, h]⟩
    | some stored =>
      by_cases hversion : stored.version = version
      · exact Or.inl ⟨⟨stored, h, hversion⟩, by simp [handle, h, hversion, Write.value]⟩
      · exact Or.inr ⟨by simp [Accepts, h, hversion], by simp [handle, h, hversion]⟩

lemma fresh_put (slot : Slot α) (value : α) : (slot.put value).Fresh := by
  intro stored h
  obtain rfl := Option.some.inj h
  exact Nat.lt_succ_self _

lemma Fresh.handle {slot : Slot α} (h : slot.Fresh) (write : Write α) :
    (slot.handle write).1.Fresh := by
  rcases slot.handle_cases write with ⟨_, hdone⟩ | ⟨_, hsame, _⟩
  · rw [hdone]
    exact slot.fresh_put _
  · rw [hsame]
    exact h

/-- The write names a version that was handed out, and if that version is still the stored one,
the stored value and the written one are related. -/
def Founded (slot : Slot α) (related : α → α → Prop) : Write α → Prop
  | .create _ => True
  | .replace version value => version < slot.issued ∧
      ∀ stored, slot.stored = some stored → stored.version = version → related stored.value value

/-- A version that was handed out, under which nothing but values with `P` can be stored. -/
def Seen (slot : Slot α) (P : α → Prop) (version : ℕ) : Prop :=
  version < slot.issued ∧
    ∀ stored, slot.stored = some stored → stored.version = version → P stored.value

variable {related : α → α → Prop} {slot : Slot α} {write : Write α} {P : α → Prop} {version : ℕ}

lemma founded_replace_iff {value : α} :
    slot.Founded related (.replace version value) ↔ slot.Seen (related · value) version := Iff.rfl

lemma Seen.mono {Q : α → Prop} (h : slot.Seen P version) (hPQ : ∀ value, P value → Q value) :
    slot.Seen Q version :=
  ⟨h.1, fun stored hstored hversion => hPQ _ (h.2 stored hstored hversion)⟩

/-- What is stored now is seen under its version. -/
lemma seen_of_stored {stored : Stored α} (hfresh : slot.Fresh) (hstored : slot.stored = some stored)
    (h : P stored.value) : slot.Seen P stored.version := by
  refine ⟨hfresh stored hstored, fun other hother _ => ?_⟩
  obtain rfl := Option.some.inj (hstored.symm.trans hother)
  exact h

/-- What was read is related to what is written. -/
lemma founded_replace {stored : Stored α} {value : α} (hfresh : slot.Fresh)
    (hstored : slot.stored = some stored) (h : related stored.value value) :
    slot.Founded related (.replace stored.version value) :=
  founded_replace_iff.mpr (seen_of_stored hfresh hstored h)

/-- After another write has gone through, the version that was read is no longer stored. -/
lemma not_accepts_put {value : α} (h : slot.Founded related write) :
    ¬ (slot.put value).Accepts write := by
  cases write with
  | create _ => simp [Accepts, put]
  | replace version _ =>
    rintro ⟨stored, hstored, hversion⟩
    obtain rfl := Option.some.inj hstored
    exact absurd h.1 (by simp [← hversion])

/-- An accepted write is related to the value it replaces. -/
lemma Founded.of_accepts {stored : Stored α} (h : slot.Founded related write)
    (haccepts : slot.Accepts write) (hstored : slot.stored = some stored) :
    related stored.value write.value := by
  cases write with
  | create _ => simp [Accepts, hstored] at haccepts
  | replace version _ =>
    obtain ⟨other, hother, hversion⟩ := haccepts
    obtain rfl := Option.some.inj (hstored.symm.trans hother)
    exact h.2 stored hstored hversion

/-! ### What others leave -/

/-- What is stored under a version that was handed out before has been stored ever since. -/
structure Advances (slot slot' : Slot α) : Prop where
  issued : slot.issued ≤ slot'.issued
  stored : ∀ stored, slot'.stored = some stored → stored.version < slot.issued →
    slot.stored = some stored

lemma Advances.refl (slot : Slot α) : slot.Advances slot := ⟨le_refl _, fun _ h _ => h⟩

lemma Advances.trans {slot slot' slot'' : Slot α} (h : slot.Advances slot')
    (h' : slot'.Advances slot'') : slot.Advances slot'' := by
  refine ⟨h.issued.trans h'.issued, fun stored hstored hversion => ?_⟩
  exact h.stored stored (h'.stored stored hstored (hversion.trans_le h.issued)) hversion

lemma advances_put (slot : Slot α) (value : α) : slot.Advances (slot.put value) := by
  refine ⟨Nat.le_succ _, fun stored hstored hversion => ?_⟩
  obtain rfl := Option.some.inj hstored
  exact absurd hversion (lt_irrefl _)

lemma advances_handle (slot : Slot α) (write : Write α) :
    slot.Advances (slot.handle write).1 := by
  rcases slot.handle_cases write with ⟨_, hdone⟩ | ⟨_, hsame, _⟩
  · rw [hdone]
    exact slot.advances_put _
  · rw [hsame]
    exact .refl slot

/-- What was seen under a version outlasts the writes of others. -/
lemma Seen.advances {slot' : Slot α} (h : slot.Seen P version) (hadvances : slot.Advances slot') :
    slot'.Seen P version := by
  refine ⟨h.1.trans_le hadvances.issued, fun stored hstored hversion => ?_⟩
  exact h.2 stored (hadvances.stored stored hstored (hversion ▸ h.1)) hversion

/-- What a write is founded on outlasts the writes of others. -/
lemma Founded.advances {slot' : Slot α} (h : slot.Founded related write)
    (hadvances : slot.Advances slot') : slot'.Founded related write := by
  cases write with
  | create _ => trivial
  | replace version _ => exact founded_replace_iff.mpr (Seen.advances (founded_replace_iff.mp h) hadvances)

lemma Founded.handle (h : slot.Founded related write) (other : Write α) :
    (slot.handle other).1.Founded related write :=
  h.advances (slot.advances_handle other)

end Slot

end Versioned
