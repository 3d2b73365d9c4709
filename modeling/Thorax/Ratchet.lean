import Thorax.Format

/-!
# The rollback ratchet

The local memory of one trusted root: the highest admitted counter at each record key, the
preimages by which keys can be named, and the highest format version.
-/

namespace Thorax

open Collections

/-- What a content-derived key is called once its records are gone. -/
inductive KeyOrigin where
  | secret (selector : SecretSelectorV1)
  | userHandle (handle : String)
  | vaultHandle (handle : String)
  | groupMember (groupId : GroupId) (memberId : PrincipalRefV1)
  deriving DecidableEq

structure UnknownRatchetRecord where
  raw : Bytes
  deriving DecidableEq

structure Ratchet where
  trustedRoot : HashValue
  watermarks : BTreeMap RecordKey ℕ
  origins : BTreeMap RecordKey KeyOrigin
  formatVersion : ℕ
  unknownRecords : List UnknownRatchetRecord
  deriving DecidableEq

structure RatchetUpdate where
  raisedWatermarks : BTreeMap RecordKey ℕ
  origins : BTreeMap RecordKey KeyOrigin
  raisedFormatVersion : Option ℕ
  deriving DecidableEq

def RatchetUpdate.empty : RatchetUpdate := ⟨∅, ∅, none⟩

/-- A ratchet that remembers nothing but its root. -/
def Ratchet.new (trustedRoot : HashValue) : Ratchet := ⟨trustedRoot, ∅, ∅, 0, []⟩

def Ratchet.applyUpdate (self : Ratchet) (update : RatchetUpdate) : Ratchet where
  trustedRoot := self.trustedRoot
  watermarks := groupFold (fun entry : RecordKey × ℕ => some entry.1)
    (fun remembered entry => max (remembered.getD 0) entry.2) update.raisedWatermarks.toList
    self.watermarks
  -- an origin is immutable per key, so the first one remembered stays
  origins := collectNew (fun entry : RecordKey × KeyOrigin => some entry) update.origins.toList
    self.origins
  formatVersion :=
    match update.raisedFormatVersion with
    | some version => max self.formatVersion version
    | none => self.formatVersion
  unknownRecords := self.unknownRecords

/-- An update raises the keys it names and leaves the others. -/
lemma getElem?_applyUpdate (self : Ratchet) (update : RatchetUpdate) (key : RecordKey) :
    (self.applyUpdate update).watermarks[key]? =
      match update.raisedWatermarks[key]? with
      | some counter => some (max (self.watermarks[key]?.getD 0) counter)
      | none => self.watermarks[key]? := by
  simp only [Ratchet.applyUpdate, getElem?_groupFold, Option.some.injEq, filter_toList]
  cases update.raisedWatermarks[key]? <;> simp

end Thorax
