import Mathlib

/-!
# Merge patches

JSON values, and the merge patch of RFC 7386: members that the patch names are replaced, those it
sets to null are removed, and objects are merged member by member. An object is what it has under
each name.
-/

namespace MergePatch

inductive Json (Scalar : Type) where
  | null
  | scalar (value : Scalar)
  | array (items : List (Json Scalar))
  | object (members : String → Option (Json Scalar))

namespace Json

variable {Scalar : Type} {name : String} {target : Option (Json Scalar)}

/-- What a value has under a name; only objects have anything. -/
def member (name : String) : Option (Json Scalar) → Option (Json Scalar)
  | some (.object members) => members name
  | _ => none

mutual

/-- Whatever is not an object replaces the target. -/
def patch (target : Option (Json Scalar)) : Json Scalar → Json Scalar
  | .object members => .object fun name => patchMember (member name target) (members name)
  | .null => .null
  | .scalar value => .scalar value
  | .array items => .array items

def patchMember (target : Option (Json Scalar)) : Option (Json Scalar) → Option (Json Scalar)
  | none => target
  | some .null => none
  | some value => some (patch target value)

end

@[simp] lemma member_object {members : String → Option (Json Scalar)} :
    member name (some (.object members)) = members name := rfl

@[simp] lemma member_none : member name (none : Option (Json Scalar)) = none := rfl

@[simp] lemma member_patch_object {members : String → Option (Json Scalar)} :
    member name (some (patch target (.object members))) =
      patchMember (member name target) (members name) := by
  rw [patch, member_object]

/-- A member that the patch does not name stays as it was. -/
@[simp] lemma patchMember_none : patchMember target none = target := by rw [patchMember]

@[simp] lemma patchMember_scalar {value : Scalar} :
    patchMember target (some (.scalar value)) = some (.scalar value) := by
  rw [patchMember, patch]
  simp

/-- Arrays are replaced as a whole. -/
@[simp] lemma patchMember_array {items : List (Json Scalar)} :
    patchMember target (some (.array items)) = some (.array items) := by
  rw [patchMember, patch]
  simp

end Json

end MergePatch
