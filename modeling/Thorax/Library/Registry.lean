import Thorax.Library.Collections
import Thorax.Library.Durable

/-!
# Registries

Keys are claimed one after another, each for an owner and with an entry. The first claim of a key is
entered; a later one by the same owner is passed over, whatever its entry, and one by another owner
is refused.
-/

open Std (ExtTreeMap TransOrd LawfulEqOrd LawfulEqCmp)

namespace Registries

open Durable

structure Claim (K O V : Type) where
  key : K
  owner : O
  entry : V

/-- Who owns a key, and what was entered. -/
structure Registry (K O V : Type) [Ord K] where
  owners : BTreeMap K O
  entries : List V

section Claims

variable {K O V : Type} [Ord K] [TransOrd K] [DecidableEq O]

def Registry.empty : Registry K O V := ⟨∅, []⟩

namespace Registry

/-- Enter a claim, or name the key that another owner has. -/
def record (self : Registry K O V) (claim : Claim K O V) : Except K (Registry K O V) :=
  match self.owners[claim.key]? with
  | some existing => if existing = claim.owner then .ok self else .error claim.key
  | none => .ok ⟨self.owners.insert claim.key claim.owner, self.entries ++ [claim.entry]⟩

/-- What a registry holds after some claims. -/
structure Holds (registry : Registry K O V) (key : V → K) (claims : List (Claim K O V)) :
    Prop where
  owned : ∀ k owner, registry.owners[k]? = some owner ↔
    ∃ claim ∈ claims, claim.key = k ∧ claim.owner = owner
  claimed : ∀ entry ∈ registry.entries, ∃ claim ∈ claims, claim.entry = entry
  entered : ∀ claim ∈ claims, ∃ first ∈ claims, first.key = claim.key ∧
    first.entry ∈ registry.entries
  once : (registry.entries.map key).Nodup

end Registry

variable [LawfulEqOrd K] {registry registry' : Registry K O V} {key : V → K}
variable {claim claim' : Claim K O V} {claims added : List (Claim K O V)}

namespace Registry

omit [DecidableEq O] [LawfulEqOrd K] in
lemma holds_empty : (empty : Registry K O V).Holds key [] where
  owned := by simp [empty]
  claimed := by simp [empty]
  entered := by simp
  once := List.nodup_nil

omit [DecidableEq O] [LawfulEqOrd K] in
/-- One key has one owner. -/
lemma Holds.owner_eq (h : registry.Holds key claims) (hclaim : claim ∈ claims)
    (hclaim' : claim' ∈ claims) (heq : claim.key = claim'.key) : claim.owner = claim'.owner := by
  have howner := (h.owned claim.key claim.owner).mpr ⟨claim, hclaim, rfl, rfl⟩
  have howner' := (h.owned claim.key claim'.owner).mpr ⟨claim', hclaim', heq.symm, rfl⟩
  rw [howner] at howner'
  exact Option.some.inj howner'

lemma Holds.grow (h : registry.Holds key claims)
    (hkeys : ∀ claim ∈ claims, key claim.entry = claim.key) (hkey : key claim.entry = claim.key)
    (hrecord : registry.record claim = .ok registry') :
    registry'.Holds key (claims ++ [claim]) := by
  rw [Registry.record] at hrecord
  cases howner : registry.owners[claim.key]? with
  | some existing =>
    simp only [howner] at hrecord
    split_ifs at hrecord with hsame
    obtain rfl := Except.ok.inj hrecord
    obtain ⟨first, hfirst, hfirstKey, hfirstOwner⟩ := (h.owned _ _).mp howner
    refine ⟨fun k owner => ?_, ?_, ?_, h.once⟩
    · simp only [h.owned, List.mem_append, List.mem_singleton, or_and_right, exists_or,
        exists_eq_left]
      refine ⟨Or.inl, ?_⟩
      rintro (howned | ⟨rfl, rfl⟩)
      · exact howned
      · exact ⟨first, hfirst, hfirstKey, hfirstOwner.trans hsame⟩
    · intro entry hentry
      obtain ⟨other, hother, heq⟩ := h.claimed entry hentry
      exact ⟨other, List.mem_append_left _ hother, heq⟩
    · have hearlier : ∀ other ∈ claims ++ [claim], ∃ earlier ∈ claims, earlier.key = other.key := by
        simp only [List.mem_append, List.mem_singleton]
        rintro other (hother | rfl)
        · exact ⟨other, hother, rfl⟩
        · exact ⟨first, hfirst, hfirstKey⟩
      intro other hother
      obtain ⟨earlier, hmem, heq⟩ := hearlier other hother
      obtain ⟨entered, hentered, hkey, hentry⟩ := h.entered earlier hmem
      exact ⟨entered, List.mem_append_left _ hentered, hkey.trans heq, hentry⟩
  | none =>
    simp only [howner] at hrecord
    obtain rfl := Except.ok.inj hrecord
    have hnew : ∀ other ∈ claims, other.key ≠ claim.key := by
      intro other hother heq
      have howned := (h.owned claim.key other.owner).mpr ⟨other, hother, heq, rfl⟩
      rw [howner] at howned
      exact absurd howned (by simp)
    refine ⟨fun k owner => ?_, ?_, ?_, ?_⟩
    · simp only [List.mem_append, List.mem_singleton, or_and_right, exists_or, exists_eq_left,
        ← h.owned, ExtTreeMap.getElem?_insert]
      by_cases heq : claim.key = k
      · subst heq
        simp [howner]
      · simp [heq]
    · simp only [List.mem_append, List.mem_singleton]
      rintro entry (hentry | rfl)
      · obtain ⟨other, hother, heq⟩ := h.claimed entry hentry
        exact ⟨other, Or.inl hother, heq⟩
      · exact ⟨claim, Or.inr rfl, rfl⟩
    · simp only [List.mem_append, List.mem_singleton]
      rintro other (hother | rfl)
      · obtain ⟨first, hfirst, heq, hentry⟩ := h.entered other hother
        exact ⟨first, Or.inl hfirst, heq, Or.inl hentry⟩
      · exact ⟨other, Or.inr rfl, rfl, Or.inr rfl⟩
    · rw [List.map_append, List.map_singleton, ← List.concat_eq_append]
      refine h.once.concat ?_
      rintro hmem
      obtain ⟨entry, hentry, heq⟩ := List.mem_map.mp hmem
      obtain ⟨other, hother, rfl⟩ := h.claimed entry hentry
      exact hnew other hother ((hkeys other hother).symm.trans (heq.trans hkey))

/-- After a run of claims, a registry holds them too. -/
lemma Holds.growAll (h : registry.Holds key claims)
    (hkeys : ∀ claim ∈ claims ++ added, key claim.entry = claim.key)
    (hrecord : added.foldlM record registry = .ok registry') :
    registry'.Holds key (claims ++ added) := by
  induction added generalizing registry claims with
  | nil =>
    obtain rfl := Except.ok.inj hrecord
    rwa [List.append_nil]
  | cons claim added ih =>
    obtain ⟨middle, hfirst, hrest⟩ := bind_eq_ok.mp hrecord
    have hmiddle : middle.Holds key (claims ++ [claim]) :=
      h.grow (fun other hother => hkeys other (List.mem_append_left _ hother))
        (hkeys claim (by simp)) hfirst
    have hafter := ih hmiddle (by simpa using hkeys) hrest
    simpa using hafter

end Registry

end Claims

end Registries
