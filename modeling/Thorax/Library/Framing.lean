import Mathlib

/-!
# Framed fields

Several fields are written into one run of bytes by putting the length of each in front of it, in a
fixed number of bytes, the most significant first. Where every length fits, the run tells how many
fields there are and what they are, whatever follows.
-/

namespace Framing

/-- A number in so many bytes, the most significant first; what does not fit is cut off. -/
def beBytes : ℕ → ℕ → List UInt8
  | 0, _ => []
  | width + 1, n => beBytes width (n / 256) ++ [UInt8.ofNat n]

/-- A field after its length. -/
def frame (width : ℕ) (field : List UInt8) : List UInt8 := beBytes width field.length ++ field

def frames (width : ℕ) (fields : List (List UInt8)) : List UInt8 := fields.flatMap (frame width)

/-- The length of the field fits. -/
def Fits (width : ℕ) (field : List UInt8) : Prop := field.length < 256 ^ width

instance (width : ℕ) (field : List UInt8) : Decidable (Fits width field) :=
  inferInstanceAs (Decidable (field.length < 256 ^ width))

@[simp] lemma length_beBytes (width n : ℕ) : (beBytes width n).length = width := by
  induction width generalizing n with
  | zero => rfl
  | succ width ih => simp [beBytes, ih]

/-- Numbers that fit are told apart by their bytes. -/
lemma beBytes_injective {width n m : ℕ} (hn : n < 256 ^ width) (hm : m < 256 ^ width)
    (h : beBytes width n = beBytes width m) : n = m := by
  induction width generalizing n m with
  | zero =>
    simp only [pow_zero, Nat.lt_one_iff] at hn hm
    rw [hn, hm]
  | succ width ih =>
    obtain ⟨hhigh, hlow⟩ := List.append_inj h (by simp)
    rw [pow_succ] at hn hm
    have hdiv : n / 256 = m / 256 :=
      ih (Nat.div_lt_of_lt_mul (by omega)) (Nat.div_lt_of_lt_mul (by omega)) hhigh
    have hmod : n % 256 = m % 256 := by
      have hbyte := congrArg UInt8.toNat (List.singleton_inj.mp hlow)
      simpa using hbyte
    omega

/-- A field that fits is read off the front. -/
lemma frame_append_inj {width : ℕ} {field field' rest rest' : List UInt8}
    (hfits : Fits width field) (hfits' : Fits width field')
    (h : frame width field ++ rest = frame width field' ++ rest') :
    field = field' ∧ rest = rest' := by
  rw [frame, frame, List.append_assoc, List.append_assoc] at h
  obtain ⟨hlength, hfields⟩ := List.append_inj h (by simp)
  exact List.append_inj hfields (beBytes_injective hfits hfits' hlength)

/-- Something is written for every field, unless lengths take no bytes. -/
lemma frame_ne_nil {width : ℕ} (hwidth : 0 < width) (field : List UInt8) :
    frame width field ≠ [] := by
  intro h
  have hlength := congrArg List.length h
  simp only [frame, List.length_append, length_beBytes, List.length_nil] at hlength
  omega

/-- Fields that fit are told apart by what is written, however many they are. -/
theorem frames_injective {width : ℕ} (hwidth : 0 < width) {fields fields' : List (List UInt8)}
    (hfits : ∀ field ∈ fields, Fits width field) (hfits' : ∀ field ∈ fields', Fits width field)
    (h : frames width fields = frames width fields') : fields = fields' := by
  induction fields generalizing fields' with
  | nil =>
    cases fields' with
    | nil => rfl
    | cons field' fields' =>
      have hempty : frame width field' ++ frames width fields' = [] := h.symm
      exact absurd (List.append_eq_nil_iff.mp hempty).1 (frame_ne_nil hwidth field')
  | cons field fields ih =>
    cases fields' with
    | nil =>
      have hempty : frame width field ++ frames width fields = [] := h
      exact absurd (List.append_eq_nil_iff.mp hempty).1 (frame_ne_nil hwidth field)
    | cons field' fields' =>
      rw [List.forall_mem_cons] at hfits hfits'
      obtain ⟨rfl, hrest⟩ := frame_append_inj hfits.1 hfits'.1 h
      rw [ih hfits.2 hfits'.2 hrest]

end Framing
