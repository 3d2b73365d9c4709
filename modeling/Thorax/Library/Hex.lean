import Mathlib

/-!
# Hexadecimal digits

Bytes are written with two lowercase digits each. Digits of either case are read, and the bytes
that are read are written with the same digits in lower case.
-/

namespace Hex

def digit (n : ℕ) : Char :=
  if n < 10 then Char.ofNat ('0'.toNat + n) else Char.ofNat ('a'.toNat + (n - 10))

def encode (bytes : List UInt8) : List Char :=
  bytes.flatMap fun byte => [digit (byte.toNat / 16), digit (byte.toNat % 16)]

/-- The value of a digit of either case. -/
def value? (c : Char) : Option ℕ :=
  if '0' ≤ c ∧ c ≤ '9' then some (c.toNat - '0'.toNat)
  else if 'a' ≤ c ∧ c ≤ 'f' then some (c.toNat - 'a'.toNat + 10)
  else if 'A' ≤ c ∧ c ≤ 'F' then some (c.toNat - 'A'.toNat + 10)
  else none

def isDigit (c : Char) : Bool := (value? c).isSome

/-- The bytes of a run of values, two to a byte. -/
def pairs : List ℕ → List UInt8
  | high :: low :: rest => UInt8.ofNat (high * 16 + low) :: pairs rest
  | _ => []

/-! ### Digits -/

lemma value?_digit {n : ℕ} (h : n < 16) : value? (digit n) = some n := by
  interval_cases n <;> rfl

/-- What has a value is that value's digit, in upper or in lower case. -/
lemma digit_of_value? {c : Char} {n : ℕ} (h : value? c = some n) :
    n < 16 ∧ digit n = c.toLower := by
  have hc : c = Char.ofNat c.toNat := (Char.ofNat_toNat c).symm
  have hrange : (48 ≤ c.toNat ∧ c.toNat ≤ 57 ∧ n = c.toNat - 48) ∨
      (97 ≤ c.toNat ∧ c.toNat ≤ 102 ∧ n = c.toNat - 97 + 10) ∨
      (65 ≤ c.toNat ∧ c.toNat ≤ 70 ∧ n = c.toNat - 65 + 10) := by
    unfold value? at h
    split_ifs at h with hdec hlow hup
    · exact Or.inl ⟨hdec.1, hdec.2, (Option.some.inj h).symm⟩
    · exact Or.inr (Or.inl ⟨hlow.1, hlow.2, (Option.some.inj h).symm⟩)
    · exact Or.inr (Or.inr ⟨hup.1, hup.2, (Option.some.inj h).symm⟩)
  generalize c.toNat = code at hc hrange
  subst hc
  rcases hrange with ⟨hlo, hhi, rfl⟩ | ⟨hlo, hhi, rfl⟩ | ⟨hlo, hhi, rfl⟩ <;>
    interval_cases code <;> exact ⟨by decide, rfl⟩

/-! ### Runs of digits -/

lemma encode_cons (byte : UInt8) (bytes : List UInt8) :
    encode (byte :: bytes) = digit (byte.toNat / 16) :: digit (byte.toNat % 16) :: encode bytes :=
  rfl

lemma length_encode (bytes : List UInt8) : (encode bytes).length = 2 * bytes.length := by
  induction bytes with
  | nil => rfl
  | cons byte bytes ih => rw [encode_cons, List.length_cons, List.length_cons, ih,
      List.length_cons, Nat.mul_succ]

/-- What was written reads back. -/
lemma values_encode (bytes : List UInt8) :
    ∃ values, (encode bytes).mapM value? = some values ∧ pairs values = bytes := by
  induction bytes with
  | nil => exact ⟨[], rfl, rfl⟩
  | cons byte bytes ih =>
    obtain ⟨values, hvalues, hpairs⟩ := ih
    have hbyte : byte.toNat < 256 := byte.toNat_lt
    have hhigh : value? (digit (byte.toNat / 16)) = some (byte.toNat / 16) :=
      value?_digit (by omega)
    have hlow : value? (digit (byte.toNat % 16)) = some (byte.toNat % 16) :=
      value?_digit (by omega)
    refine ⟨byte.toNat / 16 :: byte.toNat % 16 :: values, ?_, ?_⟩
    · simp [encode_cons, List.mapM_cons, hhigh, hlow, hvalues]
    · rw [pairs, hpairs, Nat.div_add_mod', UInt8.ofNat_toNat]

lemma encode_injective : Function.Injective encode := by
  intro a b h
  obtain ⟨values, hvalues, rfl⟩ := values_encode a
  obtain ⟨values', hvalues', rfl⟩ := values_encode b
  rw [h, hvalues'] at hvalues
  rw [Option.some.inj hvalues]

/-- The bytes of an even run of digits are written with these digits, in lower case. -/
lemma encode_pairs : ∀ {digits : List Char} {values : List ℕ},
    digits.mapM value? = some values → digits.length % 2 = 0 →
    encode (pairs values) = digits.map Char.toLower
  | [], values, h, _ => by
    obtain rfl : [] = values := by simpa using h
    rfl
  | [_], _, _, hlength => by simp at hlength
  | high :: low :: digits, values, h, hlength => by
    simp only [List.mapM_cons, Option.bind_eq_bind, Option.bind_eq_some_iff, Option.pure_def,
      Option.some.injEq] at h
    obtain ⟨n, hn, -, ⟨m, hm, rest, hrest, rfl⟩, rfl⟩ := h
    obtain ⟨hn, hhigh⟩ := digit_of_value? hn
    obtain ⟨hm, hlow⟩ := digit_of_value? hm
    have hbyte : (UInt8.ofNat (n * 16 + m)).toNat = n * 16 + m := by
      rw [UInt8.toNat_ofNat', Nat.mod_eq_of_lt (by omega)]
    have heven : digits.length % 2 = 0 := by
      rw [List.length_cons, List.length_cons] at hlength
      omega
    rw [pairs, encode_cons, hbyte, encode_pairs hrest heven,
      show (n * 16 + m) / 16 = n by omega, show (n * 16 + m) % 16 = m by omega, hhigh, hlow]
    rfl

lemma mapM_value?_isSome {digits : List Char} (h : digits.all isDigit = true) :
    ∃ values, digits.mapM value? = some values := by
  induction digits with
  | nil => exact ⟨[], rfl⟩
  | cons c digits ih =>
    obtain ⟨hc, hdigits⟩ := by simpa using h
    obtain ⟨n, hn⟩ := Option.isSome_iff_exists.mp hc
    obtain ⟨values, hvalues⟩ := ih (by simpa using hdigits)
    exact ⟨n :: values, by simp [List.mapM_cons, hn, hvalues]⟩

lemma all_isDigit_of_mapM {digits : List Char} {values : List ℕ}
    (h : digits.mapM value? = some values) : digits.all isDigit = true := by
  induction digits generalizing values with
  | nil => rfl
  | cons c digits ih =>
    simp only [List.mapM_cons, Option.bind_eq_bind, Option.bind_eq_some_iff, Option.pure_def] at h
    obtain ⟨n, hn, rest, hrest, -⟩ := h
    rw [List.all_cons, ih hrest, isDigit, hn]
    rfl

lemma isDigit_toLower {c : Char} (h : isDigit c = true) : isDigit c.toLower = true := by
  obtain ⟨n, hn⟩ := Option.isSome_iff_exists.mp h
  obtain ⟨hlt, heq⟩ := digit_of_value? hn
  rw [← heq, isDigit, value?_digit hlt]
  rfl

lemma all_isDigit_encode (bytes : List UInt8) : (encode bytes).all isDigit = true := by
  obtain ⟨values, hvalues, -⟩ := values_encode bytes
  exact all_isDigit_of_mapM hvalues

lemma toLower_encode (bytes : List UInt8) : (encode bytes).map Char.toLower = encode bytes := by
  obtain ⟨values, hvalues, hpairs⟩ := values_encode bytes
  rw [← encode_pairs hvalues (by rw [length_encode]; omega), hpairs]

/-- Digits are ASCII. -/
lemma toNat_lt_of_isDigit {c : Char} (h : isDigit c = true) : 48 ≤ c.toNat ∧ c.toNat ≤ 102 := by
  unfold isDigit value? at h
  split_ifs at h with hdec hlow hup
  · exact ⟨hdec.1, Nat.le_trans (show c.toNat ≤ 57 from hdec.2) (by decide)⟩
  · exact ⟨Nat.le_trans (by decide) (show 97 ≤ c.toNat from hlow.1), hlow.2⟩
  · exact ⟨Nat.le_trans (by decide) (show 65 ≤ c.toNat from hup.1),
      Nat.le_trans (show c.toNat ≤ 70 from hup.2) (by decide)⟩
  · cases h

end Hex
