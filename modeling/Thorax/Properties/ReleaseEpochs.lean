import Thorax.Library.Decimal
import Thorax.Update.Version

/-!
# Release epochs

Versions with an epoch are ordered as their epochs are, and an epoch spells its version back.
-/

namespace Thorax.Update

open Durable Decimal

/-! ### Spelling -/

section Spelling

variable {separator : Char} {raw component head text : List Char} {tail : List (List Char)}
variable {name : String} {value : ℕ} {version : Version}

/-- A split of more than one part has cut the text at a separator. -/
lemma text_of_splitn {parts : ℕ} (h : splitn separator (parts + 2) text = head :: tail)
    (htail : tail ≠ []) :
    ∃ rest, text = head ++ separator :: rest ∧ splitn separator (parts + 1) rest = tail := by
  have happend : (text.span (· ≠ separator)).1 ++ (text.span (· ≠ separator)).2 = text := by
    rw [List.span_eq_takeWhile_dropWhile, List.takeWhile_append_dropWhile]
  unfold splitn at h
  split at h
  · exact absurd (List.cons.inj h).2.symm htail
  · next part c rest hspan =>
    have hc : c = separator := by
      have hdrop : text.dropWhile (· ≠ separator) = c :: rest := by
        rw [List.span_eq_takeWhile_dropWhile] at hspan
        exact congrArg Prod.snd hspan
      have hnot := List.head?_dropWhile_not (· ≠ separator) text
      rw [hdrop] at hnot
      simpa using hnot
    rw [hspan, hc] at happend
    obtain ⟨rfl, rfl⟩ := List.cons.inj h
    exact ⟨rest, happend.symm, rfl⟩

/-- A component that parses is the numeral of its value. -/
lemma spelling_of_parseVersionComponent
    (h : parseVersionComponent raw name component = .ok value) :
    component = Nat.toDigits 10 value := by
  simp only [parseVersionComponent] at h
  split_ifs at h with hdigits hzero hlt
  obtain rfl := Except.ok.inj h
  simp only [Bool.or_eq_true, List.isEmpty_iff, Bool.not_eq_true', List.all_eq_false, not_or,
    not_exists, not_and] at hdigits
  simp only [Bool.and_eq_true, decide_eq_true_eq, not_and] at hzero
  have hnumeral : Numeral component := ⟨hdigits.1, by simpa using hdigits.2, hzero⟩
  exact hnumeral.toDigits_ofDigitChars.symm

lemma toList_toString (version : Version) :
    version.toString.toList = Nat.toDigits 10 version.major ++ '.' ::
      (Nat.toDigits 10 version.minor ++ '.' :: Nat.toDigits 10 version.patch) := by
  have hdot : (toString ".").toList = ['.'] := rfl
  simp [Version.toString, Nat.toList_repr, hdot]

/-- A text that parses spells its version, but for white space around it. -/
lemma spelling_of_parse {text : String} (h : Version.parse text = .ok version) :
    trimChars text.toList = version.toString.toList := by
  simp only [Version.parse] at h
  split at h
  · next major minor patch hsplit =>
    obtain ⟨rest, htext, hrest⟩ := text_of_splitn hsplit (by simp)
    obtain ⟨last, hrest', hlast⟩ := text_of_splitn hrest (by simp)
    obtain rfl : last = patch := (List.cons.inj hlast).1
    simp only [bind_eq_ok] at h
    obtain ⟨_, hmajor, _, hminor, _, hpatch, h⟩ := h
    obtain rfl := Except.ok.inj h
    rw [htext, hrest', toList_toString, spelling_of_parseVersionComponent hmajor,
      spelling_of_parseVersionComponent hminor, spelling_of_parseVersionComponent hpatch]
  · cases h

end Spelling

/-! ### Order -/

section Order

variable {a b version : Version} {epoch : ℕ}

lemma Version.lt_iff : a < b ↔ a.major < b.major ∨ a.major = b.major ∧
    (a.minor < b.minor ∨ a.minor = b.minor ∧ a.patch < b.patch) := by
  change a.cmp b = .lt ↔ _
  simp only [cmp, Ordering.then_eq_lt, Ordering.then_eq_eq, Nat.compare_eq_lt, Nat.compare_eq_eq]
  omega

/-- The number that an epoch packs. -/
def Version.packed (version : Version) : ℕ :=
  version.major * 1000000 + version.minor * 1000 + version.patch

/-- The product that is not checked does not wrap where it is taken. -/
lemma wrappingMul_minor (h : version.minor < 1000) :
    Version.wrappingMul version.minor 1000 = version.minor * 1000 := by
  rw [Version.wrappingMul, Nat.mod_eq_of_lt]
  omega

lemma checkedMul_eq_some {x y z : ℕ} :
    Version.checkedMul x y = some z ↔ x * y < 2 ^ 64 ∧ x * y = z := by
  unfold Version.checkedMul
  split_ifs with h
  · simp only [Option.some.injEq, h, true_and]
  · simp only [h, false_and]

lemma checkedAdd_eq_some {x y z : ℕ} :
    Version.checkedAdd x y = some z ↔ x + y < 2 ^ 64 ∧ x + y = z := by
  unfold Version.checkedAdd
  split_ifs with h
  · simp only [Option.some.injEq, h, true_and]
  · simp only [h, false_and]

lemma releaseEpoch_eq_ok : version.releaseEpoch = .ok epoch ↔
    version.minor < 1000 ∧ version.patch < 1000 ∧ version.packed < 2 ^ 64 ∧
      epoch = version.packed := by
  unfold Version.releaseEpoch
  split_ifs with hbound
  · simp only [Bool.or_eq_true, decide_eq_true_eq] at hbound
    constructor
    · exact fun h => nomatch h
    · omega
  · simp only [Bool.or_eq_true, decide_eq_true_eq, not_or, not_le] at hbound
    have hsum : ∀ sum, ((Version.checkedMul version.major 1000000).bind
        (Version.checkedAdd · (Version.wrappingMul version.minor 1000))).bind
          (Version.checkedAdd · version.patch) = some sum ↔
        version.packed < 2 ^ 64 ∧ sum = version.packed := by
      intro sum
      simp only [Option.bind_eq_some_iff, checkedMul_eq_some, checkedAdd_eq_some,
        wrappingMul_minor hbound.1, Version.packed]
      constructor
      · rintro ⟨_, ⟨_, ⟨-, rfl⟩, -, rfl⟩, hlt, rfl⟩
        exact ⟨hlt, rfl⟩
      · rintro ⟨hlt, rfl⟩
        have hminor := (Nat.le_add_right _ _).trans_lt hlt
        have hmajor := (Nat.le_add_right _ _).trans_lt hminor
        exact ⟨version.major * 1000000 + version.minor * 1000,
          ⟨version.major * 1000000, ⟨hmajor, rfl⟩, hminor, rfl⟩, hlt, rfl⟩
    constructor
    · intro h
      split at h
      · next sum hsome =>
        obtain rfl := Except.ok.inj h
        exact ⟨hbound.1, hbound.2, (hsum _).mp hsome⟩
      · cases h
    · rintro ⟨-, -, hfits⟩
      rw [(hsum epoch).mpr hfits]

lemma versionFromEpoch_packed (hminor : version.minor < 1000) (hpatch : version.patch < 1000) :
    versionFromEpoch version.packed = version.toString := by
  have hmajor : version.packed / 1000000 = version.major := by
    unfold Version.packed
    omega
  have hminor' : version.packed % 1000000 / 1000 = version.minor := by
    unfold Version.packed
    omega
  have hpatch' : version.packed % 1000000 % 1000 = version.patch := by
    unfold Version.packed
    omega
  rw [versionFromEpoch, hmajor, hminor', hpatch']
  rfl

end Order

/-! ### Faithfulness -/

/-- There is no white space around a text. -/
def Unpadded (text : String) : Prop := trimChars text.toList = text.toList

/-- A text without padding that has an epoch is spelled back by it. -/
lemma versionFromEpoch_of_parse {text : String} {version : Version} {epoch : ℕ}
    (htext : Unpadded text) (hparse : Version.parse text = .ok version)
    (hepoch : version.releaseEpoch = .ok epoch) : versionFromEpoch epoch = text := by
  obtain ⟨hminor, hpatch, -, rfl⟩ := releaseEpoch_eq_ok.mp hepoch
  rw [versionFromEpoch_packed hminor hpatch]
  exact String.toList_inj.mp ((spelling_of_parse hparse).symm.trans htext)

/-- An epoch fails exactly where it would not fit, and is otherwise the packed number, with nothing
wrapped on the way. -/
def EpochExact (version : Version) : Prop :=
  ((∃ e, version.releaseEpoch = .error e) ↔
    1000 ≤ version.minor ∨ 1000 ≤ version.patch ∨ 2 ^ 64 - 1 < version.packed) ∧
  ∀ epoch, version.releaseEpoch = .ok epoch →
    Version.wrappingMul version.minor 1000 = version.minor * 1000 ∧ epoch = version.packed

lemma epochExact (version : Version) : EpochExact version := by
  constructor
  · constructor
    · rintro ⟨e, he⟩
      by_contra hfits
      have hok : version.releaseEpoch = .ok version.packed :=
        releaseEpoch_eq_ok.mpr ⟨by omega, by omega, by omega, rfl⟩
      rw [he] at hok
      cases hok
    · intro hunfit
      cases hepoch : version.releaseEpoch with
      | error e => exact ⟨e, rfl⟩
      | ok epoch =>
        have := releaseEpoch_eq_ok.mp hepoch
        omega
  · intro epoch hepoch
    obtain ⟨hminor, -, -, hpacked⟩ := releaseEpoch_eq_ok.mp hepoch
    exact ⟨wrappingMul_minor hminor, hpacked⟩

/-- Epochs are ordered as the versions are, spell them back, and so does a marker of an older
release. -/
theorem releaseEpochs_faithful (version : Version) {a b : String} {v w : Version} {m n : ℕ}
    (ha : Unpadded a) (hb : Unpadded b) (hv : Version.parse a = .ok v)
    (hw : Version.parse b = .ok w) (hm : v.releaseEpoch = .ok m) (hn : w.releaseEpoch = .ok n) :
    EpochExact version ∧ (v < w ↔ m < n) ∧ versionFromEpoch m = a ∧ (m = n → a = b) ∧
      ∀ entries release, (legacyState entries).highestSeen = some release →
        validateEpoch ⟨a, release.epoch⟩ = .ok () → release.version = a := by
  have hma := versionFromEpoch_of_parse ha hv hm
  have hnb := versionFromEpoch_of_parse hb hw hn
  refine ⟨epochExact version, ?_, hma, ?_, ?_⟩
  · obtain ⟨hminor, hpatch, -, rfl⟩ := releaseEpoch_eq_ok.mp hm
    obtain ⟨hminor', hpatch', -, rfl⟩ := releaseEpoch_eq_ok.mp hn
    rw [Version.lt_iff, Version.packed, Version.packed]
    omega
  · rintro rfl
    exact hma.symm.trans hnb
  · intro entries release hseen hmanifest
    simp only [validateEpoch, hv, hm, bind_eq_ok, Except.ok.injEq, exists_eq_left'] at hmanifest
    split_ifs at hmanifest with hepoch
    obtain ⟨epoch, -, rfl⟩ := Option.map_eq_some_iff.mp hseen
    have hsame : epoch = m := by simpa using hepoch
    rw [← hma, ← hsame]

/-- Two releases of which the newer one has the smaller text. -/
theorem releaseEpochs_faithful_minor :
    (⟨1, 2, 3⟩ : Version) < ⟨1, 10, 0⟩ ∧ versionFromEpoch 1002003 = "1.2.3" := by
  have ha : Unpadded "1.2.3" := by
    unfold Unpadded
    decide
  have hb : Unpadded "1.10.0" := by
    unfold Unpadded
    decide
  have hv : Version.parse "1.2.3" = .ok ⟨1, 2, 3⟩ := by decide
  have hw : Version.parse "1.10.0" = .ok ⟨1, 10, 0⟩ := by decide
  have hm : (⟨1, 2, 3⟩ : Version).releaseEpoch = .ok 1002003 := by decide
  have hn : (⟨1, 10, 0⟩ : Version).releaseEpoch = .ok 1010000 := by decide
  obtain ⟨-, hlt, hspelled, -⟩ := releaseEpochs_faithful ⟨1, 2, 3⟩ ha hb hv hw hm hn
  exact ⟨hlt.mpr (by decide), hspelled⟩

end Thorax.Update
