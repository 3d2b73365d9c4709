import Thorax.Resolution.Watermarks

/-!
# Introduction of signing keys

Which identities the introduction loop lets claim which keys. A key counts once a chain of
accepted user records leads to it from the root key; the identities that claim a key are those of
the user records signed under such a key. As long as no two identities of the vault collide, this
does not depend on the order in which the records are visited.
-/

namespace Thorax

open Collections
open Std (ExtTreeMap ExtTreeSet TransOrd LawfulEqOrd LawfulEqCmp)

section Introduction

variable (crypto : CryptoProvider) (verified : BTreeSet HashValue)
variable (bodies : List (VaultRecordV1 × UserRecordV1)) (root : SelectedRoot)
variable {records : List VaultRecordV1}

/-- The keys that a chain of accepted user records reaches from the root key. -/
inductive KeyIntroduced : Bytes → Prop
  | root : KeyIntroduced root.signingPublicKey
  | step {entry : VaultRecordV1 × UserRecordV1} : entry ∈ bodies →
      KeyIntroduced entry.1.signingPublicKey → acceptsEnvelope crypto verified entry.1 = true →
      KeyIntroduced entry.2.signingPublicKey

/-- A user record that introduces its user. -/
def Introduces (entry : VaultRecordV1 × UserRecordV1) : Prop :=
  entry ∈ bodies ∧ KeyIntroduced crypto verified bodies root entry.1.signingPublicKey ∧
    acceptsEnvelope crypto verified entry.1 = true

/-- A user other than the root claims a key. -/
def Claims (key : Bytes) (user : UserId) : Prop :=
  ∃ entry, Introduces crypto verified bodies root entry ∧ entry.2.signingPublicKey = key ∧
    entry.2.id = user ∧ user ≠ root.root.id

/-- The identifiers of the user records, and of the root, determine their signing keys. -/
structure IdentitiesSeparate : Prop where
  users : ∀ a ∈ bodies, ∀ b ∈ bodies, a.2.id = b.2.id → a.2.signingPublicKey = b.2.signingPublicKey
  root : ∀ a ∈ bodies, a.2.id = root.root.id → a.2.signingPublicKey = root.signingPublicKey

/-- What every pass over the user records maintains. -/
structure IntroductionInv (state : Introduction) : Prop where
  rootId : root.root.id ∈ state.introduced
  rootKey : root.signingPublicKey ∈ state.introducedKeys
  sound : ∀ key ∈ state.introducedKeys, KeyIntroduced crypto verified bodies root key
  claimed : ∀ key claimants, state.claims[key]? = some claimants →
    (∃ user, user ∈ claimants) ∧ ∀ user ∈ claimants, Claims crypto verified bodies root key user
  introduced : ∀ user ∈ state.introduced, user = root.root.id ∨ ∃ entry ∈ bodies,
    entry.2.id = user ∧ entry.2.signingPublicKey ∈ state.introducedKeys ∧
      ∃ claimants, state.claims[entry.2.signingPublicKey]? = some claimants ∧ user ∈ claimants

variable {crypto verified bodies root}

lemma introductionInv_initial :
    IntroductionInv crypto verified bodies root (.initial root) where
  rootId := by simp [Introduction.initial]
  rootKey := by simp [Introduction.initial]
  sound := by
    intro key hkey
    simp only [Introduction.initial, ExtTreeSet.mem_insert, LawfulEqCmp.compare_eq_iff_eq,
      ExtTreeSet.not_mem_empty, or_false] at hkey
    subst hkey
    exact .root
  claimed := by simp [Introduction.initial]
  introduced := by
    intro user huser
    simp only [Introduction.initial, ExtTreeMap.mem_insert, LawfulEqCmp.compare_eq_iff_eq,
      ExtTreeMap.not_mem_empty, or_false] at huser
    exact Or.inl huser.symm

/-- What one user record does: nothing when its user is known, its key unknown or its envelope
rejected, and otherwise its user is introduced. -/
lemma introduceUser_cases (state : Introduction × Bool) (entry : VaultRecordV1 × UserRecordV1) :
    (introduceUser crypto verified state entry = state ∧
      (entry.2.id ∈ state.1.introduced ∨ entry.1.signingPublicKey ∉ state.1.introducedKeys ∨
        acceptsEnvelope crypto verified entry.1 = false)) ∨
    (entry.2.id ∉ state.1.introduced ∧ entry.1.signingPublicKey ∈ state.1.introducedKeys ∧
      acceptsEnvelope crypto verified entry.1 = true ∧
      introduceUser crypto verified state entry =
        ({ claims := state.1.claims.alter entry.2.signingPublicKey fun claimants =>
            some ((claimants.getD ∅).insert entry.2.id)
           introduced := state.1.introduced.insert entry.2.id entry.2.signingPublicKey
           introducedKeys := state.1.introducedKeys.insert entry.2.signingPublicKey }, true)) := by
  unfold introduceUser
  split_ifs with h1 h2 h3
  · exact Or.inl ⟨rfl, Or.inl (ExtTreeMap.contains_iff_mem.mp h1)⟩
  · have hkey : entry.1.signingPublicKey ∉ state.1.introducedKeys := by
      simpa [← ExtTreeSet.contains_iff_mem] using h2
    exact Or.inl ⟨rfl, Or.inr (Or.inl hkey)⟩
  · exact Or.inl ⟨rfl, Or.inr (Or.inr (by simpa using h3))⟩
  · have hkey : entry.1.signingPublicKey ∈ state.1.introducedKeys := by
      simpa [← ExtTreeSet.contains_iff_mem] using h2
    exact Or.inr ⟨fun h => h1 (ExtTreeMap.contains_iff_mem.mpr h), hkey, by simpa using h3, rfl⟩

lemma introduceUser_inv {state : Introduction × Bool} {entry : VaultRecordV1 × UserRecordV1}
    (hentry : entry ∈ bodies) (hinv : IntroductionInv crypto verified bodies root state.1) :
    IntroductionInv crypto verified bodies root (introduceUser crypto verified state entry).1 := by
  rcases introduceUser_cases state entry with
    ⟨heq, _⟩ | ⟨hnew, hkey, hacc, heq⟩
  · rw [heq]
    exact hinv
  · rw [heq]
    have hintro : Introduces crypto verified bodies root entry :=
      ⟨hentry, hinv.sound _ hkey, hacc⟩
    have hne : entry.2.id ≠ root.root.id := fun heq => hnew (heq ▸ hinv.rootId)
    have hclaims : ∀ key, (state.1.claims.alter entry.2.signingPublicKey fun claimants =>
        some ((claimants.getD ∅).insert entry.2.id))[key]? =
        if entry.2.signingPublicKey = key then
          some ((state.1.claims[key]?.getD ∅).insert entry.2.id) else state.1.claims[key]? := by
      intro key
      rw [ExtTreeMap.getElem?_alter]
      simp only [LawfulEqCmp.compare_eq_iff_eq]
      split_ifs with heq
      · rw [heq]
      · rfl
    refine ⟨?_, ?_, ?_, ?_, ?_⟩
    · exact ExtTreeMap.mem_insert.mpr (Or.inr hinv.rootId)
    · exact ExtTreeSet.mem_insert.mpr (Or.inr hinv.rootKey)
    · intro key hk
      simp only [ExtTreeSet.mem_insert, LawfulEqCmp.compare_eq_iff_eq] at hk
      rcases hk with rfl | hk
      · exact .step hentry (hinv.sound _ hkey) hacc
      · exact hinv.sound key hk
    · intro key claimants hcl
      simp only [hclaims] at hcl
      split_ifs at hcl with heq
      · subst heq
        obtain rfl := Option.some.inj hcl
        refine ⟨⟨entry.2.id, by simp⟩, fun user huser => ?_⟩
        simp only [ExtTreeSet.mem_insert, LawfulEqCmp.compare_eq_iff_eq] at huser
        rcases huser with rfl | huser
        · exact ⟨entry, hintro, rfl, rfl, hne⟩
        · cases hold : state.1.claims[entry.2.signingPublicKey]? with
          | none => simp [hold] at huser
          | some old =>
            rw [hold] at huser
            exact (hinv.claimed _ old hold).2 user huser
      · exact hinv.claimed key claimants hcl
    · intro user huser
      simp only [ExtTreeMap.mem_insert, LawfulEqCmp.compare_eq_iff_eq] at huser
      rcases huser with rfl | huser
      · refine Or.inr ⟨entry, hentry, rfl, by simp, ?_⟩
        exact ⟨_, (hclaims _).trans (if_pos rfl), by simp⟩
      · rcases hinv.introduced user huser with h | ⟨e, he, rfl, hk, cl, hcl, hmem⟩
        · exact Or.inl h
        · refine Or.inr ⟨e, he, rfl, ExtTreeSet.mem_insert.mpr (Or.inr hk), ?_⟩
          simp only [hclaims]
          split_ifs with heq
          · exact ⟨_, rfl, by simp [hcl, hmem]⟩
          · exact ⟨cl, hcl, hmem⟩

/-- A pass over user records of the vault: it keeps the invariant and loses no one, it introduces
someone when it reports a change, and when it reports none every record was blocked. -/
lemma foldl_introduceUser_spec {entries : List (VaultRecordV1 × UserRecordV1)}
    (hsub : ∀ entry ∈ entries, entry ∈ bodies) (state : Introduction × Bool)
    (hinv : IntroductionInv crypto verified bodies root state.1) :
    let result := entries.foldl (introduceUser crypto verified) state
    IntroductionInv crypto verified bodies root result.1 ∧
      (∀ user ∈ state.1.introduced, user ∈ result.1.introduced) ∧
      (state.2 = true → result.2 = true) ∧
      (result.2 = true → state.2 = false →
        ∃ entry ∈ entries, entry.2.id ∉ state.1.introduced ∧ entry.2.id ∈ result.1.introduced) ∧
      (result.2 = false → result = state ∧ ∀ entry ∈ entries, entry.2.id ∈ state.1.introduced ∨
        entry.1.signingPublicKey ∉ state.1.introducedKeys ∨
          acceptsEnvelope crypto verified entry.1 = false) := by
  induction entries generalizing state with
  | nil => exact ⟨hinv, fun _ h => h, fun h => h, fun h h' => by simp_all, fun h => by simp⟩
  | cons entry entries ih =>
    have hentry := hsub entry List.mem_cons_self
    obtain ⟨hres, hmono, hflag, hnew, hsame⟩ :=
      ih (fun e he => hsub e (List.mem_cons_of_mem _ he)) _ (introduceUser_inv hentry hinv)
    simp only [List.foldl_cons]
    rcases introduceUser_cases state entry with
      ⟨heq, hblocked⟩ | ⟨hfresh, hkey, hacc, heq⟩
    · rw [heq] at hres hmono hflag hnew hsame ⊢
      refine ⟨hres, hmono, hflag, fun h h' => ?_, fun h => ⟨(hsame h).1, ?_⟩⟩
      · obtain ⟨e, he, hb⟩ := hnew h h'
        exact ⟨e, List.mem_cons_of_mem _ he, hb⟩
      · intro e he
        rcases List.mem_cons.mp he with rfl | he
        · exact hblocked
        · exact (hsame h).2 e he
    · have hin : entry.2.id ∈ (introduceUser crypto verified state entry).1.introduced := by
        rw [heq]
        exact ExtTreeMap.mem_insert.mpr (Or.inl (by simp))
      have hkeep : ∀ user ∈ state.1.introduced,
          user ∈ (introduceUser crypto verified state entry).1.introduced := by
        intro user huser
        rw [heq]
        exact ExtTreeMap.mem_insert.mpr (Or.inr huser)
      have htrue : (introduceUser crypto verified state entry).2 = true := by rw [heq]
      refine ⟨hres, fun user huser => hmono user (hkeep user huser), fun _ => hflag htrue,
        fun _ _ => ⟨entry, List.mem_cons_self, hfresh, hmono _ hin⟩, fun h => ?_⟩
      rw [hflag htrue] at h
      exact absurd h (by simp)

/-- A pass that reports a change introduces one more of the users. -/
lemma countP_introduceUsers_lt {bodies : List (VaultRecordV1 × UserRecordV1)} {state : Introduction}
    (hinv : IntroductionInv crypto verified bodies root state)
    (hchanged : (introduceUsers crypto verified bodies state).2 = true) :
    (bodies.countP fun entry => state.introduced.contains entry.2.id) <
      bodies.countP fun entry =>
        (introduceUsers crypto verified bodies state).1.introduced.contains entry.2.id := by
  obtain ⟨_, hmono, _, hnew, _⟩ := foldl_introduceUser_spec (fun _ h => h) (state, false) hinv
  obtain ⟨entry, hentry, hfresh, hin⟩ := hnew hchanged rfl
  apply Settle.countP_lt_countP
  · intro e _ he
    exact ExtTreeMap.contains_iff_mem.mpr (hmono _ (ExtTreeMap.contains_iff_mem.mp he))
  · refine ⟨entry, hentry, ExtTreeMap.contains_iff_mem.mpr hin, ?_⟩
    simpa [ExtTreeMap.contains_iff_mem, ← Bool.not_eq_true] using hfresh

/-- More passes than there are user records change nothing. -/
lemma loopUntil_introduceUsers {bodies : List (VaultRecordV1 × UserRecordV1)} {n : ℕ}
    (hn : bodies.length + 1 ≤ n) :
    Settle.loopUntil (introduceUsers crypto verified bodies) n (.initial root) =
      Settle.loopUntil (introduceUsers crypto verified bodies) (bodies.length + 1)
        (.initial root) := by
  have hpass : ∀ state, IntroductionInv crypto verified bodies root state →
      IntroductionInv crypto verified bodies root
        (introduceUsers crypto verified bodies state).1 :=
    fun state hinv => (foldl_introduceUser_spec (fun _ h => h) (state, false) hinv).1
  exact Settle.loopUntil_eq_of_le _ hpass
    (fun state => bodies.countP fun entry => state.introduced.contains entry.2.id)
    (fun state hinv => countP_introduceUsers_lt hinv) (fun state _ => List.countP_le_length)
    introductionInv_initial (by omega) hn

/-- The loop ends in a state in which every user record is blocked. -/
lemma introduce_spec (verified : BTreeSet HashValue) (root : SelectedRoot)
    (records : List VaultRecordV1) :
    IntroductionInv crypto verified (userBodies crypto records) root
        (introduce crypto verified root records) ∧
      ∀ entry ∈ userBodies crypto records,
        entry.2.id ∈ (introduce crypto verified root records).introduced ∨
        entry.1.signingPublicKey ∉ (introduce crypto verified root records).introducedKeys ∨
          acceptsEnvelope crypto verified entry.1 = false := by
  have hspec := fun (state : Introduction)
    (hinv : IntroductionInv crypto verified (userBodies crypto records) root state) =>
    foldl_introduceUser_spec (fun _ h => h) (state, false) hinv
  obtain ⟨state, hinv, hstop, hloop⟩ := Settle.loopUntil_stops
    (introduceUsers crypto verified (userBodies crypto records))
    (fun state hinv => (hspec state hinv).1)
    (fun state => (userBodies crypto records).countP fun entry =>
      state.introduced.contains entry.2.id) (B := (userBodies crypto records).length)
    (fun state hinv => countP_introduceUsers_lt hinv)
    (fun state _ => List.countP_le_length) (n := (userBodies crypto records).length + 1)
    (s := .initial root) introductionInv_initial (by omega)
  obtain ⟨hres, _, _, _, hsame⟩ := hspec state hinv
  obtain ⟨hfix, hblocked⟩ := hsame hstop
  have hend : introduce crypto verified root records = state := by
    rw [introduce, hloop]
    exact congrArg Prod.fst hfix
  rw [hend]
  exact ⟨hinv, hblocked⟩

/-- Every key reached by a chain of introductions is introduced. -/
lemma mem_introducedKeys (hids : IdentitiesSeparate (userBodies crypto records) root)
    {key : Bytes} :
    key ∈ (introduce crypto verified root records).introducedKeys ↔
      KeyIntroduced crypto verified (userBodies crypto records) root key := by
  obtain ⟨hinv, hblocked⟩ := introduce_spec verified root records
  refine ⟨hinv.sound key, fun h => ?_⟩
  induction h with
  | root => exact hinv.rootKey
  | @step entry hentry _ hacc ih =>
    rcases hblocked entry hentry with hin | hout | hrej
    · rcases hinv.introduced _ hin with hroot | ⟨e, he, hid, hk, _⟩
      · rw [hids.root entry hentry hroot]
        exact hinv.rootKey
      · rw [hids.users entry hentry e he hid.symm]
        exact hk
    · exact absurd ih hout
    · simp [hacc] at hrej

/-- The claimants of a key are those who claim it, and a key without claimants has no entry. -/
lemma claims_spec (verified : BTreeSet HashValue)
    (hids : IdentitiesSeparate (userBodies crypto records) root) (key : Bytes) :
    (∀ user, user ∈ ((introduce crypto verified root records).claims[key]?.getD ∅) ↔
      Claims crypto verified (userBodies crypto records) root key user) ∧
    ((introduce crypto verified root records).claims[key]? = none ↔
      ∀ user, ¬ Claims crypto verified (userBodies crypto records) root key user) := by
  obtain ⟨hinv, hblocked⟩ := introduce_spec verified root records
  have hcomplete : ∀ user, Claims crypto verified (userBodies crypto records) root key user →
      ∃ claimants, (introduce crypto verified root records).claims[key]? = some claimants ∧
        user ∈ claimants := by
    rintro _ ⟨entry, ⟨hentry, hkey, hacc⟩, rfl, rfl, hne⟩
    rcases hblocked entry hentry with hin | hout | hrej
    · rcases hinv.introduced _ hin with hroot | ⟨e, he, hid, _, claimants, hcl, hmem⟩
      · exact absurd hroot hne
      · rw [hids.users entry hentry e he hid.symm]
        exact ⟨claimants, hcl, hmem⟩
    · exact absurd ((mem_introducedKeys hids).mpr hkey) hout
    · simp [hacc] at hrej
  cases hcl : (introduce crypto verified root records).claims[key]? with
  | none =>
    simp only [hcl, reduceCtorEq, false_and, exists_false, imp_false] at hcomplete
    simp [hcomplete]
  | some claimants =>
    obtain ⟨⟨user, huser⟩, hall⟩ := hinv.claimed key claimants hcl
    refine ⟨fun u => ⟨hall u, fun h => ?_⟩, ?_⟩
    · obtain ⟨cl, hcl', hmem⟩ := hcomplete u h
      rw [hcl] at hcl'
      obtain rfl := Option.some.inj hcl'
      exact hmem
    · simp only [reduceCtorEq, false_iff, not_forall, not_not]
      exact ⟨user, hall user huser⟩

end Introduction

end Thorax
