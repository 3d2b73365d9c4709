import Thorax.Transcripts

/-!
# Domains are separate

Transcripts of different uses, of different domains or of different values are different bytes. So
two values have one hash only where SHA-256 has a collision, whatever their domains, a signature
made for one of them is good for another only where Ed25519 accepts it for two messages, and two
ratchets have one MAC only where HMAC has a collision. What is hashed without a domain, such as an
artifact of a release, is no transcript.
-/

namespace Thorax

section Labels

lemma encode_injective {text text' : String} (h : Utf8.encode text = Utf8.encode text') :
    text = text' := by
  have hdecode := Utf8.decode_eq_some_iff.mpr (rfl : Utf8.encode text' = Utf8.encode text')
  rw [← h, Utf8.decode_eq_some_iff.mpr (rfl : Utf8.encode text = Utf8.encode text)] at hdecode
  exact Option.some.inj hdecode

lemma HashDomain.text_injective : Function.Injective HashDomain.text := by
  intro domain domain' h
  cases domain <;> cases domain' <;> simp [HashDomain.text] at h ⊢

end Labels

namespace Transcript

/-- The label of the use is the first field. -/
def label : Transcript → String
  | .hash _ _ => hashDomain
  | .signature _ _ => signatureDomain
  | .hpkeInfo _ => hpkeInfoDomain
  | .ratchetMac _ _ _ => ratchetMacSalt

lemma head?_fields (transcript : Transcript) :
    transcript.fields.head? = some (Utf8.encode transcript.label) := by
  cases transcript <;> rfl

lemma label_eq_of_fields {t t' : Transcript} (h : t.fields = t'.fields) : t.label = t'.label := by
  have hhead := congrArg List.head? h
  rw [head?_fields, head?_fields] at hhead
  exact encode_injective (Option.some.inj hhead)

/-- The fields tell the transcript. -/
lemma fields_injective : Function.Injective fields := by
  intro t t' h
  have hlabel := label_eq_of_fields h
  cases t with
  | hash domain canonicalBytes =>
    cases t' with
    | hash domain' canonicalBytes' =>
      simp only [fields, List.cons.injEq, true_and, and_true] at h
      rw [encode_injective h.1, h.2]
    | signature | hpkeInfo | ratchetMac =>
      simp [label, hashDomain, signatureDomain, hpkeInfoDomain, ratchetMacSalt] at hlabel
  | signature domain message =>
    cases t' with
    | signature domain' message' =>
      simp only [fields, List.cons.injEq, true_and, and_true] at h
      rw [encode_injective h.1, h.2]
    | hash | hpkeInfo | ratchetMac =>
      simp [label, hashDomain, signatureDomain, hpkeInfoDomain, ratchetMacSalt] at hlabel
  | hpkeInfo info =>
    cases t' with
    | hpkeInfo info' =>
      simp only [fields, List.cons.injEq, true_and, and_true] at h
      rw [h]
    | hash | signature | ratchetMac =>
      simp [label, hashDomain, signatureDomain, hpkeInfoDomain, ratchetMacSalt] at hlabel
  | ratchetMac trustedRoot userId ratchetBytes =>
    cases t' with
    | ratchetMac trustedRoot' userId' ratchetBytes' =>
      simp only [fields, List.cons.injEq, true_and, and_true] at h
      rw [HashValue.ext h.1, Id.ext (HashValue.ext h.2.1), h.2.2]
    | hash | signature | hpkeInfo =>
      simp [label, hashDomain, signatureDomain, hpkeInfoDomain, ratchetMacSalt] at hlabel

lemma bytes_injective {t t' : Transcript} (ht : t.Fits) (ht' : t'.Fits)
    (h : t.bytes = t'.bytes) : t = t' :=
  fields_injective (Framing.frames_injective (by decide) ht ht' h)

end Transcript

/-- Two values of a function that are the same for different arguments. -/
def Collides {α β : Type} (f : α → β) (x y : α) : Prop := x ≠ y ∧ f x = f y

lemma Primitives.hash_separates (primitives : Primitives) {domain domain' : String}
    {value value' : Bytes} (hfits : (Transcript.hash domain value).Fits)
    (hfits' : (Transcript.hash domain' value').Fits)
    (h : primitives.hash domain value = primitives.hash domain' value') :
    (domain = domain' ∧ value = value') ∨
      Collides primitives.sha256 (Transcript.hash domain value).bytes
        (Transcript.hash domain' value').bytes := by
  by_cases hbytes : (Transcript.hash domain value).bytes = (Transcript.hash domain' value').bytes
  · exact Or.inl (Transcript.hash.inj (Transcript.bytes_injective hfits hfits' hbytes))
  · exact Or.inr ⟨hbytes, congrArg HashValue.bytes h⟩

/-- Transcripts are the same bytes only where they are the same. Two hashes are the same only at a
collision of SHA-256, whatever their domains, those of the validation among them. A signature that
is good in two domains or for two messages is one that Ed25519 accepts for two messages under one
key, and the domains of signatures differ. Two ratchets with one MAC under one key are a collision
of HMAC. -/
theorem transcripts_separate (primitives : Primitives) (serialize : Canonical → Bytes)
    (hmac : Bytes → Bytes → Bytes) :
    (∀ t t' : Transcript, t.Fits → t'.Fits → t.bytes = t'.bytes → t = t') ∧
    (∀ (domain domain' : String) (value value' : Bytes),
      (Transcript.hash domain value).Fits → (Transcript.hash domain' value').Fits →
      primitives.hash domain value = primitives.hash domain' value' →
      (domain = domain' ∧ value = value') ∨
        Collides primitives.sha256 (Transcript.hash domain value).bytes
          (Transcript.hash domain' value').bytes) ∧
    (∀ (domain domain' : HashDomain) (value value' : Bytes),
      (Transcript.hash domain.text value).Fits → (Transcript.hash domain'.text value').Fits →
      (primitives.toCryptoProvider serialize).hash domain value =
        (primitives.toCryptoProvider serialize).hash domain' value' →
      (domain = domain' ∧ value = value') ∨
        Collides primitives.sha256 (Transcript.hash domain.text value).bytes
          (Transcript.hash domain'.text value').bytes) ∧
    (∀ (domain domain' : String) (publicKey message message' signature : Bytes),
      (Transcript.signature domain message).Fits → (Transcript.signature domain' message').Fits →
      primitives.verifySignature domain publicKey message signature = true →
      primitives.verifySignature domain' publicKey message' signature = true →
      (domain = domain' ∧ message = message') ∨
        Collides (fun signed => primitives.verifyStrict publicKey signed signature)
          (Transcript.signature domain message).bytes
          (Transcript.signature domain' message').bytes) ∧
    signatureDomains.Nodup ∧
    ∀ (key : Bytes) (root root' : HashValue) (user user' : UserId) (ratchet ratchet' : Bytes),
      (Transcript.ratchetMac root user ratchet).Fits →
      (Transcript.ratchetMac root' user' ratchet').Fits →
      ratchetMac hmac key root user ratchet = ratchetMac hmac key root' user' ratchet' →
      (root = root' ∧ user = user' ∧ ratchet = ratchet') ∨
        Collides (hmac key) (Transcript.ratchetMac root user ratchet).bytes
          (Transcript.ratchetMac root' user' ratchet').bytes := by
  refine ⟨fun t t' ht ht' h => Transcript.bytes_injective ht ht' h,
    fun _ _ _ _ => primitives.hash_separates, ?_, ?_, by decide, ?_⟩
  · intro domain domain' value value' hfits hfits' h
    rcases primitives.hash_separates hfits hfits' h with ⟨htext, hvalue⟩ | hcollides
    · exact Or.inl ⟨HashDomain.text_injective htext, hvalue⟩
    · exact Or.inr hcollides
  · intro domain domain' publicKey message message' signature hfits hfits' h h'
    by_cases hbytes : (Transcript.signature domain message).bytes =
        (Transcript.signature domain' message').bytes
    · exact Or.inl (Transcript.signature.inj (Transcript.bytes_injective hfits hfits' hbytes))
    · simp only [Primitives.verifySignature, Bool.and_eq_true] at h h'
      exact Or.inr ⟨hbytes, h.2.trans h'.2.symm⟩
  · intro key root root' user user' ratchet ratchet' hfits hfits' h
    by_cases hbytes : (Transcript.ratchetMac root user ratchet).bytes =
        (Transcript.ratchetMac root' user' ratchet').bytes
    · exact Or.inl (Transcript.ratchetMac.inj (Transcript.bytes_injective hfits hfits' hbytes))
    · exact Or.inr ⟨hbytes, h⟩

/-- A digest that only looks at the first bytes has collisions. -/
def shortPrimitives : Primitives where
  sha256 bytes := bytes.take 32
  verifyingKeyFromBytes _ := true
  verifyStrict _ message signature := decide (signature = message.take 64)

theorem transcripts_separate_short :
    Collides shortPrimitives.sha256 (Transcript.hash HashDomain.user.text [1]).bytes
      (Transcript.hash HashDomain.user.text [2]).bytes := by
  have hseparate := (transcripts_separate shortPrimitives (fun _ => []) fun _ message => message).2.1
    HashDomain.user.text HashDomain.user.text [1] [2] (by decide) (by decide) (by decide)
  rcases hseparate with hsame | hcollides
  · exact absurd hsame.2 (by decide)
  · exact hcollides

end Thorax
