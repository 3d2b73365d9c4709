import Thorax.Format

/-!
# Hashes, signatures and derived identifiers

The cryptographic provider and the canonical serializer are code outside the repository. They
are one parameter here: a hash for each domain, the signature check of record envelopes, and the
canonical bytes of each kind of value the program serializes.
-/

namespace Thorax

/-- The domains under which the program hashes. -/
inductive HashDomain where
  | recordHash
  | user
  | key
  | userHandle
  | vaultHandle
  | group
  | groupMember
  | grant
  | secret
  | transactionFile
  | joinCommit
  deriving DecidableEq

/-- The domain string a provider receives. -/
def HashDomain.text : HashDomain → String
  | .recordHash => "thorax.record-hash.v1"
  | .user => "thorax.user.v1"
  | .key => "thorax.key.v1"
  | .userHandle => "thorax.handle.v1"
  | .vaultHandle => "thorax.vault-handle.v1"
  | .group => "thorax.group.v1"
  | .groupMember => "thorax.group-member.v1"
  | .grant => "thorax.grant.v1"
  | .secret => "thorax.secret.v1"
  | .transactionFile => "thorax.transaction-file.v1"
  | .joinCommit => "thorax.join-commit.v1"

/-- The values that are serialized to canonical bytes. -/
inductive Canonical where
  | record (signed : VaultRecordV1)
  | body (body : Evolving RecordBodyV1)
  | userIdInput (signingPublicKey hpkePublicKey : Bytes)
  | publicKey (key : Bytes)
  | seed (seed : IdSeed)
  | text (text : String)
  | groupMemberIdInput (groupId : GroupId) (memberId : PrincipalRefV1)
  | selector (selector : SecretSelectorV1)
  deriving DecidableEq

structure CryptoProvider where
  hash : HashDomain → Bytes → HashValue
  /-- Public key, message, signature; the domain is always `thorax.signed.v1`. -/
  verifySignature : Bytes → Bytes → Bytes → Bool
  serialize : Canonical → Bytes

variable (crypto : CryptoProvider)

def deriveHash (domain : HashDomain) (value : Canonical) : HashValue :=
  crypto.hash domain (crypto.serialize value)

def deriveUserId (signingPublicKey hpkePublicKey : Bytes) : UserId :=
  ⟨deriveHash crypto .user (.userIdInput signingPublicKey hpkePublicKey)⟩

def keyHash (publicKey : Bytes) : HashValue := deriveHash crypto .key (.publicKey publicKey)

def recordHash (signed : VaultRecordV1) : HashValue :=
  deriveHash crypto .recordHash (.record signed)

def deriveGrantId (seed : IdSeed) : GrantId := ⟨deriveHash crypto .grant (.seed seed)⟩

def deriveGroupId (seed : IdSeed) : GroupId := ⟨deriveHash crypto .group (.seed seed)⟩

def deriveGroupMemberId (groupId : GroupId) (memberId : PrincipalRefV1) : GroupMemberId :=
  ⟨deriveHash crypto .groupMember (.groupMemberIdInput groupId memberId)⟩

def deriveSecretId (selector : SecretSelectorV1) : SecretId :=
  ⟨deriveHash crypto .secret (.selector selector)⟩

/-! ### Handles -/

/-- The characters `str::trim` removes: the Unicode `White_Space` property. -/
def isWhiteSpace (c : Char) : Bool :=
  (0x9 ≤ c.toNat && c.toNat ≤ 0xD) || c.toNat == 0x20 || c.toNat == 0x85 || c.toNat == 0xA0 ||
    c.toNat == 0x1680 || (0x2000 ≤ c.toNat && c.toNat ≤ 0x200A) || c.toNat == 0x2028 ||
    c.toNat == 0x2029 || c.toNat == 0x202F || c.toNat == 0x205F || c.toNat == 0x3000

def trimChars (chars : List Char) : List Char :=
  ((chars.dropWhile isWhiteSpace).reverse.dropWhile isWhiteSpace).reverse

def normalizeHandle (handle : String) : String :=
  String.ofList ((trimChars handle.toList).map Char.toLower)

def maxHandleLen : ℕ := 64

def isHandleAlnum (c : Char) : Bool := ('a' ≤ c && c ≤ 'z') || ('0' ≤ c && c ≤ '9')

def isHandleInner (c : Char) : Bool := isHandleAlnum c || c == '-' || c == '_'

/-- A slug of lowercase alphanumerics, `-` and `_` that starts and ends with an alphanumeric.
The charset is ASCII, so the byte tests of the source are tests on characters. -/
def isValidHandle (handle : String) : Bool :=
  match handle.toList with
  | [] => false
  | first :: rest =>
    handle.utf8ByteSize ≤ maxHandleLen && isHandleAlnum first &&
      isHandleAlnum ((first :: rest).getLast (by simp)) && (first :: rest).all isHandleInner

lemma isHandleInner_bounds {c : Char} (h : isHandleInner c = true) :
    (97 ≤ c.toNat ∧ c.toNat ≤ 122) ∨ (48 ≤ c.toNat ∧ c.toNat ≤ 57) ∨ c.toNat = 45 ∨
      c.toNat = 95 := by
  simp only [isHandleInner, isHandleAlnum, Bool.or_eq_true, Bool.and_eq_true, decide_eq_true_eq,
    beq_iff_eq, Char.le_def, UInt32.le_iff_toNat_le] at h
  rcases h with ((h | h) | rfl) | rfl
  · exact Or.inl h
  · exact Or.inr (Or.inl h)
  · exact Or.inr (Or.inr (Or.inl rfl))
  · exact Or.inr (Or.inr (Or.inr rfl))

lemma isWhiteSpace_of_inner {c : Char} (h : isHandleInner c = true) : isWhiteSpace c = false := by
  have := isHandleInner_bounds h
  simp only [isWhiteSpace, Bool.or_eq_false_iff, Bool.and_eq_false_iff, decide_eq_false_iff_not,
    beq_eq_false_iff_ne]
  omega

lemma toLower_of_inner {c : Char} (h : isHandleInner c = true) : c.toLower = c := by
  have hbounds := isHandleInner_bounds h
  unfold Char.toLower
  split_ifs with hupper
  · simp only [ge_iff_le, UInt32.le_iff_toNat_le] at hupper
    have hc : c.val.toNat = c.toNat := rfl
    have hA : 'A'.val.toNat = 65 := rfl
    have hZ : 'Z'.val.toNat = 90 := rfl
    omega
  · rfl

/-- A valid handle is its own normal form. -/
lemma normalizeHandle_of_valid {handle : String} (h : isValidHandle handle = true) :
    normalizeHandle handle = handle := by
  have hall : ∀ c ∈ handle.toList, isHandleInner c = true := by
    unfold isValidHandle at h
    split at h
    · simp at h
    · next first rest hl =>
      simp only [Bool.and_eq_true, List.all_eq_true] at h
      rw [hl]
      exact h.2
  have hdrop : ∀ l : List Char, (∀ c ∈ l, isHandleInner c = true) →
      l.dropWhile isWhiteSpace = l := by
    intro l hl
    cases l with
    | nil => rfl
    | cons c l => simp [isWhiteSpace_of_inner (hl c List.mem_cons_self)]
  have htrim : trimChars handle.toList = handle.toList := by
    rw [trimChars, hdrop _ hall, hdrop _ (by simpa using hall), List.reverse_reverse]
  have hmap : handle.toList.map Char.toLower = handle.toList := by
    rw [List.map_congr_left fun c hc => toLower_of_inner (hall c hc)]
    simp
  rw [normalizeHandle, htrim, hmap, String.ofList_toList]

def deriveUserHandleId (handle : String) : UserHandleId :=
  ⟨deriveHash crypto .userHandle (.text (normalizeHandle handle))⟩

def deriveVaultHandleId (handle : String) : VaultHandleId :=
  ⟨deriveHash crypto .vaultHandle (.text (normalizeHandle handle))⟩

/-! ### Envelopes -/

/-- The message of an envelope's signature: the canonical bytes of its body. -/
def signedRecordMessage (signed : VaultRecordV1) : Bytes := crypto.serialize (.body signed.body)

/-- Whether an envelope's signature verifies under the key the envelope carries. -/
def verifiesEnvelope (signed : VaultRecordV1) : Bool :=
  crypto.verifySignature signed.signingPublicKey (signedRecordMessage crypto signed)
    signed.signature

/-! ### Collisions -/

/-- The preimages that are hashed on behalf of one record, each with its domain. -/
def recordPreimages (signed : VaultRecordV1) : List (HashDomain × Canonical) :=
  (.recordHash, .record signed) ::
    match signed.body with
    | .unknown _ => []
    | .known (.vaultRoot r) => [(.user, .userIdInput signed.signingPublicKey r.hpkePublicKey)]
    | .known (.entryPoint r) => [(.user, .userIdInput signed.signingPublicKey r.hpkePublicKey)]
    | .known (.user r) => [(.user, .userIdInput r.signingPublicKey r.hpkePublicKey)]
    | .known (.userHandle r) => [(.userHandle, .text (normalizeHandle r.handle))]
    | .known (.vaultHandle r) => [(.vaultHandle, .text (normalizeHandle r.handle))]
    | .known (.group r) => [(.group, .seed r.seed)]
    | .known (.groupMember r) => [(.groupMember, .groupMemberIdInput r.groupId r.memberId)]
    | .known (.groupMemberDeleted r) => [(.groupMember, .groupMemberIdInput r.groupId r.memberId)]
    | .known (.grant r) => [(.grant, .seed r.seed)]
    | .known (.secret r) => [(.secret, .selector r.selector)]
    | .known (.secretDeleted r) => [(.secret, .selector r.selector)]
    | .known (.groupDeleted _) | .known (.grantDeleted _) | .known (.userDeleted _) => []

/-- No two of the preimages hashed for these records collide under one domain: the hash is
collision-free and the serializer injective as far as these records can tell. -/
def CollisionFree (records : List VaultRecordV1) : Prop :=
  ∀ p ∈ records.flatMap recordPreimages, ∀ q ∈ records.flatMap recordPreimages,
    p.1 = q.1 → deriveHash crypto p.1 p.2 = deriveHash crypto q.1 q.2 → p.2 = q.2

instance (records : List VaultRecordV1) : Decidable (CollisionFree crypto records) :=
  inferInstanceAs (Decidable (∀ p ∈ records.flatMap recordPreimages,
    ∀ q ∈ records.flatMap recordPreimages,
      p.1 = q.1 → deriveHash crypto p.1 p.2 = deriveHash crypto q.1 q.2 → p.2 = q.2))

end Thorax
