import Thorax.Kubernetes.System
import Thorax.TestStore

/-!
# A cluster that can be evaluated

A managed identity that is a user of a small vault, enrollment artifacts that say what their objects
say, and a server that holds one vault object with its source, its identity and its ratchet.
-/

namespace Thorax.TestSupport

open Collections Kubernetes Versioned

/-! ### The identity and its vault -/

def managedUser : TestUser := testUser 1

def managedIdentity : ManagedIdentity where
  masterSeed := [1]
  keys := ⟨managedUser.signingPublicKey, managedUser.hpkePublicKey, id⟩

/-- The identity is a user of the vault and has accepted its root. -/
def managedRecords : List VaultRecordV1 :=
  [vaultRootRecord, userRecord rootUser managedUser 1, trustRoot managedUser 1]

def managedVault : VaultStore := .v1 ⟨managedRecords⟩

/-- The ratchet after a first validation of a vault. -/
def raisedBy (vault : VaultStore) (ratchet : Ratchet) : Ratchet :=
  ratchet.applyUpdate (validateVault transparentCrypto vault ratchet).ratchetUpdate

/-- The identity's ratchet for its vault. -/
def managedRatchet : Ratchet := raisedBy managedVault freshRatchet

def managedTables : Tables where
  vaults := [managedVault]
  ratchets := [ratchetStore freshRatchet, ratchetStore managedRatchet]
  transactions := []
  caches := []

/-! ### The provider -/

def testCandidate (purpose : JoinPurpose) : JoinCandidateV1 := ⟨purpose, testRoot, managedUser.id⟩

/-- The artifact of an approval is a byte for its purpose. -/
def testApproval (artifact : Bytes) : JoinApprovalV1 where
  purpose := if artifact = [0] then .enroll else .restoreTrust
  userId := managedUser.id
  approvingAdmin := rootUser.id
  approvingSigningPublicKey := rootUser.signingPublicKey
  approvedGrants := []
  replacesUserId := none

/-- The MAC of a ratchet is its scope and its content under the seed. -/
def testMac (seed : Bytes) (root : HashValue) (user : UserId) (bytes : Bytes) : Bytes :=
  sized seed ++ hashBytes root ++ idBytes user ++ bytes

def testController (tables : Tables) : ControllerProvider where
  toStoreProvider := tableProvider tables
  ratchetMac seed root user bytes := some (testMac seed root user bytes)
  verifyRatchetMac seed root user bytes mac := mac = testMac seed root user bytes
  verify_ratchetMac h := by
    obtain rfl := Option.some.inj h
    exact decide_eq_true rfl
  identityFromMasterSeed seed := some ⟨seed, seed, id⟩
  revisionHash bytes := ⟨bytes⟩
  requestCandidate spec _ _ := .ok (testCandidate spec.purpose)
  approvalOf spec := .ok (testApproval spec.artifact)
  createJoinRequestSpec input := .ok ⟨input.vaultName, input.purpose,
    hex (managedUser.id).hash.bytes, []⟩
  validateJoinCandidate _ := .ok ()
  validateApprovalBindings _ _ := .ok ()
  openJoinBaseline _ _ _ := .ok []

def testProjections (tables : Tables) : ProjectionProvider where
  toControllerProvider := testController tables
  validateSecretSpec _ := .ok ()
  parseSecretSelector _ := .ok testSelector
  decryptSecretRecord _ secret _ := .ok ⟨counterBytes secret.value.counter, ∅⟩

/-! ### The server -/

def testVault : ThoraxVault where
  name := "vault"
  objectNamespace := "default"
  uid := 1
  spec := ⟨⟨"source", "vault.cord"⟩, "identity"⟩
  status := none

def testCredential : RatchetCredential := ⟨managedIdentity, [ownerReference testVault.uid]⟩

def testRatchetName (tables : Tables) : String :=
  testCredential.secretName (tableProvider tables) testRoot

/-- The Secret of a ratchet. -/
def testRatchetSecret (tables : Tables) (ratchet : Ratchet) : Option Secret :=
  (savedSecret (tableProvider tables) (testController tables).toManagedCrypto testCredential
    ratchet).toOption

def testConfigMap (vaultBytes : Bytes) : ConfigMap where
  data := none
  binaryData := some ((∅ : BTreeMap String Bytes).insert "vault.cord" vaultBytes)

/-- A server with one vault, its source, its identity and maybe its ratchet. -/
def testServer (tables : Tables) (vault : ThoraxVault) (vaultBytes : Bytes)
    (ratchet : Option Secret) : ApiServer where
  configMaps name := if name = "source" then some (testConfigMap vaultBytes) else none
  secrets name :=
    if name = "identity" then ⟨some ⟨identitySecret testVault managedIdentity.masterSeed, 0⟩, 1⟩
    else if name = testRatchetName tables then ⟨ratchet.map (⟨·, 0⟩), 1⟩
    else ⟨none, 0⟩
  vaults name := if name = "vault" then some vault else none
  versions := [vault]
  requests := []
  approvals := []
  nextUid := 10
  inFlight := []
  log := []

/-- Nothing has been started. -/
def testSystem (server : ApiServer) : System := ⟨server, fun _ => none, 0⟩

end Thorax.TestSupport
