import Thorax.Frontend.Selector

/-!
# What a grant is asked for

The command line reads a keyspace with the grammar of secrets, and prints the keyspaces of the
grants that there are. The form of the terminal interface starts with the tuple of what is selected,
joined by `/`, and splits at every `/` again.
-/

namespace Thorax

/-! ### The command line -/

def KeyspaceSelectorV1.exact (parts : List String) : KeyspaceSelectorV1 := ⟨.exact parts, []⟩

def KeyspaceSelectorV1.withPrefix (parts : List String) : KeyspaceSelectorV1 :=
  if parts = [] then .all else ⟨.prefixed parts, []⟩

/-- The spellings of the whole vault. -/
def wholeVault : List String := ["*", ".", "/"]

def parseKeyspaceSelector (value : String) (exact : Bool) :
    Except FrontendError KeyspaceSelectorV1 :=
  if value ∈ wholeVault then .ok .all
  else do
    let selector ← parseSecretSelector value
    if exact then .ok (.exact selector.tuple) else .ok (.withPrefix selector.tuple)

def keyspaceText : TupleMatcherV1 → List Char
  | .any => ['*']
  | .exact parts => '=' :: escapeTuple parts
  | .prefixed [] => ['*']
  | .prefixed parts => escapeTuple parts ++ ['/', '*']

def keyspaceSelectorString (selector : KeyspaceSelectorV1) : String :=
  String.ofList (keyspaceText selector.tuple)

/-! ### The terminal interface -/

structure GrantForm where
  subjects : List PrincipalRefV1
  subjectIdx : ℕ
  classIdx : ℕ
  keyspace : String

namespace GrantForm

/-- The parts between slashes, without the empty ones. -/
def tuple (self : GrantForm) : List String :=
  ((self.keyspace.toList.splitOn '/').filter (· ≠ [])).map String.ofList

def selector (self : GrantForm) : Except String KeyspaceSelectorV1 :=
  if self.tuple = [] then .error "enter a keyspace path, e.g. app/prod"
  else .ok ⟨.prefixed self.tuple, []⟩

def build (self : GrantForm) : Except String (PrincipalRefV1 × GrantPermissionV1) :=
  match self.subjects[self.subjectIdx]? with
  | none => .error "pick a subject"
  | some subject =>
    match self.classIdx with
    | 0 => do
      let selector ← self.selector
      .ok (subject, .readKeyspace selector)
    | 1 => do
      let selector ← self.selector
      .ok (subject, .writeKeyspace selector)
    | 2 => do
      let selector ← self.selector
      .ok (subject, .manageKeyspace ⟨selector, [.read, .write, .manage]⟩)
    | _ => .ok (subject, .administer)

/-- The keyspace that the form starts with, for what is selected. -/
def prefill (path : List String) : String :=
  String.ofList (List.intercalate ['/'] (path.map String.toList))

end GrantForm

end Thorax
