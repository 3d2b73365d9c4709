import Thorax.Frontend.Selector
import Thorax.Library.Registry
import Thorax.Ops.Secrets

/-!
# Injections

What `thorax run` puts into the environment of a child: each `[NAME=]SELECTOR` argument is expanded
to the secrets it selects, and each of these gives a variable for its primary value and one for each
of its fields.
-/

namespace Thorax

open Collections Registries

/-! ### Names -/

/-- ASCII letters and digits in upper case, and `_` for everything else. -/
def sanitizeEnvSegment (segment : String) : String :=
  String.ofList (segment.toList.map fun character =>
    if character.isAlphanum then character.toUpper else '_')

/-- The full tuple joined by `__`, and a `_` in front of a digit. -/
def deriveEnvName (selector : SecretSelectorV1) : String :=
  let name := List.intercalate ['_', '_']
    (selector.tuple.map fun segment => (sanitizeEnvSegment segment).toList)
  if name.head?.any Char.isDigit then String.ofList ('_' :: name) else String.ofList name

def validateEnvName (name : String) : Except String Unit :=
  match name.toList.head? with
  | none => .error "it is empty"
  | some first =>
    if first.isDigit then .error "it must not start with a digit"
    else if name.toList.all fun character => character.isAlphanum || character = '_' then .ok ()
    else .error "it may contain only letters, digits, and underscores"

/-! ### Planning -/

/-- A resolved injection: a variable and the secret that fills it. -/
structure Injection where
  name : String
  display : String
  selector : SecretSelectorV1
  deriving DecidableEq

/-- A secret in conflict, with the selectors that its candidates claim. -/
structure ConflictedSecret where
  label : String
  claimed : List SecretSelectorV1

def ConflictedSecret.isMatched (self : ConflictedSecret) (query : KeyspaceSelectorV1) : Bool :=
  self.claimed.any (selectorMatches query)

/-- The first `=` introduces a name if nothing before it belongs to a path. -/
def splitName (spec : String) : Option String × String :=
  let (before, rest) := spec.toList.span (· ≠ '=')
  match rest with
  | [] => (none, spec)
  | _ :: query =>
    if before.any ['/', '@', '"', '\\'].contains then (none, spec)
    else (some (String.ofList before), String.ofList query)

instance : Ord SecretLabelV1 := ⟨compareSecretLabels⟩

/-- By tuple, then by labels. -/
def compareSecretSelectors : SecretSelectorV1 → SecretSelectorV1 → Ordering :=
  compareLex (compareOn SecretSelectorV1.tuple) (compareOn SecretSelectorV1.labels)

/-- The available secrets that a query matches, sorted and without repetitions. -/
def matchedSelectors (available : List SecretSelectorV1) (query : KeyspaceSelectorV1) :
    List SecretSelectorV1 :=
  (sortBy compareSecretSelectors (available.filter (selectorMatches query))).destutter (· ≠ ·)

/-- The variables that are planned, and the secret each is for. -/
abbrev InjectionPlan := Registry String SecretSelectorV1 Injection

/-- A secret under the explicit name, or under the one that its tuple gives it. -/
def injectionClaim (explicitName : Option String) (selector : SecretSelectorV1) :
    Claim String SecretSelectorV1 Injection :=
  let name := explicitName.getD (deriveEnvName selector)
  ⟨name, selector, name, selectorString selector, selector⟩

def checkExplicitName : Option String → Except FrontendError Unit
  | none => .ok ()
  | some name => (validateEnvName name).mapError (.invalidEnvName name)

def checkUnambiguous (spec : String) (count : ℕ) : Option String → Except FrontendError Unit
  | none => .ok ()
  | some name => if 1 < count then .error (.ambiguousNamedSelector name spec count) else .ok ()

def planSpec (available : List SecretSelectorV1) (conflicted : List ConflictedSecret)
    (plan : InjectionPlan) (spec : String) : Except FrontendError InjectionPlan := do
  let (explicitName, querySource) := splitName spec
  checkExplicitName explicitName
  let query ← parseSecretQuery querySource
  match conflicted.find? (·.isMatched query) with
  | some conflict => .error (.secretConflicted conflict.label)
  | none =>
    let matched := matchedSelectors available query
    if matched = [] then .error (.secretNotFound spec)
    else do
      checkUnambiguous spec matched.length explicitName
      ((matched.map (injectionClaim explicitName)).foldlM Registry.record plan).mapError
        FrontendError.duplicateEnvName

def planInjections (specs : List String) (available : List SecretSelectorV1)
    (conflicted : List ConflictedSecret) : Except FrontendError (List Injection) := do
  let plan ← specs.foldlM (planSpec available conflicted) Registry.empty
  .ok plan.entries

/-! ### Assembling the environment -/

/-- Values are strings without a NUL. -/
def envValue (bytes : Bytes) (display : String) : Except FrontendError String :=
  match String.fromUTF8? ⟨bytes.toArray⟩ with
  | none => .error (.secretNotInjectable display "its value is not valid UTF-8")
  | some value =>
    if value.toList.contains (Char.ofNat 0) then
      .error (.secretNotInjectable display "its value contains a NUL byte")
    else .ok value

/-- The variables that are set with their values, and the secret each is for. -/
abbrev Environment := Registry String SecretSelectorV1 (String × String)

def pushInjection (env : Environment) (name : String) (selector : SecretSelectorV1)
    (value : String) : Except FrontendError Environment :=
  (env.record ⟨name, selector, name, value⟩).mapError FrontendError.duplicateEnvName

def fieldName (injection : Injection) (key : String) : String :=
  injection.name ++ "__" ++ sanitizeEnvSegment key

def pushField (injection : Injection) (env : Environment) (field : SecretFieldEntryV1) :
    Except FrontendError Environment := do
  (validateEnvName (fieldName injection field.key)).mapError
    (.invalidEnvName (fieldName injection field.key))
  let value ← envValue field.value (injection.display ++ " field " ++ field.key)
  pushInjection env (fieldName injection field.key) injection.selector value

/-- The variables of one secret. -/
def pushSecret (env : Environment) (opened : Injection × SecretPlaintext) :
    Except FrontendError Environment := do
  let value ← envValue opened.2.plaintext opened.1.display
  let env ← pushInjection env opened.1.name opened.1.selector value
  opened.2.fields.foldlM (pushField opened.1) env

def assembleEnv (plan : List Injection) (opened : List SecretPlaintext) :
    Except FrontendError (List (String × String)) := do
  let env ← (plan.zip opened).foldlM pushSecret Registry.empty
  .ok env.entries

/-- What a child finds: each variable is set in turn. -/
def childEnv (env : List (String × String)) : BTreeMap String String :=
  Std.ExtTreeMap.ofList env compare

end Thorax
