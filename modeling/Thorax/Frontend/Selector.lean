import Thorax.Authz
import Thorax.Errors
import Thorax.Library.Collections
import Thorax.Library.Quoted

/-!
# The selector grammar

How the frontends read and write the selectors of secrets: a tuple with `/` between its segments,
and labels after an `@`, with `&` between them. A backslash takes the next character literally, and
double quotes take a run literally. A query widens a selector to a matcher.
-/

namespace Thorax

open Collections Quoted

inductive FrontendError where
  | ops (source : OpsError)
  | invalidSelector (selector : String) (reason : String)
  | secretNotFound (selector : String)
  | ambiguousNamedSelector (name selector : String) (count : ℕ)
  | invalidEnvName (name : String) (reason : String)
  | duplicateEnvName (name : String)
  | secretNotInjectable (selector : String) (reason : String)
  | secretConflicted (selector : String)
  | secretFieldNotFound (selector key : String)
  | invalidHex (name reason : String)
  | invalidHexLength (name : String) (expected actual : ℕ)
  | invalidHandle (handle reason : String)
  | missingDefaultUser
  | userNotFound (reference : String)
  | ambiguousUser (reference : String)
  | groupNotFound (reference : String)
  | ambiguousGroup (reference : String)
  | io (path : String)
  | gitConfigFailed (key : String)
  deriving DecidableEq

def selectorMarks : Marks Char := ⟨'\\', '"', by decide⟩

/-- What has a meaning in some position and so makes a field be quoted. -/
def structuralChars : List Char := ['/', '@', '&', '=', '!', '"', '\\']

/-! ### Scanning -/

def splitUnquoted (s : List Char) (delim : Char) : List (List Char) := split selectorMarks delim s

def splitOnceUnquoted (s : List Char) (delim : Char) : Option (List Char × List Char) :=
  splitOnce selectorMarks delim s

def decodeField (raw : List Char) (whole : String) : Except FrontendError String :=
  let state := run selectorMarks start raw
  if state.escaped then .error (.invalidSelector whole "selector ends with a dangling backslash escape")
  else if state.inQuote then .error (.invalidSelector whole "selector has an unterminated quote")
  else .ok (String.ofList (decodeFrom selectorMarks start raw))

/-- The first `@` opens the labels, and `&` separates them. -/
def splitLabelSection (value : List Char) : List Char × Option (List (List Char)) :=
  match splitOnceUnquoted value '@' with
  | some (path, labels) => (path, some (splitUnquoted labels '&'))
  | none => (value, none)

/-! ### Parsing -/

def parseSegment (whole : String) (raw : List Char) : Except FrontendError String := do
  let segment ← decodeField raw whole
  if segment = "" then
    .error (.invalidSelector whole "selector path must not contain empty segments")
  else .ok segment

def parseTuplePath (whole : String) (path : List Char) : Except FrontendError (List String) :=
  if path = [] then .error (.invalidSelector whole "selector must not be empty")
  else (splitUnquoted path '/').mapM (parseSegment whole)

def parseSecretLabel (whole : String) (label : List Char) : Except FrontendError SecretLabelV1 :=
  match splitOnceUnquoted label '=' with
  | none => .error (.invalidSelector whole "secret labels are @key=value pairs separated by &")
  | some (key, labelValue) => do
    let key ← decodeField key whole
    let labelValue ← decodeField labelValue whole
    if key = "" ∨ labelValue = "" then
      .error (.invalidSelector whole "label keys and values must not be empty")
    else .ok ⟨key, labelValue⟩

/-- By key, then by value. -/
def compareSecretLabels : SecretLabelV1 → SecretLabelV1 → Ordering :=
  compareLex (compareOn SecretLabelV1.key) (compareOn SecretLabelV1.value)

def parseSecretSelector (value : String) : Except FrontendError SecretSelectorV1 := do
  let (path, labelSection) := splitLabelSection value.toList
  let tuple ← parseTuplePath value path
  let labels ← (labelSection.getD []).mapM (parseSecretLabel value)
  let labels := sortBy compareSecretLabels labels
  if (labels.zip labels.tail).any (fun pair => pair.1.key = pair.2.key) then
    .error (.invalidSelector value "a label key may appear only once")
  else .ok ⟨tuple, labels⟩

/-- The key and the matcher of one term of a query. Only a bare `!` in front marks an absence. -/
def parseQueryTerm (whole : String) (label : List Char) :
    Except FrontendError KeyspaceLabelMatcherV1 :=
  match label with
  | '!' :: rest => do
    let key ← decodeField rest whole
    .ok ⟨key, .absent⟩
  | _ =>
    match splitOnceUnquoted label '=' with
    | some (key, labelValue) => do
      let labelValue ← decodeField labelValue whole
      if labelValue = "" then .error (.invalidSelector whole "label values must not be empty")
      else do
        let key ← decodeField key whole
        .ok ⟨key, .equals labelValue⟩
    | none => do
      let key ← decodeField label whole
      .ok ⟨key, .any⟩

/-- Read one term after others. -/
def pushQueryTerm (whole : String) (labels : List KeyspaceLabelMatcherV1) (label : List Char) :
    Except FrontendError (List KeyspaceLabelMatcherV1) := do
  let parsed ← parseQueryTerm whole label
  if parsed.key = "" then .error (.invalidSelector whole "label keys must not be empty")
  else if labels.any (fun existing => existing.key = parsed.key) then
    .error (.invalidSelector whole "a label key may appear only once")
  else .ok (labels ++ [parsed])

/-- The spellings of the whole vault count only when they are written bare. -/
def parseQueryTuple (whole : String) (path : List Char) (labelled : Bool) :
    Except FrontendError TupleMatcherV1 :=
  if path = ['*'] ∨ path = ['.'] ∨ path = ['/'] then .ok .any
  else if path = [] ∧ labelled = true then .ok .any
  else do
    let tuple ← parseTuplePath whole path
    .ok (.prefixed tuple)

def parseSecretQuery (value : String) : Except FrontendError KeyspaceSelectorV1 := do
  let (path, labelSection) := splitLabelSection value.toList
  let tuple ← parseQueryTuple value path labelSection.isSome
  let labels ← (labelSection.getD []).foldlM (pushQueryTerm value) []
  .ok ⟨tuple, labels⟩

/-! ### Rendering -/

/-- Bare if nothing in it is structural, else one quoted run. -/
def escapeSegment (value : String) : List Char :=
  if value ≠ "" ∧ !value.toList.any structuralChars.contains then value.toList
  else quoted selectorMarks value.toList

def escapeTuple (parts : List String) : List Char :=
  List.intercalate ['/'] (parts.map escapeSegment)

def labelText (label : SecretLabelV1) : List Char :=
  escapeSegment label.key ++ '=' :: escapeSegment label.value

def selectorText (selector : SecretSelectorV1) : List Char :=
  escapeTuple selector.tuple ++ (selector.labels.mapIdx fun index label =>
    (if index = 0 then '@' else '&') :: labelText label).flatten

def selectorString (selector : SecretSelectorV1) : String := String.ofList (selectorText selector)

end Thorax
