import Thorax.Frontend.Selector
import Thorax.Library.Durable
import Thorax.Library.Lines
import Thorax.Library.Utf8

/-!
# The registration of the merge driver

A vault is merged by a driver of its own. That takes an entry in the `.gitattributes` of the
workspace, which is committed, and the configuration of the clone, which is not. An installation
adds what it takes to be missing: it looks for an entry of the vault line by line, and asks git for
the keys of its configuration.
-/

namespace Thorax

open Collections Durable

def gitattributesMergeLine : String := ".thorax/vault.cord merge=thorax-merge"

def gitattributesDiffLine : String := ".thorax/vault.cord diff=thorax-textconv"

def driverName : String := "Thorax vault merge"

def driverCommand : String := "thorax merge-driver %O %A %B"

def diffDriverCommand : String := "thorax vault cat"

inductive MergeDriverStatus where
  | registered
  | missingGitConfig
  | missingAttributes
  | missingBoth
  | notAGitRepo
  | gitUnavailable
  deriving DecidableEq

structure MergeDriverInstall where
  wroteAttributes : Bool
  wroteConfig : Bool
  deriving DecidableEq

/-- The `.gitattributes` of a workspace, if it has one, and the configuration git knows there. -/
structure Registration where
  attributes : Option Bytes
  config : BTreeMap String String

/-- What the surroundings allow: git can be run, the workspace is in a repository, git sets a key,
and the attributes can be opened for appending. -/
structure GitEnvironment where
  runs : Bool
  inRepository : Bool
  accepts : String → Bool
  appends : Bool

abbrev GitProgram (α : Type) := Program Registration FrontendError α

/-! ### Git -/

section Git

variable (env : GitEnvironment)

/-- Git succeeds, fails, or cannot be run at all. -/
def gitRevParse : Option Bool := if env.runs then some env.inRepository else none

/-- Git finds a key exactly if it is set. -/
def gitConfigGet (key : String) (registration : Registration) : Option Bool :=
  if env.runs then some (registration.config.contains key) else none

def gitSetConfig (key value : String) : GitProgram Unit := do
  .ensure (env.runs && env.accepts key) (.gitConfigFailed key)
  .modify fun registration => { registration with config := registration.config.insert key value }

/-! ### Attributes -/

def attributesLineMatches (line : List Char) : Bool :=
  let line := trimChars line
  decide (line.head? ≠ some '#' ∧ ".thorax/vault.cord".toList <:+: line ∧
    ("merge=".toList <:+: line ∨ "diff=".toList <:+: line))

/-- Whether a file that is there and is text has an entry for the vault. -/
def attributesEntryPresent (registration : Registration) : Bool :=
  match registration.attributes.bind Utf8.decode with
  | none => false
  | some contents => (Lines.lines '\n' '\r' contents.toList).any attributesLineMatches

/-- What is appended: the two entries, after a line feed where the last line has none. -/
def attributesEntries (contents : Bytes) : String :=
  (if contents ≠ [] ∧ contents.getLast? ≠ some 10 then "\n" else "") ++
    gitattributesMergeLine ++ "\n" ++ gitattributesDiffLine ++ "\n"

def appendAttributes : GitProgram Unit := do
  .ensure env.appends (.io ".gitattributes")
  .modify fun registration =>
    let contents := registration.attributes.getD []
    { registration with attributes := some (contents ++ Utf8.encode (attributesEntries contents)) }

/-! ### Status and installation -/

def mergeDriverStatus (registration : Registration) : MergeDriverStatus :=
  match gitRevParse env with
  | none => .gitUnavailable
  | some false => .notAGitRepo
  | some true =>
    match attributesEntryPresent registration,
        gitConfigGet env "merge.thorax-merge.driver" registration == some true with
    | true, true => .registered
    | true, false => .missingGitConfig
    | false, true => .missingAttributes
    | false, false => .missingBoth

/-- Install what is missing. -/
def installMergeDriver : GitProgram MergeDriverInstall := do
  let present ← .read fun registration => .ok (attributesEntryPresent registration)
  .skipWhen present (appendAttributes env)
  let mergeReady ← .read fun registration =>
    .ok (gitConfigGet env "merge.thorax-merge.driver" registration == some true)
  .skipWhen mergeReady do
    gitSetConfig env "merge.thorax-merge.name" driverName
    gitSetConfig env "merge.thorax-merge.driver" driverCommand
  let diffReady ← .read fun registration =>
    .ok (gitConfigGet env "diff.thorax-textconv.textconv" registration == some true)
  .skipWhen diffReady (gitSetConfig env "diff.thorax-textconv.textconv" diffDriverCommand)
  pure ⟨!present, !mergeReady || !diffReady⟩

end Git

end Thorax
