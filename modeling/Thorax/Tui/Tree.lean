import Thorax.Tui.Update

/-!
# The tree of secrets

Secrets are browsed in a tree of the segments of their tuples, which is flattened into rows. A node
whose only content is one secret is shown as that secret; where a node has more, its secrets follow
its children and are told apart by their labels.
-/

namespace Thorax

open Collections

/-- The conflicts at secrets. -/
def EffectiveState.secretConflicts (self : EffectiveState) : List ConflictReport :=
  (values self.conflicted).filter fun conflict =>
    match conflict.key with
    | .secret _ => true
    | _ => false

namespace Tui

/-! ### Filters -/

/-- `{env=prod, region=us-east-1}`, or nothing where there are no labels. -/
def selectorLabels (selector : SecretSelectorV1) : String :=
  if selector.labels = [] then ""
  else "\x7b" ++ String.intercalate ", " (selector.labels.map fun l => l.key ++ "=" ++ l.value) ++
    "\x7d"

/-- Values for label keys; a selector must have all of them. -/
structure FacetFilter where
  constraints : BTreeMap String String

def FacetFilter.matches (self : FacetFilter) (selector : SecretSelectorV1) : Bool :=
  self.constraints.toList.all fun entry =>
    selector.labels.any fun label => label.key = entry.1 ∧ label.value = entry.2

def FacetFilter.none : FacetFilter := ⟨∅⟩

/-- A fuzzy search over the joined path; an empty one finds everything. -/
def queryMatches (fuzzy : String → String → Bool) (search : String) (selector : SecretSelectorV1) :
    Bool :=
  search = "" || fuzzy search (String.intercalate "/" selector.tuple)

/-! ### Nodes -/

inductive TreeNode where
  | node (segment : String) (path : List String) (children : List TreeNode)
      (leaves : List SecretLeaf)

structure SecretTree where
  roots : List TreeNode
  total : ℕ

namespace TreeNode

def segment : TreeNode → String
  | .node segment _ _ _ => segment

def path : TreeNode → List String
  | .node _ path _ _ => path

def children : TreeNode → List TreeNode
  | .node _ _ children _ => children

def empty (segment : String) (path : List String) : TreeNode := .node segment path [] []

end TreeNode

/-- Change the first child with a segment, or add one. -/
def updateChild (fresh : TreeNode) (f : TreeNode → TreeNode) : List TreeNode → List TreeNode
  | [] => [f fresh]
  | child :: children =>
    if child.segment = fresh.segment then f child :: children
    else child :: updateChild fresh f children

/-- Put a secret below a node, at what is left of its tuple. -/
def insertLeaf (leaf : SecretLeaf) : List String → TreeNode → TreeNode
  | [], .node segment path children leaves => .node segment path children (leaves ++ [leaf])
  | head :: rest, .node segment path children leaves =>
    .node segment path
      (updateChild (.empty head (path ++ [head])) (insertLeaf leaf rest) children) leaves

mutual

/-- The children of a node by their segments, its secrets by their labels. -/
def sortNode : TreeNode → TreeNode
  | .node segment path children leaves =>
    .node segment path (sortBy (compareOn TreeNode.segment) (sortNodes children))
      (sortBy (compareOn fun leaf : SecretLeaf => selectorLabels leaf.selector) leaves)

def sortNodes : List TreeNode → List TreeNode
  | [] => []
  | node :: nodes => sortNode node :: sortNodes nodes

end

section Building

variable (crypto : CryptoProvider) (fuzzy : String → String → Bool) (state : EffectiveState)
variable (viewer : Option UserId) (facets : FacetFilter) (search : String)

def isShown (leaf : SecretLeaf) : Bool :=
  facets.matches leaf.selector && queryMatches fuzzy search leaf.selector

/-- A live secret as its viewer sees it. -/
def liveLeaf (active : ActiveSecretV1) : SecretLeaf :=
  ⟨active.value.selector, match viewer with
    | some user => state.classifySecretForUser crypto active.value.selector user
    | none => .unauthorized⟩

/-- A conflict as far as a record of it is left. -/
def conflictLeaf (conflict : ConflictReport) : Option SecretLeaf :=
  (conflictSelector conflict).map fun selector => ⟨selector, .conflicted⟩

/-- What can be browsed: the live secrets, and then the conflicts. -/
def browsedLeaves : List SecretLeaf :=
  state.secretRecords.map (liveLeaf crypto state viewer) ++
    state.secretConflicts.filterMap conflictLeaf

def buildTree : SecretTree :=
  let leaves := (browsedLeaves crypto state viewer).filter (isShown fuzzy facets search)
  let root := leaves.foldl (fun root leaf => insertLeaf leaf leaf.selector.tuple root) (.empty "" [])
  ⟨(sortNode root).children, leaves.length⟩

end Building

/-! ### Rows -/

inductive Row where
  | branch (path : List String) (label : String) (depth : ℕ) (expanded hasChildren : Bool)
  | leaf (depth : ℕ) (name : String) (leaf : SecretLeaf)

section Rows

variable (expanded : BTreeSet (List String)) (expandAll : Bool)

/-- What a secret is called below a node that it does not stand for. -/
def leafName (leaf : SecretLeaf) : String :=
  if leaf.selector.labels = [] then "(default)" else selectorLabels leaf.selector

mutual

def pushRows (depth : ℕ) : TreeNode → List Row
  | .node segment path children leaves =>
    match children, leaves with
    | [], [leaf] => [.leaf depth segment leaf]
    | children, leaves =>
      let isExpanded := expandAll || expanded.contains path
      .branch path segment depth isExpanded true ::
        if isExpanded then
          pushAllRows (depth + 1) children ++
            leaves.map fun leaf => .leaf (depth + 1) (leafName leaf) leaf
        else []

def pushAllRows (depth : ℕ) : List TreeNode → List Row
  | [] => []
  | node :: nodes => pushRows depth node ++ pushAllRows depth nodes

end

/-- The rows of a tree. A search expands everything. -/
def visibleRows (tree : SecretTree) (search : String) : List Row :=
  pushAllRows expanded (search != "") 0 tree.roots

end Rows

end Tui

end Thorax
