import Thorax.Properties.Addressing
import Thorax.Properties.Candidates
import Thorax.Properties.SecretIndex
import Thorax.Tui.Tree

/-!
# Every secret in the tree

Once every branch is expanded, the rows should show each live secret and each conflicted one exactly
once, below branches that spell its tuple, with siblings in the order of their segments; a filter
should leave the rows of what satisfies it. All of this holds exactly if no tuple is empty: a secret
at the root of the tree is in no row.
-/

namespace Thorax.Tui

open Collections Std

/-! ### Reading rows -/

section Reading

def Row.depth : Row → ℕ
  | .branch _ _ depth _ _ => depth
  | .leaf depth _ _ => depth

def Row.leaf? : Row → Option SecretLeaf
  | .branch .. => none
  | .leaf _ _ secret => some secret

/-- A branch whose rows are not shown. -/
def Row.isCollapsed : Row → Bool
  | .branch _ _ _ expanded _ => !expanded
  | .leaf .. => false

/-- Each row with the labels of the branches above it, as the depths say. -/
def enclosing (above : List String) : List Row → List (List String × Row)
  | [] => []
  | row :: rows =>
    (above.take row.depth, row) :: enclosing (match row with
      | .branch _ label depth _ _ => above.take depth ++ [label]
      | .leaf .. => above) rows

/-- The segment that a row stands for. A secret below branches that spell all of its tuple stands for
none. -/
def rowSegment (entry : List String × Row) : Option String :=
  match entry.2 with
  | .branch _ label _ _ _ => some label
  | .leaf _ name leaf => if leaf.selector.tuple = entry.1 then none else some name

def rowLeaves (rows : List Row) : List SecretLeaf := rows.filterMap Row.leaf?

end Reading

/-- A secret in a row is what the branches above it spell, or that with its name. -/
def Spelled (entry : List String × Row) : Prop :=
  ∀ leaf ∈ entry.2.leaf?, leaf.selector.tuple = entry.1 ∨
    ∃ name ∈ rowSegment entry, leaf.selector.tuple = entry.1 ++ [name]

/-- Of two rows below the same branch, the first has the smaller segment. -/
def SiblingsAscend (a b : List String × Row) : Prop :=
  a.1 = b.1 → ∀ s ∈ rowSegment a, ∀ t ∈ rowSegment b, s < t

section Statement

variable (crypto : CryptoProvider) (fuzzy : String → String → Bool) (state : EffectiveState)
variable (viewer : Option UserId)

/-- The rows under filters and with branches that have been expanded. -/
def treeRows (facets : FacetFilter) (search : String) (expanded : BTreeSet (List String)) :
    List Row :=
  visibleRows expanded (buildTree crypto fuzzy state viewer facets search) search

/-- The key of the secret in a row. -/
def leafKey (leaf : SecretLeaf) : RecordKey := .secret (deriveSecretId crypto leaf.selector)

/-- The secrets that should be browsed: live ones, and conflicts of which a record is left. -/
def browsedKeys : List RecordKey :=
  state.secretRecords.map (fun active => .secret active.value.id) ++
    (state.secretConflicts.filter (·.candidates ≠ [])).map (·.key)

/-- The rows of a state show what can be browsed. -/
structure TreeFaithful : Prop where
  once : ∀ expanded, (∀ row ∈ treeRows crypto fuzzy state viewer .none "" expanded,
    row.isCollapsed = false) →
      ((rowLeaves (treeRows crypto fuzzy state viewer .none "" expanded)).map
        (leafKey crypto)).Perm (browsedKeys state)
  distinct : (browsedKeys state).Nodup
  spelled : ∀ facets search expanded, ∀ entry ∈ enclosing []
    (treeRows crypto fuzzy state viewer facets search expanded), Spelled entry
  sorted : ∀ facets search expanded, (enclosing []
    (treeRows crypto fuzzy state viewer facets search expanded)).Pairwise SiblingsAscend
  filtered : ∀ facets search expanded expanded',
    (∀ row ∈ treeRows crypto fuzzy state viewer facets search expanded, row.isCollapsed = false) →
    (∀ row ∈ treeRows crypto fuzzy state viewer .none "" expanded', row.isCollapsed = false) →
      (rowLeaves (treeRows crypto fuzzy state viewer facets search expanded)).Perm
        ((rowLeaves (treeRows crypto fuzzy state viewer .none "" expanded')).filter
          (isShown fuzzy facets search))

/-- No secret that can be browsed has an empty tuple. -/
structure Branched : Prop where
  live : ∀ active ∈ state.secretRecords, active.value.selector.tuple ≠ []
  conflicted : ∀ conflict ∈ state.secretConflicts, ∀ selector ∈ conflictSelector conflict,
    selector.tuple ≠ []

end Statement

/-! ### Nodes -/

section Nodes

variable {node : TreeNode} {nodes children : List TreeNode} {leaf : SecretLeaf}
variable {path rest : List String}

/-- What holds of a node if it holds of its children holds of all. -/
@[elab_as_elim]
lemma TreeNode.induct {P : TreeNode → Prop} (h : ∀ segment path children leaves,
    (∀ child ∈ children, P child) → P (.node segment path children leaves)) (node : TreeNode) :
    P node := by
  refine @TreeNode.rec P (fun nodes => ∀ child ∈ nodes, P child)
    (fun segment path children leaves ih => h segment path children leaves ih) ?_ ?_ node
  · simp
  · intro node nodes hnode hnodes
    exact List.forall_mem_cons.mpr ⟨hnode, hnodes⟩

mutual

/-- The secrets of a node and of everything below it. -/
def TreeNode.held : TreeNode → List SecretLeaf
  | .node _ _ children leaves => heldBy children ++ leaves

def heldBy : List TreeNode → List SecretLeaf
  | [] => []
  | node :: nodes => node.held ++ heldBy nodes

end

@[simp] lemma heldBy_eq : heldBy nodes = nodes.flatMap TreeNode.held := by
  induction nodes with
  | nil => rfl
  | cons node nodes ih => rw [heldBy, ih, List.flatMap_cons]

@[simp] lemma sortNodes_eq : sortNodes nodes = nodes.map sortNode := by
  induction nodes with
  | nil => rfl
  | cons node nodes ih => rw [sortNodes, ih, List.map_cons]

/-- A node where its path is, with children of different segments and the secrets of the path. -/
inductive Placed : List String → TreeNode → Prop
  | node {segment : String} {path : List String} {children : List TreeNode}
      {leaves : List SecretLeaf} : (∀ leaf ∈ leaves, leaf.selector.tuple = path) →
      (children.map TreeNode.segment).Nodup →
      (∀ child ∈ children, Placed (path ++ [child.segment]) child) →
      Placed path (.node segment path children leaves)

/-- Children in the order of their segments, all the way down. -/
inductive Ascending : TreeNode → Prop
  | node {segment : String} {path : List String} {children : List TreeNode}
      {leaves : List SecretLeaf} : (children.map TreeNode.segment).Pairwise (· < ·) →
      (∀ child ∈ children, Ascending child) → Ascending (.node segment path children leaves)

lemma Placed.inv {path' : List String} {segment : String} {leaves : List SecretLeaf}
    (h : Placed path (.node segment path' children leaves)) : path' = path ∧
      (∀ leaf ∈ leaves, leaf.selector.tuple = path) ∧ (children.map TreeNode.segment).Nodup ∧
        ∀ child ∈ children, Placed (path ++ [child.segment]) child := by
  cases h with
  | node hleaves hnodup hchildren => exact ⟨rfl, hleaves, hnodup, hchildren⟩

lemma placed_empty (segment : String) (path : List String) : Placed path (.empty segment path) :=
  .node (by simp) (by simp) (by simp)

/-- What is held somewhere belongs there. -/
lemma Placed.prefix_of_held (h : Placed path node) (hleaf : leaf ∈ node.held) :
    path <+: leaf.selector.tuple := by
  induction node using TreeNode.induct generalizing path with
  | h segment path' children leaves ih =>
    obtain ⟨hleaves, -, hchildren⟩ := h
    rw [TreeNode.held, heldBy_eq, List.mem_append, List.mem_flatMap] at hleaf
    rcases hleaf with ⟨child, hchild, hleaf⟩ | hleaf
    · exact (List.prefix_append _ _).trans (ih child hchild (hchildren child hchild) hleaf)
    · rw [hleaves leaf hleaf]

/-! ### Building -/

lemma segment_insertLeaf : (insertLeaf leaf rest node).segment = node.segment := by
  cases node
  cases rest <;> rfl

section UpdateChild

variable {fresh : TreeNode} {f : TreeNode → TreeNode}

lemma mem_updateChild {child : TreeNode} (h : child ∈ updateChild fresh f children) :
    child ∈ children ∨ ∃ old ∈ fresh :: children, old.segment = fresh.segment ∧ f old = child := by
  induction children with
  | nil => exact Or.inr ⟨fresh, List.mem_cons_self, rfl, (List.mem_singleton.mp h).symm⟩
  | cons first children ih =>
    rw [updateChild] at h
    split_ifs at h with hsegment
    · rcases List.mem_cons.mp h with rfl | hmem
      · exact Or.inr ⟨first, by simp, hsegment, rfl⟩
      · exact Or.inl (List.mem_cons_of_mem _ hmem)
    · rcases List.mem_cons.mp h with rfl | hmem
      · exact Or.inl List.mem_cons_self
      · rcases ih hmem with hold | ⟨old, hmemOld, hold⟩
        · exact Or.inl (List.mem_cons_of_mem _ hold)
        · refine Or.inr ⟨old, ?_, hold⟩
          rcases List.mem_cons.mp hmemOld with rfl | hmemOld
          · exact List.mem_cons_self
          · exact List.mem_cons_of_mem _ (List.mem_cons_of_mem _ hmemOld)

/-- A child keeps its segment, and a new one has a segment of its own. -/
lemma nodup_updateChild (hf : ∀ child, (f child).segment = child.segment)
    (h : (children.map TreeNode.segment).Nodup) :
    ((updateChild fresh f children).map TreeNode.segment).Nodup := by
  have hsegments : (updateChild fresh f children).map TreeNode.segment =
      if fresh.segment ∈ children.map TreeNode.segment then children.map TreeNode.segment
      else children.map TreeNode.segment ++ [fresh.segment] := by
    clear h
    induction children with
    | nil => simp [updateChild, hf]
    | cons first children ih =>
      rw [updateChild]
      by_cases hsegment : first.segment = fresh.segment
      · simp [hsegment, hf]
      · rw [if_neg hsegment, List.map_cons, ih]
        have hne : fresh.segment ≠ first.segment := fun heq => hsegment heq.symm
        simp only [List.map_cons, List.mem_cons, hne, false_or]
        split_ifs <;> rfl
  rw [hsegments]
  split_ifs with hmem
  · exact h
  · rw [List.nodup_append]
    refine ⟨h, List.nodup_singleton _, fun a ha b hb heq => hmem ?_⟩
    rw [← List.mem_singleton.mp hb, ← heq]
    exact ha

lemma held_updateChild (hfresh : fresh.held = []) (hf : ∀ child, (f child).held.Perm
    (leaf :: child.held)) :
    ((updateChild fresh f children).flatMap TreeNode.held).Perm
      (leaf :: children.flatMap TreeNode.held) := by
  induction children with
  | nil =>
    rw [updateChild, List.flatMap_singleton, List.flatMap_nil]
    exact hfresh ▸ hf fresh
  | cons first children ih =>
    rw [updateChild]
    split_ifs
    · exact (hf first).append_right _
    · rw [List.flatMap_cons, List.flatMap_cons]
      exact (ih.append_left _).trans List.perm_middle

end UpdateChild

lemma held_empty (segment : String) (path : List String) :
    (TreeNode.empty segment path).held = [] := rfl

/-- A secret that is put into a tree is held by it. -/
lemma held_insertLeaf : (insertLeaf leaf rest node).held.Perm (leaf :: node.held) := by
  induction rest generalizing node with
  | nil =>
    obtain ⟨segment, path, children, leaves⟩ := node
    rw [insertLeaf, TreeNode.held, TreeNode.held, ← List.append_assoc]
    exact List.perm_append_singleton leaf _
  | cons head rest ih =>
    obtain ⟨segment, path, children, leaves⟩ := node
    rw [insertLeaf, TreeNode.held, TreeNode.held, heldBy_eq, heldBy_eq, ← List.cons_append]
    exact (held_updateChild (held_empty head _) fun _ => ih).append_right leaves

lemma placed_insertLeaf (h : Placed path node) (hleaf : leaf.selector.tuple = path ++ rest) :
    Placed path (insertLeaf leaf rest node) := by
  induction rest generalizing path node with
  | nil =>
    obtain ⟨hleaves, hnodup, hchildren⟩ := h
    refine .node (fun other hother => ?_) hnodup hchildren
    rcases List.mem_append.mp hother with hother | hother
    · exact hleaves other hother
    · rw [List.mem_singleton.mp hother, hleaf, List.append_nil]
  | cons head rest ih =>
    obtain ⟨hleaves, hnodup, hchildren⟩ := h
    refine .node hleaves (nodup_updateChild (fun _ => segment_insertLeaf) hnodup) ?_
    intro child hchild
    rcases mem_updateChild hchild with hold | ⟨old, hold, hsegment, rfl⟩
    · exact hchildren child hold
    · rw [segment_insertLeaf]
      replace hsegment : old.segment = head := hsegment
      refine ih ?_ (by rw [hleaf, hsegment, List.append_assoc, List.singleton_append])
      rcases List.mem_cons.mp hold with rfl | hold
      · exact placed_empty _ _
      · exact hchildren old hold

lemma segment_sortNode : (sortNode node).segment = node.segment := by
  cases node
  rfl

lemma segments_sortNode : (nodes.map sortNode).map TreeNode.segment =
    nodes.map TreeNode.segment := by
  rw [List.map_map]
  exact List.map_congr_left fun _ _ => segment_sortNode

lemma placed_sortNode (h : Placed path node) : Placed path (sortNode node) := by
  induction node using TreeNode.induct generalizing path with
  | h segment path' children leaves ih =>
    obtain ⟨hleaves, hnodup, hchildren⟩ := h
    rw [sortNode, sortNodes_eq]
    refine .node (fun leaf hleaf => hleaves leaf ((mem_sortBy _).mp hleaf)) ?_ fun child hchild => ?_
    · refine ((sortBy_perm _ _).map _).nodup_iff.mpr ?_
      rw [segments_sortNode]
      exact hnodup
    · obtain ⟨old, hold, rfl⟩ := List.mem_map.mp ((mem_sortBy _).mp hchild)
      rw [segment_sortNode]
      exact ih old hold (hchildren old hold)

lemma held_sortNode : (sortNode node).held.Perm node.held := by
  induction node using TreeNode.induct with
  | h segment path children leaves ih =>
    rw [sortNode, sortNodes_eq, TreeNode.held, TreeNode.held, heldBy_eq, heldBy_eq]
    refine List.Perm.append ?_ (sortBy_perm _ _)
    refine ((sortBy_perm _ _).flatMap_right _).trans ?_
    rw [List.flatMap_map]
    exact List.Perm.flatMap_left _ ih

lemma ascending_sortNode (h : Placed path node) : Ascending (sortNode node) := by
  induction node using TreeNode.induct generalizing path with
  | h segment path' children leaves ih =>
    obtain ⟨-, hnodup, hchildren⟩ := h
    have hdistinct : ((sortBy (compareOn TreeNode.segment) (children.map sortNode)).map
        TreeNode.segment).Nodup :=
      ((sortBy_perm _ _).map _).nodup_iff.mpr (segments_sortNode.symm ▸ hnodup)
    have hle : (sortBy (compareOn TreeNode.segment) (children.map sortNode)).Pairwise
        fun a b => a.segment ≤ b.segment :=
      (pairwise_sortBy (compareOn TreeNode.segment) _).imp fun h =>
        compare_le_iff_le.mp (Ordering.isLE_iff_ne_gt.mp h)
    rw [sortNode, sortNodes_eq]
    refine .node ?_ fun child hchild => ?_
    · rw [List.pairwise_map]
      exact (hle.and (List.pairwise_map.mp hdistinct)).imp fun h => h.1.lt_of_ne h.2
    · obtain ⟨old, hold, rfl⟩ := List.mem_map.mp ((mem_sortBy _).mp hchild)
      exact ih old hold (hchildren old hold)

end Nodes

/-! ### Rows -/

section Rows

variable {expanded : BTreeSet (List String)} {expandAll : Bool} {node : TreeNode}
variable {nodes : List TreeNode} {above stack : List String} {rest : List Row}

lemma pushAllRows_eq {depth : ℕ} : pushAllRows expanded expandAll depth nodes =
    nodes.flatMap (pushRows expanded expandAll depth) := by
  induction nodes with
  | nil => rfl
  | cons node nodes ih => rw [pushAllRows, ih, List.flatMap_cons]

variable (expanded expandAll)

mutual

/-- The rows of a node below some branches, each with the branches above it. -/
def entries (above : List String) : TreeNode → List (List String × Row)
  | .node segment path children leaves =>
    match children, leaves with
    | [], [leaf] => [(above, .leaf above.length segment leaf)]
    | children, leaves =>
      let isExpanded := expandAll || expanded.contains path
      (above, .branch path segment above.length isExpanded true) ::
        if isExpanded then
          allEntries (above ++ [segment]) children ++ leaves.map fun leaf =>
            (above ++ [segment], .leaf (above.length + 1) (leafName leaf) leaf)
        else []

def allEntries (above : List String) : List TreeNode → List (List String × Row)
  | [] => []
  | node :: nodes => entries above node ++ allEntries above nodes

end

lemma allEntries_eq : allEntries expanded expandAll above nodes =
    nodes.flatMap (entries expanded expandAll above) := by
  induction nodes with
  | nil => rfl
  | cons node nodes ih => rw [allEntries, ih, List.flatMap_cons]

/-- A node that is shown as its only secret, or as a branch. -/
lemma rows_cases (segment : String) (path : List String) (children : List TreeNode)
    (leaves : List SecretLeaf) :
    (children = [] ∧ ∃ leaf, leaves = [leaf]) ∨
    ((∀ depth, pushRows expanded expandAll depth (.node segment path children leaves) =
      .branch path segment depth (expandAll || expanded.contains path) true ::
        if expandAll || expanded.contains path then
          pushAllRows expanded expandAll (depth + 1) children ++
            leaves.map fun leaf => .leaf (depth + 1) (leafName leaf) leaf
        else []) ∧
      ∀ above, entries expanded expandAll above (.node segment path children leaves) =
        (above, .branch path segment above.length (expandAll || expanded.contains path) true) ::
          if expandAll || expanded.contains path then
            allEntries expanded expandAll (above ++ [segment]) children ++ leaves.map fun leaf =>
              (above ++ [segment], .leaf (above.length + 1) (leafName leaf) leaf)
          else []) := by
  cases children with
  | nil =>
    match leaves with
    | [] => exact Or.inr ⟨fun _ => rfl, fun _ => rfl⟩
    | [leaf] => exact Or.inl ⟨rfl, leaf, rfl⟩
    | _ :: _ :: _ => exact Or.inr ⟨fun _ => rfl, fun _ => rfl⟩
  | cons _ _ => exact Or.inr ⟨fun _ => rfl, fun _ => rfl⟩

/-- Reading the rows of a list of nodes gives their entries, if it does for each node. -/
lemma enclosing_pushAllRows (h : ∀ node ∈ nodes, ∀ stack, stack.take above.length = above →
    ∃ stack' : List String, stack'.take above.length = above ∧ ∀ rest, enclosing stack
      (pushRows expanded expandAll above.length node ++ rest) =
        entries expanded expandAll above node ++ enclosing stack' rest)
    (hstack : stack.take above.length = above) :
    ∃ stack' : List String, stack'.take above.length = above ∧ ∀ rest, enclosing stack
      (pushAllRows expanded expandAll above.length nodes ++ rest) =
        allEntries expanded expandAll above nodes ++ enclosing stack' rest := by
  induction nodes generalizing stack with
  | nil => exact ⟨stack, hstack, fun _ => rfl⟩
  | cons node nodes ih =>
    rw [List.forall_mem_cons] at h
    obtain ⟨middle, hmiddle, hnode⟩ := h.1 stack hstack
    obtain ⟨last, hlast, hnodes⟩ := ih h.2 hmiddle
    refine ⟨last, hlast, fun rest => ?_⟩
    rw [pushAllRows, allEntries, List.append_assoc, hnode, hnodes, List.append_assoc]

lemma enclosing_leaves {leaves : List SecretLeaf} (hstack : stack.take above.length = above)
    (rest : List Row) :
    enclosing stack ((leaves.map fun leaf => .leaf above.length (leafName leaf) leaf) ++ rest) =
      (leaves.map fun leaf => (above, .leaf above.length (leafName leaf) leaf)) ++
        enclosing stack rest := by
  induction leaves with
  | nil => rfl
  | cons leaf leaves ih =>
    rw [List.map_cons, List.map_cons, List.cons_append, List.cons_append, enclosing, ih]
    show (stack.take above.length, _) :: _ = _
    rw [hstack]

/-- The depths say which branches are above a row. -/
lemma enclosing_pushRows (hstack : stack.take above.length = above) :
    ∃ stack' : List String, stack'.take above.length = above ∧ ∀ rest, enclosing stack
      (pushRows expanded expandAll above.length node ++ rest) =
        entries expanded expandAll above node ++ enclosing stack' rest := by
  induction node using TreeNode.induct generalizing above stack with
  | h segment path children leaves ih =>
    rcases rows_cases expanded expandAll segment path children leaves with
      ⟨rfl, leaf, rfl⟩ | ⟨hrows, hentries⟩
    · refine ⟨stack, hstack, fun rest => ?_⟩
      show (stack.take above.length, _) :: _ = (above, _) :: _
      rw [hstack]
      rfl
    · have hbelow : (above ++ [segment]).take (above ++ [segment]).length = above ++ [segment] :=
        List.take_length
      have hlength : (above ++ [segment]).length = above.length + 1 := by simp
      obtain ⟨last, hlast, hchildren⟩ := enclosing_pushAllRows expanded expandAll
        (fun child hchild _ => ih child hchild) hbelow
      rw [hrows, hentries]
      by_cases hexpanded : (expandAll || expanded.contains path) = true
      · refine ⟨last, ?_, fun rest => ?_⟩
        · have htake := congrArg (List.take above.length) hlast
          rw [List.take_take, hlength, Nat.min_eq_left (Nat.le_succ _)] at htake
          rw [htake, List.take_left']
          rfl
        · rw [hlength] at hchildren
          rw [if_pos hexpanded, if_pos hexpanded, List.cons_append, List.cons_append, enclosing,
            List.append_assoc]
          show (stack.take above.length, _) :: enclosing (stack.take above.length ++ [segment]) _ = _
          rw [hstack, hchildren, ← hlength, enclosing_leaves hlast, List.append_assoc]
      · refine ⟨above ++ [segment], List.take_left' rfl, fun rest => ?_⟩
        rw [if_neg hexpanded, if_neg hexpanded]
        show (stack.take above.length, _) :: enclosing (stack.take above.length ++ [segment]) _ = _
        rw [hstack]
        rfl

/-- The rows below some branches have them above. -/
lemma above_of_entries {entry : List String × Row}
    (hentry : entry ∈ entries expanded expandAll above node) : above <+: entry.1 := by
  induction node using TreeNode.induct generalizing above with
  | h segment path children leaves ih =>
    rcases rows_cases expanded expandAll segment path children leaves with
      ⟨rfl, leaf, rfl⟩ | ⟨-, hentries⟩
    · obtain rfl := List.mem_singleton.mp hentry
      exact List.prefix_rfl
    · rw [hentries, List.mem_cons] at hentry
      rcases hentry with rfl | hentry
      · exact List.prefix_rfl
      · split_ifs at hentry
        · rw [List.mem_append, allEntries_eq, List.mem_flatMap, List.mem_map] at hentry
          rcases hentry with ⟨child, hchild, hentry⟩ | ⟨leaf, -, rfl⟩
          · exact (List.prefix_append _ _).trans (ih child hchild hentry)
          · exact List.prefix_append _ _
        · cases hentry

lemma above_of_expanded {entry : List String × Row} {leaves : List SecretLeaf} {depth : ℕ}
    (hentry : entry ∈ allEntries expanded expandAll above nodes ++
      leaves.map fun leaf => (above, Row.leaf depth (leafName leaf) leaf)) : above <+: entry.1 := by
  rw [List.mem_append, allEntries_eq, List.mem_flatMap, List.mem_map] at hentry
  rcases hentry with ⟨child, -, hentry⟩ | ⟨leaf, -, rfl⟩
  · exact above_of_entries expanded expandAll hentry
  · exact List.prefix_rfl

/-- A row of a node stands for it, or is below it. -/
lemma entries_below {entry : List String × Row} (h : Placed (above ++ [node.segment]) node)
    (hentry : entry ∈ entries expanded expandAll above node) :
    (entry.1 = above ∧ rowSegment entry = some node.segment) ∨
      above ++ [node.segment] <+: entry.1 := by
  obtain ⟨segment, path, children, leaves⟩ := node
  replace h : Placed (above ++ [segment]) (.node segment path children leaves) := h
  obtain ⟨-, hleaves, -, -⟩ := h.inv
  rcases rows_cases expanded expandAll segment path children leaves with
    ⟨rfl, leaf, rfl⟩ | ⟨-, hentries⟩
  · obtain rfl : entry = (above, .leaf above.length segment leaf) := List.mem_singleton.mp hentry
    have hne : leaf.selector.tuple ≠ above := by
      rw [hleaves leaf List.mem_cons_self]
      simp
    exact Or.inl ⟨rfl, if_neg hne⟩
  · rw [hentries, List.mem_cons] at hentry
    rcases hentry with rfl | hentry
    · exact Or.inl ⟨rfl, rfl⟩
    · split_ifs at hentry
      · exact Or.inr (above_of_expanded expanded expandAll hentry)
      · cases hentry

/-- The branches above a secret, or they with its name, spell its tuple. -/
lemma spelled_entries {entry : List String × Row} (h : Placed (above ++ [node.segment]) node)
    (hentry : entry ∈ entries expanded expandAll above node) : Spelled entry := by
  induction node using TreeNode.induct generalizing above with
  | h segment path children leaves ih =>
    replace h : Placed (above ++ [segment]) (.node segment path children leaves) := h
    obtain ⟨-, hleaves, hnodup, hchildren⟩ := h.inv
    rcases rows_cases expanded expandAll segment path children leaves with
      ⟨rfl, leaf, rfl⟩ | ⟨-, hentries⟩
    · obtain rfl : entry = (above, .leaf above.length segment leaf) := List.mem_singleton.mp hentry
      intro shown hshown
      obtain rfl : leaf = shown := Option.some.inj hshown
      have htuple := hleaves leaf List.mem_cons_self
      have hne : leaf.selector.tuple ≠ above := by
        rw [htuple]
        simp
      exact Or.inr ⟨segment, if_neg hne, htuple⟩
    · rw [hentries, List.mem_cons] at hentry
      rcases hentry with rfl | hentry
      · intro shown hshown
        cases hshown
      · split_ifs at hentry
        · rw [List.mem_append, allEntries_eq, List.mem_flatMap, List.mem_map] at hentry
          rcases hentry with ⟨child, hchild, hentry⟩ | ⟨leaf, hleaf, rfl⟩
          · exact ih child hchild (hchildren child hchild) hentry
          · intro shown hshown
            obtain rfl : leaf = shown := Option.some.inj hshown
            exact Or.inl (hleaves leaf hleaf)
        · cases hentry

/-- Nodes below the same branches in the order of their segments. -/
lemma ascend_allEntries (hplaced : ∀ node ∈ nodes, Placed (above ++ [node.segment]) node)
    (hascending : (nodes.map TreeNode.segment).Pairwise (· < ·))
    (hnodes : ∀ node ∈ nodes, (entries expanded expandAll above node).Pairwise SiblingsAscend) :
    (allEntries expanded expandAll above nodes).Pairwise SiblingsAscend := by
  rw [allEntries_eq, List.pairwise_flatMap]
  refine ⟨hnodes, (List.pairwise_map.mp hascending).imp_of_mem ?_⟩
  intro a b ha hb hlt x hx y hy heq s hs t ht
  rcases entries_below expanded expandAll (hplaced a ha) hx with ⟨hxabove, hxsegment⟩ | hxbelow
  · rcases entries_below expanded expandAll (hplaced b hb) hy with ⟨-, hysegment⟩ | hybelow
    · obtain rfl := Option.some.inj (hxsegment.symm.trans hs)
      obtain rfl := Option.some.inj (hysegment.symm.trans ht)
      exact hlt
    · rw [← heq, hxabove] at hybelow
      have hlength := hybelow.length_le
      simp at hlength
  · rcases entries_below expanded expandAll (hplaced b hb) hy with ⟨hyabove, -⟩ | hybelow
    · rw [heq, hyabove] at hxbelow
      have hlength := hxbelow.length_le
      simp at hlength
    · rw [← heq] at hybelow
      have hsame := List.prefix_of_prefix_length_le hxbelow hybelow (by simp)
      have hsegment := hsame.eq_of_length (by simp)
      rw [List.append_cancel_left_eq, List.singleton_inj] at hsegment
      exact absurd hlt (hsegment ▸ lt_irrefl _)

/-- Siblings are in the order of their segments. -/
lemma ascend_entries (h : Placed (above ++ [node.segment]) node) (hascending : Ascending node) :
    (entries expanded expandAll above node).Pairwise SiblingsAscend := by
  induction node using TreeNode.induct generalizing above with
  | h segment path children leaves ih =>
    replace h : Placed (above ++ [segment]) (.node segment path children leaves) := h
    obtain ⟨-, hleaves, hnodup, hchildren⟩ := h.inv
    cases hascending with
    | node hsegments hbelow =>
      rcases rows_cases expanded expandAll segment path children leaves with
        ⟨rfl, leaf, rfl⟩ | ⟨-, hentries⟩
      · exact List.pairwise_singleton _ _
      · -- what is below a branch has more branches above it
        rw [hentries, List.pairwise_cons]
        have hnone : ∀ leaf ∈ leaves, rowSegment (above ++ [segment],
            Row.leaf (above.length + 1) (leafName leaf) leaf) = none := fun leaf hleaf =>
          if_pos (hleaves leaf hleaf)
        split_ifs
        · constructor
          · intro entry hentry heq
            have hbelow' := above_of_expanded expanded expandAll hentry
            have hlength := (heq ▸ hbelow').length_le
            simp at hlength
          · rw [List.pairwise_append]
            refine ⟨ascend_allEntries expanded expandAll hchildren hsegments fun child hchild =>
              ih child hchild (hchildren child hchild) (hbelow child hchild), ?_, ?_⟩
            · refine List.pairwise_map.mpr (List.pairwise_of_forall_mem_list ?_)
              intro a ha b hb _ s hs
              rw [hnone a ha] at hs
              cases hs
            · intro a _ b hb _ s _ t ht
              obtain ⟨leaf, hleaf, rfl⟩ := List.mem_map.mp hb
              rw [hnone leaf hleaf] at ht
              cases ht
        · simp

/-- Where every branch is expanded, the rows show what is held. -/
lemma rowLeaves_pushRows {depth : ℕ}
    (h : ∀ row ∈ pushRows expanded expandAll depth node, row.isCollapsed = false) :
    rowLeaves (pushRows expanded expandAll depth node) = node.held := by
  induction node using TreeNode.induct generalizing depth with
  | h segment path children leaves ih =>
    rcases rows_cases expanded expandAll segment path children leaves with
      ⟨rfl, leaf, rfl⟩ | ⟨hrows, -⟩
    · rfl
    · rw [hrows, List.forall_mem_cons] at h
      have hexpanded : (expandAll || expanded.contains path) = true := by
        have hbranch : (!(expandAll || expanded.contains path)) = false := h.1
        rwa [Bool.not_eq_false'] at hbranch
      rw [hrows, if_pos hexpanded]
      rw [if_pos hexpanded, pushAllRows_eq] at h
      have hleaves : (leaves.map fun leaf => Row.leaf (depth + 1) (leafName leaf) leaf).filterMap
          Row.leaf? = leaves := by
        rw [List.filterMap_map]
        exact List.filterMap_some
      rw [rowLeaves, List.filterMap_cons_none rfl, List.filterMap_append, hleaves, pushAllRows_eq,
        List.filterMap_flatMap, TreeNode.held, heldBy_eq, List.append_left_inj]
      refine List.flatMap_congr fun child hchild => ih child hchild fun row hrow => ?_
      exact h.2 row (List.mem_append_left _ (List.mem_flatMap.mpr ⟨child, hchild, hrow⟩))

/-- Some branches, once expanded, leave nothing collapsed. -/
lemma exists_expanded (node : TreeNode) : ∃ paths : List (List String),
    ∀ expanded : BTreeSet (List String), (∀ path ∈ paths, path ∈ expanded) →
      ∀ depth, ∀ row ∈ pushRows expanded false depth node, row.isCollapsed = false := by
  induction node using TreeNode.induct with
  | h segment path children leaves ih =>
    choose! paths hpaths using ih
    refine ⟨path :: children.flatMap paths, fun expanded hexpanded depth row hrow => ?_⟩
    obtain ⟨hpath, hbelow⟩ := List.forall_mem_cons.mp hexpanded
    rcases rows_cases expanded false segment path children leaves with
      ⟨rfl, leaf, rfl⟩ | ⟨hrows, -⟩
    · obtain rfl := List.mem_singleton.mp hrow
      rfl
    · have hopen : (false || expanded.contains path) = true := by
        simpa using hpath
      rw [hrows, if_pos hopen, pushAllRows_eq, List.mem_cons, List.mem_append, List.mem_flatMap,
        List.mem_map] at hrow
      rcases hrow with rfl | ⟨child, hchild, hrow⟩ | ⟨leaf, -, rfl⟩
      · exact (congrArg (!·) hopen).trans rfl
      · refine hpaths child hchild expanded (fun path hmem => ?_) _ row hrow
        exact hbelow path (List.mem_flatMap.mpr ⟨child, hchild, hmem⟩)
      · rfl

end Rows

/-! ### The tree that is built -/

section Built

variable {crypto : CryptoProvider} {fuzzy : String → String → Bool} {state : EffectiveState}
variable {viewer : Option UserId} {facets : FacetFilter} {search : String}
variable {expanded : BTreeSet (List String)} {node : TreeNode} {leaves : List SecretLeaf}

lemma placed_foldl_insertLeaf (h : Placed [] node) :
    Placed [] (leaves.foldl (fun root leaf => insertLeaf leaf leaf.selector.tuple root) node) := by
  induction leaves generalizing node with
  | nil => exact h
  | cons leaf leaves ih => exact ih (placed_insertLeaf h rfl)

lemma held_foldl_insertLeaf :
    (leaves.foldl (fun root leaf => insertLeaf leaf leaf.selector.tuple root) node).held.Perm
      (leaves ++ node.held) := by
  induction leaves generalizing node with
  | nil => exact List.Perm.refl _
  | cons leaf leaves ih =>
    exact ih.trans ((held_insertLeaf.append_left leaves).trans List.perm_middle)

/-- What is held below the root has a tuple. -/
lemma held_children (h : Placed [] node) : node.children.flatMap TreeNode.held =
    node.held.filter fun leaf => leaf.selector.tuple ≠ [] := by
  obtain ⟨segment, path, children, leaves⟩ := node
  obtain ⟨-, hleaves, -, hchildren⟩ := h.inv
  have hbelow : (children.flatMap TreeNode.held).filter (fun leaf => leaf.selector.tuple ≠ []) =
      children.flatMap TreeNode.held := by
    refine List.filter_eq_self.mpr fun leaf hleaf => ?_
    obtain ⟨child, hchild, hheld⟩ := List.mem_flatMap.mp hleaf
    have hlength := ((hchildren child hchild).prefix_of_held hheld).length_le
    simp only [List.nil_append, List.length_singleton] at hlength
    simpa using List.ne_nil_of_length_pos hlength
  have hat : leaves.filter (fun leaf => leaf.selector.tuple ≠ []) = [] :=
    List.filter_eq_nil_iff.mpr fun leaf hleaf => by simp [hleaves leaf hleaf]
  rw [TreeNode.held, heldBy_eq, List.filter_append, hbelow, hat, List.append_nil]
  rfl

section Roots

variable (crypto fuzzy state viewer facets search)

/-- The roots of the tree are below a node that holds what is shown. -/
lemma exists_root : ∃ root, Placed [] root ∧ Ascending root ∧
    root.held.Perm ((browsedLeaves crypto state viewer).filter (isShown fuzzy facets search)) ∧
      (buildTree crypto fuzzy state viewer facets search).roots = root.children := by
  have hplaced := @placed_foldl_insertLeaf _
    ((browsedLeaves crypto state viewer).filter (isShown fuzzy facets search))
    (placed_empty "" [])
  refine ⟨_, placed_sortNode hplaced, ascending_sortNode hplaced, ?_, rfl⟩
  refine held_sortNode.trans (held_foldl_insertLeaf.trans ?_)
  rw [held_empty, List.append_nil]

variable (expanded)

/-- Read by their depths, the rows are the entries of the roots. -/
lemma enclosing_treeRows : enclosing [] (treeRows crypto fuzzy state viewer facets search expanded) =
    allEntries expanded (search != "") []
      (buildTree crypto fuzzy state viewer facets search).roots := by
  obtain ⟨last, -, hrows⟩ := enclosing_pushAllRows expanded (search != "")
    (fun node _ _ => @enclosing_pushRows expanded (search != "") node _ _)
    (rfl : ([] : List String).take ([] : List String).length = [])
  have hread := hrows []
  rw [List.append_nil, enclosing, List.append_nil] at hread
  exact hread

end Roots

/-- The secrets in the rows are those that are shown and have a tuple. -/
lemma rowLeaves_treeRows (h : ∀ row ∈ treeRows crypto fuzzy state viewer facets search expanded,
    row.isCollapsed = false) :
    (rowLeaves (treeRows crypto fuzzy state viewer facets search expanded)).Perm
      (((browsedLeaves crypto state viewer).filter (isShown fuzzy facets search)).filter
        fun leaf => leaf.selector.tuple ≠ []) := by
  obtain ⟨root, hplaced, -, hheld, hroots⟩ := exists_root crypto fuzzy state viewer facets search
  rw [treeRows, visibleRows, hroots, pushAllRows_eq] at h ⊢
  have hrows : rowLeaves (root.children.flatMap (pushRows expanded (search != "") 0)) =
      root.children.flatMap TreeNode.held := by
    rw [rowLeaves, List.filterMap_flatMap]
    refine List.flatMap_congr fun child hchild => rowLeaves_pushRows _ _ fun row hrow => ?_
    exact h row (List.mem_flatMap.mpr ⟨child, hchild, hrow⟩)
  rw [hrows, held_children hplaced]
  exact hheld.filter _

/-- Without filters every secret is shown. -/
lemma filter_isShown_none : (browsedLeaves crypto state viewer).filter (isShown fuzzy .none "") =
    browsedLeaves crypto state viewer :=
  List.filter_eq_self.mpr fun leaf _ => by
    have hmatches : FacetFilter.none.matches leaf.selector = true := by
      simp [FacetFilter.none, FacetFilter.matches]
    rw [isShown, hmatches]
    rfl

lemma exists_expanded_treeRows : ∃ expanded, ∀ row ∈ treeRows crypto fuzzy state viewer .none ""
    expanded, row.isCollapsed = false := by
  choose paths hpaths using exists_expanded
  refine ⟨ExtTreeSet.ofList ((buildTree crypto fuzzy state viewer .none "").roots.flatMap paths)
    compare, fun row hrow => ?_⟩
  rw [treeRows, visibleRows, pushAllRows_eq, List.mem_flatMap] at hrow
  obtain ⟨node, hnode, hrow⟩ := hrow
  refine hpaths node _ (fun path hmem => ?_) 0 row hrow
  rw [ExtTreeSet.mem_ofList, List.contains_iff_mem]
  exact List.mem_flatMap.mpr ⟨node, hnode, hmem⟩

/-- Secrets that can be browsed have the keys that their selectors give. -/
structure Keyed (crypto : CryptoProvider) (state : EffectiveState) : Prop where
  live : ∀ active ∈ state.secretRecords,
    deriveSecretId crypto active.value.selector = active.value.id
  conflicted : ∀ conflict ∈ state.secretConflicts, conflict.candidates ≠ [] →
    ∃ selector, conflictSelector conflict = some selector ∧
      conflict.key = .secret (deriveSecretId crypto selector)
  distinct : (browsedKeys state).Nodup

/-- The keys of what can be browsed. -/
lemma Keyed.leafKeys (h : Keyed crypto state) :
    (browsedLeaves crypto state viewer).map (leafKey crypto) = browsedKeys state := by
  rw [browsedLeaves, browsedKeys, List.map_append, List.map_map]
  congr 1
  · exact List.map_congr_left fun active hactive => congrArg RecordKey.secret (h.live active hactive)
  · have hconflicted := h.conflicted
    generalize state.secretConflicts = conflicts at hconflicted ⊢
    induction conflicts with
    | nil => rfl
    | cons conflict conflicts ih =>
      rw [List.forall_mem_cons] at hconflicted
      by_cases hleft : conflict.candidates = []
      · have hnone : conflictLeaf conflict = none := by
          simp [conflictLeaf, conflictSelector, hleft]
        rw [List.filterMap_cons_none hnone, List.filter_cons_of_neg (by simpa using hleft)]
        exact ih hconflicted.2
      · obtain ⟨selector, hselector, hkey⟩ := hconflicted.1 hleft
        have hsome : conflictLeaf conflict = some ⟨selector, .conflicted⟩ := by
          rw [conflictLeaf, hselector]
          rfl
        rw [List.filterMap_cons_some hsome, List.filter_cons_of_pos (by simpa using hleft),
          List.map_cons, List.map_cons, hkey, ih hconflicted.2]
        rfl

/-- Nothing that can be browsed is at the root. -/
lemma branched_iff : Branched state ↔
    ∀ leaf ∈ browsedLeaves crypto state viewer, leaf.selector.tuple ≠ [] := by
  constructor
  · intro h leaf hleaf
    rcases List.mem_append.mp hleaf with hleaf | hleaf
    · obtain ⟨active, hactive, rfl⟩ := List.mem_map.mp hleaf
      exact h.live active hactive
    · obtain ⟨conflict, hconflict, hsome⟩ := List.mem_filterMap.mp hleaf
      obtain ⟨selector, hselector, rfl⟩ := Option.map_eq_some_iff.mp hsome
      exact h.conflicted conflict hconflict selector hselector
  · intro h
    refine ⟨fun active hactive => ?_, fun conflict hconflict selector hselector => ?_⟩
    · exact h _ (List.mem_append_left _ (List.mem_map_of_mem hactive))
    · refine h ⟨selector, .conflicted⟩ (List.mem_append_right _ ?_)
      refine List.mem_filterMap.mpr ⟨conflict, hconflict, ?_⟩
      rw [conflictLeaf, hselector]
      rfl

/-- The rows of a state whose secrets have the keys of their selectors. -/
lemma Keyed.faithful_iff (h : Keyed crypto state) :
    TreeFaithful crypto fuzzy state viewer ↔ Branched state := by
  rw [@branched_iff crypto state viewer]
  constructor
  · intro hfaithful
    obtain ⟨expanded, hexpanded⟩ := @exists_expanded_treeRows crypto fuzzy state viewer
    have hkeys := (hfaithful.once expanded hexpanded).length_eq
    have hrows := (rowLeaves_treeRows hexpanded).length_eq
    rw [filter_isShown_none] at hrows
    rw [← h.leafKeys, List.length_map, List.length_map, hrows] at hkeys
    simpa using List.length_filter_eq_length_iff.mp hkeys
  · intro hbranched
    have hall : (browsedLeaves crypto state viewer).filter (fun leaf => leaf.selector.tuple ≠ []) =
        browsedLeaves crypto state viewer :=
      List.filter_eq_self.mpr fun leaf hleaf => by simpa using hbranched leaf hleaf
    refine ⟨fun expanded hexpanded => ?_, h.distinct, ?_, ?_, ?_⟩
    · have hrows := rowLeaves_treeRows hexpanded
      rw [filter_isShown_none, hall] at hrows
      rw [← @Keyed.leafKeys _ _ viewer h]
      exact hrows.map _
    · intro facets search expanded entry hentry
      obtain ⟨root, hplaced, -, -, hroots⟩ := exists_root crypto fuzzy state viewer facets search
      rw [enclosing_treeRows, hroots, allEntries_eq, List.mem_flatMap] at hentry
      obtain ⟨child, hchild, hentry⟩ := hentry
      obtain ⟨segment, path, children, leaves⟩ := root
      exact spelled_entries _ _ (hplaced.inv.2.2.2 child hchild) hentry
    · intro facets search expanded
      obtain ⟨root, hplaced, hascending, -, hroots⟩ :=
        exists_root crypto fuzzy state viewer facets search
      rw [enclosing_treeRows, hroots]
      obtain ⟨segment, path, children, leaves⟩ := root
      obtain ⟨-, -, -, hchildren⟩ := hplaced.inv
      cases hascending with
      | node hsegments hbelow =>
        exact ascend_allEntries _ _ hchildren hsegments fun child hchild =>
          ascend_entries _ _ (hchildren child hchild) (hbelow child hchild)
    · intro facets search expanded expanded' hexpanded hexpanded'
      have hrows := (rowLeaves_treeRows hexpanded').filter (isShown fuzzy facets search)
      rw [filter_isShown_none, List.filter_filter] at hrows
      refine (rowLeaves_treeRows hexpanded).trans (List.Perm.trans ?_ hrows.symm)
      rw [List.filter_filter]
      refine List.Perm.of_eq (List.filter_congr fun leaf _ => ?_)
      exact Bool.and_comm _ _

end Built

/-! ### Validated states -/

section Validated

variable {crypto : CryptoProvider} {vault : VaultStore} {ratchet : Ratchet} {root : SelectedRoot}
variable {records : List VerifiedRecord} {key : RecordKey} {report : ConflictReport}

lemma key_materializeConflicts {slots : BTreeMap RecordKey ConflictSlot}
    (h : (materializeConflicts crypto records slots)[key]? = some report) : report.key = key := by
  simp only [materializeConflicts, ExtTreeMap.getElem?_map, Option.map_eq_some_iff] at h
  obtain ⟨slot, -, rfl⟩ := h
  rfl

/-- A conflict is reported at its own key. -/
lemma key_of_conflicted
    (h : (resolveRecords crypto ratchet root records).conflicted[key]? = some report) :
    report.key = key := by
  rw [conflicted_resolveRecords] at h
  rcases getElem?_union_cases h with hrollback | hties
  · rw [ExtTreeMap.getElem?_map, Option.map_eq_some_iff] at hrollback
    obtain ⟨remembered, -, rfl⟩ := hrollback
    rfl
  · rcases getElem?_union_cases hties with hsecret | hprincipal
    · exact key_materializeConflicts hsecret
    · rw [finalState, resolveEffectiveWithDeletions,
        (effectiveUnder_last crypto root records _ _).2.2.2] at hprincipal
      exact key_materializeConflicts hprincipal

/-- A record at the key of a secret carries the selector the key is derived from. -/
lemma selector_of_secret_key {record : VerifiedRecord} {secret : SecretId}
    (hstructure : structurallyValidateRecord crypto record.signed record.body root.root = .ok ())
    (hkey : record.key = .secret secret) :
    ∃ selector, secret = deriveSecretId crypto selector ∧
      ((∃ value, record.body = .secret value ∧ value.selector = selector) ∨
        ∃ deletion, record.body = .secretDeleted deletion ∧ deletion.selector = selector) := by
  rw [VerifiedRecord.key] at hkey
  cases hbody : record.body with
  | secret value =>
    rw [hbody] at hkey hstructure
    obtain rfl := RecordKey.secret.inj hkey
    exact ⟨_, secret_of_structure hstructure, Or.inl ⟨value, rfl, rfl⟩⟩
  | secretDeleted deletion =>
    rw [hbody] at hkey hstructure
    obtain rfl := RecordKey.secret.inj hkey
    exact ⟨_, secretDeleted_of_structure hstructure, Or.inr ⟨deletion, rfl, rfl⟩⟩
  | _ => rw [hbody] at hkey; cases hkey

/-- The candidates of a conflict at a secret have its selector. -/
lemma conflictSelector_of_resolved (hresolved : resolvedRecords crypto vault ratchet =
      some (root, records))
    (hreport : (resolveRecords crypto ratchet root records).conflicted[key]? = some report)
    {secret : SecretId} (hkey : key = .secret secret) (hleft : report.candidates ≠ []) :
    ∃ selector, conflictSelector report = some selector ∧
      report.key = .secret (deriveSecretId crypto selector) := by
  obtain ⟨-, -, rfl⟩ := resolvedRecords_eq_some.mp hresolved
  obtain ⟨candidate, rest, hcandidates⟩ := List.exists_cons_of_ne_nil hleft
  obtain ⟨record, hin, hsigned, hoffered⟩ := offeredAt_of_candidate
    (hashesSeparate_of_pairwise distinctHashes_verified) hreport
    (hcandidates ▸ List.mem_cons_self : candidate ∈ report.candidates)
  obtain ⟨selector, hid, hbody⟩ := selector_of_secret_key (structure_of_verified hin)
    (hoffered.key_eq.trans hkey)
  refine ⟨selector, ?_, by rw [key_of_conflicted hreport, hkey, hid]⟩
  have hknown := body_of_verified hin
  rw [hsigned] at hknown
  rw [conflictSelector, hcandidates, List.head?_cons, Option.bind_some, hknown]
  rcases hbody with ⟨value, hvalue, hselector⟩ | ⟨deletion, hdeletion, hselector⟩
  · rw [hvalue, ← hselector]
  · rw [hdeletion, ← hselector]

/-- The conflicts of a state stand at their own keys. -/
lemma keys_of_conflicts {state : EffectiveState}
    (hkeys : ∀ (key : RecordKey) report, state.conflicted[key]? = some report → report.key = key) :
    (values state.conflicted).map (·.key) = state.conflicted.keys := by
  rw [values, List.map_map, ← ExtTreeMap.map_fst_toList_eq_keys]
  refine List.map_congr_left fun entry hentry => hkeys entry.1 entry.2 ?_
  exact ExtTreeMap.mem_toList_iff_getElem?_eq_some.mp hentry

lemma keyed_of_settled {state : EffectiveState} (hsettled : SecretsSettled crypto state)
    (hkeys : ∀ (key : RecordKey) report, state.conflicted[key]? = some report → report.key = key)
    (hselectors : ∀ (key : RecordKey) report, state.conflicted[key]? = some report → ∀ secret,
      key = .secret secret → report.candidates ≠ [] → ∃ selector,
        conflictSelector report = some selector ∧
          report.key = .secret (deriveSecretId crypto selector)) :
    Keyed crypto state where
  live active hactive := by
    obtain ⟨-, latest, hlatest, hlive⟩ := (mem_secretRecords_iff hsettled.indexed).mp hactive
    obtain ⟨hmem, -⟩ := EffectiveState.latestAuthorizedSecretRecord_eq_some hsettled.indexed hlatest
    exact (hsettled.addressed latest hmem _ (activeSecret_eq_some.mp hlive).1).symm
  conflicted conflict hconflict hleft := by
    obtain ⟨hmem, hsecret⟩ := List.mem_filter.mp hconflict
    obtain ⟨key, hat⟩ := mem_values.mp hmem
    obtain ⟨secret, hkey⟩ : ∃ secret, conflict.key = .secret secret := by
      split at hsecret
      next secret hkey => exact ⟨secret, hkey⟩
      next => cases hsecret
    exact hselectors key conflict hat secret (hkeys key conflict hat ▸ hkey) hleft
  distinct := by
    rw [browsedKeys, List.nodup_append]
    refine ⟨?_, ?_, ?_⟩
    · have hlive := (nodup_secretRecords hsettled.indexed).map
        fun a b heq => RecordKey.secret.inj heq
      rwa [List.map_map] at hlive
    · have hnodup : ((values state.conflicted).map (·.key)).Nodup := by
        rw [keys_of_conflicts hkeys]
        exact ExtTreeMap.nodup_keys
      exact hnodup.sublist ((List.filter_sublist.trans List.filter_sublist).map _)
    · -- what is live is not in conflict
      intro a ha b hb heq
      obtain ⟨active, hactive, rfl⟩ := List.mem_map.mp ha
      obtain ⟨conflict, hconflict, rfl⟩ := List.mem_map.mp hb
      obtain ⟨key, hat⟩ := mem_values.mp
        (List.mem_filter.mp (List.mem_filter.mp hconflict).1).1
      refine ((mem_secretRecords_iff hsettled.indexed).mp hactive).1 ?_
      rw [heq, hkeys key conflict hat]
      exact ExtTreeMap.mem_iff_isSome_getElem?.mpr (by rw [hat]; rfl)

lemma keyed_validate : Keyed crypto (validateVault crypto vault ratchet).effective := by
  refine keyed_of_settled secretsSettled_validate ?_ ?_
  all_goals
    intro key report hreport
    cases hresolved : resolvedRecords crypto vault ratchet with
    | none =>
      rw [(validateVault_of_unresolved hresolved).1] at hreport
      simp [EffectiveState.unresolved] at hreport
    | some resolved =>
      rw [(validateVault_of_resolved hresolved).1] at hreport
      first
        | exact key_of_conflicted hreport
        | exact fun secret hkey hleft => conflictSelector_of_resolved hresolved hreport hkey hleft

end Validated

/-- The rows of a validated vault show every secret that can be browsed once, at its place, and a
filter picks from them, exactly if no such secret has an empty tuple. -/
theorem treeFaithful_iff (crypto : CryptoProvider) (fuzzy : String → String → Bool)
    (vault : VaultStore) (ratchet : Ratchet) (viewer : Option UserId) :
    TreeFaithful crypto fuzzy (validateVault crypto vault ratchet).effective viewer ↔
      Branched (validateVault crypto vault ratchet).effective :=
  keyed_validate.faithful_iff

open TestSupport

/-- The secret with the empty tuple is live and in no row. -/
theorem not_treeFaithful_empty : ¬ TreeFaithful transparentCrypto (fun _ _ => true)
    (validateVault transparentCrypto (signedSecret ⟨[], []⟩) freshRatchet).effective none := by
  intro h
  obtain ⟨active, hactive, hselector⟩ := @exists_signedSecret ⟨[], []⟩ (by decide +kernel)
  have hbranched := keyed_validate.faithful_iff.mp h
  exact hbranched.live active hactive (by rw [hselector])

end Thorax.Tui
