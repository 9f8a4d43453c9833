import Lash.CacheCoherence
import Lash.RuntimeCommits

/-!
# The graph that a sequence of writes describes

Commits add nodes or replace them all and name a leaf, tombstones hide nodes,
a vacuum removes what is hidden. The ledger of a sequence of writes says which
nodes have accumulated, which of them are hidden and which leaf was named last;
what a reader is to see follows from it, whatever a store keeps.
-/

namespace GraphLedgers

open ParentWalks SessionGraphs RuntimeCommits ActivePaths CacheCoherence List Option

variable {Json : Type} {nodes : List (SessionNodeRecord Json)} {id : String}
  {leaf : Option String}

section Paths

/-- The latest node of this id. -/
def latestNode (nodes : List (SessionNodeRecord Json)) (id : String) :
    Option (SessionNodeRecord Json) :=
  nodes.reverse.find? fun node => node.nodeId == id

def parentNode (nodes : List (SessionNodeRecord Json)) (node : SessionNodeRecord Json) :
    Option (SessionNodeRecord Json) :=
  node.parentNodeId.bind (latestNode nodes)

def leafNode (nodes : List (SessionNodeRecord Json)) (leaf : Option String) :
    Option (SessionNodeRecord Json) :=
  leaf.bind (latestNode nodes)

/-- The path from the root to the leaf: backwards it follows the parents. -/
def RootToLeaf (nodes : List (SessionNodeRecord Json)) (leaf : Option String)
    (path : List (SessionNodeRecord Json)) : Prop :=
  Walk (parentNode nodes) (leafNode nodes leaf) path.reverse

variable {path : List (SessionNodeRecord Json)}

theorem rootToLeaf_none : RootToLeaf nodes none path ↔ path = [] := by
  constructor
  · intro w
    have hnil : path.reverse = [] := w.unique .stop
    exact reverse_eq_nil_iff.mp hnil
  · rintro rfl
    exact .stop

variable {node : SessionNodeRecord Json}

theorem latestNode_id (h : latestNode nodes id = some node) : node.nodeId = id := by
  simpa using find?_some h

theorem latestNode_mem (h : latestNode nodes id = some node) : node ∈ nodes :=
  List.mem_reverse.mp (List.mem_of_find?_eq_some h)

theorem indexNodes_bind (nodes : List (SessionNodeRecord Json)) (id : String) :
    (indexNodes nodes id).bind (nodes[·]?) = latestNode nodes id := by
  induction nodes using reverseRecOn with
  | nil => rfl
  | append_singleton nodes last ih =>
    rw [indexNodes_append, latestNode, reverse_concat, find?_cons]
    by_cases hlast : id = last.nodeId
    · subst hlast
      simp
    · rw [Function.update_of_ne hlast, beq_false_of_ne (Ne.symm hlast)]
      refine Eq.trans ?_ ih
      cases hindex : indexNodes nodes id with
      | none => rfl
      | some i => exact getElem?_append_left (lt_of_indexNodes hindex)

/-- The walk over indices that a cache is built from is the walk over nodes. -/
theorem rootToLeaf_iff {data : SessionGraphData Json} : RootToLeaf data.nodes data.leafNodeId path ↔
      ∃ indices, LeafWalk data indices ∧ path = indices.reverse.filterMap (data.nodes[·]?) := by
  have hcommutes : ∀ v, (parentIndex (indexNodes data.nodes) data.nodes v).bind
      (data.nodes[·]?) = (data.nodes[v]?).bind (parentNode data.nodes) := by
    intro v
    rw [parentIndex, bind_assoc]
    refine bind_congr fun node _ => ?_
    rw [bind_assoc]
    exact bind_congr fun parent _ => indexNodes_bind data.nodes parent
  have hleaf : leafNode data.nodes data.leafNodeId =
      (data.leafNodeId.bind (indexNodes data.nodes)).bind (data.nodes[·]?) := by
    rw [leafNode, bind_assoc]
    exact bind_congr fun id _ => (indexNodes_bind data.nodes id).symm
  have hends : ∀ v, data.nodes[v]? = none →
      parentIndex (indexNodes data.nodes) data.nodes v = none :=
    fun v hv => by rw [parentIndex, hv, bind_none]
  rw [RootToLeaf, hleaf, walk_image_iff hcommutes hends]
  refine exists_congr fun indices => and_congr_right fun _ => ?_
  rw [reverse_eq_iff, filterMap_reverse]

/-- What is made of the nodes that the index walks from the leaf is made of the path to it. -/
theorem build_path_iff {B : Type} {graph : SessionGraph Json}
    (f : List (SessionNodeRecord Json) → B) {b : B} :
    ((SessionGraphCache.build graph.inner).map fun cache =>
        f (cache.activePathIndices.filterMap (graph.nodes[·]?))) = some b ↔
      ∃ path, RootToLeaf graph.nodes graph.leafNodeId path ∧ b = f path := by
  rw [map_eq_some_iff]
  simp only [build_eq_some_iff]
  constructor
  · rintro ⟨_, ⟨indices, hwalk, rfl⟩, rfl⟩
    rw [cacheOf_activePathIndices]
    exact ⟨_, rootToLeaf_iff.mpr ⟨indices, hwalk, rfl⟩, rfl⟩
  · rintro ⟨path, hpath, rfl⟩
    obtain ⟨indices, hwalk, rfl⟩ := rootToLeaf_iff.mp hpath
    refine ⟨_, ⟨indices, hwalk, rfl⟩, ?_⟩
    rw [cacheOf_activePathIndices]
    rfl

/-- A fork of the current path holds the nodes from the root to the leaf. -/
theorem forkCurrentPath_iff {graph fork : SessionGraph Json} (coherent : Coherent graph) :
    graph.forkCurrentPath.map Prod.fst = some fork ↔
      ∃ path, RootToLeaf graph.nodes graph.leafNodeId path ∧
        fork = .fromNodes path graph.leafNodeId := by
  have hfork : graph.forkCurrentPath.map Prod.fst =
      (SessionGraphCache.build graph.inner).map fun cache =>
        SessionGraph.fromNodes (cache.activePathIndices.filterMap (graph.nodes[·]?))
          graph.leafNodeId := by
    rw [SessionGraph.forkCurrentPath, SessionGraph.activePathNodes, initCache_eq coherent]
    cases SessionGraphCache.build graph.inner <;> rfl
  rw [hfork]
  exact build_path_iff (SessionGraph.fromNodes · graph.leafNodeId)

end Paths

section Hidden

variable {hidden : Finset String}

def isVisible (hidden : Finset String) (node : SessionNodeRecord Json) : Bool :=
  decide (node.nodeId ∉ hidden)

theorem latestNode_filter (nodes : List (SessionNodeRecord Json)) (hidden : Finset String)
    (id : String) :
    latestNode (nodes.filter (isVisible hidden)) id =
      (latestNode nodes id).filter (isVisible hidden) := by
  by_cases hid : id ∈ hidden
  · have hnone : latestNode (nodes.filter (isVisible hidden)) id = none := by
      refine eq_none_iff_forall_ne_some.mpr fun node hnode => ?_
      have hvisible := (mem_filter.mp (latestNode_mem hnode)).2
      simp [isVisible, latestNode_id hnode, hid] at hvisible
    rw [hnone]
    refine (filter_eq_none_iff.mpr fun node hnode => ?_).symm
    simp [isVisible, latestNode_id hnode, hid]
  · have hsame : ∀ node ∈ latestNode nodes id, isVisible hidden node := fun node hnode => by
      simp [isVisible, latestNode_id hnode, hid]
    have hself : (latestNode nodes id).filter (isVisible hidden) = latestNode nodes id := by
      cases hnode : latestNode nodes id with
      | none => rfl
      | some node => exact filter_some_pos (hsame node hnode)
    rw [hself, latestNode, latestNode, ← filter_reverse, find?_filter]
    congr 1
    funext node
    by_cases hnode : node.nodeId = id
    · simp [isVisible, hnode, hid]
    · simp [hnode]

theorem bind_latestNode_filter (nodes : List (SessionNodeRecord Json)) (hidden : Finset String)
    (id : Option String) :
    id.bind (latestNode (nodes.filter (isVisible hidden))) =
      (id.bind (latestNode nodes)).filter (isVisible hidden) := by
  cases id with
  | none => rfl
  | some id => exact latestNode_filter nodes hidden id

theorem parentNode_filter (nodes : List (SessionNodeRecord Json)) (hidden : Finset String) :
    parentNode (nodes.filter (isVisible hidden)) = cut (parentNode nodes) (isVisible hidden) := by
  funext node
  exact bind_latestNode_filter nodes hidden node.parentNodeId

/-- Taking hidden nodes out of the path to the leaf gives the path among the visible
nodes exactly if above a hidden node of the path everything is hidden. -/
theorem dropsTop_iff_rootToLeaf :
    DropsTop (parentNode nodes) (isVisible hidden) (leafNode nodes leaf) ↔
      ∀ path, RootToLeaf (nodes.filter (isVisible hidden)) leaf path ↔
        ∃ whole, RootToLeaf nodes leaf whole ∧ path = whole.filter (isVisible hidden) := by
  rw [dropsTop_iff]
  simp only [RootToLeaf, parentNode_filter, leafNode, bind_latestNode_filter]
  constructor
  · intro same path
    rw [same path.reverse]
    constructor
    · rintro ⟨whole, hwhole, hpath⟩
      refine ⟨whole.reverse, by rwa [reverse_reverse], ?_⟩
      rw [filter_reverse, ← hpath, reverse_reverse]
    · rintro ⟨whole, hwhole, rfl⟩
      exact ⟨whole.reverse, hwhole, by rw [filter_reverse]⟩
  · intro same path
    have hpath := same path.reverse
    rw [reverse_reverse] at hpath
    rw [hpath]
    constructor
    · rintro ⟨whole, hwhole, heq⟩
      refine ⟨whole.reverse, hwhole, ?_⟩
      rw [filter_reverse, ← heq, reverse_reverse]
    · rintro ⟨whole, hwhole, rfl⟩
      exact ⟨whole.reverse, by rwa [reverse_reverse], by rw [filter_reverse]⟩

end Hidden

section Writes

/-- What a store is told about the graph. -/
inductive GraphWrite (Json : Type) where
  | commit (delta : GraphCommitDelta Json)
  | tombstone (ids : List String)
  | vacuum

/-- The nodes that have accumulated, the ids that are hidden, and the leaf that the
last commit named; `none` before the first commit. -/
structure GraphLedger (Json : Type) where
  nodes : List (SessionNodeRecord Json)
  hidden : Finset String
  leaf : Option (Option String)

def GraphLedger.empty : GraphLedger Json where
  nodes := []
  hidden := ∅
  leaf := none

def writtenNodes : GraphCommitDelta Json → List (SessionNodeRecord Json)
  | .unchanged _ => []
  | .append nodes _ => nodes
  | .replaceFull graph => graph.nodes

def accumulate (nodes : List (SessionNodeRecord Json)) :
    GraphCommitDelta Json → List (SessionNodeRecord Json)
  | .unchanged _ => nodes
  | .append added _ => nodes ++ added
  | .replaceFull graph => graph.nodes

def GraphWrite.apply (write : GraphWrite Json) (ledger : GraphLedger Json) :
    GraphLedger Json :=
  match write with
  | .commit delta =>
    { nodes := accumulate ledger.nodes delta
      hidden := ledger.hidden \ ((writtenNodes delta).map (·.nodeId)).toFinset
      leaf := some delta.leafNodeId }
  | .tombstone ids => { ledger with hidden := ledger.hidden ∪ ids.toFinset }
  | .vacuum =>
    { ledger with nodes := ledger.nodes.filter (isVisible ledger.hidden), hidden := ∅ }

/-- The ledger of a sequence of writes, the newest first. -/
def ledgerOf (writes : List (GraphWrite Json)) : GraphLedger Json :=
  writes.foldr GraphWrite.apply .empty

variable (ledger : GraphLedger Json)

def GraphLedger.visibleNodes : List (SessionNodeRecord Json) :=
  ledger.nodes.filter (isVisible ledger.hidden)

/-- The leaf is not hidden, and on the way from it to the root nothing is visible
above a hidden node. -/
def GraphLedger.Undisturbed (leaf : Option String) : Prop :=
  (∀ id ∈ leaf, id ∉ ledger.hidden) ∧
    DropsTop (parentNode ledger.nodes) (isVisible ledger.hidden) (leafNode ledger.nodes leaf)

theorem undisturbed_of_empty {ledger : GraphLedger Json} (h : ledger.hidden = ∅)
    (leaf : Option String) : ledger.Undisturbed leaf := by
  refine ⟨by simp [h], fun node _ hnode => ?_⟩
  simp [isVisible, h] at hnode

end Writes

end GraphLedgers
