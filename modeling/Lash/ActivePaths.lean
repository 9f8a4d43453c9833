import Lash.SessionGraphs

/-!
# Indices and active paths of a node list

What the index of a node list finds, and the walk that a cache is built from.
-/

namespace ActivePaths

open ParentWalks SessionGraphs List Option Function

variable {Json : Type} {nodes : List (SessionNodeRecord Json)} {node : SessionNodeRecord Json}
  {id : String} {i : Nat}

section Indices

/-- The index after one more node: the node is found under its id. -/
theorem indexNodes_append (nodes : List (SessionNodeRecord Json)) (node : SessionNodeRecord Json) :
    indexNodes (nodes ++ [node]) =
      Function.update (indexNodes nodes) node.nodeId (some nodes.length) := by
  simp [indexNodes, zipIdx_append]

theorem indexNodes_some (h : indexNodes nodes id = some i) :
    ∃ node, nodes[i]? = some node ∧ node.nodeId = id := by
  induction nodes using reverseRecOn with
  | nil => simp [indexNodes] at h
  | append_singleton nodes last ih =>
    rw [indexNodes_append] at h
    by_cases hlast : id = last.nodeId
    · rw [hlast, update_self, some.injEq] at h
      rw [← h]
      exact ⟨last, by simp, hlast.symm⟩
    · rw [update_of_ne hlast] at h
      obtain ⟨node, hnode, hid⟩ := ih h
      refine ⟨node, ?_, hid⟩
      rw [List.getElem?_append_left (List.getElem?_eq_some_iff.mp hnode).1]
      exact hnode

theorem lt_of_indexNodes (h : indexNodes nodes id = some i) : i < nodes.length := by
  obtain ⟨node, hnode, _⟩ := indexNodes_some h
  exact (List.getElem?_eq_some_iff.mp hnode).1

theorem indexNodes_eq_none_iff : indexNodes nodes id = none ↔ id ∉ nodes.map (·.nodeId) := by
  induction nodes using reverseRecOn with
  | nil => simp [indexNodes]
  | append_singleton nodes last ih =>
    rw [indexNodes_append, map_append, mem_append]
    by_cases hlast : id = last.nodeId
    · rw [hlast, update_self]
      simp
    · rw [update_of_ne hlast, ih]
      simp [hlast]

end Indices

section Parents

theorem parentIndex_lt {v u : Nat} (h : parentIndex (indexNodes nodes) nodes v = some u) :
    u < nodes.length := by
  obtain ⟨node, _, h⟩ := bind_eq_some_iff.mp h
  obtain ⟨parent, _, h⟩ := bind_eq_some_iff.mp h
  exact lt_of_indexNodes h

theorem leafIndex_lt {leaf : Option String} {v : Nat} (h : leaf.bind (indexNodes nodes) = some v) :
    v < nodes.length := by
  obtain ⟨id, _, h⟩ := bind_eq_some_iff.mp h
  exact lt_of_indexNodes h

/-- The walk from the leaf to the root, as indices. -/
abbrev LeafWalk (graph : SessionGraphData Json) (path : List Nat) : Prop :=
  Walk (parentIndex (indexNodes graph.nodes) graph.nodes)
    (graph.leafNodeId.bind (indexNodes graph.nodes)) path

theorem LeafWalk.lt {graph : SessionGraphData Json} {path : List Nat}
    (w : LeafWalk graph path) {v : Nat} (hv : v ∈ path) : v < graph.nodes.length := by
  have hsub : path ⊆ range graph.nodes.length :=
    w.subset (fun _ h => mem_range.mpr (leafIndex_lt h))
      fun _ _ _ h => mem_range.mpr (parentIndex_lt h)
  exact mem_range.mp (hsub hv)

theorem leafWalk_iff {graph : SessionGraphData Json} {path : List Nat} :
    walk (parentIndex (indexNodes graph.nodes) graph.nodes) graph.nodes.length
        (graph.leafNodeId.bind (indexNodes graph.nodes)) = some path ↔ LeafWalk graph path :=
  walk_eq_some_iff (fun _ h => leafIndex_lt h) fun _ _ _ h => parentIndex_lt h

end Parents

section Building

variable (byId : String → Option Nat)

variable (activePath : List Nat)

/-- The cache that holds this index and this path, and what reading the path gives. -/
def cacheOf (path : List (SessionNodeRecord Json)) : SessionGraphCache Json :=
  path.foldl SessionGraphCache.readNode
    { byId := byId
      activePathIndices := activePath
      activeEvents := []
      activeMessages := []
      activeMessageIds := fun _ => none }

theorem build_eq_some_iff {graph : SessionGraphData Json} {cache : SessionGraphCache Json} :
    SessionGraphCache.build graph = some cache ↔ ∃ path, LeafWalk graph path ∧
      cache = cacheOf (indexNodes graph.nodes) path.reverse
        (path.reverse.filterMap (graph.nodes[·]?)) := by
  rw [SessionGraphCache.build, map_eq_some_iff]
  constructor
  · rintro ⟨path, hpath, hcache⟩
    exact ⟨path, leafWalk_iff.mp hpath, hcache.symm⟩
  · rintro ⟨path, hpath, hcache⟩
    exact ⟨path, leafWalk_iff.mpr hpath, hcache.symm⟩

/-- Reading a node neither looks at the index and the path nor changes them. -/
theorem readNode_with (cache : SessionGraphCache Json) (node : SessionNodeRecord Json)
    (byId : String → Option Nat) (activePath : List Nat) :
    ({ cache with byId := byId, activePathIndices := activePath } :
        SessionGraphCache Json).readNode node =
      { cache.readNode node with byId := byId, activePathIndices := activePath } := by
  unfold SessionGraphCache.readNode
  dsimp only
  split
  · split
    · rfl
    · rfl
  · rfl

theorem cacheOf_with (byId' : String → Option Nat) (activePath activePath' : List Nat)
    (path : List (SessionNodeRecord Json)) :
    cacheOf byId' activePath' path =
      { cacheOf byId activePath path with byId := byId', activePathIndices := activePath' } := by
  induction path using reverseRecOn with
  | nil => rfl
  | append_singleton path node ih =>
    have hsnoc : ∀ byId activePath, cacheOf byId activePath (path ++ [node]) =
        (cacheOf byId activePath path).readNode node := fun _ _ => by
      rw [cacheOf, foldl_append]
      rfl
    rw [hsnoc, hsnoc, ih, readNode_with]

@[simp] theorem cacheOf_byId (path : List (SessionNodeRecord Json)) :
    (cacheOf byId activePath path).byId = byId := by
  rw [cacheOf_with byId byId activePath activePath path]

@[simp] theorem cacheOf_activePathIndices (path : List (SessionNodeRecord Json)) :
    (cacheOf byId activePath path).activePathIndices = activePath := by
  rw [cacheOf_with byId byId activePath activePath path]

end Building

section Appending

/-- The id at which the walk from the leaf breaks off because no node has it, or the
root's missing parent. -/
def endOf (graph : SessionGraphData Json) (path : List Nat) : Option String :=
  match path.getLast? with
  | none => graph.leafNodeId
  | some root => (graph.nodes[root]?).bind (·.parentNodeId)

/-- The graph with one more node, which is the leaf. -/
def withNode (graph : SessionGraphData Json) (node : SessionNodeRecord Json) :
    SessionGraphData Json :=
  ⟨graph.nodes ++ [node], some node.nodeId⟩

variable {graph : SessionGraphData Json}

theorem bind_update_of_ne {A : Type} {parent : Option String} {byId : String → Option A}
    {x : Option A}
    (h : parent ≠ some id) : parent.bind (Function.update byId id x) = parent.bind byId := by
  cases parent with
  | none => rfl
  | some parent => exact update_of_ne (fun hsame => h (congrArg some hsame)) _ _

theorem parentIndex_withNode {v : Nat} (hv : v < graph.nodes.length) :
    parentIndex (indexNodes (withNode graph node).nodes) (withNode graph node).nodes v =
      (graph.nodes[v]?).bind fun other => other.parentNodeId.bind
        (Function.update (indexNodes graph.nodes) node.nodeId (some graph.nodes.length)) := by
  rw [withNode, parentIndex, indexNodes_append, getElem?_append_left hv]

theorem parentIndex_withNode_self :
    parentIndex (indexNodes (withNode graph node).nodes) (withNode graph node).nodes
        graph.nodes.length =
      node.parentNodeId.bind
        (Function.update (indexNodes graph.nodes) node.nodeId (some graph.nodes.length)) := by
  rw [withNode, parentIndex, indexNodes_append, getElem?_append_right (Nat.le_refl _)]
  simp

theorem leafIndex_withNode :
    (withNode graph node).leafNodeId.bind (indexNodes (withNode graph node).nodes) =
      some graph.nodes.length := by
  rw [withNode, indexNodes_append]
  exact update_self ..

/-- A walk that begins at a new node goes on as the old walk, which does not break off
at the id of the node: there it would come back to it and not end. -/
theorem leafWalk_of_withNode (child : node.parentNodeId = graph.leafNodeId) {path' : List Nat}
    (w : LeafWalk (withNode graph node) path') : ∃ path, path' = graph.nodes.length :: path ∧
      LeafWalk graph path ∧ endOf graph path ≠ some node.nodeId := by
  have hnodup := w.nodup
  have hlt : ∀ v ∈ path', v < graph.nodes.length + 1 := fun v hv => by
    simpa [withNode] using LeafWalk.lt w hv
  unfold LeafWalk at w
  rw [leafIndex_withNode] at w
  cases w with
  | @visit _ path rest =>
    rw [nodup_cons] at hnodup
    obtain ⟨hnew, -⟩ := hnodup
    rw [parentIndex_withNode_self, child] at rest
    have hleaf : graph.leafNodeId ≠ some node.nodeId := by
      intro hsame
      rw [hsame, bind_some, update_self] at rest
      cases rest with
      | visit _ => exact hnew mem_cons_self
    rw [bind_update_of_ne hleaf] at rest
    have hold : ∀ v ∈ path, v < graph.nodes.length := by
      intro v hv
      have hbound := hlt v (mem_cons_of_mem _ hv)
      have hother : v ≠ graph.nodes.length := fun hsame => hnew (hsame ▸ hv)
      omega
    have hparent : ∀ v ∈ path, ∀ other, graph.nodes[v]? = some other →
        other.parentNodeId ≠ some node.nodeId := by
      intro v hv other hother hsame
      refine hnew (rest.next_mem hv ?_)
      rw [parentIndex_withNode (hold v hv), hother, bind_some, hsame, bind_some, update_self]
    refine ⟨path, rfl, ?_, ?_⟩
    · refine rest.congr fun v hv => ?_
      obtain ⟨other, hother⟩ : ∃ other, graph.nodes[v]? = some other :=
        ⟨_, getElem?_eq_getElem (hold v hv)⟩
      rw [parentIndex_withNode (hold v hv), parentIndex, hother, bind_some,
        bind_some, bind_update_of_ne (hparent v hv other hother)]
    · rw [endOf]
      split
      · exact hleaf
      · rename_i root hroot
        have hmem : root ∈ path := mem_of_getLast? hroot
        cases hother : graph.nodes[root]? with
        | none => simp
        | some other => exact hparent root hmem other hother

theorem leafWalk_withNode (fresh : node.nodeId ∉ graph.nodes.map (·.nodeId))
    (child : node.parentNodeId = graph.leafNodeId) {path : List Nat} (w : LeafWalk graph path)
    (hend : endOf graph path ≠ some node.nodeId) :
    LeafWalk (withNode graph node) (graph.nodes.length :: path) := by
  have hfree : indexNodes graph.nodes node.nodeId = none := indexNodes_eq_none_iff.mpr fresh
  have hwalk := w
  unfold LeafWalk
  rw [leafIndex_withNode]
  refine .visit ?_
  rw [parentIndex_withNode_self, child]
  have hleaf : graph.leafNodeId ≠ some node.nodeId := by
    intro hsame
    unfold LeafWalk at w
    rw [hsame, bind_some, hfree] at w
    cases w with
    | stop => exact hend hsame
  rw [bind_update_of_ne hleaf]
  refine hwalk.congr fun v hv => ?_
  have hbound := LeafWalk.lt hwalk hv
  rw [parentIndex_withNode hbound, parentIndex]
  obtain ⟨other, hother⟩ : ∃ other, graph.nodes[v]? = some other := ⟨_, getElem?_eq_getElem hbound⟩
  rw [hother, bind_some, bind_some]
  refine bind_update_of_ne fun hsame => hend ?_
  -- only the last node of the walk can have a parent that is no node
  have hnone : parentIndex (indexNodes graph.nodes) graph.nodes v = none := by
    rw [parentIndex, hother, bind_some, hsame, bind_some, hfree]
  rw [endOf, hwalk.getLast_of_none hv hnone]
  simp only [hother, bind_some, hsame]

/-- With a new node under the leaf the walk is the old one with the node in front,
unless the old one breaks off at the id of the node. -/
theorem leafWalk_withNode_iff (fresh : node.nodeId ∉ graph.nodes.map (·.nodeId))
    (child : node.parentNodeId = graph.leafNodeId) {path' : List Nat} :
    LeafWalk (withNode graph node) path' ↔ ∃ path, path' = graph.nodes.length :: path ∧
      LeafWalk graph path ∧ endOf graph path ≠ some node.nodeId := by
  constructor
  · exact leafWalk_of_withNode child
  · rintro ⟨path, rfl, w, hend⟩
    exact leafWalk_withNode fresh child w hend

end Appending

end ActivePaths
