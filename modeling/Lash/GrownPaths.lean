import Lash.NodeAppends

/-!
# Paths under which a chain of new nodes grows

The path to the last node of a chain is the path to the old leaf with the chain behind it,
unless the old path breaks off at an id that a new node takes: there it would come back to
itself. This holds of the graph in memory, and of the stored graph as well, which may hold
more nodes.
-/

namespace GrownPaths

open SessionGraphs ActivePaths CacheCoherence GraphLedgers GraphForests
open List Option Function
open NodeAppends

variable {Json : Type} {data : SessionGraphData Json} {node : SessionNodeRecord Json}
  {new path path' : List (SessionNodeRecord Json)}

section Paths

/-- The id at which a path to the root finds no node. -/
def breaksOffAt (leaf : Option String) (path : List (SessionNodeRecord Json)) : Option String :=
  match path.head? with
  | none => leaf
  | some root => root.parentNodeId

theorem breaksOffAt_snoc {leaf : Option String} (child : node.parentNodeId = leaf)
    (path : List (SessionNodeRecord Json)) :
    breaksOffAt (some node.nodeId) (path ++ [node]) = breaksOffAt leaf path := by
  cases path with
  | nil => exact child
  | cons root path => rfl

theorem breaksOffAt_indices {indices : List Nat} (w : LeafWalk data indices) :
    breaksOffAt data.leafNodeId (indices.reverse.filterMap (data.nodes[·]?)) =
      endOf data indices := by
  rcases eq_nil_or_concat indices with rfl | ⟨front, root, rfl⟩
  · rfl
  · have hroot : root < data.nodes.length := LeafWalk.lt w (by simp)
    obtain ⟨record, hrecord⟩ : ∃ record, data.nodes[root]? = some record :=
      ⟨_, getElem?_eq_getElem hroot⟩
    rw [concat_eq_append, reverse_append, reverse_singleton,
      singleton_append, filterMap_cons_some hrecord, endOf, getLast?_append]
    simp [breaksOffAt, hrecord]

theorem rootToLeaf_withNode_iff (fresh : node.nodeId ∉ data.nodes.map (·.nodeId))
    (child : node.parentNodeId = data.leafNodeId) :
    RootToLeaf (withNode data node).nodes (withNode data node).leafNodeId path' ↔
      ∃ path, RootToLeaf data.nodes data.leafNodeId path ∧
        breaksOffAt data.leafNodeId path ≠ some node.nodeId ∧ path' = path ++ [node] := by
  rw [rootToLeaf_iff]
  constructor
  · rintro ⟨indices, hwalk, rfl⟩
    obtain ⟨old, rfl, hold, hend⟩ := (leafWalk_withNode_iff fresh child).mp hwalk
    refine ⟨_, rootToLeaf_iff.mpr ⟨old, hold, rfl⟩, ?_, ?_⟩
    · rwa [breaksOffAt_indices hold]
    · exact filterMap_withNode fun v hv => LeafWalk.lt hold hv
  · rintro ⟨path, hpath, hend, rfl⟩
    obtain ⟨old, hold, rfl⟩ := rootToLeaf_iff.mp hpath
    rw [breaksOffAt_indices hold] at hend
    refine ⟨_, (leafWalk_withNode_iff fresh child).mpr ⟨old, rfl, hold, hend⟩, ?_⟩
    exact (filterMap_withNode fun v hv => LeafWalk.lt hold hv).symm

theorem rootToLeaf_chain_iff (chain : FreshChain data new) :
    RootToLeaf (new.foldl withNode data).nodes (new.foldl withNode data).leafNodeId path' ↔
      ∃ path, RootToLeaf data.nodes data.leafNodeId path ∧
        (∀ node ∈ new, breaksOffAt data.leafNodeId path ≠ some node.nodeId) ∧
        path' = path ++ new := by
  induction new generalizing data with
  | nil => simp
  | cons node new ih =>
    obtain ⟨child, fresh, rest⟩ := chain
    rw [foldl_cons, ih rest]
    constructor
    · rintro ⟨longer, hlonger, hends, rfl⟩
      obtain ⟨path, hpath, hend, rfl⟩ := (rootToLeaf_withNode_iff fresh child).mp hlonger
      refine ⟨path, hpath, forall_mem_cons.mpr ⟨hend, fun later hlater => ?_⟩, append_assoc ..⟩
      have hlast := hends later hlater
      rwa [withNode, breaksOffAt_snoc child] at hlast
    · rintro ⟨path, hpath, hends, rfl⟩
      obtain ⟨hend, hlater⟩ := forall_mem_cons.mp hends
      refine ⟨path ++ [node], (rootToLeaf_withNode_iff fresh child).mpr
        ⟨path, hpath, hend, rfl⟩, fun later hmem => ?_, append_cons ..⟩
      rw [withNode, breaksOffAt_snoc child]
      exact hlater later hmem

end Paths

section Chains

theorem FreshChain.nodup (chain : FreshChain data new) : (new.map (·.nodeId)).Nodup := by
  induction new generalizing data with
  | nil => exact nodup_nil
  | cons node new ih =>
    obtain ⟨-, -, rest⟩ := chain
    refine nodup_cons.mpr ⟨fun hmem => ?_, ih rest⟩
    obtain ⟨later, hlater, hsame⟩ := mem_map.mp hmem
    exact freshChain_new rest hlater (by simp [withNode, hsame])

/-- A chain is fresh under the same leaf of any other graph that has none of its ids. -/
theorem FreshChain.transfer {other : SessionGraphData Json} (chain : FreshChain data new)
    (leaf : other.leafNodeId = data.leafNodeId)
    (absent : ∀ node ∈ new, node.nodeId ∉ other.nodes.map (·.nodeId)) :
    FreshChain other new := by
  induction new generalizing data other with
  | nil => trivial
  | cons node new ih =>
    have hnodup := FreshChain.nodup chain
    obtain ⟨child, -, rest⟩ := chain
    obtain ⟨habsent, hlater⟩ := forall_mem_cons.mp absent
    refine ⟨child.trans leaf.symm, habsent, ih rest rfl fun later hmem => ?_⟩
    rw [withNode, map_append, mem_append, not_or]
    refine ⟨hlater later hmem, fun hsame => ?_⟩
    rw [map_singleton, mem_singleton] at hsame
    exact (nodup_cons.mp hnodup).1 (mem_map.mpr ⟨later, hmem, hsame⟩)

theorem foldl_withNode_leafNodeId (hnew : new ≠ []) :
    (new.foldl withNode data).leafNodeId = new.getLast?.map (·.nodeId) := by
  obtain ⟨front, last, rfl⟩ := (eq_nil_or_concat new).resolve_left hnew
  simp [withNode]

theorem foldl_withNode_eq {leaf : Option String}
    (hleaf : (new.foldl withNode data).leafNodeId = leaf) :
    new.foldl withNode data = ⟨data.nodes ++ new, leaf⟩ := by
  rw [← hleaf, ← foldl_withNode_nodes]

end Chains

section Finding

variable {graph after : SessionGraph Json}

/-- An initialized cache finds these nodes. -/
def Finds (graph : SessionGraph Json) (new : List (SessionNodeRecord Json)) : Prop :=
  (∀ node ∈ new, latestNode graph.nodes node.nodeId = some node) ∧
    ∀ cache, graph.cache = some cache →
      ∀ node ∈ new, (cache.byId node.nodeId).bind (graph.nodes[·]?) = some node

theorem appendNode_byId (cache : SessionGraphCache Json) (nodeIndex : Nat)
    (node : SessionNodeRecord Json) (leaf : Option String) :
    (cache.appendNode nodeIndex node leaf).byId =
      Function.update cache.byId node.nodeId (some nodeIndex) := by
  rw [SessionGraphCache.appendNode]
  split
  · rfl
  · exact congrArg SessionGraphCache.byId (readNode_with cache node
      (update cache.byId node.nodeId (some nodeIndex))
      (cache.activePathIndices ++ [nodeIndex]))

theorem Finds.snoc (finds : Finds graph new) (other : node.nodeId ∉ new.map (·.nodeId)) :
    Finds (graph.appendPrebuiltNode node) (new ++ [node]) := by
  have hne : ∀ old ∈ new, old.nodeId ≠ node.nodeId := fun old hold hsame =>
    other (hsame ▸ mem_map_of_mem hold)
  have hnodes : (graph.appendPrebuiltNode node).nodes = graph.nodes ++ [node] := rfl
  constructor
  · intro found hfound
    rw [hnodes, latestNode_append]
    rcases mem_append.mp hfound with hold | hlast
    · rw [update_of_ne (hne found hold)]
      exact finds.1 found hold
    · rw [mem_singleton.mp hlast, update_self]
  · intro cache hcache found hfound
    obtain ⟨before, hbefore, rfl⟩ := map_eq_some_iff.mp hcache
    rw [appendNode_byId, hnodes]
    rcases mem_append.mp hfound with hold | hlast
    · have hfinds := finds.2 before hbefore found hold
      obtain ⟨i, hi, hget⟩ := bind_eq_some_iff.mp hfinds
      rw [update_of_ne (hne found hold), hi, bind_some,
        List.getElem?_append_left (List.getElem?_eq_some_iff.mp hget).1]
      exact hget
    · rw [mem_singleton.mp hlast, update_self, bind_some]
      exact getElem?_concat_length

theorem finds_appendPrebuiltNodes (distinct : (new.map (·.nodeId)).Nodup) :
    Finds (graph.appendPrebuiltNodes new) new := by
  induction new using reverseRecOn with
  | nil => exact ⟨fun _ h => (nomatch h), fun _ _ _ h => nomatch h⟩
  | append_singleton new node ih =>
    rw [map_append, map_singleton, ← concat_eq_append, nodup_concat]
      at distinct
    rw [SessionGraph.appendPrebuiltNodes, foldl_append]
    exact (ih distinct.2).snoc distinct.1

theorem Finds.warmed (finds : Finds graph new) (warmed : Warmed graph after) : Finds after new := by
  rcases warmed with rfl | ⟨built, hbuilt, rfl⟩
  · exact finds
  · refine ⟨finds.1, fun cache hcache node hnode => ?_⟩
    obtain rfl : built = cache := some.inj hcache
    obtain ⟨indices, -, rfl⟩ := build_eq_some_iff.mp hbuilt
    rw [cacheOf_byId]
    exact (indexNodes_bind graph.nodes node.nodeId).trans (finds.1 node hnode)

theorem findNode_spec {found : Option (SessionNodeRecord Json)} (finds : Finds graph new)
    (hnode : node ∈ new) (h : graph.findNode node.nodeId = some (found, after)) :
    found = some node ∧ Warmed graph after := by
  obtain ⟨⟨cache, read⟩, hcache, hpair⟩ := map_eq_some_iff.mp h
  obtain ⟨rfl, rfl⟩ := Prod.mk.inj hpair
  have hwarmed := initCache_warmed hcache
  refine ⟨(finds.warmed hwarmed).2 cache ?_ node hnode, hwarmed⟩
  rw [SessionGraph.initCache] at hcache
  split at hcache
  · rename_i held hheld
    obtain ⟨rfl, rfl⟩ := Prod.mk.inj (some.inj hcache)
    exact hheld
  · obtain ⟨built, -, hpair⟩ := map_eq_some_iff.mp hcache
    obtain ⟨rfl, rfl⟩ := Prod.mk.inj hpair
    rfl

theorem findNodes_spec {nodes asked : List (SessionNodeRecord Json)} (finds : Finds graph new)
    (asks : asked ⊆ new)
    (h : findNodes (asked.map (·.nodeId)) graph = some (nodes, after)) :
    nodes = asked ∧ after.inner = graph.inner := by
  induction asked generalizing graph nodes with
  | nil =>
    obtain ⟨rfl, rfl⟩ := Prod.mk.inj (some.inj h)
    exact ⟨rfl, rfl⟩
  | cons node asked ih =>
    obtain ⟨hnode, hasked⟩ := cons_subset.mp asks
    obtain ⟨⟨found, read⟩, hfound, hrest⟩ := bind_eq_some_iff.mp h
    obtain ⟨⟨rest, last⟩, hlast, hpair⟩ := map_eq_some_iff.mp hrest
    obtain ⟨rfl, rfl⟩ := Prod.mk.inj hpair
    obtain ⟨rfl, hwarmed⟩ := findNode_spec finds hnode hfound
    obtain ⟨rfl, hinner⟩ := ih (finds.warmed hwarmed) hasked hlast
    exact ⟨rfl, hinner.trans hwarmed.readOf.1⟩

end Finding

end GrownPaths
