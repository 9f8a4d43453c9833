import Lash.GraphLedgers

/-!
# Session graphs as forests

The walks to the root keep no set of visited nodes. They end because node ids are
unique and following parent ids always comes to an end. A node that is added keeps
this exactly if its id is new and the ids above it do not come back to it: a leaf may
name a node that does not exist, and a node that takes this id later is its own parent.
-/

namespace GraphForests

open Runs ParentWalks SessionGraphs ActivePaths CacheCoherence GraphLedgers
open SessionGraphCache SessionGraphData
open List Option Prod Function

variable {Json : Type} {nodes added : List (SessionNodeRecord Json)}
  {node : SessionNodeRecord Json} {id : String} {graph : SessionGraph Json}

section Forests

/-- The parent id in the node of this id. -/
def parentId (nodes : List (SessionNodeRecord Json)) (id : String) : Option String :=
  (latestNode nodes id).bind (·.parentNodeId)

structure Forest (nodes : List (SessionNodeRecord Json)) : Prop where
  unique : (nodes.map (·.nodeId)).Nodup
  ends : Ends (parentId nodes)

/-- The id of the node is new, and the parent ids above the node do not come to it. -/
def Joins (nodes : List (SessionNodeRecord Json)) (node : SessionNodeRecord Json) : Prop :=
  node.nodeId ∉ nodes.map (·.nodeId) ∧
    ¬ Climbs (parentId nodes) node.parentNodeId node.nodeId

/-- Each of the added nodes joins the nodes before it. -/
def Grows : List (SessionNodeRecord Json) → List (SessionNodeRecord Json) → Prop
  | _, [] => True
  | nodes, node :: added => Joins nodes node ∧ Grows (nodes ++ [node]) added

theorem latestNode_append (nodes : List (SessionNodeRecord Json)) (node : SessionNodeRecord Json) :
    latestNode (nodes ++ [node]) = Function.update (latestNode nodes) node.nodeId (some node) := by
  funext id
  rw [latestNode, reverse_concat, find?_cons]
  by_cases hid : id = node.nodeId
  · subst hid
    rw [update_self, beq_self_eq_true]
  · rw [update_of_ne hid, beq_false_of_ne (Ne.symm hid)]
    rfl

theorem parentId_append (nodes : List (SessionNodeRecord Json)) (node : SessionNodeRecord Json) :
    parentId (nodes ++ [node]) =
      Function.update (parentId nodes) node.nodeId node.parentNodeId := by
  funext id
  rw [parentId, latestNode_append]
  by_cases hid : id = node.nodeId
  · subst hid
    rw [update_self, update_self, bind_some]
  · rw [update_of_ne hid, update_of_ne hid, parentId]

theorem latestNode_eq_none (new : id ∉ nodes.map (·.nodeId)) : latestNode nodes id = none := by
  refine eq_none_iff_forall_ne_some.mpr fun node hnode => new ?_
  exact mem_map.mpr ⟨node, latestNode_mem hnode, latestNode_id hnode⟩

theorem latestNode_of_mem (unique : (nodes.map (·.nodeId)).Nodup) (hnode : node ∈ nodes) :
    latestNode nodes node.nodeId = some node := by
  cases hlatest : latestNode nodes node.nodeId with
  | none =>
    have hmissing := find?_eq_none.mp hlatest node (mem_reverse.mpr hnode)
    simp at hmissing
  | some latest =>
    have hsame : latest.nodeId = node.nodeId := latestNode_id hlatest
    rw [inj_on_of_nodup_map unique (latestNode_mem hlatest) hnode hsame]

theorem forest_nil : Forest ([] : List (SessionNodeRecord Json)) := by
  refine ⟨nodup_nil, fun start => ?_⟩
  cases start with
  | none => exact ⟨[], .stop⟩
  | some id => exact ⟨[id], .visit .stop⟩

theorem forest_concat_iff : Forest (nodes ++ [node]) ↔ Forest nodes ∧ Joins nodes node := by
  have hunique : ((nodes ++ [node]).map (·.nodeId)).Nodup ↔
      (nodes.map (·.nodeId)).Nodup ∧ node.nodeId ∉ nodes.map (·.nodeId) := by
    rw [map_append, map_singleton, ← concat_eq_append, nodup_concat, and_comm]
  have hends : node.nodeId ∉ nodes.map (·.nodeId) → (Ends (parentId (nodes ++ [node])) ↔
        Ends (parentId nodes) ∧ ¬ Climbs (parentId nodes) node.parentNodeId node.nodeId) := by
    intro hnew
    rw [parentId_append]
    exact ends_update_iff (by rw [parentId, latestNode_eq_none hnew, bind_none])
  constructor
  · rintro ⟨hall, hwalks⟩
    obtain ⟨hnodes, hnew⟩ := hunique.mp hall
    obtain ⟨hold, haway⟩ := (hends hnew).mp hwalks
    exact ⟨⟨hnodes, hold⟩, hnew, haway⟩
  · rintro ⟨⟨hnodes, hold⟩, hnew, haway⟩
    exact ⟨hunique.mpr ⟨hnodes, hnew⟩, (hends hnew).mpr ⟨hold, haway⟩⟩

theorem forest_append_iff : Forest (nodes ++ added) ↔ Forest nodes ∧ Grows nodes added := by
  induction added generalizing nodes with
  | nil => simp [Grows]
  | cons node added ih =>
    rw [append_cons, ih, forest_concat_iff, Grows, and_assoc]

/-- Nodes of a forest are a forest again. -/
theorem Forest.of_subset {kept : List (SessionNodeRecord Json)} (forest : Forest nodes)
    (subset : kept ⊆ nodes) (unique : (kept.map (·.nodeId)).Nodup) : Forest kept := by
  refine ⟨unique, forest.ends.anti fun id parent hparent => ?_⟩
  obtain ⟨node, hnode, hparent⟩ := bind_eq_some_iff.mp hparent
  have hmem : node ∈ nodes := subset (latestNode_mem hnode)
  have hlatest := latestNode_of_mem forest.unique hmem
  rw [latestNode_id hnode] at hlatest
  rw [parentId, hlatest, bind_some, hparent]

variable {data : SessionGraphData Json}

theorem freshChain_new (chain : FreshChain data added) {later : SessionNodeRecord Json}
    (hlater : later ∈ added) : later.nodeId ∉ data.nodes.map (·.nodeId) := by
  induction added generalizing data with
  | nil => cases hlater
  | cons node added ih =>
    obtain ⟨-, hnew, hrest⟩ := chain
    rcases mem_cons.mp hlater with rfl | hmem
    · exact hnew
    · intro hold
      refine ih hrest hmem ?_
      rw [withNode, map_append]
      exact mem_append_left _ hold

/-- Under the leaf a new node only adds itself to what is above. -/
theorem climbs_withNode_iff (child : node.parentNodeId = data.leafNodeId)
    (new : node.nodeId ∉ data.nodes.map (·.nodeId)) (other : id ≠ node.nodeId) :
    Climbs (parentId (withNode data node).nodes) (some node.nodeId) id ↔
      Climbs (parentId data.nodes) data.leafNodeId id := by
  have hlast : parentId data.nodes node.nodeId = none := by
    rw [parentId, latestNode_eq_none new, bind_none]
  rw [withNode, parentId_append, child]
  exact climbs_update_iff hlast other

end Forests

section Walks

theorem parentId_bind_indexNodes (nodes : List (SessionNodeRecord Json)) (id : String) :
    (parentId nodes id).bind (indexNodes nodes) =
      (indexNodes nodes id).bind (parentIndex (indexNodes nodes) nodes) := by
  rw [parentId, ← indexNodes_bind, bind_assoc, bind_assoc]
  rfl

/-- The walk over indices from any id ends, and it fits the number of nodes. -/
theorem Forest.indexWalk (forest : Forest nodes) (start : Option String) :
    ∃ path, Walk (parentIndex (indexNodes nodes) nodes) (start.bind (indexNodes nodes)) path ∧
      path.length ≤ nodes.length := by
  obtain ⟨ids, w⟩ := forest.ends start
  have himage := w.image (parentId_bind_indexNodes nodes)
  refine ⟨_, himage, ?_⟩
  have hsub := himage.subset (fun _ h => mem_range.mpr (leafIndex_lt h))
    fun _ _ _ h => mem_range.mpr (parentIndex_lt h)
  simpa using (himage.nodup.subperm hsub).length_le

theorem Forest.ancestors (forest : Forest nodes) (node : SessionNodeRecord Json) :
    ∃ path, Walk (parentNode nodes) (some node) path := by
  obtain ⟨ids, w⟩ := forest.ends node.parentNodeId
  have hcommutes : ∀ id, (parentId nodes id).bind (latestNode nodes) =
      (latestNode nodes id).bind (parentNode nodes) := fun id => by
    rw [parentId, bind_assoc]
    rfl
  exact ⟨_, .visit (w.image hcommutes)⟩

theorem Forest.build_isSome {data : SessionGraphData Json} (forest : Forest data.nodes) :
    (build data).isSome := by
  obtain ⟨path, w, _⟩ := forest.indexWalk data.leafNodeId
  exact isSome_iff_exists.mpr ⟨_, build_eq_some_iff.mpr ⟨path, w, rfl⟩⟩

/-- The nearest message is the first message on the walk. -/
theorem nearestMessage_of_walk {byId : String → Option Nat} {start : Option Nat}
    {path : List Nat} (w : Walk (parentIndex byId nodes) start path) {fuel : Nat}
    (enough : path.length ≤ fuel) :
    nearestMessage byId nodes fuel start =
      some (((path.filterMap (nodes[·]?)).find? (·.message.isSome)).map (·.nodeId)) := by
  induction w generalizing fuel with
  | stop => rw [nearestMessage]; rfl
  | @visit idx path rest ih =>
    cases fuel with
    | zero => simp at enough
    | succ fuel =>
      have hrest := ih (Nat.le_of_succ_le_succ enough)
      rw [nearestMessage]
      cases hnode : nodes[idx]? with
      | none =>
        rw [parentIndex, hnode, bind_none] at rest
        cases rest
        simp [hnode]
      | some node =>
        rw [filterMap_cons_some hnode, find?_cons]
        dsimp only
        cases hmessage : node.message.isSome with
        | true => rfl
        | false => rw [if_neg (by simp), hrest]

theorem Forest.nearestMessageAncestor_isSome (forest : Forest graph.nodes)
    (nodeId : Option String) :
    (graph.nearestMessageAncestor nodeId).isSome := by
  obtain ⟨path, w, hlength⟩ := forest.indexWalk nodeId
  rw [SessionGraph.nearestMessageAncestor, nearestMessage_of_walk w hlength]
  rfl

/-- Ids are unique, no node is above itself, and every walk to the root ends. -/
structure WalksEnd (graph : SessionGraph Json) : Prop where
  unique : (graph.nodes.map (·.nodeId)).Nodup
  acyclic : ∀ id, ¬ Climbs (parentId graph.nodes) (parentId graph.nodes id) id
  pathIds : ∀ id, ∃ path, Walk (parentId graph.nodes) id path
  ancestors : ∀ node, ∃ path, Walk (parentNode graph.nodes) (some node) path
  build : (SessionGraphCache.build graph.inner).isSome
  activePathNodes : graph.activePathNodes.isSome
  nearestMessageAncestor : ∀ nodeId, (graph.nearestMessageAncestor nodeId).isSome

theorem walksEnd_iff : WalksEnd graph ↔ Forest graph.nodes := by
  refine ⟨fun h => ⟨h.unique, h.pathIds⟩, fun forest => ?_⟩
  have hbuild : (build graph.inner).isSome := forest.build_isSome
  have hcache : graph.initCache.isSome := by
    rw [SessionGraph.initCache]
    split
    · rfl
    · rwa [isSome_map]
  exact
    { unique := forest.unique
      acyclic := forest.ends.acyclic
      pathIds := forest.ends
      ancestors := forest.ancestors
      build := hbuild
      activePathNodes := by rwa [SessionGraph.activePathNodes, isSome_map]
      nearestMessageAncestor := forest.nearestMessageAncestor_isSome }

end Walks

section Paths

variable {leaf : Option String} {path : List (SessionNodeRecord Json)}

theorem RootToLeaf.mem (h : RootToLeaf nodes leaf path) (hnode : node ∈ path) :
    latestNode nodes node.nodeId = some node ∧ Climbs (parentId nodes) leaf node.nodeId := by
  rw [← mem_reverse] at hnode
  rw [RootToLeaf] at h
  generalize hback : path.reverse = back at h hnode
  generalize hstart : leafNode nodes leaf = start at h
  clear hback
  induction h generalizing leaf with
  | stop => cases hnode
  | @visit first back rest ih =>
    obtain ⟨id, rfl, hid⟩ := bind_eq_some_iff.mp hstart
    obtain rfl := latestNode_id hid
    rcases mem_cons.mp hnode with rfl | hback
    · exact ⟨hid, .here⟩
    · obtain ⟨hlatest, hclimbs⟩ := ih hback rfl
      refine ⟨hlatest, .up ?_⟩
      rwa [parentId, hid, bind_some]

/-- The path to a node of a path. -/
theorem RootToLeaf.take {front back : List (SessionNodeRecord Json)}
    (h : RootToLeaf nodes leaf (front ++ node :: back)) :
    RootToLeaf nodes (some node.nodeId) (front ++ [node]) := by
  obtain ⟨hlatest, -⟩ := RootToLeaf.mem h (mem_append_right front mem_cons_self)
  rw [RootToLeaf, reverse_append, reverse_cons, append_assoc] at h
  rw [RootToLeaf, reverse_append, leafNode, bind_some, hlatest]
  exact h.drop

variable {data : SessionGraphData Json}

theorem RootToLeaf.snoc (h : RootToLeaf data.nodes data.leafNodeId path)
    (child : node.parentNodeId = data.leafNodeId)
    (away : ¬ Climbs (parentId data.nodes) data.leafNodeId node.nodeId) :
    RootToLeaf (withNode data node).nodes (some node.nodeId) (path ++ [node]) := by
  have hkept : ∀ parent, parent ≠ some node.nodeId →
      parent.bind (latestNode (withNode data node).nodes) =
        parent.bind (latestNode data.nodes) := by
    intro parent hparent
    rw [withNode, latestNode_append]
    exact bind_update_of_ne hparent
  have hself : leafNode (withNode data node).nodes (some node.nodeId) = some node := by
    rw [leafNode, bind_some, withNode, latestNode_append, update_self]
  rw [RootToLeaf, hself, reverse_append]
  refine .visit ?_
  rw [parentNode, child, hkept]
  · refine h.congr fun other hother => hkept _ fun hsame => away ?_
    obtain ⟨hlatest, hclimbs⟩ := RootToLeaf.mem h (mem_reverse.mp hother)
    refine hclimbs.extend ?_
    rw [parentId, hlatest, bind_some, hsame]
  · intro hsame
    rw [hsame] at away
    exact away .here

/-- Under the leaf a chain of new nodes goes on with the path, if the ids above the leaf
do not come to one of theirs. -/
theorem RootToLeaf.chain (h : RootToLeaf data.nodes data.leafNodeId path)
    (chain : FreshChain data added)
    (away : ∀ node ∈ added, ¬ Climbs (parentId data.nodes) data.leafNodeId node.nodeId) :
    RootToLeaf (added.foldl withNode data).nodes
      (added.foldl withNode data).leafNodeId (path ++ added) := by
  induction added generalizing data path with
  | nil =>
    rw [append_nil]
    exact h
  | cons node added ih =>
    obtain ⟨hparent, hnew, hrest⟩ := chain
    obtain ⟨haway, hlater⟩ := forall_mem_cons.mp away
    rw [← append_cons path node added |>.symm, foldl_cons]
    refine ih (RootToLeaf.snoc h hparent haway) hrest fun later hmem hclimbs => ?_
    refine hlater later hmem ((climbs_withNode_iff hparent hnew fun hsame => ?_).mp hclimbs)
    exact freshChain_new hrest hmem (by simp [withNode, hsame])

end Paths

section Operations

theorem foldl_withNode_nodes {data : SessionGraphData Json}
    (added : List (SessionNodeRecord Json)) :
    (added.foldl withNode data).nodes = data.nodes ++ added := by
  induction added generalizing data with
  | nil => rw [foldl_nil, append_nil]
  | cons node added ih =>
    rw [foldl_cons, ih, withNode, append_assoc, singleton_append]

/-- The records that an operation adds, and the nodes it adds them to. -/
def grown (op : GraphOp Json) (graph : SessionGraph Json) :
    Option (List (SessionNodeRecord Json) × List (SessionNodeRecord Json)) :=
  match op with
  | .pushNodeRecord node => some (graph.nodes, [node])
  | .extendNodeRecords nodes => some (graph.nodes, nodes)
  | .replaceActiveReadState agentFrameId messages timestamp => do
      let (currentNodes, graph) ← graph.activePathNodes
      let replacement ← buildActiveReadReplacement currentNodes graph.nodeIds agentFrameId
        messages timestamp
      some (graph.nodes, replacement.newTailNodes)
  | .fromNodes nodes _ => some ([], nodes)
  | op => (op.appended graph).map fun (target, nodes) => (target.nodes, nodes)

variable {op : GraphOp Json}

theorem grown_of_appends (appends : op.Appends) :
    grown op graph = (op.appended graph).map fun appended => (appended.1.nodes, appended.2) := by
  cases op with
  | appendNodeDrafts | appendActiveReadDelta | appendActiveConversationMessages
  | extendActivePath => rfl
  | _ => cases appends

/-- Each record that the operation adds has a new id, and the ids above it do not come
back to it. -/
def KeepsForest (op : GraphOp Json) (graph : SessionGraph Json) : Prop :=
  ∀ base added, grown op graph = some (base, added) → Grows base added

/-- A cached path names an index at most once, and only indices of nodes. -/
def PathIndexed (graph : SessionGraph Json) : Prop :=
  ∀ cache, graph.cache = some cache →
    cache.activePathIndices.Nodup ∧ ∀ i ∈ cache.activePathIndices, i < graph.nodes.length

theorem pathIndexed_of_none (uncached : graph.cache = none) : PathIndexed graph :=
  fun cache hcache => by simp [uncached] at hcache

variable {after : SessionGraph Json}

theorem pathIndexed_of_warmed (warmed : Warmed graph after) (indexed : PathIndexed graph) :
    PathIndexed after := by
  rcases warmed with rfl | ⟨built, hbuilt, rfl⟩
  · exact indexed
  · intro cache hcache
    obtain rfl : built = cache := some.inj hcache
    obtain ⟨path, w, rfl⟩ := build_eq_some_iff.mp hbuilt
    rw [cacheOf_activePathIndices]
    exact ⟨nodup_reverse.mpr w.nodup, fun i hi => LeafWalk.lt w (mem_reverse.mp hi)⟩

theorem readNode_activePathIndices (cache : SessionGraphCache Json)
    (node : SessionNodeRecord Json) :
    (cache.readNode node).activePathIndices = cache.activePathIndices :=
  (congrArg activePathIndices
    (readNode_with cache node cache.byId cache.activePathIndices) : _)

theorem appendPrebuiltNodes_pathIndexed (indexed : PathIndexed graph)
    (nodes : List (SessionNodeRecord Json)) : PathIndexed (graph.appendPrebuiltNodes nodes) := by
  induction nodes generalizing graph with
  | nil => exact indexed
  | cons node nodes ih =>
    refine @ih (graph.appendPrebuiltNode node) fun patched hpatched => ?_
    obtain ⟨cache, hcache, rfl⟩ := map_eq_some_iff.mp hpatched
    obtain ⟨hnodup, hlt⟩ := indexed cache hcache
    have hlength : (graph.appendPrebuiltNode node).nodes.length = graph.nodes.length + 1 :=
      length_append
    have hgrown : ∀ i ∈ cache.activePathIndices, i < graph.nodes.length + 1 := fun i hi =>
      Nat.lt_succ_of_lt (hlt i hi)
    rw [hlength, appendNode]
    dsimp only
    split
    · exact ⟨hnodup, hgrown⟩
    · rw [readNode_activePathIndices]
      constructor
      · rw [← concat_eq_append, nodup_concat]
        exact ⟨fun hmem => Nat.lt_irrefl _ (hlt _ hmem), hnodup⟩
      · intro i hi
        rcases mem_append.mp hi with hold | hnew
        · exact hgrown i hold
        · rw [mem_singleton.mp hnew]
          exact Nat.lt_succ_self _

theorem graphStep_pathIndexed (op : GraphOp Json) (indexed : PathIndexed graph) :
    PathIndexed (graphStep op graph).2 := by
  rw [graphStep]
  split
  · rename_i after happly
    cases happended : op.appended graph with
    | some appended =>
      obtain ⟨target, nodes⟩ := appended
      obtain ⟨hspec, hwarmed, -⟩ := appended_spec happended
      obtain rfl := some.inj (hspec.symm.trans happly)
      exact appendPrebuiltNodes_pathIndexed (pathIndexed_of_warmed hwarmed indexed) nodes
    | none =>
      rcases apply_of_not_appended happly happended with hwarmed | hnone
      · exact pathIndexed_of_warmed hwarmed indexed
      · exact pathIndexed_of_none hnone
  · exact indexed

/-- The nodes of the active path of a forest are a forest. -/
theorem forest_activePathNodes {read : SessionGraph Json} {path : List (SessionNodeRecord Json)}
    (h : graph.activePathNodes = some (path, read)) (indexed : PathIndexed graph)
    (forest : Forest graph.nodes) : Forest path := by
  obtain ⟨⟨cache, target⟩, hcache, h⟩ := map_eq_some_iff.mp h
  obtain ⟨rfl, rfl⟩ := mk.inj h
  have hwarmed := initCache_warmed hcache
  have hnodes : target.nodes = graph.nodes := congrArg nodes hwarmed.readOf.1
  have hheld : target.cache = some cache := by
    rw [SessionGraph.initCache] at hcache
    split at hcache
    · rename_i held hheld
      obtain ⟨rfl, rfl⟩ := mk.inj (some.inj hcache)
      exact hheld
    · obtain ⟨built, -, hpair⟩ := map_eq_some_iff.mp hcache
      obtain ⟨rfl, rfl⟩ := mk.inj hpair
      rfl
  obtain ⟨hnodup, -⟩ := pathIndexed_of_warmed hwarmed indexed cache hheld
  rw [hnodes]
  refine forest.of_subset (fun node hnode => ?_) ?_
  · obtain ⟨i, -, hi⟩ := mem_filterMap.mp hnode
    exact mem_of_getElem? hi
  · rw [map_filterMap]
    refine hnodup.filterMap fun i j id hi hj => ?_
    rw [mem_def, ← getElem?_map] at hi hj
    have hlt := (List.getElem?_eq_some_iff.mp hi).1
    exact (getElem?_inj hlt forest.unique).mp (hi.trans hj.symm)

theorem grown_spec {base : List (SessionNodeRecord Json)}
    (h : grown op graph = some (base, added)) :
    ∃ after, op.apply graph = some after ∧ after.nodes = base ++ added ∧
      (base = graph.nodes ∨ base = []) := by
  have hmapped : ((op.appended graph).map fun (target, nodes) => (target.nodes, nodes)) =
      some (base, added) → ∃ after, op.apply graph = some after ∧
        after.nodes = base ++ added ∧ (base = graph.nodes ∨ base = []) := by
    intro hmap
    obtain ⟨⟨target, nodes⟩, happended, hpair⟩ := map_eq_some_iff.mp hmap
    obtain ⟨rfl, rfl⟩ := mk.inj hpair
    obtain ⟨happly, hwarmed, -⟩ := appended_spec happended
    refine ⟨_, happly, ?_, .inl (congrArg SessionGraphData.nodes hwarmed.readOf.1)⟩
    rw [SessionGraph.nodes, appendPrebuiltNodes_inner]
    exact foldl_withNode_nodes nodes
  cases op with
  | pushNodeRecord node | extendNodeRecords nodes =>
    obtain ⟨rfl, rfl⟩ := mk.inj (some.inj h)
    exact ⟨_, rfl, rfl, .inl rfl⟩
  | fromNodes nodes leafNodeId =>
    obtain ⟨rfl, rfl⟩ := mk.inj (some.inj h)
    exact ⟨_, rfl, rfl, .inr rfl⟩
  | replaceActiveReadState agentFrameId messages timestamp =>
    obtain ⟨⟨currentNodes, read⟩, hpath, h⟩ := bind_eq_some_iff.mp h
    obtain ⟨replacement, hreplacement, h⟩ := bind_eq_some_iff.mp h
    obtain ⟨rfl, rfl⟩ := mk.inj (some.inj h)
    have hread : read.nodes = graph.nodes := by
      obtain ⟨⟨cache, target⟩, hcache, hpair⟩ := map_eq_some_iff.mp hpath
      obtain ⟨-, rfl⟩ := mk.inj hpair
      exact congrArg nodes (initCache_warmed hcache).readOf.1
    refine ⟨read.dataMut fun data =>
      { leafNodeId := replacement.leafNodeId
        nodes := data.nodes ++ replacement.newTailNodes }, ?_, rfl, .inl hread⟩
    refine bind_eq_some_iff.mpr ⟨_, hpath, ?_⟩
    exact bind_eq_some_iff.mpr ⟨_, hreplacement, rfl⟩
  | _ => exact hmapped h

theorem nodes_of_not_grown (h : op.apply graph = some after) (still : grown op graph = none)
    (indexed : PathIndexed graph) (forest : Forest graph.nodes) : Forest after.nodes := by
  have hrests : ¬ op.Appends := fun appends => by
    rw [grown_of_appends appends, map_eq_none_iff] at still
    rw [apply_of_appends appends, still] at h
    cases h
  cases op with
  | read =>
    obtain ⟨⟨cache, read⟩, hread, rfl⟩ := map_eq_some_iff.mp h
    have hnodes : read.nodes = graph.nodes := congrArg nodes (initCache_warmed hread).readOf.1
    rwa [hnodes]
  | branchTo nodeId | setLeafNodeId nodeId =>
    obtain rfl := some.inj h
    exact forest
  | healOrphanedLeaf =>
    obtain ⟨⟨healed, target⟩, hheal, rfl⟩ := map_eq_some_iff.mp h
    rwa [healOrphanedLeaf_nodes hheal]
  | forkCurrentPath =>
    obtain ⟨⟨fork, read⟩, hfork, rfl⟩ := map_eq_some_iff.mp h
    obtain ⟨⟨path, target⟩, hpath, hpair⟩ := map_eq_some_iff.mp hfork
    obtain ⟨rfl, -⟩ := mk.inj hpair
    exact forest_activePathNodes hpath indexed forest
  | replaceActiveReadState agentFrameId messages timestamp =>
    obtain ⟨⟨currentNodes, read⟩, hpath, h⟩ := bind_eq_some_iff.mp h
    obtain ⟨replacement, hreplacement, h⟩ := bind_eq_some_iff.mp h
    have hgrown := bind_eq_none_iff.mp still _ hpath
    exact absurd (bind_eq_none_iff.mp hgrown _ hreplacement) (by simp)
  | pushNodeRecord | extendNodeRecords | fromNodes => cases still
  | _ => exact absurd trivial hrests

/-- One step keeps a forest a forest exactly if it meets the condition. -/
theorem graphStep_forest_iff (indexed : PathIndexed graph) (forest : Forest graph.nodes) :
    Forest (graphStep op graph).2.nodes ↔ KeepsForest op graph := by
  cases hgrown : grown op graph with
  | some records =>
    obtain ⟨base, added⟩ := records
    obtain ⟨after, happly, hnodes, hbase⟩ := grown_spec hgrown
    have hforest : Forest base := by
      rcases hbase with rfl | rfl
      · exact forest
      · exact forest_nil
    rw [graphStep, happly]
    dsimp only
    rw [hnodes, forest_append_iff, and_iff_right hforest]
    constructor
    · intro grows other others h
      obtain ⟨rfl, rfl⟩ := mk.inj (some.inj (hgrown.symm.trans h))
      exact grows
    · intro keeps
      exact keeps base added hgrown
  | none =>
    have hkeeps : KeepsForest op graph := fun _ _ h => by
      rw [hgrown] at h
      cases h
    refine iff_of_true ?_ hkeeps
    rw [graphStep]
    split
    · rename_i after happly
      exact nodes_of_not_grown happly hgrown indexed forest
    · exact forest

end Operations

section Law

variable {history : List (Entry (GraphOp Json) (SessionGraph Json) Bool)}

/-- Along a run from the empty graph ids are unique, no node is above itself and every
walk to the root ends, exactly if every record that an operation adds has a new id and
the parent ids above it do not come back to it. -/
theorem graph_walks_end_iff (run : Run graphStep SessionGraph.default history graph) :
    (∀ e ∈ history, WalksEnd e.after) ↔ ∀ e ∈ history, KeepsForest e.input e.before := by
  suffices h : PathIndexed graph ∧ ((∀ e ∈ history, WalksEnd e.after) → Forest graph.nodes) ∧
      ((∀ e ∈ history, WalksEnd e.after) ↔ ∀ e ∈ history, KeepsForest e.input e.before) from h.2.2
  induction run with
  | nil => exact ⟨pathIndexed_of_none rfl, fun _ => forest_nil, by simp⟩
  | @cons history before earlier op ih =>
    obtain ⟨hindexed, hbefore, hiff⟩ := ih
    have hlast : WalksEnd (entryAt graphStep op before).after ↔
        Forest (graphStep op before).2.nodes := walksEnd_iff
    refine ⟨graphStep_pathIndexed op hindexed, ?_, ?_⟩
    · intro hall
      exact hlast.mp (hall _ mem_cons_self)
    · rw [forall_mem_cons, forall_mem_cons, hlast, ← hiff]
      constructor
      · rintro ⟨hafter, hall⟩
        exact ⟨(graphStep_forest_iff hindexed (hbefore hall)).mp hafter, hall⟩
      · rintro ⟨hkeeps, hall⟩
        exact ⟨(graphStep_forest_iff hindexed (hbefore hall)).mpr hkeeps, hall⟩

/-- A check by walks that are followed through one id more than there are nodes. -/
def growsCheck : List (SessionNodeRecord Json) → List (SessionNodeRecord Json) → Bool
  | _, [] => true
  | nodes, node :: added =>
    decide (node.nodeId ∉ nodes.map (·.nodeId)) &&
      (walk (parentId nodes) (nodes.length + 1) node.parentNodeId).any
        (fun above => decide (node.nodeId ∉ above)) &&
      growsCheck (nodes ++ [node]) added

theorem grows_of_check (h : growsCheck nodes added = true) : Grows nodes added := by
  induction added generalizing nodes with
  | nil => trivial
  | cons node added ih =>
    rw [growsCheck, Bool.and_eq_true, Bool.and_eq_true, decide_eq_true_eq] at h
    obtain ⟨⟨hnew, hwalk⟩, hrest⟩ := h
    obtain ⟨above, hwalk, haway⟩ := (any_eq_true _ _).mp hwalk
    refine ⟨⟨hnew, fun climbs => ?_⟩, ih hrest⟩
    exact of_decide_eq_true haway (climbs.mem (walk_sound hwalk))

theorem keepsForest_of_check {op : GraphOp Json}
    (h : (grown op graph).all (fun records => growsCheck records.1 records.2) = true) :
    KeepsForest op graph := by
  intro base added hgrown
  rw [hgrown, all_some] at h
  exact grows_of_check h

def recordUnder (id parent : String) : SessionNodeRecord Unit where
  nodeId := id
  parentNodeId := some parent
  causedBy := none
  agentFrameId := none
  timestamp := "t"
  payload := .plugin "note" ()

/-- Messages, a leaf that no node has, a record below it and a fork. -/
def forestOps : List (GraphOp Unit) :=
  [.appendNodeDrafts none [.message (userMessage "m1"), .plugin "note" ()] "t" ["u1"],
    .branchTo (some "gone"), .read,
    .appendNodeDrafts none [.message (userMessage "m1")] "t" [],
    .pushNodeRecord (recordUnder "n1" "message:m1"), .forkCurrentPath]

theorem graph_walks_end_branched :
    let history := (perform graphStep forestOps ([], SessionGraph.default)).1
    ∀ e ∈ history, WalksEnd e.after := by
  intro history
  refine (graph_walks_end_iff (Run.nil.perform forestOps)).mpr fun e he => ?_
  have hchecks : ∀ e ∈ history,
      (grown e.input e.before).all (fun records => growsCheck records.1 records.2) = true := by
    decide
  exact keepsForest_of_check (hchecks e he)

/-- The leaf is set to an id that no node has; a message of that id is appended. -/
def orphanOps : List (GraphOp Unit) :=
  [.branchTo (some "m1"), .appendNodeDrafts none [.message (userMessage "m1")] "t" []]

theorem message_is_its_own_parent :
    let graph := (perform graphStep orphanOps ([], SessionGraph.default)).2
    Made graph ∧ parentId graph.nodes "m1" = some "m1" ∧
      (SessionGraphCache.build graph.inner).isNone ∧ ¬ WalksEnd graph := by
  intro graph
  have hparent : parentId graph.nodes "m1" = some "m1" := by decide
  have hbuild : (build graph.inner).isNone := by decide
  refine ⟨(Run.nil.perform orphanOps).reachable, hparent, hbuild, fun hlaw => ?_⟩
  refine hlaw.acyclic "m1" ?_
  rw [hparent]
  exact .here

end Law

end GraphForests
