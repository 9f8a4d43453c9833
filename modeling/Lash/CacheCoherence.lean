import Lash.ActivePaths
import Lash.DecimalNames
import Lash.Runs

/-!
# Caches that are patched and caches that are built

An append under the leaf patches an initialized cache in place. The patched
cache is the one that building computes, unless a new node takes the id at which
the active path breaks off: the node then closes a cycle, which the patch does
not see and building does not get out of.
-/

namespace CacheCoherence

open Runs SessionGraphs ActivePaths List Option Prod SessionGraph SessionGraphCache

variable {Json : Type} {data : SessionGraphData Json} {graph : SessionGraph Json}
  {node : SessionNodeRecord Json} {nodes : List (SessionNodeRecord Json)}
  {cache : SessionGraphCache Json}

section Patching

/-- The id above the first node of the active path, if there is one: no node has it. -/
def danglingEnd (graph : SessionGraphData Json) (cache : SessionGraphCache Json) :
    Option String :=
  match cache.activePathIndices.head? with
  | none => graph.leafNodeId
  | some root => (graph.nodes[root]?).bind (·.parentNodeId)

variable (byId : String → Option Nat)

theorem danglingEnd_cacheOf (path : List Nat) (pathNodes : List (SessionNodeRecord Json)) :
    danglingEnd data (cacheOf byId path.reverse pathNodes) = endOf data path := by
  rw [danglingEnd, cacheOf_activePathIndices, head?_reverse]
  rfl

theorem appendNode_cacheOf (activePath : List Nat) (pathNodes : List (SessionNodeRecord Json))
    (nodeIndex : Nat) {leafNodeId : Option String} (child : node.parentNodeId = leafNodeId) :
    (cacheOf byId activePath pathNodes).appendNode nodeIndex node leafNodeId =
      cacheOf (Function.update byId node.nodeId (some nodeIndex)) (activePath ++ [nodeIndex])
        (pathNodes ++ [node]) := by
  have hsnoc : ∀ byId activePath, cacheOf byId activePath (pathNodes ++ [node]) =
      (cacheOf byId activePath pathNodes).readNode node := fun _ _ => by
    rw [cacheOf, foldl_append]
    rfl
  rw [hsnoc, cacheOf_with byId (Function.update byId node.nodeId (some nodeIndex)) activePath
    (activePath ++ [nodeIndex]) pathNodes]
  simp [appendNode, child]

theorem filterMap_withNode {path : List Nat} (bound : ∀ v ∈ path, v < data.nodes.length) :
    (data.nodes.length :: path).reverse.filterMap ((withNode data node).nodes[·]?) =
      path.reverse.filterMap (data.nodes[·]?) ++ [node] := by
  have hold : path.reverse.filterMap ((withNode data node).nodes[·]?) =
      path.reverse.filterMap (data.nodes[·]?) := by
    refine filterMap_congr fun v hv => ?_
    exact getElem?_append_left (bound v (mem_reverse.mp hv))
  rw [reverse_cons, filterMap_append, hold]
  simp [withNode]

/-- Building after one more node under the leaf gives the patched cache, or does not end. -/
theorem build_withNode_iff (fresh : node.nodeId ∉ data.nodes.map (·.nodeId))
    (child : node.parentNodeId = data.leafNodeId) {cache' : SessionGraphCache Json} :
    build (withNode data node) = some cache' ↔ ∃ cache, build data = some cache ∧
        danglingEnd data cache ≠ some node.nodeId ∧
        cache' = cache.appendNode data.nodes.length node data.leafNodeId := by
  have hindex : indexNodes (withNode data node).nodes =
      Function.update (indexNodes data.nodes) node.nodeId (some data.nodes.length) :=
    indexNodes_append data.nodes node
  simp only [build_eq_some_iff, leafWalk_withNode_iff fresh child]
  constructor
  · rintro ⟨_, ⟨path, rfl, w, hend⟩, rfl⟩
    refine ⟨_, ⟨path, w, rfl⟩, ?_, ?_⟩
    · rwa [danglingEnd_cacheOf]
    · rw [appendNode_cacheOf _ _ _ _ child, filterMap_withNode fun v hv => LeafWalk.lt w hv,
        hindex, reverse_cons]
  · rintro ⟨_, ⟨path, w, rfl⟩, hend, rfl⟩
    rw [danglingEnd_cacheOf] at hend
    refine ⟨_, ⟨path, rfl, w, hend⟩, ?_⟩
    rw [appendNode_cacheOf _ _ _ _ child, filterMap_withNode fun v hv => LeafWalk.lt w hv,
      hindex, reverse_cons]

/-- The end of the active path stays where it is. -/
theorem danglingEnd_withNode (built : build data = some cache)
    (child : node.parentNodeId = data.leafNodeId) :
    danglingEnd (withNode data node)
        (cache.appendNode data.nodes.length node data.leafNodeId) =
      danglingEnd data cache := by
  obtain ⟨path, w, rfl⟩ := build_eq_some_iff.mp built
  rw [appendNode_cacheOf _ _ _ _ child, ← reverse_cons, danglingEnd_cacheOf,
    danglingEnd_cacheOf, endOf, endOf]
  cases hpath : path.getLast? with
  | none =>
    rw [getLast?_eq_none_iff.mp hpath]
    simp [withNode, child]
  | some root =>
    have hroot : root < data.nodes.length := LeafWalk.lt w (mem_of_getLast? hpath)
    rw [getLast?_cons, hpath]
    simp only [getD_some, withNode, getElem?_append_left hroot]

end Patching

section Chains

/-- A chain of nodes with new ids that hangs from the leaf. -/
def FreshChain : SessionGraphData Json → List (SessionNodeRecord Json) → Prop
  | _, [] => True
  | data, node :: nodes =>
    node.parentNodeId = data.leafNodeId ∧ node.nodeId ∉ data.nodes.map (·.nodeId) ∧
      FreshChain (withNode data node) nodes

theorem appendPrebuiltNodes_inner (nodes : List (SessionNodeRecord Json)) :
    (graph.appendPrebuiltNodes nodes).inner = nodes.foldl withNode graph.inner := by
  induction nodes generalizing graph with
  | nil => rfl
  | cons node nodes ih => exact @ih (graph.appendPrebuiltNode node)

theorem appendPrebuiltNodes_cache_isSome (nodes : List (SessionNodeRecord Json)) :
    (graph.appendPrebuiltNodes nodes).cache.isSome = graph.cache.isSome := by
  induction nodes generalizing graph with
  | nil => rfl
  | cons node nodes ih =>
    refine (@ih (graph.appendPrebuiltNode node)).trans ?_
    exact isSome_map

theorem build_foldl_withNode_iff (chain : FreshChain data nodes) {cache' : SessionGraphCache Json} :
    build (nodes.foldl withNode data) = some cache' ↔ ∃ cache, build data = some cache ∧
        (∀ node ∈ nodes, danglingEnd data cache ≠ some node.nodeId) ∧
        (appendPrebuiltNodes ⟨data, some cache⟩ nodes).cache = some cache' := by
  induction nodes generalizing data with
  | nil => simp [appendPrebuiltNodes]
  | cons node nodes ih =>
    obtain ⟨child, fresh, rest⟩ := chain
    rw [foldl_cons, ih rest]
    constructor
    · rintro ⟨patched, hpatched, hrest, hcache⟩
      obtain ⟨cache, hbuilt, hnode, rfl⟩ := (build_withNode_iff fresh child).mp hpatched
      rw [danglingEnd_withNode hbuilt child] at hrest
      exact ⟨cache, hbuilt, forall_mem_cons.mpr ⟨hnode, hrest⟩, hcache⟩
    · rintro ⟨cache, hbuilt, hends, hcache⟩
      obtain ⟨hnode, hrest⟩ := forall_mem_cons.mp hends
      refine ⟨_, (build_withNode_iff fresh child).mpr ⟨cache, hbuilt, hnode, rfl⟩, ?_, hcache⟩
      rwa [danglingEnd_withNode hbuilt child]

/-- An initialized cache is the one that building computes. -/
def Coherent (graph : SessionGraph Json) : Prop :=
  ∀ cache, graph.cache = some cache → SessionGraphCache.build graph.inner = some cache

theorem coherent_of_none (uncached : graph.cache = none) : Coherent graph :=
  fun cache hcache => by simp [uncached] at hcache

theorem appendPrebuiltNodes_coherent_iff (coherent : Coherent graph)
    (chain : FreshChain graph.inner nodes) :
    Coherent (graph.appendPrebuiltNodes nodes) ↔ ∀ cache, graph.cache = some cache →
        ∀ node ∈ nodes, danglingEnd graph.inner cache ≠ some node.nodeId := by
  have hsome := @appendPrebuiltNodes_cache_isSome _ graph nodes
  cases hcache : graph.cache with
  | none =>
    rw [hcache, isSome_none, isSome_eq_false_iff, isNone_iff_eq_none] at hsome
    exact ⟨fun _ _ h => (by cases h), fun _ => coherent_of_none hsome⟩
  | some cache =>
    have hbuilt := coherent cache hcache
    rw [hcache, isSome_some, isSome_iff_exists] at hsome
    obtain ⟨patched, hpatched⟩ := hsome
    have hgraph : appendPrebuiltNodes ⟨graph.inner, some cache⟩ nodes =
        graph.appendPrebuiltNodes nodes := by rw [← hcache]
    constructor
    · intro hcoherent c hc
      obtain rfl : cache = c := some.inj hc
      have hfinal := hcoherent patched hpatched
      rw [appendPrebuiltNodes_inner, build_foldl_withNode_iff chain] at hfinal
      obtain ⟨other, hother, hends, _⟩ := hfinal
      obtain rfl : cache = other := some.inj (hbuilt.symm.trans hother)
      exact hends
    · intro hends c hc
      rw [appendPrebuiltNodes_inner, build_foldl_withNode_iff chain]
      exact ⟨cache, hbuilt, hends cache rfl, hgraph ▸ hc⟩

end Chains

section Drafts

variable {existingIds : Finset String} {nodeId : String}

theorem searchSuffix_fresh {base : String} {fuel suffix : Nat}
    (h : searchSuffix existingIds base fuel suffix = some nodeId) : nodeId ∉ existingIds := by
  induction fuel generalizing suffix with
  | zero => cases h
  | succ fuel ih =>
    rw [searchSuffix] at h
    split at h
    · exact ih h
    · rename_i hfree
      exact some.inj h ▸ hfree

theorem searchSuffix_none {base : String} {fuel suffix : Nat}
    (h : searchSuffix existingIds base fuel suffix = none) :
    ∀ k < fuel, s!"{base}:{suffix + k}" ∈ existingIds := by
  induction fuel generalizing suffix with
  | zero => simp
  | succ fuel ih =>
    rw [searchSuffix] at h
    split at h
    · rename_i htaken
      intro k hk
      cases k with
      | zero => exact htaken
      | succ k =>
        have hlater := ih h k (Nat.lt_of_succ_lt_succ hk)
        rwa [Nat.add_assoc, Nat.add_comm 1 k] at hlater
    · cases h

/-- The search for a free suffix comes to an end: there are more candidates than ids. -/
theorem uniqueMessageNodeId_isSome (messageId : String) (existingIds : Finset String) :
    (uniqueMessageNodeId messageId existingIds).isSome := by
  rw [uniqueMessageNodeId]
  split
  · rfl
  · dsimp only
    split
    · rfl
    · rw [isSome_iff_ne_none]
      intro hnone
      have htaken := searchSuffix_none hnone
      have hinjective : Function.Injective fun k : Nat =>
          s!"message:{messageId}" ++ ":" ++ toString (2 + k) := fun j k h =>
        Nat.add_left_cancel (DecimalNames.tagged_injective h)
      have hcard := Finset.card_le_card_of_injOn _
        (fun k hk => htaken k (Finset.mem_range.mp hk)) hinjective.injOn
      rw [Finset.card_range] at hcard
      omega

theorem uniqueMessageNodeId_fresh {messageId : String}
    (h : uniqueMessageNodeId messageId existingIds = some nodeId) : nodeId ∉ existingIds := by
  rw [uniqueMessageNodeId] at h
  dsimp only at h
  split at h
  · rename_i hfree
    exact some.inj h ▸ hfree
  · split at h
    · rename_i hfree
      exact some.inj h ▸ hfree
    · exact searchSuffix_fresh h

variable {draws : List String} {rest : List String}

theorem freshSemanticNodeId_fresh {kind : String}
    (h : freshSemanticNodeId kind existingIds draws = some (nodeId, rest)) :
    nodeId ∉ existingIds := by
  induction draws with
  | nil => cases h
  | cons draw draws ih =>
    rw [freshSemanticNodeId] at h
    split at h
    · exact ih h
    · rename_i hfree
      obtain ⟨rfl, -⟩ := mk.inj (some.inj h)
      exact hfree

variable {builder : SessionGraphAppendBuilder}

theorem prepareDraft_fresh {draft : SessionNodeDraft Json} {causedBy : Option CausalRef}
    {payload : SessionNodePayload Json}
    (h : builder.prepareDraft draft draws = some ((nodeId, causedBy, payload), rest)) :
    nodeId ∉ builder.existingIds := by
  rw [SessionGraphAppendBuilder.prepareDraft] at h
  split at h
  · dsimp only at h
    split at h
    all_goals
      obtain ⟨⟨message, draws⟩, _, h⟩ := bind_eq_some_iff.mp h
      obtain ⟨id, hid, h⟩ := bind_eq_some_iff.mp h
      obtain ⟨⟨rfl, -, -⟩, -⟩ := by simpa using h
      exact uniqueMessageNodeId_fresh hid
  · obtain ⟨⟨id, draws⟩, hid, h⟩ := bind_eq_some_iff.mp h
    obtain ⟨⟨rfl, -, -⟩, -⟩ := by simpa using h
    exact freshSemanticNodeId_fresh hid
  · obtain ⟨⟨id, draws⟩, hid, h⟩ := bind_eq_some_iff.mp h
    obtain ⟨⟨rfl, -, -⟩, -⟩ := by simpa using h
    exact freshSemanticNodeId_fresh hid

variable {drafts : List (SessionNodeDraft Json)} {timestamp : String}

/-- The nodes of a batch of drafts are a fresh chain under the leaf. -/
theorem appendDraftsAt_freshChain (leaf : builder.leafNodeId = data.leafNodeId)
    (ids : ∀ id, id ∈ data.nodes.map (·.nodeId) → id ∈ builder.existingIds)
    (h : builder.appendDraftsAt timestamp drafts draws = some nodes) : FreshChain data nodes := by
  induction drafts generalizing builder data draws nodes with
  | nil =>
    obtain rfl : [] = nodes := some.inj h
    trivial
  | cons draft drafts ih =>
    rw [SessionGraphAppendBuilder.appendDraftsAt] at h
    obtain ⟨⟨⟨nodeId, causedBy, payload⟩, rest⟩, hprepared, h⟩ := bind_eq_some_iff.mp h
    obtain ⟨tail, htail, h⟩ := bind_eq_some_iff.mp h
    obtain rfl := some.inj h
    refine ⟨leaf, fun hmem => prepareDraft_fresh hprepared (ids _ hmem), ih rfl ?_ htail⟩
    intro id hid
    rw [withNode, map_append, mem_append] at hid
    rcases hid with hold | hnew
    · exact Finset.mem_insert_of_mem (ids id hold)
    · obtain rfl : id = nodeId := by simpa using hnew
      exact Finset.mem_insert_self _ _

theorem appendBuilder_freshChain {agentFrameId : Option String}
    (h : (graph.appendBuilder.withAgentFrameId agentFrameId).appendDraftsAt timestamp drafts
      draws = some nodes) : FreshChain graph.inner nodes := by
  refine appendDraftsAt_freshChain ?_ ?_ h
  · cases agentFrameId <;> rfl
  · intro id hid
    have hmem : id ∈ graph.nodeIds := mem_toFinset.mpr hid
    cases agentFrameId <;> exact hmem

end Drafts

section Operations

/-- The operations on a graph. Every reader initializes the cache in the same way;
`fromNodes` is also what a graph that was deserialized is like. -/
inductive GraphOp (Json : Type) where
  | read
  | appendNodeDrafts (agentFrameId : Option String) (drafts : List (SessionNodeDraft Json))
      (timestamp : String) (draws : List String)
  | appendActiveReadDelta (agentFrameId : Option String) (messages : List (Message Json))
      (timestamp : String) (draws : List String)
  | appendActiveConversationMessages (agentFrameId : Option String)
      (messages : List (Message Json)) (timestamp : String) (draws : List String)
  | extendActivePath (nodes : List (SessionNodeRecord Json))
  | branchTo (nodeId : Option String)
  | setLeafNodeId (nodeId : Option String)
  | pushNodeRecord (node : SessionNodeRecord Json)
  | extendNodeRecords (nodes : List (SessionNodeRecord Json))
  | healOrphanedLeaf
  | replaceActiveReadState (agentFrameId : Option String) (messages : List (Message Json))
      (timestamp : String)
  | forkCurrentPath
  | fromNodes (nodes : List (SessionNodeRecord Json)) (leafNodeId : Option String)

def GraphOp.apply (op : GraphOp Json) (graph : SessionGraph Json) :
    Option (SessionGraph Json) :=
  match op with
  | .read => graph.initCache.map Prod.snd
  | .appendNodeDrafts agentFrameId drafts timestamp draws =>
    (graph.appendNodeDraftsScopedAt agentFrameId drafts timestamp draws).map Prod.snd
  | .appendActiveReadDelta agentFrameId messages timestamp draws =>
    graph.appendActiveReadDeltaScoped agentFrameId messages timestamp draws
  | .appendActiveConversationMessages agentFrameId messages timestamp draws =>
    graph.appendActiveConversationMessagesScopedAt agentFrameId messages timestamp draws
  | .extendActivePath nodes => some (graph.extendActivePath nodes)
  | .branchTo nodeId => some (graph.branchTo nodeId)
  | .setLeafNodeId nodeId => some (graph.setLeafNodeId nodeId)
  | .pushNodeRecord node => some (graph.pushNodeRecord node)
  | .extendNodeRecords nodes => some (graph.extendNodeRecords nodes)
  | .healOrphanedLeaf => graph.healOrphanedLeaf.map Prod.snd
  | .replaceActiveReadState agentFrameId messages timestamp =>
    graph.replaceActiveReadStateScoped agentFrameId messages timestamp
  | .forkCurrentPath => graph.forkCurrentPath.map Prod.fst
  | .fromNodes nodes leafNodeId => some (SessionGraph.fromNodes nodes leafNodeId)

/-- An operation that does not come back leaves the graph where it was. -/
def graphStep (op : GraphOp Json) (graph : SessionGraph Json) : Bool × SessionGraph Json :=
  match op.apply graph with
  | some after => (true, after)
  | none => (false, graph)

/-- The graph that the operation appends to, its cache patched, and the nodes. -/
def GraphOp.appended (op : GraphOp Json) (graph : SessionGraph Json) :
    Option (SessionGraph Json × List (SessionNodeRecord Json)) :=
  match op with
  | .appendNodeDrafts agentFrameId drafts timestamp draws =>
    ((graph.appendBuilder.withAgentFrameId agentFrameId).appendDraftsAt timestamp drafts
      draws).map (graph, ·)
  | .appendActiveReadDelta agentFrameId messages timestamp draws => do
      let (readModel, graph) ←
        match agentFrameId with
        | some frameId => graph.readModelForAgentFrame frameId false
        | none => graph.readModel
      let unseen := unseenMessages (readModel.messages.map (·.id)).toFinset messages
      ((graph.appendBuilder.withAgentFrameId agentFrameId).appendDraftsAt timestamp
        (unseen.map .message) draws).map (graph, ·)
  | .appendActiveConversationMessages agentFrameId messages timestamp draws =>
    ((graph.appendBuilder.withAgentFrameId agentFrameId).appendDraftsAt timestamp
      ((messages.filter fun message => !message.isTransient).map .message)
      draws).map (graph, ·)
  | .extendActivePath nodes => some (graph, nodes)
  | _ => none

/-- What `extendActivePath` is for: new nodes that hang from the leaf. -/
def GraphOp.InScope (op : GraphOp Json) (graph : SessionGraph Json) : Prop :=
  match op with
  | .extendActivePath nodes => FreshChain graph.inner nodes
  | _ => True

/-- No node that is appended to a cached graph takes the id at which the active path
breaks off. -/
def GraphOp.AvoidsDanglingEnd (op : GraphOp Json) (graph : SessionGraph Json) : Prop :=
  ∀ target nodes, op.appended graph = some (target, nodes) →
    ∀ cache, target.cache = some cache →
      ∀ node ∈ nodes, danglingEnd target.inner cache ≠ some node.nodeId

instance GraphOp.AvoidsDanglingEnd.decidable (op : GraphOp Json) (graph : SessionGraph Json) :
    Decidable (op.AvoidsDanglingEnd graph) :=
  decidable_of_iff (∀ appended ∈ op.appended graph, ∀ cache ∈ appended.1.cache,
      ∀ node ∈ appended.2, danglingEnd appended.1.inner cache ≠ some node.nodeId)
    ⟨fun h target nodes happended => h (target, nodes) happended,
      fun h appended happended => h appended.1 appended.2 happended⟩

/-- The graph after a read: the same data, and a cache that was there or was built. -/
def ReadOf (graph after : SessionGraph Json) : Prop :=
  after.inner = graph.inner ∧ (Coherent graph → Coherent after)

/-- The graph itself, or the graph with the cache that building computes. -/
def Warmed (graph after : SessionGraph Json) : Prop :=
  after = graph ∨ ∃ cache, SessionGraphCache.build graph.inner = some cache ∧
    after = { graph with cache := some cache }

variable {after : SessionGraph Json}

theorem Warmed.readOf (warmed : Warmed graph after) : ReadOf graph after := by
  rcases warmed with rfl | ⟨built, hbuilt, rfl⟩
  · exact ⟨rfl, id⟩
  · refine ⟨rfl, fun _ c hc => ?_⟩
    obtain rfl : built = c := some.inj hc
    exact hbuilt

theorem initCache_warmed (h : graph.initCache = some (cache, after)) : Warmed graph after := by
  rw [initCache] at h
  split at h
  · obtain ⟨-, rfl⟩ := mk.inj (some.inj h)
    exact .inl rfl
  · obtain ⟨built, hbuilt, h⟩ := map_eq_some_iff.mp h
    obtain ⟨rfl, rfl⟩ := mk.inj h
    exact .inr ⟨built, hbuilt, rfl⟩

variable {readModel : SessionReadModel Json}

theorem readModel_warmed (h : graph.readModel = some (readModel, after)) : Warmed graph after := by
  obtain ⟨⟨cache, target⟩, hcache, h⟩ := map_eq_some_iff.mp h
  obtain ⟨-, rfl⟩ := mk.inj h
  exact initCache_warmed hcache

theorem readModelForAgentFrame_warmed {frameId : String} {includeUnscoped : Bool}
    (h : graph.readModelForAgentFrame frameId includeUnscoped = some (readModel, after)) :
    Warmed graph after := by
  rw [SessionGraph.readModelForAgentFrame] at h
  split at h
  · exact readModel_warmed h
  · obtain ⟨⟨cache, target⟩, hcache, h⟩ := map_eq_some_iff.mp h
    obtain ⟨-, rfl⟩ := mk.inj h
    exact initCache_warmed hcache

theorem appendMessageBatchScopedAt_eq (agentFrameId : Option String)
    (messages : List (Message Json)) (timestamp : String) (draws : List String) :
    graph.appendMessageBatchScopedAt agentFrameId messages timestamp draws =
      ((graph.appendBuilder.withAgentFrameId agentFrameId).appendDraftsAt timestamp
        (messages.map .message) draws).map graph.appendPrebuiltNodes := by
  rw [appendMessageBatchScopedAt, appendNodeDraftsScopedAt]
  split
  · rename_i hempty
    rw [isEmpty_iff.mp hempty]
    rfl
  · rw [Option.map_map]
    rfl

def GraphOp.Appends : GraphOp Json → Prop
  | .appendNodeDrafts .. | .appendActiveReadDelta .. | .appendActiveConversationMessages ..
  | .extendActivePath .. => True
  | _ => False

variable {op : GraphOp Json} {target : SessionGraph Json}

theorem appends_of_appended (h : op.appended graph = some (target, nodes)) : op.Appends := by
  cases op with
  | appendNodeDrafts | appendActiveReadDelta | appendActiveConversationMessages
  | extendActivePath => trivial
  | _ => cases h

theorem apply_of_appends (appends : op.Appends) :
    op.apply graph = (op.appended graph).map fun appended =>
      appended.1.appendPrebuiltNodes appended.2 := by
  cases op with
  | appendNodeDrafts agentFrameId drafts timestamp draws =>
    rw [GraphOp.apply, appendNodeDraftsScopedAt, GraphOp.appended, Option.map_map, Option.map_map]
    rfl
  | appendActiveReadDelta agentFrameId messages timestamp draws =>
    cases agentFrameId with
    | none | some frameId =>
      refine Eq.trans ?_ map_bind.symm
      refine bind_congr fun read _ => (appendMessageBatchScopedAt_eq ..).trans ?_
      simp only [Function.comp_apply, Option.map_map]
      rfl
  | appendActiveConversationMessages agentFrameId messages timestamp draws =>
    rw [GraphOp.apply, appendActiveConversationMessagesScopedAt,
      appendMessageBatchScopedAt_eq, GraphOp.appended, Option.map_map]
    rfl
  | extendActivePath extension => rfl
  | _ => cases appends

/-- An appending operation patches a fresh chain of nodes into its target. -/
theorem appended_spec (h : op.appended graph = some (target, nodes)) :
    op.apply graph = some (target.appendPrebuiltNodes nodes) ∧ Warmed graph target ∧
      (op.InScope graph → FreshChain target.inner nodes) := by
  refine ⟨by rw [apply_of_appends (appends_of_appended h), h, map_some], ?_⟩
  cases op with
  | appendNodeDrafts agentFrameId drafts timestamp draws
  | appendActiveConversationMessages agentFrameId messages timestamp draws =>
    obtain ⟨appended, hnodes, h⟩ := map_eq_some_iff.mp h
    obtain ⟨rfl, rfl⟩ := mk.inj h
    exact ⟨.inl rfl, fun _ => appendBuilder_freshChain hnodes⟩
  | appendActiveReadDelta agentFrameId messages timestamp draws =>
    cases agentFrameId with
    | none =>
      obtain ⟨⟨readModel, read⟩, hread, h⟩ := bind_eq_some_iff.mp h
      obtain ⟨appended, hnodes, h⟩ := map_eq_some_iff.mp h
      obtain ⟨rfl, rfl⟩ := mk.inj h
      exact ⟨readModel_warmed hread, fun _ => appendBuilder_freshChain hnodes⟩
    | some frameId =>
      obtain ⟨⟨readModel, read⟩, hread, h⟩ := bind_eq_some_iff.mp h
      obtain ⟨appended, hnodes, h⟩ := map_eq_some_iff.mp h
      obtain ⟨rfl, rfl⟩ := mk.inj h
      exact ⟨readModelForAgentFrame_warmed hread, fun _ => appendBuilder_freshChain hnodes⟩
  | extendActivePath extension =>
    obtain ⟨rfl, rfl⟩ := mk.inj (some.inj h)
    exact ⟨.inl rfl, id⟩
  | _ => cases h

/-- Healing reads the graph, or moves the leaf of what it read and drops the cache. -/
theorem healOrphanedLeaf_cases {healed : Bool} (h : graph.healOrphanedLeaf = some (healed, after)) :
    healed = false ∧ Warmed graph after ∨
      healed = true ∧ after.cache = none ∧ after.nodes = graph.nodes := by
  rw [healOrphanedLeaf] at h
  split at h
  · obtain ⟨rfl, rfl⟩ := mk.inj (some.inj h)
    exact .inl ⟨rfl, .inl rfl⟩
  · obtain ⟨⟨found, read⟩, hfound, h⟩ := map_eq_some_iff.mp h
    obtain ⟨⟨cache, cached⟩, hread, hpair⟩ := map_eq_some_iff.mp hfound
    obtain ⟨-, rfl⟩ := mk.inj hpair
    dsimp only at h
    split at h
    · obtain ⟨rfl, rfl⟩ := mk.inj h
      have hnodes := congrArg SessionGraphData.nodes (initCache_warmed hread).readOf.1
      exact .inr ⟨rfl, rfl, hnodes⟩
    · obtain ⟨rfl, rfl⟩ := mk.inj h
      exact .inl ⟨rfl, initCache_warmed hread⟩

theorem healOrphanedLeaf_nodes {healed : Bool}
    (h : graph.healOrphanedLeaf = some (healed, after)) : after.nodes = graph.nodes := by
  rcases healOrphanedLeaf_cases h with ⟨-, warmed⟩ | ⟨-, -, hnodes⟩
  · exact congrArg SessionGraphData.nodes warmed.readOf.1
  · exact hnodes

/-- An operation that appends nothing reads the graph or drops the cache. -/
theorem apply_of_not_appended (h : op.apply graph = some after) (still : op.appended graph = none) :
    Warmed graph after ∨ after.cache = none := by
  have hrests : ¬ op.Appends := fun appends => by
    rw [apply_of_appends appends, still] at h
    cases h
  cases op with
  | read =>
    obtain ⟨⟨cache, read⟩, hread, rfl⟩ := map_eq_some_iff.mp h
    exact .inl (initCache_warmed hread)
  | healOrphanedLeaf =>
    obtain ⟨⟨healed, target⟩, hheal, rfl⟩ := map_eq_some_iff.mp h
    rcases healOrphanedLeaf_cases hheal with ⟨-, warmed⟩ | ⟨-, cleared, -⟩
    · exact .inl warmed
    · exact .inr cleared
  | replaceActiveReadState agentFrameId messages timestamp =>
    obtain ⟨⟨current, read⟩, _, h⟩ := bind_eq_some_iff.mp h
    obtain ⟨replacement, _, h⟩ := bind_eq_some_iff.mp h
    obtain rfl := some.inj h
    exact .inr rfl
  | forkCurrentPath =>
    obtain ⟨⟨fork, read⟩, hfork, rfl⟩ := map_eq_some_iff.mp h
    obtain ⟨⟨path, target⟩, _, hpair⟩ := map_eq_some_iff.mp hfork
    obtain ⟨rfl, -⟩ := mk.inj hpair
    exact .inr rfl
  | appendNodeDrafts | appendActiveReadDelta | appendActiveConversationMessages
  | extendActivePath => exact absurd trivial hrests
  | _ =>
    obtain rfl := some.inj h
    exact .inr rfl

/-- One step keeps a coherent graph coherent exactly if it avoids the dangling end. -/
theorem graphStep_coherent_iff (coherent : Coherent graph) (scope : op.InScope graph) :
    Coherent (graphStep op graph).2 ↔ op.AvoidsDanglingEnd graph := by
  cases happended : op.appended graph with
  | some appended =>
    obtain ⟨target, nodes⟩ := appended
    obtain ⟨happly, hwarmed, hchain⟩ := appended_spec happended
    have htarget := hwarmed.readOf.2
    rw [graphStep, happly]
    refine (appendPrebuiltNodes_coherent_iff (htarget coherent) (hchain scope)).trans ?_
    constructor
    · intro havoids other others h
      obtain ⟨rfl, rfl⟩ := mk.inj (some.inj (happended.symm.trans h))
      exact havoids
    · intro havoids
      exact havoids target nodes happended
  | none =>
    have havoids : op.AvoidsDanglingEnd graph := fun _ _ h => by
      rw [happended] at h
      cases h
    refine iff_of_true ?_ havoids
    rw [graphStep]
    split
    · rename_i after happly
      rcases apply_of_not_appended happly happended with hwarmed | hnone
      · exact hwarmed.readOf.2 coherent
      · exact coherent_of_none hnone
    · exact coherent

end Operations

section Law

/-- The cache is the built one, and the readers show what a built cache holds; where
building does not end, neither do they. -/
structure CacheLaw (graph : SessionGraph Json) : Prop where
  coherent : Coherent graph
  readModel : graph.readModel.map Prod.fst =
    (SessionGraphCache.build graph.inner).map fun cache =>
      { activeEvents := cache.activeEvents, messages := cache.activeMessages }
  activePathNodes : graph.activePathNodes.map Prod.fst =
    (SessionGraphCache.build graph.inner).map fun cache =>
      cache.activePathIndices.filterMap (graph.nodes[·]?)

theorem initCache_eq (coherent : Coherent graph) :
    graph.initCache = (build graph.inner).map fun cache =>
      (cache, { graph with cache := some cache }) := by
  rw [initCache]
  split
  · rename_i cache hcache
    rw [coherent cache hcache, map_some, ← hcache]
  · rfl

theorem cacheLaw_iff : CacheLaw graph ↔ Coherent graph := by
  refine ⟨CacheLaw.coherent, fun coherent => ⟨coherent, ?_, ?_⟩⟩
  · rw [readModel, initCache_eq coherent, Option.map_map, Option.map_map]
    rfl
  · rw [activePathNodes, initCache_eq coherent, Option.map_map, Option.map_map]
    rfl

variable {history : List (Entry (GraphOp Json) (SessionGraph Json) Bool)}

/-- In a run from the empty graph every cache is what building computes, and no reader
shows a stale view, exactly if no append takes the id at which the active path of a
cached graph breaks off. -/
theorem caches_coherent_iff (run : Run graphStep SessionGraph.default history graph)
    (scope : ∀ e ∈ history, e.input.InScope e.before) :
    (∀ e ∈ history, CacheLaw e.after) ↔ ∀ e ∈ history, e.input.AvoidsDanglingEnd e.before := by
  suffices h : ((∀ e ∈ history, CacheLaw e.after) → Coherent graph) ∧
      ((∀ e ∈ history, CacheLaw e.after) ↔
        ∀ e ∈ history, e.input.AvoidsDanglingEnd e.before) from h.2
  induction run with
  | nil => exact ⟨fun _ => coherent_of_none rfl, by simp⟩
  | @cons history before earlier op ih =>
    obtain ⟨hbefore, hiff⟩ := ih fun e he => scope e (mem_cons_of_mem _ he)
    have hscope : op.InScope before := scope (entryAt graphStep op before) mem_cons_self
    have hlast : CacheLaw (entryAt graphStep op before).after ↔
        Coherent (graphStep op before).2 := cacheLaw_iff
    rw [forall_mem_cons, forall_mem_cons, hlast, ← hiff]
    refine ⟨And.left, ?_⟩
    constructor
    · rintro ⟨hafter, hall⟩
      exact ⟨(graphStep_coherent_iff (hbefore hall) hscope).mp hafter, hall⟩
    · rintro ⟨havoids, hall⟩
      exact ⟨(graphStep_coherent_iff (hbefore hall) hscope).mpr havoids, hall⟩

def userMessage (id : String) : Message Unit where
  id := id
  role := .user
  parts := []
  origin := none

/-- Appends, a branch and a read delta, with the cache initialized from the start. -/
def branchedOps : List (GraphOp Unit) :=
  [.read,
    .appendNodeDrafts none [.message (userMessage "m1"), .plugin "note" ()] "t" ["u1"],
    .branchTo (some "m1"), .read,
    .appendActiveReadDelta none [userMessage "m1", userMessage "m2"] "t" []]

theorem caches_coherent_branched :
    let history := (perform graphStep branchedOps ([], SessionGraph.default)).1
    (∀ e ∈ history, e.input.InScope e.before) ∧ ∀ e ∈ history, CacheLaw e.after := by
  intro history
  have hscope : ∀ e ∈ history, e.input.InScope e.before := by
    simp [history, branchedOps, perform, entryAt, GraphOp.InScope]
  refine ⟨hscope, (caches_coherent_iff (Run.nil.perform branchedOps) hscope).mpr ?_⟩
  decide

/-- The leaf is set to a node that does not exist, the empty view is read, and then a
message of that id is appended. -/
def danglingOps : List (GraphOp Unit) :=
  [.branchTo (some "m1"), .read, .appendNodeDrafts none [.message (userMessage "m1")] "t" []]

theorem dangling_leaf_breaks_caches :
    let history := (perform graphStep danglingOps ([], SessionGraph.default)).1
    let graph := (perform graphStep danglingOps ([], SessionGraph.default)).2
    Run graphStep SessionGraph.default history graph ∧ (∀ e ∈ history, e.input.InScope e.before) ∧
      graph.readModel.map (·.1.messages) = some [userMessage "m1"] ∧
      (SessionGraphCache.build graph.inner).isNone ∧ ¬ ∀ e ∈ history, CacheLaw e.after := by
  intro history graph
  have hread : graph.readModel.map (·.1.messages) = some [userMessage "m1"] := by
    decide
  have hbuild : (build graph.inner).isNone := by decide
  refine ⟨Run.nil.perform danglingOps, ?_, hread, hbuild, fun hlaw => ?_⟩
  · simp [history, danglingOps, perform, entryAt, GraphOp.InScope]
  · have hlast : CacheLaw graph := (forall_mem_cons.mp hlaw).1
    have hnone : graph.readModel = none := by
      simpa [isNone_iff_eq_none.mp hbuild] using hlast.readModel
    rw [hnone] at hread
    cases hread

end Law

section Leafless

/-- The graphs that the operations make. -/
abbrev Made (graph : SessionGraph Json) : Prop :=
  Reachable graphStep SessionGraph.default graph

theorem appendPrebuiltNodes_leaf (hnodes : nodes ≠ []) :
    (graph.appendPrebuiltNodes nodes).leafNodeId ≠ none := by
  obtain ⟨front, last, rfl⟩ := (eq_nil_or_concat nodes).resolve_left hnodes
  simp [appendPrebuiltNodes, appendPrebuiltNode, leafNodeId]

/-- A graph without a leaf has no active path, whichever operations made it. -/
theorem Made.leafless_coherent (made : Made graph) (leafless : graph.leafNodeId = none) :
    Coherent graph := by
  refine made.invariant (P := fun graph : SessionGraph Json =>
    graph.leafNodeId = none → Coherent graph) (fun _ => coherent_of_none rfl) ?_ leafless
  intro graph op hgraph hafter
  cases happended : op.appended graph with
  | some appended =>
    obtain ⟨target, nodes⟩ := appended
    obtain ⟨happly, hwarmed, -⟩ := appended_spec happended
    obtain ⟨hinner, hread⟩ := hwarmed.readOf
    have hstep : (graphStep op graph).2 = target.appendPrebuiltNodes nodes := by
      rw [graphStep, happly]
    rw [hstep] at hafter ⊢
    by_cases hnodes : nodes = []
    · subst hnodes
      have hleaf : graph.leafNodeId = none := by
        rw [leafNodeId, ← hinner]
        exact hafter
      exact hread (hgraph hleaf)
    · exact absurd hafter (appendPrebuiltNodes_leaf hnodes)
  | none =>
    cases happly : op.apply graph with
    | some after =>
      have hstep : (graphStep op graph).2 = after := by rw [graphStep, happly]
      rw [hstep] at hafter ⊢
      rcases apply_of_not_appended happly happended with hwarmed | hnone
      · obtain ⟨hinner, hread⟩ := hwarmed.readOf
        have hleaf : graph.leafNodeId = none := by
          rw [leafNodeId, ← hinner]
          exact hafter
        exact hread (hgraph hleaf)
      · exact coherent_of_none hnone
    | none =>
      have hstep : (graphStep op graph).2 = graph := by rw [graphStep, happly]
      rw [hstep] at hafter ⊢
      exact hgraph hafter

end Leafless

end CacheCoherence
