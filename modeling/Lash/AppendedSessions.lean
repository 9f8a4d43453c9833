import Lash.EditorReads
import Lash.GrownPaths

/-!
# When appending is all or nothing

The graph in memory is back where it was only if the protocol was not asked or had nothing to
refuse. What was appended is in the store if the commit was accepted, and it can be loaded
again if the stored path to the leaf ends, away from the new ids, and a new plugin takes the
events of that path and of the new nodes.
-/

namespace AppendedSessions

open StoreTypes SessionGraphs RuntimeCommits ActivePaths CacheCoherence GraphLedgers GraphForests
open List
open EditorReads SqliteStore SqliteSteps RuntimeStates TurnBoundaries BoundarySteps
open CommittedHistory FinalCommits RlmStates NodeAppends GrownPaths

variable {Json V Ref : Type} {call : AppendCall Json V Ref} {db : Store Json}

/-! ## The condition -/

/-- The state with the execution state that a load of it finds. -/
def reread (call : AppendCall Json V Ref) (state : RuntimeSessionState Json) :
    RuntimeSessionState Json :=
  { state with
    executionStateSnapshot :=
      state.executionStateSnapshot <|> state.executionStateRef.bind call.blobs }

/-- The new nodes go on with the stored path to the leaf, and a new plugin takes the events
of both. -/
def Replays (call : AppendCall Json V Ref) (db : Store Json) (leaf : Option String)
    (state : RuntimeSessionState Json) (nodes : List (SessionNodeRecord Json)) : Prop :=
  ∃ path, RootToLeaf (visibleNodes db) leaf path ∧
    (∀ node ∈ nodes, breaksOffAt leaf path ≠ some node.nodeId) ∧
    (RlmRuntimeState.new.restore call.rlm state.currentAgentFrameId
      (executionStateSnapshot (reread call state))
      (((path ++ nodes).filter (shown state.currentAgentFrameId
        state.currentAgentFrameIsInitial)).filterMap SessionNodeRecord.event)).1 = .ok ()

/-- The leaf under which nodes are appended; without nodes it is the leaf that is committed. -/
def anchor (found state : RuntimeSessionState Json) (nodes : List (SessionNodeRecord Json)) :
    Option String :=
  if nodes.isEmpty then state.sessionGraph.leafNodeId else found.sessionGraph.leafNodeId

/-- A stale branch is found in the graph that the runtime already had, the protocol refuses an
empty request at most, and what is to be stored is committed and can be replayed. -/
def Permits (call : AppendCall Json V Ref) (request : AppendSessionNodesRequest Json)
    (runtime : LashRuntime Json V Ref) (db : Store Json) : Prop :=
  ∀ prepared, runtime.prepare call request db = some prepared →
    match prepared with
    | .failed _ => True
    | .stale found => found.sessionGraph.inner = runtime.state.sessionGraph.inner
    | .appended found nodeIds state =>
      match appendToPlugin call.rlm request.nodes runtime.session with
      | (.error _, _) =>
        request.nodes = [] ∧
          state.sessionGraph.inner = runtime.state.sessionGraph.inner
      | (.ok (), session) => runtime.hasHistoryStore = true →
          ∀ planned, LashRuntime.planCommit call session nodeIds state = some planned →
            (∃ result, (call.commitWithFreshSessionExecutionLease
              (planned.commit call.host) db).1 = .ok result) ∧
            Replays call db (anchor found state planned.nodes) state planned.nodes

/-- What the call should not leave behind was there before: the graph in memory already had
the nodes at its end, or the stored one did. -/
def Coincides (call : AppendCall Json V Ref) (request : AppendSessionNodesRequest Json)
    (runtime : LashRuntime Json V Ref) (db : Store Json) : Prop :=
  ∃ found nodeIds state,
    runtime.prepare call request db = some (.appended found nodeIds state) ∧
      (request.nodes ≠ [] ∧
          state.sessionGraph.inner = runtime.state.sessionGraph.inner ∨
        Shows call db nodeIds)

/-! ## The commit -/

theorem tryAcquire_frame (sessionId : String) (db : Store Json) :
    ∃ leases, (call.tryAcquire sessionId db).2 = { db with sessionExecutionLeases := leases } := by
  unfold AppendCall.tryAcquire
  cases call.claimFailure with
  | some e => exact ⟨_, rfl⟩
  | none =>
    obtain ⟨claimed, hclaim⟩ := @tryClaimSessionExecutionLease_frame Json db call.sqlite
      sessionId call.owner runtimeTurnLeaseTtlMs
    dsimp only
    generalize db.tryClaimSessionExecutionLease call.sqlite.toHost sessionId call.owner
      runtimeTurnLeaseTtlMs = answer at hclaim
    obtain ⟨outcome, after⟩ := answer
    obtain rfl : after = _ := hclaim
    cases outcome with
    | error e => exact ⟨_, rfl⟩
    | ok outcome =>
      cases outcome with
      | acquired lease => exact ⟨_, rfl⟩
      | busy holder =>
        dsimp only
        split
        · obtain ⟨reclaimed, hreclaim⟩ := @reclaimSessionExecutionLease_frame Json
            { db with sessionExecutionLeases := claimed } call.sqlite
            sessionId call.owner holder.fence runtimeTurnLeaseTtlMs
          generalize Store.reclaimSessionExecutionLease call.sqlite.toHost sessionId
            call.owner holder.fence runtimeTurnLeaseTtlMs
            { db with sessionExecutionLeases := claimed } = answer at hreclaim
          obtain ⟨outcome, after⟩ := answer
          obtain rfl : after = _ := hreclaim
          cases outcome with
          | error e => exact ⟨_, rfl⟩
          | ok outcome => cases outcome <;> exact ⟨_, rfl⟩
        · exact ⟨_, rfl⟩

/-- The two ends of a commit under a lease of its own. -/
inductive LeasedCommit (call : AppendCall Json V Ref) (commit : RuntimeCommit Json)
    (db : Store Json) : Answer Json (RuntimeCommitResult Json) → Prop
  | failed (e : StoreError) (leases : String → Option InMemoryStore.InMemorySessionExecutionLease) :
      LeasedCommit call commit db (.error e, { db with sessionExecutionLeases := leases })
  | applied (graphNodes : GraphNodeTable Json)
      (leases : String → Option InMemoryStore.InMemorySessionExecutionLease)
      (written : writeGraph commit.graph db.graphNodes = some graphNodes) :
      LeasedCommit call commit db (.ok (db.commitResult call.sqlite commit),
        { db.writeCommit call.sqlite commit graphNodes with sessionExecutionLeases := leases })

theorem commitWithFreshSessionExecutionLease_outcome {commit : RuntimeCommit Json}
    (unturned : commit.turnCommit = none) (db : Store Json) :
    LeasedCommit call commit db (call.commitWithFreshSessionExecutionLease commit db) := by
  unfold AppendCall.commitWithFreshSessionExecutionLease
  obtain ⟨leases, hacquired⟩ := @tryAcquire_frame Json V Ref call commit.sessionId db
  generalize call.tryAcquire commit.sessionId db = answer at hacquired
  obtain ⟨outcome, after⟩ := answer
  obtain rfl : after = _ := hacquired
  cases outcome with
  | error e => exact .failed e leases
  | ok acquired =>
    cases acquired with
    | none => exact .failed _ leases
    | some lease =>
      dsimp only
      cases call.commitFailure with
      | some e => exact .failed e leases
      | none =>
        dsimp only
        have houtcome := commitRuntimeState_outcome call.sqlite
          { db with sessionExecutionLeases := leases }
          { commit with
            sessionExecutionLease := some lease.fence
            releaseSessionExecutionLease := some lease.completion }
        generalize Store.commitRuntimeState call.sqlite _ _ = out at houtcome ⊢
        cases houtcome with
        | rejected e fails => exact .failed e leases
        | replayed result bound stored =>
          rw [RuntimeCommit.findReplay] at stored
          simp only [unturned] at stored
          cases stored
        | applied graphNodes accepts written =>
          rw [releaseAfterCommit_eq]
          exact .applied graphNodes _ written

/-! ## The appended nodes -/

section Appended

variable {host : TurnHost Json} {found state : RuntimeSessionState Json}
  {drafts : List (SessionNodeDraft Json)} {tick : Tick} {nodeIds : List String}
  {new : List (SessionNodeRecord Json)}

theorem appendDraftsAt_nil_iff {builder : SessionGraphAppendBuilder} {timestamp : String}
    {draws : List String} (h : builder.appendDraftsAt timestamp drafts draws = some new) :
    new = [] ↔ drafts = [] := by
  cases drafts with
  | nil =>
    obtain rfl : [] = new := Option.some.inj h
    exact ⟨fun _ => rfl, fun _ => rfl⟩
  | cons draft drafts =>
    obtain ⟨prepared, _, h⟩ := Option.bind_eq_some_iff.mp h
    obtain ⟨rest, _, h⟩ := Option.bind_eq_some_iff.mp h
    obtain rfl := Option.some.inj h
    exact ⟨fun hnil => (nomatch hnil), fun hnil => nomatch hnil⟩

/-- What appending to the graph in memory gives. -/
structure Appends (found state : RuntimeSessionState Json) (nodeIds : List String)
    (new : List (SessionNodeRecord Json)) : Prop where
  ids : nodeIds = new.map (·.nodeId)
  chain : FreshChain found.sessionGraph.inner new
  framed : Framed state
  finds : Finds state.sessionGraph new
  nodes : state.sessionGraph.nodes = found.sessionGraph.nodes ++ new
  inner : new ≠ [] → state.sessionGraph.inner = new.foldl withNode found.sessionGraph.inner

theorem healOrphanedLeaf_appended {graph healed : SessionGraph Json} {turned : Bool}
    (distinct : (new.map (·.nodeId)).Nodup)
    (h : (graph.appendPrebuiltNodes new).healOrphanedLeaf = some (turned, healed))
    (hnew : new ≠ []) :
    Warmed (graph.appendPrebuiltNodes new) healed := by
  have hfinds : Finds (graph.appendPrebuiltNodes new) new := finds_appendPrebuiltNodes distinct
  have hleaf : (graph.appendPrebuiltNodes new).leafNodeId = new.getLast?.map (·.nodeId) := by
    rw [SessionGraph.leafNodeId, appendPrebuiltNodes_inner, foldl_withNode_leafNodeId hnew]
  rw [getLast?_eq_some_getLast hnew, Option.map_some] at hleaf
  rw [SessionGraph.healOrphanedLeaf, hleaf] at h
  obtain ⟨⟨found, read⟩, hfound, hpair⟩ := Option.map_eq_some_iff.mp h
  obtain ⟨rfl, hwarmed⟩ := findNode_spec hfinds (getLast_mem hnew) hfound
  obtain ⟨-, rfl⟩ := Prod.mk.inj hpair
  exact hwarmed

theorem appendSessionNodes_spec
    (h : found.appendSessionNodes host drafts tick = some (nodeIds, state)) :
    ∃ new, Appends found state nodeIds new ∧ (new = [] ↔ drafts = []) := by
  obtain ⟨⟨ids, graph⟩, hgraph, h⟩ := Option.bind_eq_some_iff.mp h
  obtain ⟨normalized, hnormalized, h⟩ := Option.bind_eq_some_iff.mp h
  obtain ⟨rfl, rfl⟩ := Prod.mk.inj (Option.some.inj h)
  have hframed := ensureAgentFrameInitialized_framed host found tick.timestamp
  obtain ⟨frames, frameId, hframe⟩ := ensureAgentFrameInitialized_frame host found tick.timestamp
  rw [hframe] at hgraph hnormalized hframed
  obtain ⟨new, hnew, hpair⟩ := Option.map_eq_some_iff.mp hgraph
  obtain ⟨rfl, rfl⟩ := Prod.mk.inj hpair
  obtain ⟨⟨turned, healed⟩, hheal, rfl⟩ := Option.map_eq_some_iff.mp hnormalized
  have hchain : FreshChain found.sessionGraph.inner new := appendBuilder_freshChain hnew
  have hnodes : healed.nodes = found.sessionGraph.nodes ++ new := by
    refine (healOrphanedLeaf_nodes hheal).trans ?_
    rw [SessionGraph.nodes, appendPrebuiltNodes_inner, foldl_withNode_nodes]
    rfl
  have hwarmed : new ≠ [] → Warmed (found.sessionGraph.appendPrebuiltNodes new) healed :=
    healOrphanedLeaf_appended (FreshChain.nodup hchain) hheal
  refine ⟨new, ⟨rfl, hchain, hframed.of_same rfl rfl, ?_, hnodes, fun hne => ?_⟩,
    appendDraftsAt_nil_iff hnew⟩
  · by_cases hne : new = []
    · subst hne
      exact ⟨fun _ hmem => (by cases hmem), fun _ _ _ hmem => by cases hmem⟩
    · exact (finds_appendPrebuiltNodes (FreshChain.nodup hchain)).warmed (hwarmed hne)
  · exact (hwarmed hne).readOf.1.trans (appendPrebuiltNodes_inner new)

end Appended

/-! ## The load -/

section Loads

variable {planned : AppendCommit Json} {graphNodes : GraphNodeTable Json}
  {leases : String → Option InMemoryStore.InMemorySessionExecutionLease}

/-- What a load of the committed session finds. -/
structure Loaded (call : AppendCall Json V Ref) (planned : AppendCommit Json)
    (graph : SessionGraphData Json) (loaded : RuntimeSessionState Json) : Prop where
  graph : loaded.sessionGraph = ⟨graph, none⟩
  frames : loaded.agentFrames = planned.state.agentFrames
  current : loaded.currentAgentFrameId = planned.state.currentAgentFrameId
  snapshot : loaded.executionStateSnapshot = (reread call planned.state).executionStateSnapshot

theorem loaded_of_applied (framed : Framed planned.state)
    (written : writeGraph (planned.commit call.host).graph db.graphNodes = some graphNodes)
    (timestamp : String) :
    ∃ loaded, RuntimeSessionState.loadPersistedSessionState call.host timestamp .fullGraph
        (call.stored { db.writeCommit call.sqlite (planned.commit call.host) graphNodes with
          sessionExecutionLeases := leases }) = some (some loaded) ∧
      Loaded call planned ⟨visibleNodes db ++ planned.nodes,
        planned.state.sessionGraph.leafNodeId⟩ loaded := by
  have hvisible := visible_writeGraph written
  have hframes : (planned.state.agentFrames.map call.host.writeFrame).filterMap
      call.host.readFrame = planned.state.agentFrames := by
    rw [filterMap_map]
    refine (filterMap_congr fun frame _ => ?_).trans filterMap_some
    exact call.host.readFrame_writeFrame frame
  refine ⟨_, rfl, ?_⟩
  unfold RuntimeSessionState.persistedSessionStateFromRead
  dsimp only [AppendCall.stored, Store.writeCommit, AppendCommit.commit,
    persistedStateWithGraphCommit, Option.bind_some]
  rw [Function.update_self, Option.map_some, Option.elim_some,
    ensureAgentFrameInitialized_of_framed]
  · exact ⟨congrArg (SessionGraph.mk · none) (congrArg (SessionGraphData.mk · _) hvisible),
      hframes, rfl, rfl⟩
  · exact ⟨framed.named, (congrArg (any · _) hframes).trans framed.listed⟩

variable {graph : SessionGraphData Json}

theorem restores_iff {state loaded : RuntimeSessionState Json}
    (hgraph : loaded.sessionGraph = ⟨graph, none⟩)
    (hframes : loaded.agentFrames = state.agentFrames)
    (hcurrent : loaded.currentAgentFrameId = state.currentAgentFrameId)
    (hsnapshot : loaded.executionStateSnapshot = (reread call state).executionStateSnapshot) :
    Restores call loaded ↔ ∃ path, RootToLeaf graph.nodes graph.leafNodeId path ∧
      (RlmRuntimeState.new.restore call.rlm state.currentAgentFrameId
        (executionStateSnapshot (reread call state))
        ((path.filter (shown state.currentAgentFrameId
          state.currentAgentFrameIsInitial)).filterMap SessionNodeRecord.event)).1 = .ok () := by
  have hframe : loaded.currentAgentFrame = state.currentAgentFrame := by
    rw [RuntimeSessionState.currentAgentFrame, hframes, hcurrent]
    rfl
  have hinitial : loaded.currentAgentFrameIsInitial = state.currentAgentFrameIsInitial := by
    rw [RuntimeSessionState.currentAgentFrameIsInitial, hframe]
    rfl
  have hexecution : executionStateSnapshot loaded = executionStateSnapshot (reread call state) := by
    rw [executionStateSnapshot, hframe, hsnapshot]
    rfl
  rw [Restores, hcurrent, hexecution]
  constructor
  · rintro ⟨model, hmodel, hrestored⟩
    rw [RuntimeSessionState.readModel, hgraph, hcurrent, hinitial] at hmodel
    obtain ⟨path, hpath, rfl⟩ := (readModelForAgentFrame_iff (coherent_of_none rfl)).mp hmodel
    exact ⟨path, hpath, hrestored⟩
  · rintro ⟨path, hpath, hrestored⟩
    refine ⟨readOf ((path.filter (shown state.currentAgentFrameId
      state.currentAgentFrameIsInitial)).filterMap SessionNodeRecord.event), ?_, hrestored⟩
    rw [RuntimeSessionState.readModel, hgraph, hcurrent, hinitial]
    exact (readModelForAgentFrame_iff (coherent_of_none rfl)).mpr ⟨path, hpath, rfl⟩

theorem activePathNodes_iff {path : List (SessionNodeRecord Json)} :
    (SessionGraph.mk graph none).activePathNodes.map Prod.fst = some path ↔
      RootToLeaf graph.nodes graph.leafNodeId path := by
  have hfork := @forkCurrentPath_iff Json ⟨graph, none⟩ (.fromNodes path graph.leafNodeId)
    (coherent_of_none rfl)
  rw [SessionGraph.forkCurrentPath, Option.map_map] at hfork
  constructor
  · intro h
    obtain ⟨⟨found, read⟩, hread, rfl⟩ := Option.map_eq_some_iff.mp h
    have hleaf : read.leafNodeId = graph.leafNodeId := by
      obtain ⟨⟨cache, warm⟩, hcache, hpair⟩ := Option.map_eq_some_iff.mp hread
      obtain ⟨-, rfl⟩ := Prod.mk.inj hpair
      exact congrArg SessionGraphData.leafNodeId (initCache_warmed hcache).readOf.1
    rw [hread, Option.map_some] at hfork
    obtain ⟨whole, hwhole, heq⟩ :=
      hfork.mp (congrArg (fun leaf => some (SessionGraph.fromNodes found leaf)) hleaf)
    obtain rfl : found = whole := congrArg (·.inner.nodes) heq
    exact hwhole
  · intro h
    obtain ⟨⟨found, read⟩, hread, heq⟩ := Option.map_eq_some_iff.mp (hfork.mpr ⟨path, h, rfl⟩)
    rw [hread, Option.map_some]
    exact congrArg some (congrArg (·.inner.nodes) heq)

end Loads

/-! ## All or nothing -/

section Outcomes

variable {request : AppendSessionNodesRequest Json} {runtime : LashRuntime Json V Ref}

theorem shows_of_leases (leases : String → Option InMemoryStore.InMemorySessionExecutionLease)
    (nodeIds : List String) :
    Shows call { db with sessionExecutionLeases := leases } nodeIds ↔ Shows call db nodeIds :=
  Iff.rfl

theorem stampLivePluginState_frames (host : TurnHost Json)
    (session : Option (LiveSession Json V Ref)) (state : RuntimeSessionState Json) :
    let stamped := stampLivePluginState host session state
    stamped.agentFrames = state.agentFrames ∧
      stamped.currentAgentFrameId = state.currentAgentFrameId ∧
      stamped.executionStateSnapshot = state.executionStateSnapshot ∧
      stamped.executionStateRef = state.executionStateRef := by
  cases session with
  | none | some session => exact ⟨rfl, rfl, rfl, rfl⟩

/-- A planned commit holds the new nodes, on the frames of the state. -/
structure Plans (call : AppendCall Json V Ref) (state : RuntimeSessionState Json)
    (new : List (SessionNodeRecord Json)) (planned : AppendCommit Json) : Prop where
  nodes : planned.nodes = new
  inner : planned.state.sessionGraph.inner = state.sessionGraph.inner
  frames : planned.state.agentFrames = state.agentFrames
  current : planned.state.currentAgentFrameId = state.currentAgentFrameId
  snapshot : (reread call planned.state).executionStateSnapshot =
    (reread call state).executionStateSnapshot

variable {session : Option (LiveSession Json V Ref)} {new : List (SessionNodeRecord Json)}
  {found state : RuntimeSessionState Json} {planned : AppendCommit Json}
  {nodeIds : List String}

theorem plans_of_planCommit (appends : Appends found state nodeIds new)
    (h : LashRuntime.planCommit call session nodeIds state = some planned) :
    Plans call state new planned := by
  obtain ⟨⟨nodes, graph⟩, hnodes, rfl⟩ := Option.map_eq_some_iff.mp h
  rw [appends.ids] at hnodes
  obtain ⟨rfl, hinner⟩ := findNodes_spec appends.finds (List.Subset.refl _) hnodes
  obtain ⟨hframes, hcurrent, hsnapshot, href⟩ := stampLivePluginState_frames call.host session state
  refine ⟨rfl, hinner, hframes, hcurrent, ?_⟩
  unfold reread
  dsimp only
  rw [hsnapshot, href]

/-- What an accepted commit stores shows the new nodes exactly if it can be replayed. -/
theorem shows_committed_iff {graphNodes : GraphNodeTable Json}
    (leases : String → Option InMemoryStore.InMemorySessionExecutionLease)
    (appends : Appends found state nodeIds new) (plans : Plans call state new planned)
    (written : writeGraph (planned.commit call.host).graph db.graphNodes = some graphNodes) :
    Shows call { db.writeCommit call.sqlite (planned.commit call.host) graphNodes with
        sessionExecutionLeases := leases } nodeIds ↔
      Replays call db (anchor found state new) state new := by
  have hframed : Framed planned.state := appends.framed.of_same plans.frames plans.current
  have hleaf : planned.state.sessionGraph.leafNodeId = state.sessionGraph.leafNodeId :=
    congrArg SessionGraphData.leafNodeId plans.inner
  have habsent : ∀ node ∈ new, node.nodeId ∉ (visibleNodes db).map (·.nodeId) := by
    intro node hnode hmem
    obtain ⟨_, hfresh⟩ := ClaimTables.KeyedTable.insertAll_some written
    refine hfresh (nodeRow node) (mem_map_of_mem (plans.nodes ▸ hnode)) ?_
    obtain ⟨other, hother, hsame⟩ := mem_map.mp hmem
    obtain ⟨row, hrow, rfl⟩ := mem_map.mp hother
    exact mem_map.mpr ⟨row, (mem_filter.mp hrow).1, hsame⟩
  -- the stored graph is the one before with the chain under the leaf
  have hstored : ∃ data : SessionGraphData Json, data.nodes = visibleNodes db ∧
      data.leafNodeId = anchor found state new ∧ FreshChain data new ∧
      new.foldl withNode data = ⟨visibleNodes db ++ new, state.sessionGraph.leafNodeId⟩ := by
    refine ⟨⟨visibleNodes db, anchor found state new⟩, rfl, rfl, ?_⟩
    by_cases hne : new = []
    · subst hne
      exact ⟨trivial, by rw [append_nil]; rfl⟩
    · have hanchor : anchor found state new = found.sessionGraph.leafNodeId := by
        rw [anchor, if_neg (by simpa using hne)]
      refine ⟨FreshChain.transfer appends.chain hanchor habsent, foldl_withNode_eq ?_⟩
      rw [foldl_withNode_leafNodeId hne, ← foldl_withNode_leafNodeId hne, ← appends.inner hne]
      rfl
  obtain ⟨data, hnodes, hdataLeaf, hchain, hgrown⟩ := hstored
  have hpaths : ∀ path', RootToLeaf (visibleNodes db ++ new) state.sessionGraph.leafNodeId path' ↔
      ∃ path, RootToLeaf (visibleNodes db) (anchor found state new) path ∧
        (∀ node ∈ new, breaksOffAt (anchor found state new) path ≠ some node.nodeId) ∧
        path' = path ++ new := by
    intro path'
    rw [← hnodes, ← hdataLeaf, ← rootToLeaf_chain_iff hchain, hgrown, hnodes]
  have hload := @loaded_of_applied Json V Ref call db planned _ leases hframed written
  rw [plans.nodes, hleaf] at hload
  have hrestores : ∀ loaded, Loaded call planned
      ⟨visibleNodes db ++ new, state.sessionGraph.leafNodeId⟩ loaded →
      (Restores call loaded ↔ Replays call db (anchor found state new) state new) := by
    intro loaded hloaded
    rw [restores_iff hloaded.graph (hloaded.frames.trans plans.frames)
      (hloaded.current.trans plans.current) (hloaded.snapshot.trans plans.snapshot)]
    constructor
    · rintro ⟨_, hpath, hrestored⟩
      obtain ⟨path, hold, hends, rfl⟩ := (hpaths _).mp hpath
      exact ⟨path, hold, hends, hrestored⟩
    · rintro ⟨path, hold, hends, hrestored⟩
      exact ⟨path ++ new, (hpaths _).mpr ⟨path, hold, hends, rfl⟩, hrestored⟩
  constructor
  · intro hshows
    obtain ⟨loaded, _, hfound, _, _, hrestored⟩ := hshows ""
    obtain ⟨expected, hexpected, hloaded⟩ := hload ""
    obtain rfl : expected = loaded :=
      Option.some.inj (Option.some.inj (hexpected.symm.trans hfound))
    exact (hrestores expected hloaded).mp hrestored
  · intro hreplays timestamp
    obtain ⟨loaded, hfound, hloaded⟩ := hload timestamp
    obtain ⟨path, hold, hends, _⟩ := id hreplays
    refine ⟨loaded, path ++ new, hfound, ?_, ?_, (hrestores loaded hloaded).mpr hreplays⟩
    · rw [hloaded.graph]
      exact activePathNodes_iff.mpr ((hpaths _).mpr ⟨path, hold, hends, rfl⟩)
    · rw [appends.ids, map_append]
      exact suffix_append ..

theorem appendToPlugin_refused_nil {host : RlmHost Json V Ref} {e : String}
    {after : Option (LiveSession Json V Ref)}
    (h : appendToPlugin host [] session = (.error e, after)) : after = session := by
  cases session with
  | none => cases h
  | some session =>
    unfold appendToPlugin RlmRuntimeState.appendSessionNodes at h
    cases hexecution : session.plugin.execution with
    | none =>
      simp only [hexecution] at h
      exact (Prod.mk.inj h).2.symm
    | some globals =>
      simp only [hexecution, filterMap_nil, RlmNamespace.applyEvents] at h
      cases h

theorem appendSessionNodes_of_prepared
    (h : runtime.prepare call request db = some (.appended found nodeIds state)) :
    ∃ new, Appends found state nodeIds new ∧ (new = [] ↔ request.nodes = []) := by
  obtain ⟨refreshed, _, h⟩ := Option.bind_eq_some_iff.mp h
  cases refreshed with
  | error e => cases h
  | ok refreshed =>
    obtain ⟨⟨current, warmed⟩, _, h⟩ := Option.bind_eq_some_iff.mp h
    dsimp only at h
    cases current with
    | false => cases h
    | true =>
      rw [if_pos rfl] at h
      obtain ⟨⟨ids, appended⟩, happended, heq⟩ := Option.map_eq_some_iff.mp h
      cases heq
      exact appendSessionNodes_spec happended

/-- An accepted commit shows the nodes exactly if they can be replayed; any other leaves the
store as it was. -/
theorem shows_persisted (appends : Appends found state nodeIds new)
    (plan : LashRuntime.planCommit call session nodeIds state = some planned) :
    ((∃ result, (call.commitWithFreshSessionExecutionLease (planned.commit call.host) db).1 =
          .ok result) ∧
        (Shows call (LashRuntime.persisted call planned db).2 nodeIds ↔
          Replays call db (anchor found state planned.nodes) state planned.nodes)) ∨
      (Shows call (LashRuntime.persisted call planned db).2 nodeIds ↔ Shows call db nodeIds) ∧
      ¬ ∃ result, (call.commitWithFreshSessionExecutionLease (planned.commit call.host) db).1 =
        .ok result := by
  have hplans := plans_of_planCommit appends plan
  have houtcome := @commitWithFreshSessionExecutionLease_outcome Json V Ref call
    (planned.commit call.host) rfl db
  unfold LashRuntime.persisted
  generalize call.commitWithFreshSessionExecutionLease (planned.commit call.host) db = answer
    at houtcome ⊢
  cases houtcome with
  | failed e leases =>
    exact .inr ⟨shows_of_leases leases nodeIds, fun ⟨_, h⟩ => nomatch h⟩
  | applied graphNodes leases written =>
    refine .inl ⟨⟨_, rfl⟩, ?_⟩
    rw [hplans.nodes]
    exact shows_committed_iff leases appends hplans written

theorem allOrNothing_of_permits (permits : Permits call request runtime db) :
    AllOrNothing call request runtime db := by
  intro reply after db' h
  obtain ⟨prepared, hprepared, h⟩ := Option.bind_eq_some_iff.mp h
  have hpermits := permits prepared hprepared
  cases prepared with
  | failed message =>
    obtain ⟨rfl, rfl, rfl⟩ : .error message = reply ∧ runtime = after ∧ db = db' := by
      simpa using h
    exact ⟨rfl, rfl⟩
  | stale found =>
    obtain ⟨rfl, rfl, rfl⟩ : .ok (.staleBranch found.sessionGraph.leafNodeId) = reply ∧
        { runtime with state := found } = after ∧ db = db' := by
      simpa using h
    exact ⟨hpermits, rfl⟩
  | appended found nodeIds state =>
    dsimp only at h hpermits
    generalize hplugin : appendToPlugin call.rlm request.nodes runtime.session = answer
      at h hpermits
    obtain ⟨answer, session⟩ := answer
    cases answer with
    | error e =>
      dsimp only at h hpermits
      obtain ⟨rfl, rfl, rfl⟩ : .error e = reply ∧
          { runtime with state := state, session := session } = after ∧ db = db' := by
        simpa using h
      obtain ⟨hempty, hinner⟩ := hpermits
      rw [hempty] at hplugin
      refine ⟨hinner, ?_⟩
      rw [appendToPlugin_refused_nil hplugin]
      rfl
    | ok done =>
      dsimp only at h hpermits
      by_cases hstore : runtime.hasHistoryStore = true
      · rw [if_pos hstore] at h
        obtain ⟨planned, hplanned, h⟩ := Option.map_eq_some_iff.mp h
        obtain ⟨rfl, hrest⟩ := Prod.mk.inj h
        obtain ⟨-, rfl⟩ := Prod.mk.inj hrest
        obtain ⟨hcommitted, hreplays⟩ := hpermits hstore planned hplanned
        obtain ⟨new, happends, -⟩ := appendSessionNodes_of_prepared hprepared
        intro _
        rcases shows_persisted happends hplanned with ⟨-, hiff⟩ | ⟨-, hrejected⟩
        · exact hiff.mpr hreplays
        · exact absurd hcommitted hrejected
      · rw [if_neg hstore] at h
        obtain ⟨rfl, -⟩ := Prod.mk.inj (Option.some.inj h)
        exact fun hattached => absurd hattached hstore

theorem permits_of_allOrNothing (apart : ¬ Coincides call request runtime db)
    (whole : AllOrNothing call request runtime db) : Permits call request runtime db := by
  intro prepared hprepared
  cases prepared with
  | failed message => trivial
  | stale found =>
    exact (whole _ _ _ (Option.bind_eq_some_iff.mpr ⟨_, hprepared, rfl⟩)).1
  | appended found nodeIds state =>
    obtain ⟨new, happends, hnil⟩ := appendSessionNodes_of_prepared hprepared
    have hrun : runtime.appendSessionNodes call request db = _ :=
      congrArg (Option.bind · _) hprepared
    dsimp only [Option.bind_some] at hrun ⊢
    generalize hplugin : appendToPlugin call.rlm request.nodes runtime.session = answer
      at hrun ⊢
    obtain ⟨answer, session⟩ := answer
    cases answer with
    | error e =>
      have hbefore := whole _ _ _ hrun
      refine ⟨by_contra fun hnodes => apart ?_, hbefore.1⟩
      exact ⟨found, nodeIds, state, hprepared, .inl ⟨hnodes, hbefore.1⟩⟩
    | ok done =>
      intro hstore planned hplanned
      dsimp only at hrun
      rw [if_pos hstore, hplanned] at hrun
      have hshows := whole _ _ _ hrun hstore
      rcases shows_persisted happends hplanned with ⟨haccepted, hiff⟩ | ⟨hiff, -⟩
      · exact ⟨haccepted, hiff.mp hshows⟩
      · exact absurd ⟨found, nodeIds, state, hprepared, .inr (hiff.mp hshows)⟩ apart

/-- The condition is enough, and it is needed unless what should not be left behind was there
before. -/
theorem appendSessionNodes_allOrNothing (call : AppendCall Json V Ref)
    (request : AppendSessionNodesRequest Json) (runtime : LashRuntime Json V Ref)
    (db : Store Json) :
    (Permits call request runtime db → AllOrNothing call request runtime db) ∧
      (¬ Coincides call request runtime db →
        AllOrNothing call request runtime db → Permits call request runtime db) :=
  ⟨allOrNothing_of_permits, permits_of_allOrNothing⟩

end Outcomes

/-! ## Two events -/

/-- Values in which events and frames can be written. -/
inductive Document where
  | null
  | object (entries : List (String × Document))
  | frame (record : AgentFrameRecord Document)

def Document.frame? : Document → Option (AgentFrameRecord Document)
  | .frame record => some record
  | _ => none

def documentHost : TurnHost Document := hostOf .null .frame Document.frame? fun _ => rfl

def documentRlm : RlmHost Document Document Unit where
  decodeRlmProtocolEvent event :=
    match event.pluginId, event.payload with
    | "rlm", .object [("RlmGlobalsPatch", .object [("set_default", .object entries)])] =>
      some (.rlmGlobalsPatch ⟨entries⟩)
    | _, _ => none
  projectionRefFromSeedValue _ := .ok none
  fromJson value := value
  jsonToFlowValue value := value
  restoreRuntime _ := .error "unsupported RLM snapshot format"

def documentCall : AppendCall Document Document Unit where
  host := documentHost
  rlm := documentRlm
  sqlite := .quiet 0
  blobs _ := none
  owner := .ofOpaque "runtime" "1"
  tick := ⟨"t", ["u1"]⟩
  loadFailure := none
  claimFailure := none
  commitFailure := none

/-- One event that gives these globals their first values. -/
def setDefault (entries : List (String × Document)) : AppendSessionNodesRequest Document where
  nodes := [.protocolEvent
    { pluginId := "rlm"
      payload := .object [("RlmGlobalsPatch", .object [("set_default", .object entries)])] }]
  requiresAncestorNodeId := none

def freshRuntime : LashRuntime Document Document Unit where
  state := .default documentHost "t"
  residency := .keepAll
  session := some
    { plugin := .new
      reads := ⟨0, .null, 0, none⟩
      hasHistoryStore := true }

theorem refused_event_stays_in_the_graph :
    ¬ AllOrNothing documentCall (setDefault [("history", .null)]) freshRuntime Store.new := by
  intro whole
  have hgraph := (whole (.error (readOnlyMessage "history")) _ _ rfl).1
  exact absurd (congrArg (·.nodes.length) hgraph) (by decide)

theorem allOrNothing_first_default :
    AllOrNothing documentCall (setDefault [("count", .null)]) freshRuntime Store.new := by
  refine (appendSessionNodes_allOrNothing ..).1 fun prepared hprepared => ?_
  obtain rfl := Option.some.inj (hprepared.symm.trans (rfl : _ = some (Prepared.appended _ _ _)))
  intro _ planned hplanned
  obtain rfl := Option.some.inj (hplanned.symm.trans (rfl : _ = some (AppendCommit.mk _ _)))
  refine ⟨⟨_, rfl⟩, [], rootToLeaf_none.mpr rfl, fun node _ => ?_, rfl⟩
  exact fun h => nomatch h

end AppendedSessions
