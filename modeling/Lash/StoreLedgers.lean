import Lash.GraphLedgers
import Lash.SqliteSteps

/-!
# The stores follow the ledger of the graph writes

What a call has written to the graph is read off from its answer. The in-memory
store holds the ledger of what was written to it, and so does the database, whose
rows have distinct ids and carry a flag each instead of a set of hidden ids.
-/

namespace StoreLedgers

open Runs StoreTypes SessionGraphs RuntimeCommits ClaimTables InMemoryStore GraphLedgers List Option

variable {Json : Type}

section Writes

/-- What a call has written to the graph: a commit that the turn-commit ledger did not
know and that was accepted writes its delta. -/
def writeOf (known : TurnCommitLedger Json) (op : Op Json) (reply : Reply Json) :
    Option (GraphWrite Json) :=
  match op, reply with
  | .commitRuntimeState commit, .commit (.ok _) =>
    match commit.findReplay known with
    | .ok none => some (.commit commit.graph)
    | _ => none
  | .tombstoneNodes ids, _ => some (.tombstone ids)
  | .vacuum, _ => some .vacuum
  | _, _ => none

variable {result : RuntimeCommitResult Json} {known : TurnCommitLedger Json}

theorem writeOf_of_replay {commit : RuntimeCommit Json} {stored : RuntimeCommitResult Json}
    (h : commit.findReplay known = .ok (some stored)) :
    writeOf known (.commitRuntimeState commit) (.commit (.ok result)) = none := by
  simp only [writeOf, h]

theorem writeOf_of_applied {commit : RuntimeCommit Json} (h : commit.findReplay known = .ok none) :
    writeOf known (.commitRuntimeState commit) (.commit (.ok result)) =
      some (.commit commit.graph) := by
  simp only [writeOf, h]

def storeWrite (e : StoreEntry Json) : Option (GraphWrite Json) :=
  writeOf e.before.runtimeTurnCommits e.input.2 e.output

def databaseWrite (e : SqliteStore.SqliteEntry Json) : Option (GraphWrite Json) :=
  writeOf e.before.runtimeTurnCommits e.input.2 e.output

end Writes

section InMemory

open StoreSteps

variable {store after : InMemorySessionStore Json}

/-- The ledger that the in-memory store holds. -/
def storeLedger (store : InMemorySessionStore Json) : GraphLedger Json where
  nodes := store.sessionGraph.nodes
  hidden := store.tombstonedNodeIds
  leaf := store.sessionHeadMeta.map (·.leafNodeId)

/-- The stored graph after a write. -/
def writtenGraph (store : InMemorySessionStore Json) : GraphWrite Json → SessionGraph Json
  | .commit delta => (applyGraphDelta delta store.sessionGraph).1
  | .tombstone _ => store.sessionGraph
  | .vacuum =>
    if store.tombstonedNodeIds = ∅ then store.sessionGraph
    else withoutNodes store.tombstonedNodeIds store.sessionGraph

/-- A call writes to the graph what `writeOf` says it does. -/
structure Follows (store after : InMemorySessionStore Json)
    (write : Option (GraphWrite Json)) : Prop where
  graph : after.sessionGraph = write.elim store.sessionGraph (writtenGraph store)
  ledger : storeLedger after = write.elim (storeLedger store) (·.apply (storeLedger store))

theorem follows_of_same (graph : after.sessionGraph = store.sessionGraph)
    (hidden : after.tombstonedNodeIds = store.tombstonedNodeIds)
    (head : after.sessionHeadMeta = store.sessionHeadMeta) : Follows store after none where
  graph := graph
  ledger := by
    rw [elim_none, storeLedger, storeLedger, graph, hidden, head]

theorem applyGraphDelta_nodes (delta : GraphCommitDelta Json) (graph : SessionGraph Json) :
    (applyGraphDelta delta graph).1.nodes = accumulate graph.nodes delta ∧
      (applyGraphDelta delta graph).2 = (writtenNodes delta).map (·.nodeId) := by
  cases delta with
  | unchanged leaf | append nodes leaf | replaceFull next => exact ⟨rfl, rfl⟩

theorem commit_follows (host : Host) (commit : RuntimeCommit Json)
    (store : InMemorySessionStore Json) :
    Follows store (store.commitRuntimeState host commit).2
      (writeOf store.runtimeTurnCommits (.commitRuntimeState commit)
        (.commit (store.commitRuntimeState host commit).1)) := by
  have houtcome := commitRuntimeState_outcome host store commit
  generalize store.commitRuntimeState host commit = out at houtcome
  cases houtcome with
  | rejected e front | queueExpired e front fails | inputsExpired e front queue fails =>
    exact follows_of_same rfl rfl rfl
  | replayed result bound stored =>
    rw [writeOf_of_replay stored]
    rw [releaseAfterCommit_eq]
    exact follows_of_same rfl rfl rfl
  | applied front queue inputs =>
    rw [writeOf_of_applied front.2.1]
    rw [releaseAfterCommit_eq]
    obtain ⟨hnodes, hids⟩ := applyGraphDelta_nodes commit.graph store.sessionGraph
    refine ⟨rfl, ?_⟩
    simp only [storeLedger, InMemorySessionStore.writeCommit, elim_some,
      GraphWrite.apply, hnodes, hids, map_some]

theorem vacuum_follows (store : InMemorySessionStore Json) :
    Follows store store.vacuum.2 (some .vacuum) := by
  rw [InMemorySessionStore.vacuum]
  by_cases hnone : store.tombstonedNodeIds = ∅
  · have hall : store.sessionGraph.nodes.filter (isVisible store.tombstonedNodeIds) =
        store.sessionGraph.nodes :=
      filter_eq_self.mpr fun node _ => by simp [isVisible, hnone]
    refine ⟨by simp [writtenGraph, hnone], ?_⟩
    simp only [if_pos hnone, storeLedger, elim_some, GraphWrite.apply, hall]
    rw [hnone]
  · refine ⟨by simp [writtenGraph, hnone], ?_⟩
    simp only [if_neg hnone]
    rfl

theorem step_follows (call : Host × Op Json) (store : InMemorySessionStore Json) :
    Follows store (step call store).2
      (writeOf store.runtimeTurnCommits call.2 (step call store).1) := by
  obtain ⟨host, op⟩ := call
  have hwithin := step_withinArea (host, op) store
  cases op with
  | commitRuntimeState commit => exact commit_follows host commit store
  | saveSessionMeta record => exact follows_of_same rfl rfl rfl
  | tombstoneNodes ids => exact ⟨rfl, rfl⟩
  | vacuum => exact vacuum_follows store
  | tryClaimSessionExecutionLease sessionId owner leaseTtlMs
  | reclaimSessionExecutionLease sessionId owner observed leaseTtlMs
  | renewSessionExecutionLease fence leaseTtlMs
  | releaseSessionExecutionLease completion =>
    obtain ⟨_, h⟩ := hwithin
    exact follows_of_same (by rw [h]) (by rw [h]) (by rw [h])
  | enqueuePendingTurnInput draft
  | cancelPendingTurnInput sessionId inputId
  | claimActiveTurnInputs sessionId fence owner turnId checkpoint leaseTtlMs maxInputs
  | claimNextTurnInputs sessionId fence owner leaseTtlMs maxInputs
  | abandonTurnInputClaim claim
  | enqueueQueuedWork draft
  | claimLeadingReadySessionCommand sessionId fence owner leaseTtlMs
  | claimReadyQueuedWork sessionId fence owner boundary leaseTtlMs maxBatches
  | renewQueuedWorkClaim claim leaseTtlMs
  | abandonQueuedWorkClaim claim
  | cancelQueuedWorkBatch sessionId batchId =>
    obtain ⟨_, _, h⟩ := hwithin
    exact follows_of_same (by rw [h]) (by rw [h]) (by rw [h])

end InMemory

section Database

open SqliteStore SqliteSteps

variable {db : Store Json} {ledger : GraphLedger Json}

/-- The rows and the head of the database are those of the ledger. -/
structure Holds (db : Store Json) (ledger : GraphLedger Json) : Prop where
  nodes : db.graphNodes.rows.map (·.node) = ledger.nodes
  hidden : ∀ row ∈ db.graphNodes.rows,
    row.tombstoned = decide (row.node.nodeId ∈ ledger.hidden)
  leaf : db.sessionHead.map (·.leafNodeId) = ledger.leaf

section

variable (holds : Holds db ledger)
include holds

theorem Holds.of_same {after : Store Json} (graphNodes : after.graphNodes = db.graphNodes)
    (head : after.sessionHead = db.sessionHead) :
    Holds after ledger where
  nodes := by rw [graphNodes, holds.nodes]
  hidden := by rw [graphNodes]; exact holds.hidden
  leaf := by rw [head, holds.leaf]

/-- Inserted rows have ids that no row had, so no tombstone is lifted from an old row. -/
theorem writeGraph_spec {delta : GraphCommitDelta Json} {graphNodes : GraphNodeTable Json}
    (h : writeGraph delta db.graphNodes = some graphNodes) :
    graphNodes.rows.map (·.node) = accumulate ledger.nodes delta ∧
      ∀ row ∈ graphNodes.rows, row.tombstoned = decide (row.node.nodeId ∈ ledger.hidden \
          ((writtenNodes delta).map (·.nodeId)).toFinset) := by
  have hnew : ∀ nodes : List (SessionNodeRecord Json),
      (nodes.map nodeRow).map (·.node) = nodes := fun nodes => by
    rw [List.map_map]
    exact map_id _
  have hwritten : ∀ nodes : List (SessionNodeRecord Json), ∀ row ∈ nodes.map nodeRow,
      row.tombstoned = decide (row.node.nodeId ∈
        ledger.hidden \ (nodes.map (·.nodeId)).toFinset) := by
    intro nodes row hrow
    obtain ⟨node, hnode, rfl⟩ := mem_map.mp hrow
    have hid : node.nodeId ∈ (nodes.map (·.nodeId)).toFinset :=
      mem_toFinset.mpr (mem_map_of_mem hnode)
    simp [nodeRow, hid]
  cases delta with
  | unchanged leaf =>
    obtain rfl : db.graphNodes = graphNodes := some.inj h
    refine ⟨holds.nodes, fun row hrow => ?_⟩
    rw [holds.hidden row hrow]
    simp [writtenNodes]
  | append nodes leaf =>
    obtain ⟨hrows, hfree⟩ := KeyedTable.insertAll_some h
    rw [hrows, map_append, holds.nodes, hnew]
    refine ⟨rfl, fun row hrow => ?_⟩
    rcases mem_append.mp hrow with hold | hrow
    · rw [holds.hidden row hold]
      have hother : row.node.nodeId ∉ (nodes.map (·.nodeId)).toFinset := by
        intro hmem
        obtain ⟨node, hnode, hid⟩ := mem_map.mp (mem_toFinset.mp hmem)
        refine hfree (nodeRow node) (mem_map_of_mem hnode) ?_
        exact hid ▸ mem_map_of_mem hold
      simp [writtenNodes, hother, -List.mem_toFinset]
    · exact hwritten nodes row hrow
  | replaceFull graph =>
    obtain ⟨hrows, _⟩ := KeyedTable.insertAll_some h
    rw [hrows]
    refine ⟨hnew graph.nodes, fun row hrow => ?_⟩
    exact hwritten graph.nodes row hrow

theorem Holds.commit (host : SqliteHost Json) (commit : RuntimeCommit Json) :
    Holds (db.commitRuntimeState host commit).2
      ((writeOf db.runtimeTurnCommits (.commitRuntimeState commit)
        (.commit (db.commitRuntimeState host commit).1)).elim ledger (·.apply ledger)) := by
  have houtcome := commitRuntimeState_outcome host db commit
  generalize db.commitRuntimeState host commit = out at houtcome
  cases houtcome with
  | rejected e fails => exact holds
  | replayed result bound stored =>
    rw [writeOf_of_replay stored]
    rw [releaseAfterCommit_eq]
    exact holds.of_same rfl rfl
  | applied graphNodes accepts written =>
    rw [writeOf_of_applied accepts.unreplayed]
    rw [releaseAfterCommit_eq]
    obtain ⟨hnodes, hhidden⟩ := writeGraph_spec holds written
    exact ⟨hnodes, hhidden, rfl⟩

theorem Holds.tombstone (ids : List String) :
    Holds (db.tombstoneNodes ids).2 ((GraphWrite.tombstone ids).apply ledger) where
  nodes := by
    rw [GraphWrite.apply, ← holds.nodes]
    simp only [Store.tombstoneNodes, KeyedTable.update, List.map_map]
    refine List.map_congr_left fun row _ => ?_
    simp only [Function.comp_apply]
    split <;> rfl
  hidden row hrow := by
    obtain ⟨old, hold, rfl⟩ := mem_map.mp hrow
    by_cases hid : old.node.nodeId ∈ ids
    · simp [hid, GraphWrite.apply]
    · simp [hid, GraphWrite.apply, holds.hidden old hold]
  leaf := holds.leaf

theorem Holds.visible : (visibleRows db.graphNodes).map (·.node) = ledger.visibleNodes := by
  rw [GraphLedger.visibleNodes, ← holds.nodes, List.filter_map, visibleRows]
  congr 1
  refine filter_congr fun row hrow => ?_
  simp [isVisible, holds.hidden row hrow]

theorem Holds.vacuum :
    Holds db.vacuum.2 (GraphWrite.vacuum.apply ledger) where
  nodes := holds.visible
  hidden row hrow := by
    obtain ⟨_, hkept⟩ := mem_filter.mp hrow
    simpa [GraphWrite.apply] using hkept
  leaf := holds.leaf

theorem Holds.step (call : SqliteHost Json × Op Json) :
    Holds (step call db).2 ((writeOf db.runtimeTurnCommits call.2 (step call db).1).elim ledger
      (·.apply ledger)) := by
  obtain ⟨host, op⟩ := call
  have hframe : StoreSteps.areaOf op ≠ .commits ∧ StoreSteps.areaOf op ≠ .graph →
      Holds (SqliteStore.step (host, op) db).2 ledger := fun other =>
    holds.of_same ((step_keeps other.1).graphNodes other.2) (step_keeps other.1).head.1
  cases op with
  | commitRuntimeState commit => exact holds.commit host commit
  | tombstoneNodes ids => exact holds.tombstone ids
  | vacuum => exact holds.vacuum
  | saveSessionMeta record => exact holds.of_same rfl rfl
  | _ => exact hframe ⟨by simp [StoreSteps.areaOf], by simp [StoreSteps.areaOf]⟩

end

variable {history : List (SqliteEntry Json)}

/-- The database holds the ledger of the writes that were made to it. -/
theorem database_holds (run : SqliteRun history db) :
    Holds db (ledgerOf (history.filterMap databaseWrite)) := by
  induction run with
  | nil => exact ⟨rfl, by simp [Store.new, KeyedTable.empty], rfl⟩
  | @cons history db earlier call ih =>
    have hstep := ih.step call
    rw [filterMap_cons]
    have hwrite : databaseWrite (entryAt SqliteStore.step call db) =
        writeOf db.runtimeTurnCommits call.2 (SqliteStore.step call db).1 := rfl
    rw [hwrite]
    cases hwritten : writeOf db.runtimeTurnCommits call.2 (SqliteStore.step call db).1 with
    | none | some write => rwa [hwritten] at hstep

end Database

end StoreLedgers
