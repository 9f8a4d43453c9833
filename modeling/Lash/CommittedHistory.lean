import Lash.BoundarySteps

/-!
# What the commits of a turn leave in the store

Sessions share a store. Some were resumed from it, under a residency that keeps the whole
graph in memory or only the active path; others run on a state that their host supplied. A
commit that replaces the graph writes what its session holds, and the nodes that the session
does not hold are lost. A session that keeps the whole graph holds all nodes of the head that
it has seen last, and its commits are only accepted on that head.
-/

namespace CommittedHistory

open Runs StoreTypes SessionGraphs RuntimeCommits ClaimTables InMemoryStore
open List Option Prod Function
open StoreSteps (Area areaOf)
open GraphLedgers SqliteStore SqliteSteps RuntimeStates TurnBoundaries BoundarySteps

variable {Json : Type} {host : TurnHost Json}

/-! ## Sessions on one store -/

inductive Origin where
  | resumed (residency : Residency) (stored : Bool)
  | supplied
  deriving DecidableEq

structure RuntimeSession (Json : Type) where
  origin : Origin
  residency : Residency
  state : RuntimeSessionState Json
  turn : Option (TurnBoundary Json)

structure World (Json : Type) where
  db : Store Json
  sessions : Nat → Option (RuntimeSession Json)

inductive RuntimeInput (Json : Type) where
  | call (call : SqliteHost Json × Op Json)
  | resume (session : Nat) (residency : Residency) (sessionId : String) (policy : Json)
      (freshSessionId timestamp : String)
  | supply (session : Nat) (residency : Residency) (state : RuntimeSessionState Json)
  | refresh (session : Nat) (timestamp : String)
  | beginTurn (session : Nat) (lease : Option SessionExecutionLeaseFence)
  | boundary (session : Nat) (op : BoundaryOp Json)
  | abandonTurn (session : Nat)

def World.new : World Json where
  db := Store.new
  sessions := fun _ => none

def World.set (world : World Json) (i : Nat) (session : RuntimeSession Json) : World Json :=
  { world with sessions := Function.update world.sessions i (some session) }

/-- A turn whose final commit fails leaves the state as it was before the turn. -/
def RuntimeSession.answered (session : RuntimeSession Json) (reply : BoundaryReply Json)
    (boundary : TurnBoundary Json) : RuntimeSession Json :=
  match reply with
  | .finished (.ok _) => { session with state := boundary.intoFinalState, turn := none }
  | .finished (.error _) => { session with turn := none }
  | .done _ => { session with turn := some boundary }
  | .progress _ => { session with turn := some boundary }

/-- The state of a session that is resumed from the store. -/
def resumedState (host : TurnHost Json) (residency : Residency) (sessionId : String)
    (policy : Json) (freshSessionId timestamp : String) (db : Store Json) :
    Option (RuntimeSessionState Json) :=
  (RuntimeSessionState.loadStateForResidency host timestamp residency sessionId policy db).bind
    (·.assemble host residency policy freshSessionId timestamp)

def step (host : TurnHost Json) (input : RuntimeInput Json) (world : World Json) :
    Option (BoundaryReply Json) × World Json :=
  match input with
  | .call call => (none, { world with db := (SqliteStore.step call world.db).2 })
  | .resume i residency sessionId policy freshSessionId timestamp =>
    match resumedState host residency sessionId policy freshSessionId timestamp world.db with
    | none => (none, world)
    | some state =>
      (none, world.set i
        { origin := .resumed residency world.db.sessionHead.isSome
          residency := residency
          state := state
          turn := none })
  | .supply i residency state =>
    (none, world.set i
      { origin := .supplied, residency := residency, state := state, turn := none })
  | .refresh i timestamp =>
    match world.sessions i with
    | none => (none, world)
    | some session =>
      match session.state.refreshSessionGraphFromStore host timestamp session.residency
        world.db with
      | none => (none, world)
      | some state => (none, world.set i { session with state := state })
  | .beginTurn i lease =>
    match world.sessions i with
    | none => (none, world)
    | some session =>
      match TurnBoundary.fromState session.state lease with
      | none => (none, world)
      | some boundary => (none, world.set i { session with turn := some boundary })
  | .boundary i op =>
    match world.sessions i with
    | none => (none, world)
    | some session =>
      match session.turn.bind fun boundary => op.apply host boundary world.db with
      | none => (none, world)
      | some (reply, boundary, db) =>
        (some reply, { world with db := db }.set i (session.answered reply boundary))
  | .abandonTurn i =>
    match world.sessions i with
    | none => (none, world)
    | some session => (none, world.set i { session with turn := none })

abbrev WorldEntry (Json : Type) :=
  Entry (RuntimeInput Json) (World Json) (Option (BoundaryReply Json))

abbrev WorldRun (host : TurnHost Json) (history : List (WorldEntry Json)) (world : World Json) :
    Prop := Run (step host) World.new history world

/-! ## The nodes that a store shows -/

section Visible

variable {db after : Store Json}

def visibleNodes (db : Store Json) : List (SessionNodeRecord Json) :=
  (visibleRows db.graphNodes).map (·.node)

theorem visibleNodes_of_same (same : after.graphNodes = db.graphNodes) :
    visibleNodes after = visibleNodes db := by
  rw [visibleNodes, visibleNodes, same]

theorem filter_nodeRow (nodes : List (SessionNodeRecord Json)) :
    ((nodes.map nodeRow).filter fun row => !row.tombstoned).map (·.node) = nodes := by
  rw [List.filter_eq_self.mpr, List.map_map]
  · exact map_id _
  · intro row hrow
    obtain ⟨node, _, rfl⟩ := mem_map.mp hrow
    rfl

/-- What is visible after a commit, from what was visible before. -/
theorem visible_writeGraph {delta : GraphCommitDelta Json}
    {table graphNodes : GraphNodeTable Json} (h : writeGraph delta table = some graphNodes) :
    (visibleRows graphNodes).map (·.node) =
      accumulate ((visibleRows table).map (·.node)) delta := by
  cases delta with
  | unchanged leafNodeId =>
    obtain rfl : table = graphNodes := some.inj h
    rfl
  | append nodes leafNodeId =>
    obtain ⟨hrows, _⟩ := KeyedTable.insertAll_some h
    rw [visibleRows, hrows, filter_append, map_append, filter_nodeRow]
    rfl
  | replaceFull graph =>
    obtain ⟨hrows, _⟩ := KeyedTable.insertAll_some h
    rw [visibleRows, hrows]
    exact filter_nodeRow graph.nodes

/-- A call counts a commit at the head, or leaves the head and shows no new node. -/
theorem call_visible (call : SqliteHost Json × Op Json) (db : Store Json) :
    (SqliteStore.step call db).2.headRevision = db.headRevision + 1 ∨
      (SqliteStore.step call db).2.headRevision = db.headRevision ∧
        visibleNodes (SqliteStore.step call db).2 ⊆ visibleNodes db := by
  obtain ⟨host, op⟩ := call
  have hframe : areaOf op ≠ .commits ∧ areaOf op ≠ .graph →
      (SqliteStore.step (host, op) db).2.headRevision = db.headRevision ∧
        visibleNodes (SqliteStore.step (host, op) db).2 ⊆ visibleNodes db := by
    intro other
    have keeps := @step_keeps _ db (host, op) other.1
    refine ⟨congrArg headRevisionOf keeps.head.1, ?_⟩
    rw [visibleNodes_of_same (keeps.graphNodes other.2)]
    exact List.Subset.refl _
  cases op with
  | commitRuntimeState commit =>
    rcases step_commit host commit db with ⟨leases, hstep⟩ | ⟨graphNodes, leases, -, hstep⟩
    · rw [hstep]
      exact .inr ⟨rfl, List.Subset.refl _⟩
    · rw [hstep]
      exact .inl rfl
  | saveSessionMeta record => exact .inr ⟨rfl, List.Subset.refl _⟩
  | tombstoneNodes ids =>
    refine .inr ⟨rfl, fun node hnode => ?_⟩
    obtain ⟨row, hrow, rfl⟩ := mem_map.mp hnode
    obtain ⟨hmem, hvisible⟩ := mem_filter.mp hrow
    obtain ⟨old, hold, rfl⟩ := mem_map.mp hmem
    split at hvisible
    · simp at hvisible
    · rename_i hkept
      rw [if_neg hkept]
      exact mem_map_of_mem (mem_filter.mpr ⟨hold, hvisible⟩)
  | vacuum =>
    refine .inr ⟨rfl, fun node hnode => ?_⟩
    obtain ⟨row, hrow, rfl⟩ := mem_map.mp hnode
    obtain ⟨hmem, hvisible⟩ := mem_filter.mp hrow
    exact mem_map_of_mem (mem_filter.mpr ⟨(mem_filter.mp hmem).1, hvisible⟩)
  | _ => exact .inr (hframe ⟨by simp [areaOf], by simp [areaOf]⟩)

/-- Results that are kept in the turn ledger were given at a head revision of the past. -/
def LedgerBelow (db : Store Json) : Prop :=
  ∀ key hash result, db.runtimeTurnCommits key = some (hash, result) →
    result.headRevision ≤ db.headRevision

theorem recordTurn_cases {commit : RuntimeCommit Json} {result stored : RuntimeCommitResult Json}
    {ledger : TurnCommitLedger Json} {key : String × String} {hash : String}
    (h : commit.recordTurn result ledger key = some (hash, stored)) :
    stored = result ∨ ledger key = some (hash, stored) := by
  cases hturn : commit.turnCommit with
  | none =>
    simp only [RuntimeCommit.recordTurn, hturn] at h
    exact .inr h
  | some completed =>
    simp only [RuntimeCommit.recordTurn, hturn] at h
    by_cases hkey : key = completed.key
    · rw [hkey, update_self] at h
      exact .inl (mk.inj (some.inj h)).2.symm
    · rw [update_of_ne hkey] at h
      exact .inr h

theorem call_ledgerBelow (below : LedgerBelow db) (call : SqliteHost Json × Op Json) :
    LedgerBelow (SqliteStore.step call db).2 := by
  by_cases hcommit : areaOf call.2 = .commits
  · obtain ⟨host, op⟩ := call
    cases op with
    | commitRuntimeState commit =>
      rcases step_commit host commit db with ⟨leases, hstep⟩ | ⟨graphNodes, leases, -, hstep⟩
      · rw [hstep]
        exact below
      · rw [hstep]
        intro key hash result hresult
        have hhead : (db.writeCommit host commit graphNodes).headRevision =
            db.headRevision + 1 := rfl
        have hrecorded : commit.recordTurn (db.commitResult host commit)
            db.runtimeTurnCommits key = some (hash, result) := hresult
        change result.headRevision ≤ (db.writeCommit host commit graphNodes).headRevision
        rw [hhead]
        rcases recordTurn_cases hrecorded with rfl | hold
        · exact Nat.le_refl _
        · exact (below key hash result hold).trans (Nat.le_succ _)
    | _ => cases hcommit
  · obtain ⟨hhead, hledger⟩ := (@step_keeps _ db _ hcommit).head
    intro key hash result hresult
    rw [hledger] at hresult
    rw [Store.headRevision, hhead]
    exact below key hash result hresult

end Visible

/-! ## Sessions that keep the whole graph -/

section Covering

variable {db after : Store Json} {revision : Option Nat}
  {resident more : List (SessionNodeRecord Json)} {boundary : TurnBoundary Json}
  {planned : PlannedCommit Json}

/-- The revision is one of the past, and at the current one all visible nodes are resident. -/
def Covers (db : Store Json) (revision : Option Nat)
    (resident : List (SessionNodeRecord Json)) : Prop :=
  ∃ r, revision = some r ∧ r ≤ db.headRevision ∧
    (r = db.headRevision → visibleNodes db ⊆ resident)

theorem Covers.mono (covers : Covers db revision resident) (grown : resident ⊆ more) :
    Covers db revision more := by
  obtain ⟨r, hrevision, hle, hvisible⟩ := covers
  exact ⟨r, hrevision, hle, fun hr => List.Subset.trans (hvisible hr) grown⟩

theorem covers_call (covers : Covers db revision resident) (call : SqliteHost Json × Op Json) :
    Covers (SqliteStore.step call db).2 revision resident := by
  obtain ⟨r, hrevision, hle, hvisible⟩ := covers
  refine ⟨r, hrevision, ?_⟩
  rcases call_visible call db with hnext | ⟨hsame, hfewer⟩
  · rw [hnext]
    exact ⟨Nat.le_succ_of_le hle, fun hr => absurd hr (by omega)⟩
  · rw [hsame]
    exact ⟨hle, fun hr => List.Subset.trans hfewer (hvisible hr)⟩

theorem findReplay_below {commit : RuntimeCommit Json} {result : RuntimeCommitResult Json}
    (below : LedgerBelow db) (stored : commit.findReplay db.runtimeTurnCommits =
      .ok (some result)) : result.headRevision ≤ db.headRevision := by
  unfold RuntimeCommit.findReplay at stored
  split at stored
  · cases stored
  · split at stored
    · cases stored
    · split at stored
      · cases stored
      · rename_i hledger
        split at stored
        · obtain rfl := some.inj (Except.ok.inj stored)
          exact below _ _ _ hledger
        · cases stored

variable {delta : GraphCommitDelta Json} {graphNodes : GraphNodeTable Json}

/-- A commit writes no node that is not resident; at the current revision, or if it replaces
the graph by all visible nodes, it loses none. -/
theorem visible_committed (drawn : DrawnFrom resident delta)
    (written : writeGraph delta db.graphNodes = some graphNodes)
    (kept : ∀ next, delta = .replaceFull next → visibleNodes db ⊆ resident) :
    visibleNodes db ⊆ (visibleRows graphNodes).map (·.node) := by
  rw [visible_writeGraph written]
  cases delta with
  | unchanged leafNodeId => exact List.Subset.refl _
  | append nodes leafNodeId => exact subset_append_left _ _
  | replaceFull next => exact List.Subset.trans (kept next rfl) (drawn.whole next rfl)

theorem resident_committed (drawn : DrawnFrom resident delta)
    (written : writeGraph delta db.graphNodes = some graphNodes)
    (visible : visibleNodes db ⊆ resident) : (visibleRows graphNodes).map (·.node) ⊆ resident := by
  rw [visible_writeGraph written]
  cases delta with
  | unchanged leafNodeId => exact visible
  | append nodes leafNodeId => exact append_subset.mpr ⟨visible, drawn.written⟩
  | replaceFull next => exact drawn.written

/-- An accepted commit is made at the head that its boundary has seen. -/
theorem covers_accepted {request : CommitRequest Json} {sqlite : SqliteHost Json}
    (covers : Covers db boundary.state.headRevision resident)
    (accepts : Accepts sqlite (boundary.commitOf host request) db) :
    visibleNodes db ⊆ resident := by
  obtain ⟨r, hrevision, _, hvisible⟩ := covers
  have hexpected : (boundary.commitOf host request).expectedHeadRevision = some r := hrevision
  have hchecked := accepts.revision
  rw [RuntimeCommit.checkHeadRevision, hexpected] at hchecked
  refine hvisible ?_
  by_contra hne
  rw [if_pos ⟨rfl, fun h => hne (some.inj h)⟩] at hchecked
  cases hchecked

variable {op : BoundaryOp Json}

theorem planned_keeps (plan : op.plan host boundary = some planned)
    (calm : Covers db boundary.state.headRevision (residentNodes boundary) ∨
      ∀ next, planned.request.graph = .replaceFull next →
        visibleNodes db ⊆ residentNodes boundary) :
    visibleNodes db ⊆ visibleNodes
      (planned.boundary.applyCommit host planned.call planned.request db).2.2 := by
  obtain ⟨hedited, hdrawn⟩ := plan_spec plan
  have hend := applyCommit_end host planned.boundary planned.call planned.request db
  generalize planned.boundary.applyCommit host planned.call planned.request db = out at hend
  cases hend with
  | failed e | replayed result leases stored => exact List.Subset.refl _
  | applied graphNodes leases accepts written =>
    refine visible_committed hdrawn written fun next hnext => ?_
    rcases calm with hcovers | hcalm
    · rw [← hedited.revision] at hcovers
      exact covers_accepted (hcovers.mono hedited.nodes) accepts
    · exact List.Subset.trans (hcalm next hnext) hedited.nodes

variable {final : TurnBoundary Json}

/-- The boundary covers the store after its commit; an answer from the turn ledger tells it a
revision whose nodes it has to hold already. -/
theorem planned_covers (plan : op.plan host boundary = some planned)
    (covers : Covers db boundary.state.headRevision (residentNodes boundary))
    (below : LedgerBelow db)
    (faithful : ∀ stored, (planned.commit host).findReplay db.runtimeTurnCommits =
      .ok (some stored) → visibleNodes db ⊆ residentNodes boundary)
    (h : (planned.boundary.applyCommit host planned.call planned.request db).2 = (final, after)) :
    Covers after final.state.headRevision (residentNodes final) := by
  obtain ⟨hedited, hdrawn⟩ := plan_spec plan
  rw [← hedited.revision] at covers
  have hcovers := covers.mono hedited.nodes
  have hend := applyCommit_end host planned.boundary planned.call planned.request db
  generalize planned.boundary.applyCommit host planned.call planned.request db = out at hend h
  cases hend with
  | failed e =>
    obtain ⟨rfl, rfl⟩ := mk.inj h
    exact hcovers
  | replayed result leases stored =>
    obtain ⟨rfl, rfl⟩ := mk.inj h
    obtain ⟨hrevision, hresident⟩ :=
      @committed_resident _ host planned.boundary planned.request.graph result
    rw [hrevision, hresident]
    refine ⟨result.headRevision, rfl, ?_, fun _ => ?_⟩
    · exact findReplay_below below stored
    · exact List.Subset.trans (faithful result stored) hedited.nodes
  | applied graphNodes leases accepts written =>
    obtain ⟨rfl, rfl⟩ := mk.inj h
    obtain ⟨hrevision, hresident⟩ := @committed_resident _ host planned.boundary
      planned.request.graph (db.commitResult planned.call.host
        (planned.boundary.commitOf host planned.request))
    rw [hrevision, hresident]
    refine ⟨_, rfl, Nat.le_refl _, fun _ => ?_⟩
    exact resident_committed hdrawn written (covers_accepted hcovers accepts)

/-- On the store the commit of a boundary is a call, unless it fails before. -/
theorem applyCommit_call (boundary : TurnBoundary Json) (call : StoreCall Json)
    (request : CommitRequest Json) (db : Store Json) :
    (boundary.applyCommit host call request db).2.2 = db ∨
      ∃ sqlite commit, (boundary.applyCommit host call request db).2.2 =
        (SqliteStore.step (sqlite, .commitRuntimeState commit) db).2 := by
  have hdb : (boundary.applyCommit host call request db).2.2 =
      (call.commitRuntimeState (boundary.commitOf host request) db).2 := by
    unfold TurnBoundary.applyCommit
    generalize call.commitRuntimeState (boundary.commitOf host request) db = out
    obtain ⟨answer, after⟩ := out
    cases answer with
    | error e | ok result => rfl
  rw [hdb, StoreCall.commitRuntimeState]
  cases call.failure with
  | some e => exact .inl rfl
  | none => exact .inr ⟨call.host, boundary.commitOf host request, rfl⟩

theorem outcome_call (outcome : Outcome host op boundary db (final, after)) :
    after = db ∨ ∃ sqlite commit,
      after = (SqliteStore.step (sqlite, .commitRuntimeState commit) db).2 := by
  generalize hout : (final, after) = out at outcome
  cases outcome with
  | quiet edited unplanned hedited => exact .inl (mk.inj hout).2
  | committed planned plan =>
    have hafter : after = (planned.boundary.applyCommit host planned.call planned.request
        db).2.2 := congrArg snd hout
    rw [hafter]
    exact applyCommit_call _ _ _ _

theorem loadSession_covers {read : PersistedSessionRead Json}
    (h : db.loadSession .fullGraph = some (some read)) :
    Covers db (some read.headRevision) read.graph.nodes := by
  unfold Store.loadSession at h
  split at h
  · cases h
  · rename_i head hhead
    obtain ⟨graph, hgraph, hread⟩ := map_eq_some_iff.mp h
    obtain rfl := some.inj hgraph
    obtain rfl := some.inj hread
    refine ⟨_, rfl, ?_, fun _ => List.Subset.refl _⟩
    rw [Store.headRevision, hhead]
    exact Nat.le_refl _

theorem persistedSessionStateFromRead_extends (host : TurnHost Json) (timestamp : String)
    (read : PersistedSessionRead Json) :
    let state := RuntimeSessionState.persistedSessionStateFromRead host timestamp read
    state.headRevision = some read.headRevision ∧ state.sessionGraph = read.graph := by
  intro state
  obtain ⟨frames, frameId, hframe⟩ := ensureAgentFrameInitialized_frame host _ timestamp
  have hstate : state = _ := hframe
  rw [hstate]
  cases read.checkpoint with
  | none | some checkpoint => exact ⟨rfl, rfl⟩

theorem withSessionId_extends (state : RuntimeSessionState Json) (freshSessionId : String) :
    Extends state (state.withSessionId freshSessionId) := by
  unfold RuntimeSessionState.withSessionId
  split
  · exact extends_of_same rfl id rfl
  · exact .refl _

theorem withPolicy_extends (host : TurnHost Json) (state : RuntimeSessionState Json)
    (policy : Json) : Extends state (state.withPolicy host policy) := by
  unfold RuntimeSessionState.withPolicy
  split
  · exact extends_of_same rfl id rfl
  · exact .refl _

variable {state : RuntimeSessionState Json} {freshSessionId timestamp : String}

theorem fromHostState_extends {after : RuntimeSessionState Json} {policy : Json}
    (h : state.fromHostState host policy freshSessionId timestamp = some after) :
    Extends state after := by
  obtain ⟨normalized, hnormalized, rfl⟩ := map_eq_some_iff.mp h
  have hconfigured := (withSessionId_extends state freshSessionId).trans
    (withPolicy_extends host (state.withSessionId freshSessionId) policy)
  have hframed := hconfigured.trans (ensureAgentFrameInitialized_extends host _ timestamp)
  have hread : Extends _ (RuntimeSessionState.withFramePolicy _ host) :=
    hframed.trans (extends_of_same rfl id rfl)
  exact hread.trans ((normalizeSessionGraph_extends hnormalized).trans
    (extends_of_same rfl id rfl))

/-- A session that is resumed whole holds the nodes of the head. -/
theorem resumedState_covers {sessionId : String} {policy : Json}
    (h : resumedState host .keepAll sessionId policy freshSessionId timestamp db = some state)
    (stored : db.sessionHead.isSome = true) :
    Covers db state.headRevision state.sessionGraph.nodes := by
  obtain ⟨loaded, hloaded, hassembled⟩ := bind_eq_some_iff.mp h
  obtain ⟨found, hfound, hloaded⟩ := bind_eq_some_iff.mp hloaded
  obtain ⟨read, hread, rfl⟩ := map_eq_some_iff.mp hfound
  obtain ⟨head, hhead⟩ := isSome_iff_exists.mp stored
  obtain ⟨read, rfl⟩ : ∃ persisted, read = some persisted := by
    rw [Store.loadSession, hhead] at hread
    obtain ⟨graph, _, rfl⟩ := map_eq_some_iff.mp hread
    exact ⟨_, rfl⟩
  obtain ⟨hrevision, hgraph⟩ := persistedSessionStateFromRead_extends host timestamp read
  have hopened : Extends (RuntimeSessionState.persistedSessionStateFromRead host timestamp read)
      loaded := by
    dsimp only [map_some, getD_some] at hloaded
    split at hloaded
    · cases hloaded
    · obtain rfl := some.inj hloaded
      exact extends_of_same rfl id rfl
  obtain ⟨trimmed, htrimmed, hfinal⟩ := bind_eq_some_iff.mp hassembled
  obtain ⟨normalized, hnormalized, hkept⟩ := bind_eq_some_iff.mp htrimmed
  obtain rfl := some.inj hkept
  have hextends := hopened.trans
    ((normalizeSessionGraph_extends hnormalized).trans (fromHostState_extends hfinal))
  rw [hextends.revision, hrevision]
  exact (loadSession_covers hread).mono (hgraph ▸ hextends.nodes)

theorem applySessionCheckpoint_same (host : TurnHost Json) (timestamp : String)
    (state : RuntimeSessionState Json) (checkpoint : Option (HydratedSessionCheckpoint Json)) :
    let after := state.applySessionCheckpoint host timestamp checkpoint
    after.headRevision = state.headRevision ∧ after.sessionGraph = state.sessionGraph := by
  cases checkpoint with
  | none | some checkpoint =>
    exact ⟨ensureAgentFrameInitialized_headRevision host _ timestamp,
      ensureAgentFrameInitialized_sessionGraph host _ timestamp⟩

theorem applySession_extends (host : TurnHost Json) (timestamp : String)
    (state : RuntimeSessionState Json) (read : PersistedSessionRead Json) :
    let after := (state.applySessionHead host timestamp read).applySessionCheckpoint host
      timestamp read.checkpoint
    after.headRevision = some read.headRevision ∧ after.sessionGraph = read.graph := by
  intro after
  have hhead : (state.applySessionHead host timestamp read).sessionGraph = read.graph :=
    ensureAgentFrameInitialized_sessionGraph host _ timestamp
  obtain ⟨hrevision, hgraph⟩ := applySessionCheckpoint_same host timestamp
    (state.applySessionHead host timestamp read) read.checkpoint
  exact ⟨hrevision, hgraph.trans hhead⟩

theorem refreshed_covers {after : RuntimeSessionState Json}
    (covers : Covers db state.headRevision state.sessionGraph.nodes)
    (h : state.refreshSessionGraphFromStore host timestamp .keepAll db = some after) :
    Covers db after.headRevision after.sessionGraph.nodes := by
  unfold RuntimeSessionState.refreshSessionGraphFromStore at h
  split at h
  · obtain rfl := some.inj h
    exact covers
  · obtain ⟨loaded, hloaded, hafter⟩ := map_eq_some_iff.mp h
    cases loaded with
    | none =>
      obtain rfl : state = after := hafter
      exact covers
    | some read =>
      dsimp only at hafter
      split at hafter
      · obtain ⟨hrevision, hgraph⟩ := applySession_extends host timestamp state read
        rw [← hafter, hrevision, hgraph]
        exact loadSession_covers hloaded
      · obtain rfl := hafter
        exact covers

theorem fromState_covers {lease : Option SessionExecutionLeaseFence}
    (covers : Covers db state.headRevision state.sessionGraph.nodes)
    (h : TurnBoundary.fromState state lease = some boundary) :
    Covers db boundary.state.headRevision (residentNodes boundary) := by
  obtain ⟨draft, hdraft, rfl⟩ := map_eq_some_iff.mp h
  obtain ⟨editor, heditor, rfl⟩ := map_eq_some_iff.mp hdraft
  obtain ⟨readModel, read, _, hwarmed, rfl⟩ := TurnGraphEditors.fromState_eq heditor
  have hnodes : read.nodes = state.sessionGraph.nodes :=
    congrArg SessionGraphData.nodes hwarmed.readOf.1
  refine covers.mono ?_
  rw [← hnodes]
  exact subset_append_left _ _

theorem intoFinalState_covers
    (covers : Covers db boundary.state.headRevision (residentNodes boundary)) :
    Covers db boundary.intoFinalState.headRevision
      boundary.intoFinalState.sessionGraph.nodes := by
  obtain ⟨stage, lease⟩ := boundary
  cases stage with
  | finalized state progress => exact covers
  | drafting draft =>
    have hnodes : draft.intoFinalState.sessionGraph.nodes = draft.graph.data.nodes :=
      intoSessionGraph_nodes draft.graph
    have hfinal : Covers db draft.state.headRevision draft.intoFinalState.sessionGraph.nodes := by
      rw [hnodes]
      exact covers
    exact hfinal

end Covering

/-! ## Runs of the sessions -/

section Histories

variable {world : World Json} {session : RuntimeSession Json} {e : WorldEntry Json}
  {history : List (WorldEntry Json)}

def Origin.isWhole (origin : Origin) : Prop := origin = .resumed .keepAll true

instance (origin : Origin) : Decidable origin.isWhole := inferInstanceAs (Decidable (_ = _))

/-- A session that was resumed whole covers the store, and so does its turn. -/
structure Tracked (db : Store Json) (session : RuntimeSession Json) : Prop where
  residency : session.residency = .keepAll
  idle : Covers db session.state.headRevision session.state.sessionGraph.nodes
  turn : ∀ boundary, session.turn = some boundary →
    Covers db boundary.state.headRevision (residentNodes boundary)

structure WorldCoherent (world : World Json) : Prop where
  ledger : LedgerBelow world.db
  tracked : ∀ i session, world.sessions i = some session → session.origin.isWhole →
    Tracked world.db session

/-- The session, the boundary and the commit of a step that plans one. -/
def plannedAt (host : TurnHost Json) (e : WorldEntry Json) :
    Option (RuntimeSession Json × TurnBoundary Json × PlannedCommit Json) :=
  match e.input with
  | .boundary i op => do
      let session ← e.before.sessions i
      let boundary ← session.turn
      let planned ← op.plan host boundary
      some (session, boundary, planned)
  | _ => none

/-- A session that was resumed whole is answered from the turn ledger only if it holds all
visible nodes. -/
def Faithful (host : TurnHost Json) (e : WorldEntry Json) : Prop :=
  ∀ session boundary planned, plannedAt host e = some (session, boundary, planned) →
    session.origin.isWhole → ∀ stored,
      (planned.commit host).findReplay e.before.db.runtimeTurnCommits = .ok (some stored) →
        visibleNodes e.before.db ⊆ residentNodes boundary

/-- A commit that replaces the graph is made by a session that was resumed whole, or by one
that holds all visible nodes. -/
def Guarded (host : TurnHost Json) (e : WorldEntry Json) : Prop :=
  ∀ session boundary planned, plannedAt host e = some (session, boundary, planned) →
    ∀ next, planned.request.graph = .replaceFull next →
      session.origin.isWhole ∨ visibleNodes e.before.db ⊆ residentNodes boundary

/-- Every node that the store showed before a step of a turn it shows after it. -/
def KeepsHistory (e : WorldEntry Json) : Prop :=
  ∀ i op, e.input = .boundary i op → visibleNodes e.before.db ⊆ visibleNodes e.after.db

theorem Tracked.call (tracked : Tracked world.db session) (call : SqliteHost Json × Op Json) :
    Tracked (SqliteStore.step call world.db).2 session where
  residency := tracked.residency
  idle := covers_call tracked.idle call
  turn boundary hturn := covers_call (tracked.turn boundary hturn) call

theorem WorldCoherent.call (coherent : WorldCoherent world) (call : SqliteHost Json × Op Json) :
    WorldCoherent { world with db := (SqliteStore.step call world.db).2 } where
  ledger := call_ledgerBelow coherent.ledger call
  tracked i session hsession whole := (coherent.tracked i session hsession whole).call call

theorem WorldCoherent.set (coherent : WorldCoherent world) (i : Nat)
    (tracked : session.origin.isWhole → Tracked world.db session) :
    WorldCoherent (world.set i session) where
  ledger := coherent.ledger
  tracked j other hother whole := by
    by_cases hj : j = i
    · subst hj
      have hset : (world.set j session).sessions j = some session := update_self ..
      obtain rfl : session = other := some.inj (hset.symm.trans hother)
      exact tracked whole
    · have hset : (world.set i session).sessions j = world.sessions j := update_of_ne hj ..
      exact coherent.tracked j other (hset.symm.trans hother) whole

variable {reply : BoundaryReply Json} {boundary : TurnBoundary Json}

theorem Tracked.answered (tracked : Tracked world.db session)
    (covers : Covers world.db boundary.state.headRevision (residentNodes boundary)) :
    Tracked world.db (session.answered reply boundary) := by
  have hturn : Tracked world.db { session with turn := some boundary } :=
    ⟨tracked.residency, tracked.idle, fun turn h => some.inj h ▸ covers⟩
  cases reply with
  | done answer | progress answer => exact hturn
  | finished answer =>
    cases answer with
    | error e => exact ⟨tracked.residency, tracked.idle, fun turn h => nomatch h⟩
    | ok snapshot =>
      exact ⟨tracked.residency, intoFinalState_covers covers, fun turn h => nomatch h⟩

theorem answered_origin (session : RuntimeSession Json) (reply : BoundaryReply Json)
    (boundary : TurnBoundary Json) :
    (session.answered reply boundary).origin = session.origin := by
  cases reply with
  | done answer | progress answer => rfl
  | finished answer => cases answer <;> rfl

theorem boundary_coherent (coherent : WorldCoherent world) {i : Nat} {op : BoundaryOp Json}
    {final : TurnBoundary Json} {db : Store Json} (hsession : world.sessions i = some session)
    (hturn : session.turn = some boundary)
    (happly : op.apply host boundary world.db = some (reply, final, db))
    (faithful : session.origin.isWhole → ∀ planned, op.plan host boundary = some planned →
      ∀ stored, (planned.commit host).findReplay world.db.runtimeTurnCommits =
        .ok (some stored) → visibleNodes world.db ⊆ residentNodes boundary) :
    WorldCoherent ({ world with db := db }.set i (session.answered reply final)) := by
  have houtcome := apply_outcome happly
  have hworld : WorldCoherent { world with db := db } := by
    rcases outcome_call houtcome with rfl | ⟨sqlite, commit, rfl⟩
    · exact coherent
    · exact coherent.call (sqlite, .commitRuntimeState commit)
  refine hworld.set i fun whole => ?_
  rw [answered_origin] at whole
  refine (hworld.tracked i session hsession whole).answered ?_
  have hcovers := (coherent.tracked i session hsession whole).turn boundary hturn
  generalize hout : (final, db) = out at houtcome
  cases houtcome with
  | quiet after unplanned edited =>
    obtain ⟨rfl, rfl⟩ := mk.inj hout
    rw [← edited.revision] at hcovers
    exact hcovers.mono edited.nodes
  | committed planned plan =>
    exact planned_covers plan hcovers coherent.ledger (faithful whole planned plan) hout.symm

theorem step_coherent (coherent : WorldCoherent world) (input : RuntimeInput Json)
    (faithful : Faithful host (entryAt (step host) input world)) :
    WorldCoherent (step host input world).2 := by
  cases input with
  | call call => exact coherent.call call
  | resume i residency sessionId policy freshSessionId timestamp =>
    rw [step]
    split
    · exact coherent
    · rename_i state hstate
      refine coherent.set i fun whole => ?_
      obtain ⟨rfl, hstored⟩ := Origin.resumed.inj whole
      exact ⟨rfl, resumedState_covers hstate hstored, fun turn h => by cases h⟩
  | supply i residency state => exact coherent.set i fun whole => by cases whole
  | refresh i timestamp =>
    rw [step]
    split
    · exact coherent
    · rename_i session hsession
      split
      · exact coherent
      · rename_i state hstate
        refine coherent.set i fun whole => ?_
        have htracked := coherent.tracked i session hsession whole
        rw [htracked.residency] at hstate
        exact ⟨htracked.residency, refreshed_covers htracked.idle hstate, htracked.turn⟩
  | beginTurn i lease =>
    rw [step]
    split
    · exact coherent
    · rename_i session hsession
      split
      · exact coherent
      · rename_i boundary hboundary
        refine coherent.set i fun whole => ?_
        have htracked := coherent.tracked i session hsession whole
        refine ⟨htracked.residency, htracked.idle, fun turn h => ?_⟩
        obtain rfl := some.inj h
        exact fromState_covers htracked.idle hboundary
  | boundary i op =>
    rw [step]
    split
    · exact coherent
    · rename_i session hsession
      split
      · exact coherent
      · rename_i reply final db happly
        obtain ⟨boundary, hturn, happly⟩ := bind_eq_some_iff.mp happly
        refine boundary_coherent coherent hsession hturn happly fun whole planned plan => ?_
        refine faithful session boundary planned ?_ whole
        simp [plannedAt, entryAt, hsession, hturn, plan]
  | abandonTurn i =>
    rw [step]
    split
    · exact coherent
    · rename_i session hsession
      refine coherent.set i fun whole => ?_
      have htracked := coherent.tracked i session hsession whole
      exact ⟨htracked.residency, htracked.idle, fun turn h => by cases h⟩

theorem step_keeps (coherent : WorldCoherent world) (input : RuntimeInput Json)
    (guarded : Guarded host (entryAt (step host) input world)) :
    KeepsHistory (entryAt (step host) input world) := by
  intro i op hinput
  obtain rfl : input = .boundary i op := hinput
  have hafter : (entryAt (step host) (.boundary i op) world).after =
      (step host (.boundary i op) world).2 := rfl
  rw [hafter, step]
  split
  · exact List.Subset.refl _
  · rename_i session hsession
    split
    · exact List.Subset.refl _
    · rename_i reply final db happly
      obtain ⟨boundary, hturn, happly⟩ := bind_eq_some_iff.mp happly
      have houtcome := apply_outcome happly
      generalize hout : (final, db) = out at houtcome
      cases houtcome with
      | quiet after unplanned edited =>
        obtain ⟨rfl, rfl⟩ := mk.inj hout
        exact List.Subset.refl _
      | committed planned plan =>
        have hdb : db = (planned.boundary.applyCommit host planned.call planned.request
            world.db).2.2 := congrArg snd hout
        have hplanned : plannedAt host (entryAt (step host) (.boundary i op) world) =
            some (session, boundary, planned) := by
          simp [plannedAt, entryAt, hsession, hturn, plan]
        have hkept : visibleNodes world.db ⊆ visibleNodes db := by
          rw [hdb]
          refine planned_keeps plan ?_
          by_cases whole : session.origin.isWhole
          · exact .inl ((coherent.tracked i session hsession whole).turn boundary hturn)
          · refine .inr fun next hnext => ?_
            exact (guarded session boundary planned hplanned next hnext).resolve_left whole
        exact hkept

theorem new_coherent : WorldCoherent (World.new : World Json) where
  ledger _ _ _ h := nomatch h
  tracked _ _ h := nomatch h

/-- Along every run the guarded commits keep the history of the store. -/
theorem commits_keep_history (run : WorldRun host history world)
    (faithful : ∀ e ∈ history, Faithful host e) :
    ∀ e ∈ history, Guarded host e → KeepsHistory e := by
  suffices h : WorldCoherent world ∧ ∀ e ∈ history, Guarded host e → KeepsHistory e from h.2
  induction run with
  | nil => exact ⟨new_coherent, by simp⟩
  | @cons history before earlier input ih =>
    rw [forall_mem_cons] at faithful
    obtain ⟨hcoherent, hkept⟩ := ih faithful.2
    refine ⟨step_coherent hcoherent input faithful.1, forall_mem_cons.mpr ⟨?_, hkept⟩⟩
    exact step_keeps hcoherent input

end Histories

/-! ## A session that is revised and resumed -/

def exampleOwner : LeaseOwnerIdentity := .ofOpaque "owner" "incarnation"

def exampleFence : SessionExecutionLeaseFence where
  sessionId := "s"
  owner := exampleOwner
  leaseToken := sessionLeaseToken "s" exampleOwner 0 1
  fencingToken := 1

def textMessage (id : String) : Message Value := ⟨id, .user, [], none⟩

def exampleStore : Option (StoreCall Value) := some ⟨.quiet 0, none⟩

def exampleTick : Tick := ⟨"t", ["d"]⟩

variable (ids : List String)

def checkpointOf : BoundaryOp Value :=
  .preparedCheckpoint
    { store := exampleStore
      policy := .null
      turnIndex := 0
      messages := ids.map textMessage
      reads := ⟨none, none⟩
      tick := exampleTick }

def finishInput (enqueued : Option (List (Message Value))) : TurnFinishInput Value where
  toolCalls := []
  reads := ⟨none, none⟩
  store := exampleStore
  usageDeltas := []
  outcome := .stopped .null
  turnId := none
  completedQueueClaims := []
  completedTurnInputClaims := []
  interruptedTurnInputTurnId := none
  releaseSessionExecutionLease := none
  tick := exampleTick
  messageTick := exampleTick
  nodeTick := exampleTick
  policy := .null
  turnIndex := 0
  newMessages := ids.map textMessage
  cancelled := false
  readTick := exampleTick
  tokenUsage := none
  lastPromptUsage := none
  enqueued := enqueued
  hookTick := exampleTick

def finishOf : BoundaryOp Value := .finishTurn (finishInput ids none)

variable (residency : Residency)

/-- One session revises its message; another one is resumed and its turn adds nothing. -/
def revisedInputs : List (RuntimeInput Value) :=
  [.call (.quiet 0, .tryClaimSessionExecutionLease "s" exampleOwner 100),
    .resume 0 .keepAll "s" .null "fresh" "t",
    .beginTurn 0 (some exampleFence),
    .boundary 0 (checkpointOf ["m1"]),
    .boundary 0 (finishOf ["m2"]),
    .resume 1 residency "s" .null "fresh" "t",
    .beginTurn 1 (some exampleFence),
    .boundary 1 (finishOf ["m2"])]

def revisedRun : List (WorldEntry Value) × World Value :=
  perform (step plainHost) (revisedInputs residency) ([], World.new)

theorem revisedRun_run : WorldRun plainHost (revisedRun residency).1 (revisedRun residency).2 :=
  Run.perform .nil _

theorem revisedRun_unstamped : ∀ e ∈ (revisedRun .keepAll).1,
    (plannedAt plainHost e).all (·.2.2.request.turnId.isNone) = true := by
  decide +kernel

/-- A commit that the turn ledger cannot know is faithful. -/
theorem faithful_of_unstamped {e : WorldEntry Json}
    (unstamped : (plannedAt host e).all (·.2.2.request.turnId.isNone) = true) :
    Faithful host e := by
  intro session boundary planned hplanned _ stored hstored
  rw [hplanned, all_some] at unstamped
  have hstamp : (planned.commit host).turnCommit = none :=
    congrArg (Option.map _) (Option.isNone_iff_eq_none.mp unstamped)
  rw [RuntimeCommit.findReplay, hstamp] at hstored
  cases hstored

theorem guarded_of_whole {e : WorldEntry Json}
    (whole : (plannedAt host e).all (fun plan => decide plan.1.origin.isWhole) = true) :
    Guarded host e := by
  intro session boundary planned hplanned _ _
  rw [hplanned, all_some] at whole
  exact .inl (of_decide_eq_true whole)

/-- The second session replaces the graph, and loses nothing if it was resumed whole. -/
theorem commits_keep_history_revisedRun : ∃ e ∈ (revisedRun .keepAll).1,
    e.input = .boundary 1 (finishOf ["m2"]) ∧ KeepsHistory e := by
  refine ⟨_, mem_cons_self, rfl, ?_⟩
  exact commits_keep_history (revisedRun_run .keepAll)
    (fun e he => faithful_of_unstamped (revisedRun_unstamped e he)) _ mem_cons_self
    (guarded_of_whole (by decide +kernel))

/-- If it keeps the active path alone it deletes the message that was revised. -/
theorem trimmed_session_deletes_branch : ∃ e ∈ (revisedRun .activePathOnly).1,
    ¬ KeepsHistory e := by
  refine ⟨_, mem_cons_self, fun keeps => ?_⟩
  have hids := map_subset (·.nodeId) (keeps 1 (finishOf ["m2"]) rfl)
  exact absurd hids (by decide +kernel)

end CommittedHistory
