import Lash.FinalCommits

/-!
# What a turn returns is what was saved

A session that keeps the whole graph follows the store: as long as no one else commits, its
turn knows which nodes are stored, and its ledger is the one that the store adds up. Every
commit of the turn, whether it is accepted, fails or is left out, keeps that up, and the final
commit makes the store hold what the turn returns.
-/

namespace ReturnedTurns

open Runs StoreTypes SessionGraphs RuntimeCommits InMemoryStore CacheCoherence List Option
open StoreSteps (Area areaOf)
open TurnGraphEditors EditorCommits SqliteStore SqliteSteps RuntimeStates
open TurnBoundaries BoundarySteps CommittedHistory FinalCommits

variable {Json : Type} {host : TurnHost Json}

/-! ## Calls of the store -/

section Calls

variable {db after : Store Json} {revision : Option Nat} {ledger : List TokenLedgerEntry}
  {Holds : SessionGraphData Json → Prop}

/-- The next commit has been made. -/
def Advances (db after : Store Json) : Prop :=
  ∃ head, after.sessionHead = some head ∧ head.headRevision = db.headRevision + 1

/-- The head, the ledger and the visible graph are the same. -/
structure Keeps (db after : Store Json) : Prop where
  head : after.sessionHead = db.sessionHead
  usage : after.usageDeltas = db.usageDeltas
  visible : visibleNodes after = visibleNodes db

def Spares (op : Op Json) (db : Store Json) : Prop :=
  ∀ ids, op = .tombstoneNodes ids → ∀ node ∈ visibleNodes db, node.nodeId ∉ ids

theorem visible_tombstoned {ids : List String}
    (spares : ∀ node ∈ visibleNodes db, node.nodeId ∉ ids) :
    visibleNodes (db.tombstoneNodes ids).2 = visibleNodes db := by
  have hkept : ∀ row ∈ visibleRows db.graphNodes, row.node.nodeId ∉ ids := fun row hrow =>
    spares row.node (mem_map_of_mem hrow)
  have hrows : visibleRows (db.tombstoneNodes ids).2.graphNodes = visibleRows db.graphNodes := by
    refine (List.filter_map ..).trans ?_
    have hsame : db.graphNodes.rows.filter ((fun row : GraphNodeRow Json => !row.tombstoned) ∘
        fun row => if decide (row.node.nodeId ∈ ids) = true then
          { row with tombstoned := true } else row) = visibleRows db.graphNodes := by
      refine filter_congr fun row hrow => ?_
      cases hdead : row.tombstoned with
      | true => simp [Function.comp, apply_ite, hdead]
      | false =>
        have hrow := hkept row (mem_filter.mpr ⟨hrow, by rw [hdead]; rfl⟩)
        simp [Function.comp, hrow, hdead]
    refine (congrArg _ hsame).trans ((map_congr_left fun row hrow => ?_).trans
      (map_id _))
    exact if_neg (by simpa using hkept row hrow)
  rw [visibleNodes, visibleNodes, hrows]

theorem visible_vacuumed (db : Store Json) : visibleNodes db.vacuum.2 = visibleNodes db := by
  have hrows : visibleRows db.vacuum.2.graphNodes = visibleRows db.graphNodes := by
    refine (List.filter_filter ..).trans (List.filter_congr fun row _ => ?_)
    exact Bool.and_self _
  rw [visibleNodes, visibleNodes, hrows]

/-- A call makes the next commit, or it leaves the head; then it keeps the graph that it
spares. -/
theorem call_moves (call : SqliteHost Json × Op Json) (db : Store Json) :
    Advances db (SqliteStore.step call db).2 ∨
      (SqliteStore.step call db).2.sessionHead = db.sessionHead ∧
        (Spares call.2 db → Keeps db (SqliteStore.step call db).2) := by
  by_cases hcommit : areaOf call.2 = .commits
  · obtain ⟨host, op⟩ := call
    cases op with
    | commitRuntimeState commit =>
      rcases step_commit host commit db with ⟨leases, hstep⟩ | ⟨graphNodes, leases, -, hstep⟩
      · rw [hstep]
        exact .inr ⟨rfl, fun _ => ⟨rfl, rfl, rfl⟩⟩
      · rw [hstep]
        exact .inl ⟨_, rfl, rfl⟩
    | _ => cases hcommit
  · have keeps := @step_keeps _ db _ hcommit
    refine .inr ⟨keeps.head.1, fun spares => ⟨keeps.head.1, keeps.usageDeltas, ?_⟩⟩
    by_cases hgraph : areaOf call.2 = .graph
    · obtain ⟨host, op⟩ := call
      cases op with
      | saveSessionMeta record => rfl
      | tombstoneNodes ids => exact visible_tombstoned (spares ids rfl)
      | vacuum => exact visible_vacuumed db
      | _ => cases hgraph
    · exact visibleNodes_of_same (keeps.graphNodes hgraph)

/-- What a session knows of the store that it shares: at the head it holds the stored graph and
the ledger. -/
structure Follows (db : Store Json) (revision : Option Nat) (ledger : List TokenLedgerEntry)
    (Holds : SessionGraphData Json → Prop) : Prop where
  seen : Seen db revision
  ledger : AtHead db revision → mergeTokenLedgerEntries db.usageDeltas = ledger
  graph : AtHead db revision → Holds (storedGraph db)

theorem storedGraph_keeps (keeps : Keeps db after) : storedGraph after = storedGraph db := by
  rw [storedGraph, storedGraph, keeps.visible, keeps.head]

section

variable (follows : Follows db revision ledger Holds)
include follows

theorem Follows.keeps (keeps : Keeps db after) :
    Follows after revision ledger Holds where
  seen r hr := by
    rw [keeps.head]
    exact follows.seen r hr
  ledger h := by
    rw [keeps.usage]
    refine follows.ledger ?_
    rwa [AtHead, ← keeps.head]
  graph h := by
    rw [storedGraph_keeps keeps]
    refine follows.graph ?_
    rwa [AtHead, ← keeps.head]

/-- A session that the head has left behind knows nothing of it. -/
theorem Follows.advances (advances : Advances db after) : Follows after revision ledger Holds := by
  obtain ⟨head, hhead, hnext⟩ := advances
  have hbehind : ∀ r, revision = some r → r < head.headRevision := by
    intro r hr
    obtain ⟨old, hold, hle⟩ := follows.seen r hr
    rw [hnext, Store.headRevision, hold]
    exact Nat.lt_succ_of_le hle
  have hnot : ¬ AtHead after revision := by
    intro h
    rw [AtHead, hhead] at h
    exact absurd (hbehind _ h) (Nat.lt_irrefl _)
  exact ⟨fun r hr => ⟨head, hhead, (hbehind r hr).le⟩, fun h => absurd h hnot,
    fun h => absurd h hnot⟩

theorem Follows.away (head : after.sessionHead = db.sessionHead) (not : ¬ AtHead db revision) :
    Follows after revision ledger Holds := by
  have hnot : ¬ AtHead after revision := by rwa [AtHead, head]
  refine ⟨fun r hr => ?_, fun h => absurd h hnot, fun h => absurd h hnot⟩
  rw [head]
  exact follows.seen r hr

theorem Follows.call {call : SqliteHost Json × Op Json}
    (spares : AtHead db revision → Spares call.2 db) :
    Follows (SqliteStore.step call db).2 revision ledger Holds := by
  rcases call_moves call db with hadvances | ⟨hhead, hkeeps⟩
  · exact follows.advances hadvances
  · by_cases hat : AtHead db revision
    · exact follows.keeps (hkeeps (spares hat))
    · exact follows.away hhead hat

end

/-- A commit is accepted at the head, or comes from a session that has seen none. -/
theorem atHead_of_accepts {sqlite : SqliteHost Json} {commit : RuntimeCommit Json}
    (seen : Seen db revision) (expected : commit.expectedHeadRevision = revision)
    (accepts : Accepts sqlite commit db) : AtHead db revision ∨ revision = none := by
  cases revision with
  | none => exact .inr rfl
  | some r =>
    obtain ⟨head, hhead, hle⟩ := seen r rfl
    refine .inl ?_
    have hchecked := accepts.revision
    rw [RuntimeCommit.checkHeadRevision, expected] at hchecked
    have hcurrent : some r = some db.headRevision := by
      by_contra hne
      rw [if_pos ⟨rfl, hne⟩] at hchecked
      cases hchecked
    rw [AtHead, hcurrent, Store.headRevision, hhead]
    rfl

end Calls

/-! ## Sessions that follow the store -/

section Tracking

variable {db after : Store Json} {boundary edited : TurnBoundary Json}
  {draft : TurnCommitDraft Json} {state : RuntimeSessionState Json}

structure StateTracked (db : Store Json) (state : RuntimeSessionState Json) : Prop where
  rooted : Rooted state.sessionGraph.inner
  follows : Follows db state.headRevision state.tokenLedger
    fun stored => stored.nodes = state.sessionGraph.nodes

structure DraftTracked (db : Store Json) (draft : TurnCommitDraft Json) : Prop where
  sound : Sound draft.graph
  follows : Follows db draft.state.headRevision draft.state.tokenLedger
    fun stored => Ledgered ⟨draft.graph, stored⟩

/-- The boundary drafts, and its draft is tracked. -/
def BoundaryTracked (db : Store Json) (boundary : TurnBoundary Json) : Prop :=
  ∃ draft, boundary.stage = .drafting draft ∧ DraftTracked db draft

variable {lease : Option SessionExecutionLeaseFence}

theorem fromState_tracked (tracked : StateTracked db state)
    (h : TurnBoundary.fromState state lease = some boundary) : BoundaryTracked db boundary := by
  obtain ⟨draft, hdraft, rfl⟩ := map_eq_some_iff.mp h
  obtain ⟨editor, heditor, rfl⟩ := map_eq_some_iff.mp hdraft
  obtain ⟨readModel, read, _, hwarmed, rfl⟩ := TurnGraphEditors.fromState_eq heditor
  have hinner : read.inner = state.sessionGraph.inner := hwarmed.readOf.1
  have hwired := new_wired read readModel state.currentAgentFrameId
  have hrooted : Rooted read.inner := hinner ▸ tracked.rooted
  have hstart : Ledgered (.start (TurnGraphEditor.new read readModel state.currentAgentFrameId)) :=
    start_ledgered hwired rfl rfl
  refine ⟨_, rfl, ⟨hwired, ?_, hrooted⟩, tracked.follows.seen, tracked.follows.ledger,
    fun hhead => ?_⟩
  · intro hnone
    exact hrooted (append_eq_nil_iff.mp hnone).1
  · obtain ⟨done, rest, happended, hpersisted, hdone, hrest⟩ := hstart.split
    refine ⟨hstart.wired, ⟨done, rest, happended, ?_, hdone, hrest⟩, hstart.known⟩
    have hnodes : (storedGraph db).nodes = read.nodes :=
      (tracked.follows.graph hhead).trans (congrArg SessionGraphData.nodes hinner).symm
    exact hnodes.trans hpersisted

/-- The draft is edited by an operation of its editor. -/
def EditsDraft (f : TurnCommitDraft Json → Option (TurnCommitDraft Json)) : Prop :=
  ∀ draft after, f draft = some after → after.state = draft.state ∧
    ∀ stored, ∃ op : EditorOp Json,
      op.apply ⟨draft.graph, stored⟩ = some ⟨after.graph, stored⟩

theorem applyMessageProjection_edits (messages : List (Message Json)) (tick : Tick) :
    EditsDraft (·.applyMessageProjection messages tick) := by
  intro draft after h
  unfold TurnCommitDraft.applyMessageProjection at h
  dsimp only at h
  split at h
  · rename_i appended _
    obtain ⟨graph, hgraph, rfl⟩ := map_eq_some_iff.mp h
    refine ⟨rfl, fun stored => ⟨.appendActiveConversationMessages appended tick.timestamp
      tick.draws, ?_⟩⟩
    exact congrArg (Option.map _) hgraph
  · obtain ⟨graph, hgraph, rfl⟩ := map_eq_some_iff.mp h
    refine ⟨rfl, fun stored => ⟨.replaceActiveReadState messages tick.timestamp, ?_⟩⟩
    exact congrArg (Option.map _) hgraph

theorem appendEvents_edits (events : List (SessionEventRecord Json)) (tick : Tick) :
    EditsDraft (·.appendEvents events tick) := by
  intro draft after h
  obtain ⟨graph, hgraph, rfl⟩ := map_eq_some_iff.mp h
  exact ⟨rfl, fun stored => ⟨.appendEvents events tick.timestamp tick.draws,
    congrArg (Option.map _) hgraph⟩⟩

variable {f : TurnCommitDraft Json → Option (TurnCommitDraft Json)}

theorem modifyDraft_tracked (edits : EditsDraft f) (tracked : BoundaryTracked db boundary)
    (h : boundary.modifyDraft f = some edited) : BoundaryTracked db edited := by
  obtain ⟨draft, hstage, hdraft⟩ := tracked
  rw [TurnBoundary.modifyDraft, hstage] at h
  obtain ⟨next, hnext, rfl⟩ := map_eq_some_iff.mp h
  obtain ⟨hstate, hop⟩ := edits draft next hnext
  obtain ⟨op, happly⟩ := hop (storedGraph db)
  refine ⟨next, rfl, sound_of_apply hdraft.sound happly, ?_⟩
  rw [hstate]
  exact ⟨hdraft.follows.seen, hdraft.follows.ledger, fun hhead =>
    ledgered_of_apply (hdraft.follows.graph hhead) happly⟩

theorem modifyState_tracked {f : RuntimeSessionState Json → RuntimeSessionState Json}
    (keeps : ∀ state, (f state).headRevision = state.headRevision ∧
      (f state).tokenLedger = state.tokenLedger) (tracked : BoundaryTracked db boundary) :
    BoundaryTracked db (boundary.modifyState f) := by
  obtain ⟨draft, hstage, hdraft⟩ := tracked
  refine ⟨{ draft with state := f draft.state }, by simp only [TurnBoundary.modifyState, hstage],
    hdraft.sound, ?_⟩
  rw [(keeps draft.state).1, (keeps draft.state).2]
  exact hdraft.follows

theorem refreshedState_keeps (host : TurnHost Json) (policy : Json) (turnIndex : Nat)
    (reads : SessionReads Json) (state : RuntimeSessionState Json) :
    (refreshedState host policy turnIndex reads state).headRevision = state.headRevision ∧
      (refreshedState host policy turnIndex reads state).tokenLedger = state.tokenLedger := by
  obtain ⟨snapshot, plugins⟩ := reads
  cases snapshot with
  | none | some snapshot =>
    cases plugins with
    | none | some plugins => exact ⟨rfl, rfl⟩

/-- A session that has seen no head commits to a store without one, or it replaces the graph
and has the ledger of the store. -/
def Founds (db : Store Json) (state : RuntimeSessionState Json) (delta : GraphCommitDelta Json) :
    Prop :=
  state.headRevision = none → db.sessionHead = none ∨
    Replaces delta ∧ mergeTokenLedgerEntries db.usageDeltas = state.tokenLedger

variable {delta : GraphCommitDelta Json}

theorem atHead_or_founded {sqlite : SqliteHost Json} {commit : RuntimeCommit Json}
    (seen : Seen db state.headRevision)
    (expected : commit.expectedHeadRevision = state.headRevision) (founds : Founds db state delta)
    (accepts : Accepts sqlite commit db) :
    AtHead db state.headRevision ∨
      Replaces delta ∧ mergeTokenLedgerEntries db.usageDeltas = state.tokenLedger := by
  rcases atHead_of_accepts seen expected accepts with hhead | hnone
  · exact .inl hhead
  · rcases founds hnone with hempty | hreplaces
    · refine .inl ?_
      rw [AtHead, hnone, hempty]
      rfl
    · exact .inr hreplaces

theorem markPersisted_ledgered (tracked : DraftTracked db draft) {required : Bool}
    (current : Ledgered ⟨draft.graph, storedGraph db⟩ ∨ Replaces (draft.graphCommit required)) :
    Ledgered ⟨(draft.markPersisted (draft.graphCommit required)).graph,
      applyDelta (draft.graphCommit required) (storedGraph db)⟩ := by
  rcases current with hledgered | ⟨next, hnext⟩
  · have hcommitted := commitProgress_ledgered hledgered required
    rw [EditedTurn.commitProgress] at hcommitted
    exact hcommitted
  · obtain rfl := graphCommit_replaced hnext
    exact replaced_whole_ledgered tracked.sound.wired

theorem markPersisted_sound (sound : Sound draft.graph) (delta : GraphCommitDelta Json) :
    Sound (draft.markPersisted delta).graph := by
  cases delta with
  | unchanged leafNodeId => exact sound
  | append nodes leafNodeId | replaceFull graph =>
    exact ⟨⟨sound.wired.indices, sound.wired.existing⟩, sound.rooted, sound.base⟩

variable {answer : Except StoreError Unit}

/-- A progress commit that is accepted writes what the draft had pending. -/
theorem commitProgress_tracked {call : StoreCall Json} (tracked : BoundaryTracked db boundary)
    (founds : Founds db boundary.state boundary.progressGraphCommit)
    (h : boundary.commitProgressGraph host call db = (answer, edited, after)) :
    BoundaryTracked after edited := by
  have hend := applyCommit_end host boundary call (.progress boundary.progressGraphCommit) db
  rw [TurnBoundary.commitProgressGraph] at h
  rw [h] at hend
  obtain ⟨draft, hstage, hdraft⟩ := tracked
  obtain ⟨stage, lease⟩ := boundary
  obtain rfl : stage = .drafting draft := hstage
  generalize hresult : (answer, edited, after) = out at hend
  cases hend with
  | failed e =>
    obtain ⟨-, rfl, rfl⟩ := hresult
    exact ⟨draft, rfl, hdraft⟩
  | replayed result leases stored => cases stored
  | applied graphNodes leases accepts written =>
    obtain ⟨-, rfl, rfl⟩ := hresult
    have hcurrent := atHead_or_founded hdraft.follows.seen rfl founds accepts
    refine ⟨_, rfl, markPersisted_sound hdraft.sound _, ⟨?_, fun _ => ?_, fun _ => ?_⟩⟩
    · intro r hr
      exact ⟨_, rfl, (some.inj hr).ge⟩
    · refine (congrArg mergeTokenLedgerEntries (append_nil _)).trans ?_
      rcases hcurrent with hhead | hfounded
      · exact hdraft.follows.ledger hhead
      · exact hfounded.2
    · rw [stored_committed written]
      refine markPersisted_ledgered hdraft ?_
      exact hcurrent.imp hdraft.follows.graph And.left

/-- The revision and the ledger of a boundary are not touched. -/
def SameBooks (boundary edited : TurnBoundary Json) : Prop :=
  edited.state.headRevision = boundary.state.headRevision ∧
    edited.state.tokenLedger = boundary.state.tokenLedger

theorem Founds.same (founds : Founds db boundary.state delta) (same : SameBooks boundary edited) :
    Founds db edited.state delta := by
  intro hnone
  rw [same.2]
  exact founds (same.1.symm.trans hnone)

theorem modifyDraft_sameBooks (edits : EditsDraft f) (h : boundary.modifyDraft f = some edited) :
    SameBooks boundary edited := by
  unfold TurnBoundary.modifyDraft at h
  split at h
  · rename_i draft hstage
    obtain ⟨next, hnext, rfl⟩ := map_eq_some_iff.mp h
    simp only [SameBooks, TurnBoundary.state, hstage, (edits draft next hnext).1, and_self]
  · cases h

theorem modifyState_sameBooks {f : RuntimeSessionState Json → RuntimeSessionState Json}
    (keeps : ∀ state, (f state).headRevision = state.headRevision ∧
      (f state).tokenLedger = state.tokenLedger) (boundary : TurnBoundary Json) :
    SameBooks boundary (boundary.modifyState f) := by
  obtain ⟨stage, lease⟩ := boundary
  cases stage with
  | drafting draft => exact keeps draft.state
  | finalized state progress => exact keeps state

theorem SameBooks.trans {final : TurnBoundary Json} (first : SameBooks boundary edited)
    (second : SameBooks edited final) : SameBooks boundary final :=
  ⟨second.1.trans first.1, second.2.trans first.2⟩

theorem progressed_tracked {input : ProgressBoundary Json} (tracked : BoundaryTracked db boundary)
    (h : boundary.progressed host input = some edited) :
    BoundaryTracked db edited ∧ SameBooks boundary edited := by
  obtain ⟨appended, happended, h⟩ := bind_eq_some_iff.mp h
  obtain ⟨projected, hprojected, h⟩ := bind_eq_some_iff.mp h
  obtain rfl := some.inj h
  have hevents := appendEvents_edits input.eventDelta input.eventTick
  have hmessages := applyMessageProjection_edits input.messages input.messageTick
  have hkeeps := refreshedState_keeps host input.policy input.turnIndex input.reads
  constructor
  · exact modifyState_tracked hkeeps (modifyDraft_tracked hmessages
      (modifyDraft_tracked hevents tracked happended) hprojected)
  · exact ((modifyDraft_sameBooks hevents happended).trans
      (modifyDraft_sameBooks hmessages hprojected)).trans (modifyState_sameBooks hkeeps projected)

theorem preparedCheckpoint_tracked {input : PreparedCheckpoint Json}
    (tracked : BoundaryTracked db boundary)
    (founds : ∀ planned, BoundaryOp.plan host boundary (.preparedCheckpoint input) =
      some planned → Founds db boundary.state planned.request.graph)
    (h : boundary.preparedCheckpoint host input db = some (answer, edited, after)) :
    BoundaryTracked after edited := by
  have hmessages := applyMessageProjection_edits input.messages input.tick
  have hkeeps := refreshedState_keeps host input.policy input.turnIndex input.reads
  rcases preparedCheckpoint_cases h with
    ⟨-, rfl, rfl | hprepared⟩ | ⟨prepared, call, hprepared, hplan, hcommit⟩
  · exact tracked
  · exact modifyDraft_tracked hmessages tracked hprepared
  · have hprepares := modifyDraft_tracked hmessages tracked hprepared
    refine commitProgress_tracked (modifyState_tracked hkeeps hprepares) ?_ hcommit
    exact (founds _ hplan).same ((modifyDraft_sameBooks hmessages hprepared).trans
      (modifyState_sameBooks hkeeps prepared))

theorem progressBoundary_tracked {input : ProgressBoundary Json}
    {answer : Except StoreError (ProgressBoundaryCommit Json)}
    (tracked : BoundaryTracked db boundary)
    (founds : ∀ planned, BoundaryOp.plan host boundary (.progressBoundary input) =
      some planned → Founds db boundary.state planned.request.graph)
    (h : boundary.progressBoundaryWithSnapshot host input db = some (answer, edited, after)) :
    BoundaryTracked after edited := by
  rcases progressBoundary_cases h with
    ⟨-, rfl, rfl | hprogressed⟩ | ⟨progressed, call, committed, hprogressed, hplan, hcommit⟩
  · exact tracked
  · exact (progressed_tracked tracked hprogressed).1
  · obtain ⟨htracked, hsame⟩ := progressed_tracked tracked hprogressed
    exact commitProgress_tracked htracked ((founds _ hplan).same hsame) hcommit

variable {input : TurnFinishInput Json}

theorem readFinalized_tracked (tracked : BoundaryTracked db boundary)
    (h : boundary.readFinalized input = some edited) :
    BoundaryTracked db edited ∧ SameBooks boundary edited := by
  obtain ⟨projected, hprojected, rfl⟩ := map_eq_some_iff.mp h
  have hmessages : EditsDraft fun draft : TurnCommitDraft Json =>
      draft.finalizeTurnReadState input.newMessages input.cancelled input.readTick :=
    fun draft => applyMessageProjection_edits _ _ draft
  have hpolicy : ∀ state : RuntimeSessionState Json,
      ({ state with policy := input.policy, turnIndex := input.turnIndex } :
          RuntimeSessionState Json).headRevision = state.headRevision ∧
        ({ state with policy := input.policy, turnIndex := input.turnIndex } :
          RuntimeSessionState Json).tokenLedger = state.tokenLedger := fun _ => ⟨rfl, rfl⟩
  constructor
  · exact modifyState_tracked (fun _ => ⟨rfl, rfl⟩)
      (modifyDraft_tracked hmessages (modifyState_tracked hpolicy tracked) hprojected)
  · refine ((modifyState_sameBooks hpolicy boundary).trans
      (modifyDraft_sameBooks hmessages hprojected)).trans (modifyState_sameBooks ?_ projected)
    exact fun _ => ⟨rfl, rfl⟩

theorem foldl_mergeLedgerEntry {usage : List TokenLedgerEntry} (ledger : List TokenLedgerEntry)
    (counted : ∀ entry ∈ usage, entry.usage.total = 0 → entry.usage.cachedInputTokens = 0) :
    usage.foldl mergeLedgerEntry ledger = usage.foldl
      (fun ledger entry => if entry.usage.total = 0 then ledger else addLedgerEntry ledger entry)
      ledger := by
  induction usage generalizing ledger with
  | nil => rfl
  | cons entry usage ih =>
    rw [forall_mem_cons] at counted
    have hentry : mergeLedgerEntry ledger entry =
        if entry.usage.total = 0 then ledger else addLedgerEntry ledger entry := by
      unfold mergeLedgerEntry
      by_cases hzero : entry.usage.total = 0
      · rw [if_pos ⟨hzero, counted.1 hzero⟩, if_pos hzero]
      · rw [if_neg fun h => hzero h.1, if_neg hzero]
    rw [foldl_cons, foldl_cons, hentry, ih _ counted.2]

/-- The final commit is made and not answered from the turn ledger; no usage has cached tokens
alone; where the delta does not replace the graph no hook has changed it; and the current frame
names the execution state that is written. -/
structure SavesTurn (host : TurnHost Json) (db : Store Json) (input : TurnFinishInput Json)
    (planned : PlannedCommit Json) : Prop where
  unreplayed : ∀ stored,
    (planned.commit host).findReplay db.runtimeTurnCommits ≠ .ok (some stored)
  counted : ∀ entry ∈ input.usageDeltas,
    entry.usage.total = 0 → entry.usage.cachedInputTokens = 0
  unhooked : ¬ Replaces planned.request.graph → input.enqueued = none
  names : NamesExecution host planned.call.host planned.boundary.state

/-- The final commit of a tracked draft saves the state that is returned. -/
theorem finalCommit_saved {call : StoreCall Json} {returned : SessionSnapshot Json}
    (tracked : DraftTracked db draft)
    (hooks : finalizeTurn input.enqueued input.hookTick draft.intoFinalState.toSnapshot =
      some returned)
    (final : finalState host input.toFinalCommitInput returned draft.intoFinalState = some state)
    (chosen : delta = finalGraphCommit state
      (draft.graphCommit draft.state.graphReplaceRequired))
    (hboundary : boundary = ⟨.finalized state
      (draft.graphCommit draft.state.graphReplaceRequired), lease⟩)
    (founds : Founds db draft.state delta)
    (saves : SavesTurn host db input ⟨boundary, call, input.request delta⟩)
    (h : boundary.applyCommit host call (input.request delta) db = (.ok (), edited, after)) :
    Saved host edited.state.toSnapshot after ∧ StateTracked after edited.intoFinalState := by
  have hend := applyCommit_end host boundary call (input.request delta) db
  rw [h] at hend
  have hfinal := finalState_finalized final
  have hextends := finalState_extends (finalizeTurn_nodes hooks) final
  generalize hresult : ((.ok (), edited, after) : Except StoreError Unit × _ × _) = out at hend
  cases hend with
  | failed e => cases hresult
  | replayed result leases stored => exact absurd stored (saves.unreplayed result)
  | applied graphNodes leases accepts written =>
    obtain ⟨-, rfl, rfl⟩ := hresult
    subst hboundary
    have hrevision : state.headRevision = draft.state.headRevision := hextends.revision
    have hcurrent := atHead_or_founded tracked.follows.seen hrevision founds accepts
    have hgraph : applyDelta delta (storedGraph db) = state.sessionGraph.inner := by
      rw [chosen]
      refine finalGraphCommit_applied tracked.sound (fun hhead => ?_) hextends.required ?_
        fun hkept => ?_
      · rcases atHead_of_accepts tracked.follows.seen hrevision accepts with hat | hnone
        · exact tracked.follows.graph hat
        · rw [hrevision, hnone] at hhead
          cases hhead
      · have hnodes := hextends.nodes
        rwa [show draft.intoFinalState.sessionGraph.nodes = draft.graph.data.nodes from
          intoSessionGraph_nodes draft.graph] at hnodes
      · have hunhooked := saves.unhooked fun hreplaces => hkept (chosen ▸ hreplaces)
        rw [hunhooked] at hooks
        obtain rfl := some.inj hooks
        refine hfinal.graph (eq_false_of_ne_true fun hrequired => hkept ⟨_, if_pos hrequired⟩)
    have hledger : mergeTokenLedgerEntries (db.usageDeltas ++ input.usageDeltas) =
        state.tokenLedger := by
      have hstored : mergeTokenLedgerEntries db.usageDeltas = draft.state.tokenLedger :=
        hcurrent.elim tracked.follows.ledger And.right
      rw [hfinal.ledger, finalizeTurn_tokenLedger hooks,
        foldl_mergeLedgerEntry _ saves.counted, mergeTokenLedgerEntries, foldl_append]
      exact congrArg (foldl _ · input.usageDeltas) hstored
    have hsaved := saved_of_applied host
      ⟨.finalized state (draft.graphCommit draft.state.graphReplaceRequired), lease⟩ leases
      written hgraph hfinal.framed saves.names hledger
    refine ⟨hsaved, ?_, ⟨?_, fun _ => hledger, fun _ => ?_⟩⟩
    · exact hfinal.rooted (finalizeTurn_rooted (intoFinalState_rooted tracked.sound) hooks)
    · intro r hr
      exact ⟨_, rfl, (some.inj hr).ge⟩
    · rw [stored_committed written]
      exact congrArg SessionGraphData.nodes hgraph

/-- The final commit of a tracked turn saves what the turn returns. -/
theorem finishTurn_saved {snapshot : SessionSnapshot Json} (tracked : BoundaryTracked db boundary)
    (store : input.store.isSome = true)
    (settled : ∀ planned, BoundaryOp.plan host boundary (.finishTurn input) = some planned →
      Founds db boundary.state planned.request.graph ∧ SavesTurn host db input planned)
    (h : boundary.finishTurn host input db = some (.ok snapshot, edited, after)) :
    Saved host snapshot after ∧ StateTracked after edited.intoFinalState := by
  obtain ⟨call, hstore⟩ := isSome_iff_exists.mp store
  obtain ⟨drafted, returned, state, committed, hmade, hanswer, hcommit⟩ := finishTurn_assembled h
  obtain ⟨hfounds, hsaves⟩ := settled _ (hmade.plan hstore)
  obtain ⟨hdrafted, hsame⟩ := readFinalized_tracked tracked hmade.read
  rw [hstore] at hcommit
  cases committed with
  | error e => cases hanswer
  | ok done =>
    obtain rfl := Except.ok.inj hanswer
    obtain ⟨draft, hstage, hdraft⟩ := hdrafted
    obtain ⟨stage, lease⟩ := drafted
    obtain rfl : stage = .drafting draft := hstage
    exact finalCommit_saved hdraft hmade.hooks hmade.final rfl rfl (hfounds.same hsame) hsaves
      hcommit

end Tracking

/-! ## Sessions that are opened -/

section Opening

variable {db : Store Json} {state after final : RuntimeSessionState Json}

/-- The revision, the ledger and the nodes of a state, and a leaf in order. -/
structure Opens (state after : RuntimeSessionState Json) : Prop where
  revision : after.headRevision = state.headRevision
  ledger : after.tokenLedger = state.tokenLedger
  nodes : after.sessionGraph.nodes = state.sessionGraph.nodes
  rooted : Rooted state.sessionGraph.inner → Rooted after.sessionGraph.inner

theorem Opens.refl (state : RuntimeSessionState Json) : Opens state state := ⟨rfl, rfl, rfl, id⟩

theorem Opens.trans (first : Opens state after) (second : Opens after final) :
    Opens state final where
  revision := second.revision.trans first.revision
  ledger := second.ledger.trans first.ledger
  nodes := second.nodes.trans first.nodes
  rooted rooted := second.rooted (first.rooted rooted)

theorem ensureAgentFrameInitialized_opens (host : TurnHost Json)
    (state : RuntimeSessionState Json) (timestamp : String) :
    Opens state (state.ensureAgentFrameInitialized host timestamp) := by
  obtain ⟨frames, frameId, hframe⟩ := ensureAgentFrameInitialized_frame host state timestamp
  rw [hframe]
  exact ⟨rfl, rfl, rfl, id⟩

theorem normalizeSessionGraph_opens (h : state.normalizeSessionGraph = some after) :
    Opens state after ∧ Rooted after.sessionGraph.inner := by
  obtain ⟨⟨healed, graph⟩, hheal, rfl⟩ := map_eq_some_iff.mp h
  have hrooted := healOrphanedLeaf_rooted hheal
  exact ⟨⟨rfl, rfl, healOrphanedLeaf_nodes hheal, fun _ => hrooted⟩, hrooted⟩

variable {freshSessionId timestamp : String} {policy : Json}

theorem fromHostState_opens
    (h : state.fromHostState host policy freshSessionId timestamp = some after) :
    Opens state after ∧ Rooted after.sessionGraph.inner := by
  obtain ⟨normalized, hnormalized, rfl⟩ := map_eq_some_iff.mp h
  obtain ⟨hopens, hrooted⟩ := normalizeSessionGraph_opens hnormalized
  have hsession : Opens state (state.withSessionId freshSessionId) := by
    unfold RuntimeSessionState.withSessionId
    split
    · exact ⟨rfl, rfl, rfl, id⟩
    · exact .refl _
  have hpolicy : Opens (state.withSessionId freshSessionId)
      ((state.withSessionId freshSessionId).withPolicy host policy) := by
    unfold RuntimeSessionState.withPolicy
    split
    · exact ⟨rfl, rfl, rfl, id⟩
    · exact .refl _
  have hframe := (hsession.trans hpolicy).trans
    (ensureAgentFrameInitialized_opens host _ timestamp)
  have hframed : Opens _ (RuntimeSessionState.withFramePolicy _ host) :=
    hframe.trans ⟨rfl, rfl, rfl, id⟩
  refine ⟨(hframed.trans hopens).trans ⟨rfl, rfl, rfl, id⟩, ?_⟩
  exact hrooted

theorem loadSession_fullGraph (db : Store Json) :
    db.sessionHead = none ∧ db.loadSession .fullGraph = some none ∨
      ∃ head read, db.sessionHead = some head ∧ db.loadSession .fullGraph = some (some read) ∧
        read.headRevision = head.headRevision ∧ read.graph = ⟨storedGraph db, none⟩ ∧
        read.tokenLedger = mergeTokenLedgerEntries db.usageDeltas := by
  cases hhead : db.sessionHead with
  | none => exact .inl ⟨rfl, by rw [Store.loadSession, hhead]⟩
  | some head =>
    refine .inr ⟨head, _, rfl, by rw [Store.loadSession, hhead]; rfl, rfl, ?_, rfl⟩
    rw [storedGraph, hhead]
    rfl

/-- A store without a head has no nodes and no usage. -/
def Blank (db : Store Json) : Prop :=
  db.sessionHead = none → visibleNodes db = [] ∧ db.usageDeltas = []

theorem persistedSessionStateFromRead_tokenLedger (host : TurnHost Json) (timestamp : String)
    (read : PersistedSessionRead Json) :
    (RuntimeSessionState.persistedSessionStateFromRead host timestamp read).tokenLedger =
      read.tokenLedger := by
  unfold RuntimeSessionState.persistedSessionStateFromRead
  dsimp only
  rw [(ensureAgentFrameInitialized_opens host _ timestamp).ledger]
  cases read.checkpoint with
  | none | some checkpoint => rfl

theorem atHead_some {head : SessionHeadMeta Json} (h : db.sessionHead = some head) :
    Seen db (some head.headRevision) := by
  intro r hr
  exact ⟨head, h, (some.inj hr).ge⟩

variable {sessionId : String}

theorem loadStateForResidency_follows (blank : Blank db)
    (h : RuntimeSessionState.loadStateForResidency host timestamp .keepAll sessionId policy db =
      some state) :
    Follows db state.headRevision state.tokenLedger
      fun stored => stored.nodes = state.sessionGraph.nodes := by
  obtain ⟨found, hfound, h⟩ := bind_eq_some_iff.mp h
  obtain ⟨read, hread, rfl⟩ := map_eq_some_iff.mp hfound
  dsimp only at h
  split at h
  · cases h
  obtain rfl := some.inj h
  rcases loadSession_fullGraph db with ⟨hhead, hnone⟩ | ⟨head, stored, hhead, hsome, hloads⟩
  · obtain rfl := some.inj (hnone.symm.trans hread)
    obtain ⟨hvisible, husage⟩ := blank hhead
    refine ⟨fun r hr => (nomatch hr), fun _ => ?_, fun _ => hvisible⟩
    rw [husage]
    rfl
  · obtain rfl := some.inj (hsome.symm.trans hread)
    obtain ⟨hrevision, hgraph, hledger⟩ := hloads
    obtain ⟨hstateRevision, hstateGraph⟩ :=
      persistedSessionStateFromRead_extends host timestamp stored
    dsimp only [map_some, getD_some]
    rw [hstateRevision, hrevision, hstateGraph, hgraph,
      persistedSessionStateFromRead_tokenLedger, hledger]
    exact ⟨atHead_some hhead, fun _ => rfl, fun _ => rfl⟩

/-- A session that is resumed whole, or that starts afresh, follows the store. -/
theorem resumedState_tracked (blank : Blank db)
    (h : resumedState host .keepAll sessionId policy freshSessionId timestamp db = some state) :
    StateTracked db state := by
  obtain ⟨loaded, hloaded, hassembled⟩ := bind_eq_some_iff.mp h
  obtain ⟨normalized, hnormalized, hfinal⟩ := bind_eq_some_iff.mp hassembled
  obtain ⟨healed, hhealed, hkept⟩ := bind_eq_some_iff.mp hnormalized
  obtain rfl := some.inj hkept
  obtain ⟨hopens, hrooted⟩ := fromHostState_opens hfinal
  have hall := (normalizeSessionGraph_opens hhealed).1.trans hopens
  refine ⟨hrooted, ?_⟩
  rw [hall.revision, hall.ledger, hall.nodes]
  exact loadStateForResidency_follows blank hloaded

/-- The head and the ledger of the store can be taken over as they are: no row of the ledger
is empty, and the leaf is not the leaf of nothing. -/
structure Adoptable (db : Store Json) : Prop where
  rows : ∀ entry ∈ mergeTokenLedgerEntries db.usageDeltas,
    ¬ (entry.usage.total = 0 ∧ entry.usage.cachedInputTokens = 0)
  rooted : Rooted (storedGraph db)

variable (entry : TokenLedgerEntry)

def ledgerKey : String × String := (entry.source, entry.model)

theorem addLedgerEntry_keys (ledger : List TokenLedgerEntry) (entry : TokenLedgerEntry) :
    (addLedgerEntry ledger entry).map ledgerKey =
      if ledgerKey entry ∈ ledger.map ledgerKey then ledger.map ledgerKey
      else ledger.map ledgerKey ++ [ledgerKey entry] := by
  induction ledger with
  | nil => rfl
  | cons existing ledger ih =>
    rw [addLedgerEntry]
    by_cases hkey : existing.source = entry.source ∧ existing.model = entry.model
    · rw [if_pos hkey, if_pos]
      · rfl
      · exact mem_map.mpr ⟨existing, mem_cons_self, Prod.ext hkey.1 hkey.2⟩
    · have hne : ledgerKey entry ≠ ledgerKey existing := fun h =>
        hkey ⟨(congrArg Prod.fst h).symm, (congrArg Prod.snd h).symm⟩
      rw [if_neg hkey, map_cons, ih, map_cons]
      by_cases hmem : ledgerKey entry ∈ ledger.map ledgerKey
      · rw [if_pos hmem, if_pos (mem_cons_of_mem _ hmem)]
      · rw [if_neg hmem, if_neg fun h => (mem_cons.mp h).elim hne hmem]
        rfl

variable {ledger : List TokenLedgerEntry}

theorem addLedgerEntry_nodup (distinct : (ledger.map ledgerKey).Nodup) :
    ((addLedgerEntry ledger entry).map ledgerKey).Nodup := by
  rw [addLedgerEntry_keys]
  split
  · exact distinct
  · rename_i hnew
    exact nodup_append.mpr ⟨distinct, nodup_singleton _, fun key hkey other hother => by
        rintro rfl
        exact hnew (mem_singleton.mp hother ▸ hkey)⟩

theorem addLedgerEntry_new {entry : TokenLedgerEntry}
    (new : ledgerKey entry ∉ ledger.map ledgerKey) :
    addLedgerEntry ledger entry = ledger ++ [entry] := by
  induction ledger with
  | nil => rfl
  | cons existing ledger ih =>
    rw [map_cons, mem_cons, not_or] at new
    rw [addLedgerEntry, if_neg, ih new.2]
    · rfl
    · exact fun h => new.1 (Prod.ext h.1.symm h.2.symm)

theorem mergeTokenLedgerEntries_nodup (rows : List TokenLedgerEntry) :
    ((mergeTokenLedgerEntries rows).map ledgerKey).Nodup := by
  have hfold : ∀ ledger : List TokenLedgerEntry, (ledger.map ledgerKey).Nodup →
      ((rows.foldl (fun ledger entry => if entry.usage.total = 0 then ledger
        else addLedgerEntry ledger entry) ledger).map ledgerKey).Nodup := by
    induction rows with
    | nil => exact fun ledger h => h
    | cons entry rows ih =>
      intro ledger hledger
      refine ih _ ?_
      dsimp only
      split
      · exact hledger
      · exact addLedgerEntry_nodup entry hledger
  exact hfold [] nodup_nil

/-- Merging rows that are merged already leaves them, unless one of them is empty. -/
theorem mergeUsageDeltaEntries_of_nodup {rows : List TokenLedgerEntry}
    (distinct : (rows.map ledgerKey).Nodup)
    (counted : ∀ entry ∈ rows, ¬ (entry.usage.total = 0 ∧ entry.usage.cachedInputTokens = 0)) :
    mergeUsageDeltaEntries rows = rows := by
  have hfold : ∀ ledger : List TokenLedgerEntry, ((ledger ++ rows).map ledgerKey).Nodup →
      rows.foldl mergeLedgerEntry ledger = ledger ++ rows := by
    clear distinct
    induction rows with
    | nil => exact fun ledger _ => (append_nil _).symm
    | cons entry rows ih =>
      intro ledger hledger
      rw [forall_mem_cons] at counted
      have hnew : ledgerKey entry ∉ ledger.map ledgerKey := by
        rw [map_append] at hledger
        exact fun hmem => (nodup_append.mp hledger).2.2 _ hmem _ mem_cons_self rfl
      rw [append_cons] at hledger
      rw [foldl_cons, mergeLedgerEntry, if_neg counted.1, addLedgerEntry_new hnew,
        ih counted.2 _ hledger, ← append_cons]
  exact hfold [] distinct

theorem applySession_tokenLedger (host : TurnHost Json) (timestamp : String)
    (state : RuntimeSessionState Json) (read : PersistedSessionRead Json) :
    ((state.applySessionHead host timestamp read).applySessionCheckpoint host timestamp
      read.checkpoint).tokenLedger = mergeUsageDeltaEntries read.tokenLedger := by
  have hhead : (state.applySessionHead host timestamp read).tokenLedger =
      mergeUsageDeltaEntries read.tokenLedger :=
    (ensureAgentFrameInitialized_opens host _ timestamp).ledger
  cases read.checkpoint with
  | none | some checkpoint =>
    exact (ensureAgentFrameInitialized_opens host _ timestamp).ledger.trans hhead

theorem refreshed_tracked (tracked : StateTracked db state) (adoptable : Adoptable db)
    (h : state.refreshSessionGraphFromStore host timestamp .keepAll db = some after) :
    StateTracked db after := by
  unfold RuntimeSessionState.refreshSessionGraphFromStore at h
  split at h
  · obtain rfl := some.inj h
    exact tracked
  · obtain ⟨loaded, hloaded, hafter⟩ := map_eq_some_iff.mp h
    rcases loadSession_fullGraph db with ⟨hhead, hnone⟩ | ⟨head, stored, hhead, hsome, hloads⟩
    · obtain rfl := some.inj (hnone.symm.trans hloaded)
      obtain rfl : state = after := hafter
      exact tracked
    · obtain rfl := some.inj (hsome.symm.trans hloaded)
      dsimp only at hafter
      split at hafter
      · obtain ⟨hrevision, hgraph, hledger⟩ := hloads
        subst hafter
        obtain ⟨hstateRevision, hstateGraph⟩ := applySession_extends host timestamp state stored
        have hmerged : mergeUsageDeltaEntries (mergeTokenLedgerEntries db.usageDeltas) =
            mergeTokenLedgerEntries db.usageDeltas :=
          mergeUsageDeltaEntries_of_nodup (mergeTokenLedgerEntries_nodup _) adoptable.rows
        constructor
        · rw [hstateGraph, hgraph]
          exact adoptable.rooted
        · rw [hstateRevision, hrevision, hstateGraph, hgraph, applySession_tokenLedger, hledger,
            hmerged]
          exact ⟨atHead_some hhead, fun _ => rfl, fun _ => rfl⟩
      · obtain rfl := hafter
        exact tracked

end Opening

/-! ## Runs of the sessions -/

section Histories

variable {world : World Json} {session : RuntimeSession Json} {e : WorldEntry Json}
  {history : List (WorldEntry Json)}

/-- The state of the session, or of its turn, is at the head of the store. -/
def IsAtHead (db : Store Json) (session : RuntimeSession Json) : Prop :=
  AtHead db session.state.headRevision ∨
    ∃ boundary, session.turn = some boundary ∧ AtHead db boundary.state.headRevision

/-- What the steps of a run have to respect, for the sessions that keep the whole graph: no
node is tombstoned under a session that is at the head; a state that is supplied or refreshed
is one of the store; a session that has seen no head writes whole graphs; and final commits
are such that they save their turn. -/
structure Settled (host : TurnHost Json) (e : WorldEntry Json) : Prop where
  spares : ∀ sqlite op, e.input = .call (sqlite, op) → ∀ i session,
    e.before.sessions i = some session → session.residency = .keepAll →
      IsAtHead e.before.db session → Spares op e.before.db
  supplied : ∀ i state, e.input = .supply i .keepAll state → StateTracked e.before.db state
  refreshed : ∀ i timestamp session, e.input = .refresh i timestamp →
    e.before.sessions i = some session → session.residency = .keepAll → Adoptable e.before.db
  founds : ∀ session boundary planned, plannedAt host e = some (session, boundary, planned) →
    session.residency = .keepAll → Founds e.before.db boundary.state planned.request.graph
  stores : ∀ i input session, e.input = .boundary i (.finishTurn input) →
    e.before.sessions i = some session → session.residency = .keepAll →
      input.store.isSome = true ∧ ∀ boundary planned,
        plannedAt host e = some (session, boundary, planned) →
          SavesTurn host e.before.db input planned

/-- A turn that is returned can be loaded. -/
def ReturnsSaved (host : TurnHost Json) (e : WorldEntry Json) : Prop :=
  ∀ i input session snapshot, e.input = .boundary i (.finishTurn input) →
    e.before.sessions i = some session → session.residency = .keepAll →
      e.output = some (.finished (.ok snapshot)) → Saved host snapshot e.after.db

structure SessionTracked (db : Store Json) (session : RuntimeSession Json) : Prop where
  idle : StateTracked db session.state
  turn : ∀ boundary, session.turn = some boundary → BoundaryTracked db boundary

structure WorldTracked (world : World Json) : Prop where
  blank : Blank world.db
  sessions : ∀ i session, world.sessions i = some session → session.residency = .keepAll →
    SessionTracked world.db session

theorem SessionTracked.call (tracked : SessionTracked world.db session)
    {call : SqliteHost Json × Op Json}
    (spares : IsAtHead world.db session → Spares call.2 world.db) :
    SessionTracked (SqliteStore.step call world.db).2 session where
  idle := ⟨tracked.idle.rooted, tracked.idle.follows.call fun h => spares (.inl h)⟩
  turn boundary hturn := by
    obtain ⟨draft, hstage, hdraft⟩ := tracked.turn boundary hturn
    refine ⟨draft, hstage, hdraft.sound, hdraft.follows.call fun h => spares (.inr ?_)⟩
    exact ⟨boundary, hturn, by rwa [TurnBoundary.state, hstage]⟩

variable {db : Store Json}

theorem blank_call (blank : Blank db) (call : SqliteHost Json × Op Json) :
    Blank (SqliteStore.step call db).2 := by
  intro hnone
  rcases call_moves call db with ⟨head, hhead, _⟩ | ⟨hhead, hkeeps⟩
  · rw [hhead] at hnone
    cases hnone
  · obtain ⟨hvisible, husage⟩ := blank (hhead.symm.trans hnone)
    have hkept := hkeeps fun ids _ node hnode => by
      rw [hvisible] at hnode
      cases hnode
    exact ⟨hkept.visible.trans hvisible, hkept.usage.trans husage⟩

theorem WorldTracked.set (tracked : WorldTracked world) (i : Nat)
    (kept : session.residency = .keepAll → SessionTracked world.db session) :
    WorldTracked (world.set i session) where
  blank := tracked.blank
  sessions j other hother whole := by
    by_cases hj : j = i
    · subst hj
      have hset : (world.set j session).sessions j = some session := Function.update_self ..
      obtain rfl : session = other := some.inj (hset.symm.trans hother)
      exact kept whole
    · have hset : (world.set i session).sessions j = world.sessions j := Function.update_of_ne hj ..
      exact tracked.sessions j other (hset.symm.trans hother) whole

theorem WorldTracked.call (tracked : WorldTracked world) (call : SqliteHost Json × Op Json)
    (spares : ∀ i session, world.sessions i = some session → session.residency = .keepAll →
      IsAtHead world.db session → Spares call.2 world.db) :
    WorldTracked { world with db := (SqliteStore.step call world.db).2 } where
  blank := blank_call tracked.blank call
  sessions i session hsession whole := by
    refine (tracked.sessions i session hsession whole).call ?_
    exact spares i session hsession whole

variable {reply : BoundaryReply Json} {boundary : TurnBoundary Json}

theorem SessionTracked.answered (idle : StateTracked db session.state)
    (drafts : (∀ answer, reply ≠ .finished answer) → BoundaryTracked db boundary)
    (finishes : ∀ snapshot, reply = .finished (.ok snapshot) →
      StateTracked db boundary.intoFinalState) :
    SessionTracked db (session.answered reply boundary) := by
  cases reply with
  | done answer | progress answer =>
    exact ⟨idle, fun turn hturn => some.inj hturn ▸ drafts fun _ h => nomatch h⟩
  | finished answer =>
    cases answer with
    | error e => exact ⟨idle, fun turn hturn => nomatch hturn⟩
    | ok snapshot => exact ⟨finishes snapshot rfl, fun turn hturn => nomatch hturn⟩

theorem answered_residency (session : RuntimeSession Json) (reply : BoundaryReply Json)
    (boundary : TurnBoundary Json) :
    (session.answered reply boundary).residency = session.residency := by
  cases reply with
  | done answer | progress answer => rfl
  | finished answer => cases answer <;> rfl

variable {final : TurnBoundary Json} {op : BoundaryOp Json}

/-- An operation that does not end the turn leaves a tracked draft. -/
theorem apply_tracked {after : Store Json} (tracked : BoundaryTracked db boundary)
    (founds : ∀ planned, op.plan host boundary = some planned →
      Founds db boundary.state planned.request.graph)
    (h : op.apply host boundary db = some (reply, final, after))
    (drafting : ∀ answer, reply ≠ .finished answer) : BoundaryTracked after final := by
  cases op with
  | applyEventDelta eventDelta tick =>
    obtain ⟨appended, happended, hpair⟩ := map_eq_some_iff.mp h
    obtain ⟨-, rfl, rfl⟩ := hpair
    exact modifyDraft_tracked (appendEvents_edits eventDelta tick) tracked happended
  | recordUsage tokenUsage lastPromptUsage =>
    obtain ⟨-, rfl, rfl⟩ := some.inj h
    exact modifyState_tracked (fun _ => ⟨rfl, rfl⟩) tracked
  | preparedCheckpoint input =>
    obtain ⟨⟨answer, edited, db'⟩, hout, hpair⟩ := map_eq_some_iff.mp h
    obtain ⟨-, rfl, rfl⟩ := hpair
    exact preparedCheckpoint_tracked tracked founds hout
  | progressBoundary input =>
    obtain ⟨⟨answer, edited, db'⟩, hout, hpair⟩ := map_eq_some_iff.mp h
    obtain ⟨-, rfl, rfl⟩ := hpair
    exact progressBoundary_tracked tracked founds hout
  | finishTurn input =>
    obtain ⟨⟨answer, edited, db'⟩, hout, hpair⟩ := map_eq_some_iff.mp h
    obtain ⟨rfl, -, -⟩ := hpair
    exact absurd rfl (drafting answer)

theorem boundary_step {i : Nat} (tracked : WorldTracked world)
    (settled : Settled host (entryAt (step host) (.boundary i op) world))
    (hsession : world.sessions i = some session) (hturn : session.turn = some boundary)
    (happly : op.apply host boundary world.db = some (reply, final, db)) :
    WorldTracked ({ world with db := db }.set i (session.answered reply final)) ∧
      (session.residency = .keepAll → ∀ snapshot, reply = .finished (.ok snapshot) →
        Saved host snapshot db) := by
  have hplanned : ∀ planned, op.plan host boundary = some planned →
      plannedAt host (entryAt (step host) (.boundary i op) world) =
        some (session, boundary, planned) := by
    intro planned hplan
    simp [plannedAt, entryAt, hsession, hturn, hplan]
  have hworld : WorldTracked { world with db := db } := by
    rcases outcome_call (apply_outcome happly) with rfl | ⟨sqlite, commit, rfl⟩
    · exact tracked
    · exact tracked.call (sqlite, .commitRuntimeState commit) fun _ _ _ _ _ _ h => by cases h
  have hfinish : session.residency = .keepAll → ∀ snapshot, reply = .finished (.ok snapshot) →
      Saved host snapshot db ∧ StateTracked db final.intoFinalState := by
    intro whole snapshot hreply
    subst hreply
    cases op with
    | finishTurn input =>
      obtain ⟨⟨answer, edited, db'⟩, hout, hpair⟩ := map_eq_some_iff.mp happly
      cases hpair
      obtain ⟨hstore, hsaves⟩ := settled.stores i input session rfl hsession whole
      refine finishTurn_saved ((tracked.sessions i session hsession whole).turn boundary hturn)
        hstore (fun planned hplan => ?_) hout
      exact ⟨settled.founds session boundary planned (hplanned planned hplan) whole,
        hsaves boundary planned (hplanned planned hplan)⟩
    | applyEventDelta eventDelta tick | preparedCheckpoint input | progressBoundary input =>
      obtain ⟨_, _, hpair⟩ := map_eq_some_iff.mp happly
      cases hpair
    | recordUsage tokenUsage lastPromptUsage => cases happly
  refine ⟨hworld.set i fun whole => ?_, fun whole snapshot hreply =>
    (hfinish whole snapshot hreply).1⟩
  rw [answered_residency] at whole
  refine SessionTracked.answered (hworld.sessions i session hsession whole).idle ?_
    fun snapshot hreply => (hfinish whole snapshot hreply).2
  refine apply_tracked ((tracked.sessions i session hsession whole).turn boundary hturn)
    (fun planned hplan => ?_) happly
  exact settled.founds session boundary planned (hplanned planned hplan) whole

theorem step_tracked (tracked : WorldTracked world) (input : RuntimeInput Json)
    (settled : Settled host (entryAt (step host) input world)) :
    WorldTracked (step host input world).2 ∧
      ReturnsSaved host (entryAt (step host) input world) := by
  cases input with
  | call call =>
    refine ⟨tracked.call call ?_, fun i input session snapshot h => by cases h⟩
    exact settled.spares call.1 call.2 rfl
  | resume i residency sessionId policy freshSessionId timestamp =>
    refine ⟨?_, fun i input session snapshot h => by cases h⟩
    rw [CommittedHistory.step]
    split
    · exact tracked
    · rename_i state hstate
      refine tracked.set i fun whole => ?_
      obtain rfl : residency = .keepAll := whole
      exact ⟨resumedState_tracked tracked.blank hstate, fun turn h => by cases h⟩
  | supply i residency state =>
    refine ⟨tracked.set i fun whole => ?_, fun i input session snapshot h => by cases h⟩
    obtain rfl : residency = .keepAll := whole
    exact ⟨settled.supplied i state rfl, fun turn h => by cases h⟩
  | refresh i timestamp =>
    refine ⟨?_, fun i input session snapshot h => by cases h⟩
    rw [CommittedHistory.step]
    split
    · exact tracked
    · rename_i session hsession
      split
      · exact tracked
      · rename_i state hstate
        refine tracked.set i fun whole => ?_
        have hbefore := tracked.sessions i session hsession whole
        rw [show session.residency = .keepAll from whole] at hstate
        refine ⟨refreshed_tracked hbefore.idle ?_ hstate, hbefore.turn⟩
        exact settled.refreshed i timestamp session rfl hsession whole
  | beginTurn i lease =>
    refine ⟨?_, fun i input session snapshot h => by cases h⟩
    rw [CommittedHistory.step]
    split
    · exact tracked
    · rename_i session hsession
      split
      · exact tracked
      · rename_i boundary hboundary
        refine tracked.set i fun whole => ?_
        have hbefore := tracked.sessions i session hsession whole
        refine ⟨hbefore.idle, fun turn h => ?_⟩
        obtain rfl := some.inj h
        exact fromState_tracked hbefore.idle hboundary
  | boundary i op =>
    cases hsession : world.sessions i with
    | none =>
      have hstep : step host (.boundary i op) world = (none, world) := by
        simp only [CommittedHistory.step, hsession]
      refine ⟨by rw [hstep]; exact tracked, ?_⟩
      intro j input session snapshot hinput hother
      obtain ⟨rfl, rfl⟩ := RuntimeInput.boundary.inj hinput
      cases hsession.symm.trans hother
    | some session =>
      cases happly : session.turn.bind fun boundary => op.apply host boundary world.db with
      | none =>
        have hstep : step host (.boundary i op) world = (none, world) := by
          simp only [CommittedHistory.step, hsession, happly]
        refine ⟨by rw [hstep]; exact tracked, ?_⟩
        intro j input other snapshot _ _ _ houtput
        cases (congrArg Prod.fst hstep).symm.trans houtput
      | some out =>
        obtain ⟨reply, final, db⟩ := out
        have hstep : step host (.boundary i op) world = (some reply,
            { world with db := db }.set i (session.answered reply final)) := by
          simp only [CommittedHistory.step, hsession, happly]
        obtain ⟨boundary, hturn, happly⟩ := bind_eq_some_iff.mp happly
        obtain ⟨hworld, hsaved⟩ := boundary_step tracked settled hsession hturn happly
        refine ⟨by rw [hstep]; exact hworld, ?_⟩
        intro j input other snapshot hinput hother whole houtput
        obtain ⟨rfl, rfl⟩ := RuntimeInput.boundary.inj hinput
        obtain rfl := some.inj (hsession.symm.trans hother)
        have hreply : some reply = some (.finished (.ok snapshot)) :=
          (congrArg Prod.fst hstep).symm.trans houtput
        have hdb : (entryAt (step host) (.boundary i (.finishTurn input)) world).after.db =
            db := congrArg (fun out => out.2.db) hstep
        rw [hdb]
        exact hsaved whole snapshot (some.inj hreply)
  | abandonTurn i =>
    refine ⟨?_, fun i input session snapshot h => by cases h⟩
    rw [CommittedHistory.step]
    split
    · exact tracked
    · rename_i session hsession
      refine tracked.set i fun whole => ?_
      have hbefore := tracked.sessions i session hsession whole
      exact ⟨hbefore.idle, fun turn h => by cases h⟩

theorem new_tracked : WorldTracked (World.new : World Json) where
  blank _ := ⟨rfl, rfl⟩
  sessions _ _ h := nomatch h

/-- Along every run whose steps are settled, what a turn returns is what was saved. -/
theorem returned_turns_are_saved (run : WorldRun host history world)
    (settled : ∀ e ∈ history, Settled host e) : ∀ e ∈ history, ReturnsSaved host e := by
  suffices h : WorldTracked world ∧ ∀ e ∈ history, ReturnsSaved host e from h.2
  induction run with
  | nil => exact ⟨new_tracked, by simp⟩
  | @cons history before earlier input ih =>
    rw [forall_mem_cons] at settled
    obtain ⟨htracked, hsaved⟩ := ih settled.2
    obtain ⟨hafter, hlast⟩ := step_tracked htracked input settled.1
    exact ⟨hafter, forall_mem_cons.mpr ⟨hlast, hsaved⟩⟩

end Histories

/-! ## A hook that enqueues a message -/

/-- A check that a plan founds its commit and saves its turn. -/
def savesCheck (host : TurnHost Json) (db : Store Json) (boundary : TurnBoundary Json)
    (planned : PlannedCommit Json) : Bool :=
  (boundary.state.headRevision.isSome || db.sessionHead.isNone) &&
    planned.request.turnId.isNone &&
    planned.boundary.state.currentAgentFrame.all fun frame =>
      decide (frame.executionStateRef = (planned.call.host.checkpointManifest
        (buildCheckpointFromPersistedState host planned.boundary.state)).executionStateRef)

def settledCheck (host : TurnHost Json) (e : WorldEntry Json) : Bool :=
  match e.input with
  | .call (_, .tombstoneNodes _) => false
  | .supply .. => false
  | .refresh .. => false
  | .boundary _ op =>
    ((plannedAt host e).all fun plan => savesCheck host e.before.db plan.2.1 plan.2.2) &&
      match op with
      | .finishTurn input =>
        input.store.isSome && input.usageDeltas.isEmpty && input.enqueued.isNone
      | _ => true
  | _ => true

variable {planned : PlannedCommit Json}

theorem founds_of_check {db : Store Json} {boundary : TurnBoundary Json}
    (check : savesCheck host db boundary planned = true) :
    Founds db boundary.state planned.request.graph := by
  simp only [savesCheck, Bool.and_eq_true, Bool.or_eq_true] at check
  intro hnone
  refine .inl (check.1.1.elim (fun hsome => ?_) isNone_iff_eq_none.mp)
  rw [hnone] at hsome
  cases hsome

theorem saves_of_check {db : Store Json} {boundary : TurnBoundary Json}
    {input : TurnFinishInput Json} (check : savesCheck host db boundary planned = true)
    (finish : (input.usageDeltas.isEmpty && input.enqueued.isNone) = true) :
    SavesTurn host db input planned := by
  simp only [savesCheck, Bool.and_eq_true] at check
  rw [Bool.and_eq_true, List.isEmpty_iff, Option.isNone_iff_eq_none] at finish
  constructor
  · intro stored hstored
    have hstamp : (planned.commit host).turnCommit = none :=
      congrArg (Option.map _) (Option.isNone_iff_eq_none.mp check.1.2)
    rw [RuntimeCommit.findReplay, hstamp] at hstored
    cases hstored
  · rw [finish.1]
    exact fun entry hentry => by cases hentry
  · exact fun _ => finish.2
  · intro frame hframe
    have hnames := check.2
    rw [hframe, all_some] at hnames
    exact of_decide_eq_true hnames

theorem settled_of_check {e : WorldEntry Json} (check : settledCheck host e = true) :
    Settled host e := by
  obtain ⟨before, input, output, after⟩ := e
  have hplan : ∀ session boundary planned, plannedAt host ⟨before, input, output, after⟩ =
      some (session, boundary, planned) → savesCheck host before.db boundary planned = true := by
    intro session boundary planned hplanned
    cases input with
    | boundary i op =>
      have hall := (Bool.and_eq_true_iff.mp check).1
      rw [hplanned] at hall
      exact hall
    | _ => cases hplanned
  constructor
  · rintro sqlite op rfl i session - - - ids rfl
    cases check
  · rintro i state rfl
    cases check
  · rintro i timestamp session rfl - -
    cases check
  · intro session boundary planned hplanned _
    exact founds_of_check (hplan session boundary planned hplanned)
  · rintro i finish session rfl - -
    have hfinish := (Bool.and_eq_true_iff.mp check).2
    dsimp only at hfinish
    rw [Bool.and_assoc, Bool.and_eq_true] at hfinish
    exact ⟨hfinish.1, fun boundary planned hplanned =>
      saves_of_check (hplan session boundary planned hplanned) hfinish.2⟩

def returnedSnapshot : Option (BoundaryReply Json) → Option (SessionSnapshot Json)
  | some (.finished (.ok snapshot)) => some snapshot
  | _ => none

/-- A session that keeps the whole graph is returned a snapshot. -/
theorem saved_of_check {e : WorldEntry Json} {i : Nat} {input : TurnFinishInput Json}
    (saved : ReturnsSaved host e) (finish : e.input = .boundary i (.finishTurn input))
    (returned : (returnedSnapshot e.output).isSome = true)
    (whole : (e.before.sessions i).any (fun session => session.residency = .keepAll) = true) :
    ∃ snapshot, returnedSnapshot e.output = some snapshot ∧ Saved host snapshot e.after.db := by
  obtain ⟨snapshot, hsnapshot⟩ := isSome_iff_exists.mp returned
  obtain ⟨session, hsession, hwhole⟩ := (Option.any_eq_true ..).mp whole
  have houtput : e.output = some (.finished (.ok snapshot)) := by
    unfold returnedSnapshot at hsnapshot
    split at hsnapshot
    · rename_i found houtput
      rw [houtput, some.inj hsnapshot]
    · cases hsnapshot
  exact ⟨snapshot, hsnapshot,
    saved i input session snapshot finish hsession (of_decide_eq_true hwhole) houtput⟩

theorem check_of_some {A : Type} {found : Option A} {a : A} {p : A → Bool}
    (some : found = some a) (check : found.all p = true) : p a = true := by
  rw [some] at check
  exact check

theorem revisedRun_settled : ∀ e ∈ (revisedRun .keepAll).1, Settled plainHost e := by
  have hall : ∀ e ∈ (revisedRun .keepAll).1, settledCheck plainHost e = true := by
    decide +kernel
  exact fun e he => settled_of_check (hall e he)

/-- The second session returns what is saved. -/
theorem returned_turns_are_saved_revisedRun : ∃ e ∈ (revisedRun .keepAll).1, ∃ snapshot,
    returnedSnapshot e.output = some snapshot ∧ Saved plainHost snapshot e.after.db := by
  refine ⟨_, mem_cons_self, ?_⟩
  have hsaved := returned_turns_are_saved (revisedRun_run .keepAll) revisedRun_settled _
    mem_cons_self
  exact saved_of_check hsaved rfl (by decide +kernel) (by decide +kernel)

/-- The hooks of the second turn enqueue a message. -/
def hookedRun : List (WorldEntry Value) × World Value :=
  perform (step plainHost)
    [.call (.quiet 0, .tryClaimSessionExecutionLease "s" exampleOwner 100),
      .resume 0 .keepAll "s" .null "fresh" "t",
      .beginTurn 0 (some exampleFence),
      .boundary 0 (finishOf ["m1"]),
      .beginTurn 0 (some exampleFence),
      .boundary 0 (.finishTurn (finishInput ["m1", "m2"] (some [textMessage "m3"])))]
    ([], World.new)

/-- The message is returned and not saved. -/
theorem enqueued_message_is_not_saved : ∃ e ∈ hookedRun.1, ¬ ReturnsSaved plainHost e := by
  refine ⟨_, mem_cons_self, fun saved => ?_⟩
  obtain ⟨snapshot, hsnapshot, hsaved⟩ :=
    saved_of_check saved rfl (by decide +kernel) (by decide +kernel)
  obtain ⟨state, hstate, hsame⟩ := hsaved "t"
  have hreturned : snapshot.sessionGraph.nodes.map (·.nodeId) = ["m1", "m2", "m3"] :=
    of_decide_eq_true (check_of_some (p := fun snapshot : SessionSnapshot Value =>
      decide (snapshot.sessionGraph.nodes.map (·.nodeId) = ["m1", "m2", "m3"])) hsnapshot
      (by decide +kernel))
  have hloaded : state.sessionGraph.nodes.map (·.nodeId) = ["m1", "m2"] := by
    have hfound := check_of_some (p := fun found : Option (RuntimeSessionState Value) =>
      found.all fun state => decide (state.sessionGraph.nodes.map (·.nodeId) = ["m1", "m2"]))
      hstate (by decide +kernel)
    exact of_decide_eq_true hfound
  have hnodes : state.sessionGraph.nodes = snapshot.sessionGraph.nodes :=
    congrArg SessionGraphData.nodes hsame.graph
  rw [hnodes, hreturned] at hloaded
  exact absurd hloaded (by decide)

end ReturnedTurns
