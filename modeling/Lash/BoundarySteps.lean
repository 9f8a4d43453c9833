import Lash.EditorCommits
import Lash.SqliteSteps
import Lash.TurnBoundaries

/-!
# What the operations of a boundary keep

An operation edits its boundary and then makes at most one commit, which is planned from the
edited boundary alone. Editing only adds nodes to what is resident, and a commit writes
resident nodes: all of them if it replaces the graph.
-/

namespace BoundarySteps

open StoreTypes SessionGraphs RuntimeCommits CacheCoherence GraphLedgers GraphForests List
open TurnGraphEditors EditorCommits SqliteStore SqliteSteps RuntimeStates TurnBoundaries

variable {Json : Type} {host : TurnHost Json}

section Graphs

variable {graph after : SessionGraph Json}

variable {agentFrameId : Option String} {timestamp : String} {draws : List String}

theorem appendNodeDrafts_nodes {ids : List String} {drafts : List (SessionNodeDraft Json)}
    (h : graph.appendNodeDraftsScopedAt agentFrameId drafts timestamp draws =
      some (ids, after)) : graph.nodes ⊆ after.nodes := by
  obtain ⟨nodes, _, hpair⟩ := Option.map_eq_some_iff.mp h
  obtain ⟨-, rfl⟩ := Prod.mk.inj hpair
  rw [SessionGraph.nodes, SessionGraph.nodes, appendPrebuiltNodes_inner, foldl_withNode_nodes]
  exact subset_append_left _ _

variable {messages : List (Message Json)}

theorem appendActiveConversationMessages_nodes
    (h : graph.appendActiveConversationMessagesScopedAt agentFrameId messages timestamp draws =
      some after) : graph.nodes ⊆ after.nodes := by
  rw [SessionGraph.appendActiveConversationMessagesScopedAt, appendMessageBatchScopedAt_eq] at h
  obtain ⟨nodes, _, rfl⟩ := Option.map_eq_some_iff.mp h
  rw [SessionGraph.nodes, SessionGraph.nodes, appendPrebuiltNodes_inner, foldl_withNode_nodes]
  exact subset_append_left _ _

theorem replaceActiveReadState_nodes
    (h : graph.replaceActiveReadStateScoped agentFrameId messages timestamp = some after) :
    graph.nodes ⊆ after.nodes := by
  obtain ⟨⟨currentNodes, read⟩, hpath, h⟩ := Option.bind_eq_some_iff.mp h
  obtain ⟨replacement, _, h⟩ := Option.bind_eq_some_iff.mp h
  obtain rfl := Option.some.inj h
  have hread : read.nodes = graph.nodes := by
    obtain ⟨⟨cache, target⟩, hcache, hpair⟩ := Option.map_eq_some_iff.mp hpath
    obtain ⟨-, rfl⟩ := Prod.mk.inj hpair
    exact congrArg SessionGraphData.nodes (initCache_warmed hcache).readOf.1
  rw [← hread]
  exact subset_append_left _ _

end Graphs

section States

variable {state after final : RuntimeSessionState Json}

/-- The graph has lost no node and a replacement that was required still is. -/
structure Extends (state after : RuntimeSessionState Json) : Prop where
  revision : after.headRevision = state.headRevision
  required : state.graphReplaceRequired = true → after.graphReplaceRequired = true
  nodes : state.sessionGraph.nodes ⊆ after.sessionGraph.nodes

theorem Extends.refl (state : RuntimeSessionState Json) : Extends state state :=
  ⟨rfl, id, List.Subset.refl _⟩

theorem Extends.trans (first : Extends state after) (second : Extends after final) :
    Extends state final where
  revision := second.revision.trans first.revision
  required required := second.required (first.required required)
  nodes := List.Subset.trans first.nodes second.nodes

theorem extends_of_same (revision : after.headRevision = state.headRevision)
    (required : state.graphReplaceRequired = true → after.graphReplaceRequired = true)
    (graph : after.sessionGraph = state.sessionGraph) : Extends state after where
  revision := revision
  required := required
  nodes := by rw [graph]; exact List.Subset.refl _

theorem ensureAgentFrameInitialized_frame (host : TurnHost Json)
    (state : RuntimeSessionState Json) (timestamp : String) :
    ∃ frames frameId, state.ensureAgentFrameInitialized host timestamp =
      { state with agentFrames := frames, currentAgentFrameId := frameId } := by
  unfold RuntimeSessionState.ensureAgentFrameInitialized
  generalize (if state.currentAgentFrameId.isEmpty = true then
    defaultAgentFrameId state.sessionId else state.currentAgentFrameId) = frameId
  dsimp only
  split
  · exact ⟨_, _, rfl⟩
  · exact ⟨_, _, rfl⟩

theorem ensureAgentFrameInitialized_extends (host : TurnHost Json)
    (state : RuntimeSessionState Json) (timestamp : String) :
    Extends state (state.ensureAgentFrameInitialized host timestamp) := by
  obtain ⟨frames, frameId, hframe⟩ := ensureAgentFrameInitialized_frame host state timestamp
  rw [hframe]
  exact extends_of_same rfl id rfl

@[simp] theorem ensureAgentFrameInitialized_sessionGraph (host : TurnHost Json)
    (state : RuntimeSessionState Json) (timestamp : String) :
    (state.ensureAgentFrameInitialized host timestamp).sessionGraph = state.sessionGraph := by
  obtain ⟨frames, frameId, hframe⟩ := ensureAgentFrameInitialized_frame host state timestamp
  rw [hframe]

@[simp] theorem ensureAgentFrameInitialized_headRevision (host : TurnHost Json)
    (state : RuntimeSessionState Json) (timestamp : String) :
    (state.ensureAgentFrameInitialized host timestamp).headRevision = state.headRevision := by
  obtain ⟨frames, frameId, hframe⟩ := ensureAgentFrameInitialized_frame host state timestamp
  rw [hframe]

theorem setExecutionStateSnapshot_extends (snapshot : Option (Option Json)) :
    Extends state (snapshot.elim state state.setExecutionStateSnapshot) := by
  cases snapshot with
  | none => exact .refl state
  | some snapshot => exact extends_of_same rfl id rfl

theorem refreshPluginSnapshots_extends (plugins : Option (PluginReads Json)) :
    Extends state (plugins.elim state (state.refreshPluginSnapshots host)) := by
  cases plugins with
  | none => exact .refl state
  | some plugins => exact extends_of_same rfl id rfl

theorem refreshedState_extends (policy : Json) (turnIndex : Nat) (reads : SessionReads Json) :
    Extends state (refreshedState host policy turnIndex reads state) :=
  ((extends_of_same rfl id rfl :
      Extends state { state with policy := policy, turnIndex := turnIndex }).trans
    (setExecutionStateSnapshot_extends _)).trans (refreshPluginSnapshots_extends _)

theorem normalizeSessionGraph_extends (h : state.normalizeSessionGraph = some after) :
    Extends state after := by
  obtain ⟨⟨healed, graph⟩, hheal, rfl⟩ := Option.map_eq_some_iff.mp h
  refine ⟨rfl, fun required => ?_, ?_⟩
  · exact (congrArg (healed || ·) required).trans (Bool.or_true _)
  rw [healOrphanedLeaf_nodes hheal]
  exact List.Subset.refl _

variable {tick : Tick}

theorem appendActiveConversationMessages_extends {messages : List (Message Json)}
    (h : state.appendActiveConversationMessages messages tick = some after) :
    Extends state after := by
  obtain ⟨graph, hgraph, rfl⟩ := Option.map_eq_some_iff.mp h
  exact ⟨rfl, id, appendActiveConversationMessages_nodes hgraph⟩

theorem appendSessionNodes_extends {drafts : List (SessionNodeDraft Json)} {nodeIds : List String}
    (h : state.appendSessionNodes host drafts tick =
      some (nodeIds, after)) : Extends state after := by
  obtain ⟨⟨ids, graph⟩, hgraph, h⟩ := Option.bind_eq_some_iff.mp h
  obtain ⟨normalized, hnormalized, h⟩ := Option.bind_eq_some_iff.mp h
  obtain ⟨-, rfl⟩ := Prod.mk.inj (Option.some.inj h)
  have hgrown : Extends (state.ensureAgentFrameInitialized host tick.timestamp)
      { state.ensureAgentFrameInitialized host tick.timestamp with sessionGraph := graph } :=
    ⟨rfl, id, appendNodeDrafts_nodes hgraph⟩
  exact ((ensureAgentFrameInitialized_extends host state tick.timestamp).trans hgrown).trans
    (normalizeSessionGraph_extends hnormalized)

theorem appendAgentFrame_extends (state : RuntimeSessionState Json)
    (frame : AgentFrameRecord Json) : Extends state (state.appendAgentFrame frame) :=
  extends_of_same rfl id rfl

theorem openAgentFrame_extends {frameId reason : String}
    {initialNodes : List (SessionNodeDraft Json)} {causedBy : Option CausalRef}
    (h : state.openAgentFrame host frameId reason initialNodes causedBy tick = some after) :
    Extends state after := by
  have hinit : Extends state (state.ensureAgentFrameInitialized host tick.timestamp) :=
    ensureAgentFrameInitialized_extends host state tick.timestamp
  unfold RuntimeSessionState.openAgentFrame at h
  dsimp only at h
  split at h
  · obtain rfl := Option.some.inj h
    exact hinit
  · obtain ⟨⟨nodeIds, appended⟩, happended, hafter⟩ := Option.map_eq_some_iff.mp h
    have hopened := hinit.trans ((appendAgentFrame_extends _ _).trans
      (appendSessionNodes_extends happended))
    subst hafter
    dsimp only
    split
    · exact hopened
    · exact hopened.trans (extends_of_same rfl (fun _ => rfl) rfl)

variable {outcome : TurnOutcome Json}

theorem materializeTerminalOutput_extends
    (h : materializeTerminalOutput host outcome tick state = some after) : Extends state after := by
  unfold materializeTerminalOutput at h
  split at h
  · obtain ⟨readModel, _, h⟩ := Option.bind_eq_some_iff.mp h
    split at h
    · obtain rfl := Option.some.inj h
      exact .refl _
    · obtain ⟨⟨id, draws⟩, _, h⟩ := Option.bind_eq_some_iff.mp h
      obtain ⟨appended, happended, rfl⟩ := Option.map_eq_some_iff.mp h
      exact (appendActiveConversationMessages_extends happended).trans
        (extends_of_same rfl (fun _ => rfl) rfl)
  · obtain rfl := Option.some.inj h
    exact .refl _

theorem materializeAgentFrameSwitch_extends {toolCalls : List (Option (ToolControl Json))}
    (h : materializeAgentFrameSwitch host outcome toolCalls tick state = some after) :
    Extends state after := by
  unfold materializeAgentFrameSwitch at h
  split at h
  · split at h
    · obtain rfl := Option.some.inj h
      exact .refl _
    · exact openAgentFrame_extends h
  · obtain rfl := Option.some.inj h
    exact .refl _

variable {returned : SessionSnapshot Json}

theorem finalizeTurn_nodes {enqueued : Option (List (Message Json))}
    {snapshot : SessionSnapshot Json} (h : finalizeTurn enqueued tick snapshot = some returned) :
    snapshot.sessionGraph.nodes ⊆ returned.sessionGraph.nodes := by
  cases enqueued with
  | none =>
    obtain rfl := Option.some.inj h
    exact List.Subset.refl _
  | some messages =>
    obtain ⟨readModel, _, h⟩ := Option.bind_eq_some_iff.mp h
    obtain ⟨graph, hgraph, rfl⟩ := Option.map_eq_some_iff.mp h
    exact replaceActiveReadState_nodes hgraph

theorem finalState_extends {input : FinalCommitInput Json}
    (nodes : state.sessionGraph.nodes ⊆ returned.sessionGraph.nodes)
    (h : finalState host input returned state = some after) : Extends state after := by
  obtain ⟨materialized, hmaterialized, hswitched⟩ := Option.bind_eq_some_iff.mp h
  refine Extends.trans ?_ ((materializeTerminalOutput_extends hmaterialized).trans
    (materializeAgentFrameSwitch_extends hswitched))
  refine Extends.trans ?_ (setExecutionStateSnapshot_extends _)
  refine Extends.trans ?_ (refreshPluginSnapshots_extends _)
  have hframe := ensureAgentFrameInitialized_extends host
    { state with
      sessionId := returned.sessionId
      policy := returned.policy
      agentFrames := returned.agentFrames
      currentAgentFrameId := returned.currentAgentFrameId } input.tick.timestamp
  exact ⟨hframe.revision, hframe.required, nodes⟩

end States

section Editors

variable {editor after : TurnGraphEditor Json}

theorem appendAppendedNodes_nodes (editor : TurnGraphEditor Json)
    (nodes : List (SessionNodeRecord Json)) :
    (editor.appendAppendedNodes nodes).data.nodes = editor.data.nodes ++ nodes := by
  induction nodes generalizing editor with
  | nil => exact (append_nil _).symm
  | cons node nodes ih =>
    refine (ih _).trans ?_
    simp only [TurnGraphEditor.data, append_assoc, singleton_append]

variable {timestamp : String} {draws : List String}

theorem appendEvents_nodes {events : List (SessionEventRecord Json)}
    (h : editor.appendEvents events timestamp draws = some after) :
    editor.data.nodes ⊆ after.data.nodes := by
  unfold TurnGraphEditor.appendEvents at h
  dsimp only at h
  split at h
  · obtain rfl := Option.some.inj h
    exact List.Subset.refl _
  · obtain ⟨nodes, _, rfl⟩ := Option.map_eq_some_iff.mp h
    rw [appendAppendedNodes_nodes]
    exact subset_append_left _ _

variable {messages : List (Message Json)}

theorem appendMessages_nodes
    (h : editor.appendActiveConversationMessages messages timestamp draws = some after) :
    editor.data.nodes ⊆ after.data.nodes := by
  unfold TurnGraphEditor.appendActiveConversationMessages at h
  dsimp only at h
  split at h
  · obtain rfl := Option.some.inj h
    exact List.Subset.refl _
  · obtain ⟨nodes, _, rfl⟩ := Option.map_eq_some_iff.mp h
    rw [appendAppendedNodes_nodes]
    exact subset_append_left _ _

theorem replaceReadState_nodes (h : editor.replaceActiveReadState messages timestamp = some after) :
    editor.data.nodes ⊆ after.data.nodes := by
  obtain ⟨replacement, _, rfl⟩ := Option.map_eq_some_iff.mp h
  rw [appendAppendedNodes_nodes]
  exact subset_append_left _ _

theorem intoSessionGraph_nodes (editor : TurnGraphEditor Json) :
    editor.intoSessionGraph.nodes = editor.data.nodes := by
  rw [SessionGraph.nodes, intoSessionGraph_inner]
  split
  · rename_i hempty
    rw [TurnGraphEditor.data, isEmpty_iff.mp hempty, append_nil]
    rfl
  · rfl

/-- The nodes of a delta are resident, and a replacement has all of them. -/
structure DrawnFrom (resident : List (SessionNodeRecord Json)) (graph : GraphCommitDelta Json) :
    Prop where
  written : writtenNodes graph ⊆ resident
  whole : ∀ next, graph = .replaceFull next → resident ⊆ next.nodes

variable {resident : List (SessionNodeRecord Json)}

theorem drawnFrom_replaceFull {next : SessionGraph Json} (same : next.nodes = resident) :
    DrawnFrom resident (.replaceFull next) where
  written := by rw [← same]; exact List.Subset.refl _
  whole other hother := by
    obtain rfl := GraphCommitDelta.replaceFull.inj hother
    rw [same]
    exact List.Subset.refl _

theorem drawnFrom_unchanged (resident : List (SessionNodeRecord Json))
    (leafNodeId : Option String) : DrawnFrom resident (.unchanged leafNodeId) where
  written := List.nil_subset _
  whole _ hnext := nomatch hnext

theorem drawnFrom_append {nodes : List (SessionNodeRecord Json)} (written : nodes ⊆ resident)
    (leafNodeId : Option String) :
    DrawnFrom resident (.append nodes leafNodeId) where
  written := written
  whole _ hnext := nomatch hnext

theorem graphCommit_drawnFrom (editor : TurnGraphEditor Json) (required : Bool) :
    DrawnFrom editor.data.nodes (editor.graphCommit required) := by
  unfold TurnGraphEditor.graphCommit
  split
  · refine drawnFrom_replaceFull ?_
    rw [SessionGraph.nodes, materializedGraph_inner]
    exact intoSessionGraph_nodes editor
  · dsimp only
    split
    · exact drawnFrom_unchanged _ _
    · refine drawnFrom_append (fun node hnode => ?_) _
      exact mem_append_right _ (mem_filter.mp hnode).1

end Editors

section Boundaries

variable {boundary after : TurnBoundary Json}

/-- The nodes that a boundary holds in memory. -/
def residentNodes (boundary : TurnBoundary Json) : List (SessionNodeRecord Json) :=
  match boundary.stage with
  | .drafting draft => draft.graph.data.nodes
  | .finalized state _ => state.sessionGraph.nodes

/-- The boundary holds what it held, under the same head revision. -/
structure Edited (boundary after : TurnBoundary Json) : Prop where
  revision : after.state.headRevision = boundary.state.headRevision
  nodes : residentNodes boundary ⊆ residentNodes after

theorem Edited.refl (boundary : TurnBoundary Json) : Edited boundary boundary :=
  ⟨rfl, List.Subset.refl _⟩

theorem Edited.trans {final : TurnBoundary Json} (first : Edited boundary after)
    (second : Edited after final) : Edited boundary final where
  revision := second.revision.trans first.revision
  nodes := List.Subset.trans first.nodes second.nodes

variable {f : RuntimeSessionState Json → RuntimeSessionState Json}

theorem modifyState_edited (boundary : TurnBoundary Json)
    (keeps : ∀ state, Extends state (f state)) :
    Edited boundary (boundary.modifyState f) := by
  obtain ⟨stage, lease⟩ := boundary
  cases stage with
  | drafting draft => exact ⟨(keeps draft.state).revision, List.Subset.refl _⟩
  | finalized state progress => exact ⟨(keeps state).revision, (keeps state).nodes⟩

/-- The draft is edited in place and keeps its state. -/
structure DraftEdited (draft after : TurnCommitDraft Json) : Prop where
  state : after.state = draft.state
  nodes : draft.graph.data.nodes ⊆ after.graph.data.nodes

variable {draft : TurnCommitDraft Json}

theorem applyMessageProjection_edited {after : TurnCommitDraft Json}
    {messages : List (Message Json)} {tick : Tick}
    (h : draft.applyMessageProjection messages tick = some after) : DraftEdited draft after := by
  unfold TurnCommitDraft.applyMessageProjection at h
  split at h
  · obtain ⟨graph, hgraph, rfl⟩ := Option.map_eq_some_iff.mp h
    exact ⟨rfl, appendMessages_nodes hgraph⟩
  · obtain ⟨graph, hgraph, rfl⟩ := Option.map_eq_some_iff.mp h
    exact ⟨rfl, replaceReadState_nodes hgraph⟩

theorem appendEvents_edited {after : TurnCommitDraft Json} {events : List (SessionEventRecord Json)}
    {tick : Tick} (h : draft.appendEvents events tick = some after) : DraftEdited draft after := by
  obtain ⟨graph, hgraph, rfl⟩ := Option.map_eq_some_iff.mp h
  exact ⟨rfl, appendEvents_nodes hgraph⟩

theorem modifyDraft_edited {f : TurnCommitDraft Json → Option (TurnCommitDraft Json)}
    (keeps : ∀ draft edited, f draft = some edited → DraftEdited draft edited)
    (h : boundary.modifyDraft f = some after) :
    Edited boundary after ∧ ∃ draft, after.stage = .drafting draft := by
  unfold TurnBoundary.modifyDraft at h
  split at h
  · rename_i draft hstage
    obtain ⟨edited, hedited, rfl⟩ := Option.map_eq_some_iff.mp h
    obtain ⟨hstate, hnodes⟩ := keeps draft edited hedited
    refine ⟨⟨?_, ?_⟩, edited, rfl⟩
    · simp only [TurnBoundary.state, hstage, hstate]
    · simpa only [residentNodes, hstage] using hnodes
  · cases h

theorem modifyState_drafting (drafting : ∃ draft, boundary.stage = .drafting draft) :
    ∃ draft, (boundary.modifyState f).stage = .drafting draft := by
  obtain ⟨draft, hstage⟩ := drafting
  exact ⟨{ draft with state := f draft.state }, by simp only [TurnBoundary.modifyState, hstage]⟩

theorem progressGraphCommit_drawnFrom (drafting : ∃ draft, boundary.stage = .drafting draft) :
    DrawnFrom (residentNodes boundary) boundary.progressGraphCommit := by
  obtain ⟨draft, hstage⟩ := drafting
  simp only [residentNodes, TurnBoundary.progressGraphCommit, hstage]
  exact graphCommit_drawnFrom draft.graph _

theorem progressed_spec {input : ProgressBoundary Json}
    (h : boundary.progressed host input = some after) :
    Edited boundary after ∧ ∃ draft, after.stage = .drafting draft := by
  obtain ⟨appended, happended, h⟩ := Option.bind_eq_some_iff.mp h
  obtain ⟨projected, hprojected, h⟩ := Option.bind_eq_some_iff.mp h
  obtain rfl := Option.some.inj h
  obtain ⟨hevents, _⟩ := modifyDraft_edited (fun _ _ => appendEvents_edited) happended
  obtain ⟨hmessages, hdrafting⟩ :=
    modifyDraft_edited (fun _ _ => applyMessageProjection_edited) hprojected
  refine ⟨(hevents.trans hmessages).trans (modifyState_edited _ fun state => ?_),
    modifyState_drafting hdrafting⟩
  exact refreshedState_extends _ _ _

variable {input : TurnFinishInput Json}

theorem readFinalized_spec (h : boundary.readFinalized input = some after) :
    Edited boundary after ∧ ∃ draft, after.stage = .drafting draft := by
  obtain ⟨projected, hprojected, rfl⟩ := Option.map_eq_some_iff.mp h
  obtain ⟨hmessages, hdrafting⟩ :=
    modifyDraft_edited (fun _ _ => applyMessageProjection_edited) hprojected
  refine ⟨((modifyState_edited _ fun state => ?_).trans hmessages).trans
    (modifyState_edited _ fun state => ?_), modifyState_drafting hdrafting⟩
  · exact extends_of_same rfl id rfl
  · exact extends_of_same rfl id rfl

/-- The final state has the graph of the draft, and the delta beside it is drawn from that. -/
theorem finalized_spec (drafting : ∃ draft, boundary.stage = .drafting draft) :
    Edited boundary boundary.finalized ∧ ∃ state progress,
      boundary.finalized.stage = .finalized state progress ∧
      writtenNodes progress ⊆ state.sessionGraph.nodes ∧
      ∀ next, progress = .replaceFull next → state.graphReplaceRequired = true := by
  obtain ⟨draft, hstage⟩ := drafting
  have hfinal : boundary.finalized.stage = .finalized draft.intoFinalState
      (draft.graphCommit draft.state.graphReplaceRequired) := by
    simp only [TurnBoundary.finalized, hstage]
  have hnodes : draft.intoFinalState.sessionGraph.nodes = draft.graph.data.nodes :=
    intoSessionGraph_nodes draft.graph
  refine ⟨⟨?_, ?_⟩, _, _, hfinal, ?_, fun next hnext => ?_⟩
  · simp only [TurnBoundary.state, hfinal, hstage]
    rfl
  · simp only [residentNodes, hfinal, hstage, hnodes]
    exact List.Subset.refl _
  · rw [hnodes]
    exact (graphCommit_drawnFrom draft.graph _).written
  · unfold TurnCommitDraft.graphCommit TurnGraphEditor.graphCommit at hnext
    split at hnext
    · assumption
    · dsimp only at hnext
      split at hnext
      · cases hnext
      · cases hnext

theorem finalized_finalized (boundary : TurnBoundary Json) :
    boundary.finalized.finalized = boundary.finalized := by
  obtain ⟨stage, lease⟩ := boundary
  cases stage with
  | drafting draft | finalized state progress => rfl

theorem assembled_spec (h : boundary.assembled host input = some after) :
    Edited boundary after ∧ ∃ state progress, after.stage = .finalized state progress ∧
      writtenNodes progress ⊆ state.sessionGraph.nodes ∧
      ∀ next, progress = .replaceFull next → state.graphReplaceRequired = true := by
  obtain ⟨drafted, hdrafted, h⟩ := Option.bind_eq_some_iff.mp h
  obtain ⟨returned, hreturned, h⟩ := Option.bind_eq_some_iff.mp h
  obtain ⟨final, hfinal, h⟩ := Option.bind_eq_some_iff.mp h
  obtain rfl := Option.some.inj h
  obtain ⟨hread, hdrafting⟩ := readFinalized_spec hdrafted
  obtain ⟨hinto, state, progress, hstage, hwritten, hrequired⟩ := finalized_spec hdrafting
  have hstate : drafted.finalized.state = state := by
    simp only [TurnBoundary.state, hstage]
  have hextends : Extends state final := by
    rw [← hstate]
    exact finalState_extends (finalizeTurn_nodes hreturned) hfinal
  have hassembled : (drafted.finalized.modifyState fun _ => final).stage =
      .finalized final progress := by
    simp only [TurnBoundary.modifyState, hstage]
  have hlast : Edited drafted.finalized (drafted.finalized.modifyState fun _ => final) := by
    constructor
    · simp only [TurnBoundary.state, hassembled, hstage]
      exact hextends.revision
    · simp only [residentNodes, hassembled, hstage]
      exact hextends.nodes
  refine ⟨(hread.trans hinto).trans hlast, final, progress, hassembled, ?_, fun next hnext => ?_⟩
  · exact List.Subset.trans hwritten hextends.nodes
  · exact hextends.required (hrequired next hnext)

theorem finalGraphCommit_drawnFrom {state : RuntimeSessionState Json}
    {progress : GraphCommitDelta Json} (written : writtenNodes progress ⊆ state.sessionGraph.nodes)
    (required : ∀ next, progress = .replaceFull next → state.graphReplaceRequired = true) :
    DrawnFrom state.sessionGraph.nodes (finalGraphCommit state progress) := by
  have hstate := drawnFrom_replaceFull (rfl : state.sessionGraph.nodes = _)
  unfold finalGraphCommit
  split
  · exact hstate
  · rename_i hflag
    split
    · rename_i nodes leafNodeId _
      split
      · rename_i hempty
        have hnone := isEmpty_iff.mp hempty
        refine drawnFrom_replaceFull ?_
        rw [hnone]
        exact subset_nil.mp (hnone ▸ written)
      · exact hstate
    · exact hstate
    · split
      · exact drawnFrom_unchanged _ _
      · exact hstate
    · exact ⟨written, fun next hnext => absurd (required next hnext) hflag⟩

end Boundaries

section Plans

variable {boundary : TurnBoundary Json} {op : BoundaryOp Json} {planned : PlannedCommit Json}

theorem plan_spec (h : op.plan host boundary = some planned) : Edited boundary planned.boundary ∧
      DrawnFrom (residentNodes planned.boundary) planned.request.graph := by
  cases op with
  | applyEventDelta eventDelta tick | recordUsage tokenUsage lastPromptUsage => cases h
  | preparedCheckpoint input =>
    obtain ⟨_, _, h⟩ := Option.bind_eq_some_iff.mp h
    obtain ⟨call, _, h⟩ := Option.bind_eq_some_iff.mp h
    obtain ⟨prepared, hprepared, h⟩ := Option.bind_eq_some_iff.mp h
    obtain rfl := Option.some.inj h
    obtain ⟨hedited, hdrafting⟩ :=
      modifyDraft_edited (fun _ _ => applyMessageProjection_edited) hprepared
    refine ⟨hedited.trans (modifyState_edited _ fun state => ?_),
      progressGraphCommit_drawnFrom (modifyState_drafting hdrafting)⟩
    exact refreshedState_extends _ _ _
  | progressBoundary input =>
    obtain ⟨_, _, h⟩ := Option.bind_eq_some_iff.mp h
    obtain ⟨call, _, h⟩ := Option.bind_eq_some_iff.mp h
    obtain ⟨progressed, hprogressed, h⟩ := Option.bind_eq_some_iff.mp h
    obtain rfl := Option.some.inj h
    obtain ⟨hedited, hdrafting⟩ := progressed_spec hprogressed
    exact ⟨hedited, progressGraphCommit_drawnFrom hdrafting⟩
  | finishTurn input =>
    obtain ⟨call, _, h⟩ := Option.bind_eq_some_iff.mp h
    obtain ⟨assembled, hassembled, h⟩ := Option.bind_eq_some_iff.mp h
    obtain rfl := Option.some.inj h
    obtain ⟨hedited, state, progress, hstage, hwritten, hrequired⟩ := assembled_spec hassembled
    refine ⟨hedited, ?_⟩
    have hdrawn := finalGraphCommit_drawnFrom hwritten hrequired
    simpa only [residentNodes, FinalCommitInput.request, TurnBoundary.state,
      TurnBoundary.progressGraphCommit, hstage] using hdrawn

/-- An operation edits its boundary, or does that and then makes the commit it has planned. -/
inductive Outcome (host : TurnHost Json) (op : BoundaryOp Json) (boundary : TurnBoundary Json)
    (db : Store Json) : TurnBoundary Json × Store Json → Prop
  | quiet (after : TurnBoundary Json) (unplanned : op.plan host boundary = none)
      (edited : Edited boundary after) : Outcome host op boundary db (after, db)
  | committed (planned : PlannedCommit Json) (plan : op.plan host boundary = some planned) :
      Outcome host op boundary db
        (planned.boundary.applyCommit host planned.call planned.request db).2

theorem outcome_of_commit {db after : Store Json} {final : TurnBoundary Json}
    {answer : Except StoreError Unit} (plan : op.plan host boundary = some planned)
    (h : planned.boundary.applyCommit host planned.call planned.request db =
      (answer, final, after)) : Outcome host op boundary db (final, after) := by
  have hcommitted : Outcome host op boundary db _ := .committed planned plan
  rwa [h] at hcommitted

section Checkpoints

variable {db after : Store Json} {final : TurnBoundary Json}

/-- Without a commit the boundary stays, or its draft takes the messages. -/
theorem preparedCheckpoint_cases {input : PreparedCheckpoint Json} {answer : Except StoreError Unit}
    (h : boundary.preparedCheckpoint host input db = some (answer, final, after)) :
    (BoundaryOp.plan host boundary (.preparedCheckpoint input) = none ∧ after = db ∧
      (final = boundary ∨
        boundary.modifyDraft (·.applyMessageProjection input.messages input.tick) = some final)) ∨
    ∃ prepared call,
      boundary.modifyDraft (·.applyMessageProjection input.messages input.tick) = some prepared ∧
      let refreshed := prepared.modifyState
        (refreshedState host input.policy input.turnIndex input.reads)
      BoundaryOp.plan host boundary (.preparedCheckpoint input) =
          some ⟨refreshed, call, .progress refreshed.progressGraphCommit⟩ ∧
        refreshed.commitProgressGraph host call db = (answer, final, after) := by
  unfold TurnBoundary.preparedCheckpoint at h
  by_cases hsafe : messagesArePromptResumeSafe host input.messages = true
  · rw [if_neg (by simp [hsafe])] at h
    obtain ⟨prepared, hprepared, hcommit⟩ := Option.map_eq_some_iff.mp h
    cases hstore : input.store with
    | none =>
      rw [hstore] at hcommit
      obtain ⟨-, rfl, rfl⟩ := hcommit
      exact .inl ⟨by simp [BoundaryOp.plan, hstore], rfl, .inr hprepared⟩
    | some call =>
      rw [hstore] at hcommit
      refine .inr ⟨prepared, call, hprepared, ?_, hcommit⟩
      simp [BoundaryOp.plan, hstore, hsafe, hprepared, guard]
  · rw [if_pos (by simp [hsafe])] at h
    obtain ⟨-, rfl, rfl⟩ := Option.some.inj h
    exact .inl ⟨by simp [BoundaryOp.plan, hsafe, guard], rfl, .inl rfl⟩

theorem preparedCheckpoint_outcome {input : PreparedCheckpoint Json}
    {answer : Except StoreError Unit}
    (h : boundary.preparedCheckpoint host input db = some (answer, final, after)) :
    Outcome host (.preparedCheckpoint input) boundary db (final, after) := by
  rcases preparedCheckpoint_cases h with
    ⟨hplan, rfl, rfl | hprepared⟩ | ⟨prepared, call, -, hplan, hcommit⟩
  · exact .quiet _ hplan (.refl _)
  · exact .quiet _ hplan
      (modifyDraft_edited (fun _ _ => applyMessageProjection_edited) hprepared).1
  · exact outcome_of_commit hplan hcommit

variable {answer : Except StoreError (ProgressBoundaryCommit Json)}

/-- Without a commit the boundary stays or makes its progress. -/
theorem progressBoundary_cases {input : ProgressBoundary Json}
    (h : boundary.progressBoundaryWithSnapshot host input db = some (answer, final, after)) :
    (BoundaryOp.plan host boundary (.progressBoundary input) = none ∧ after = db ∧
      (final = boundary ∨ boundary.progressed host input = some final)) ∨
    ∃ progressed call committed, boundary.progressed host input = some progressed ∧
      BoundaryOp.plan host boundary (.progressBoundary input) =
          some ⟨progressed, call, .progress progressed.progressGraphCommit⟩ ∧
        progressed.commitProgressGraph host call db = (committed, final, after) := by
  unfold TurnBoundary.progressBoundaryWithSnapshot at h
  by_cases hsafe : messagesArePromptResumeSafe host input.messages = true
  · rw [if_neg (by simp [hsafe])] at h
    obtain ⟨progressed, hprogressed, hcommit⟩ := Option.map_eq_some_iff.mp h
    cases hstore : input.store with
    | none =>
      rw [hstore] at hcommit
      obtain ⟨-, rfl, rfl⟩ := hcommit
      exact .inl ⟨by simp [BoundaryOp.plan, hstore], rfl, .inr hprogressed⟩
    | some call =>
      rw [hstore] at hcommit
      dsimp only at hcommit
      generalize hcommitted : progressed.commitProgressGraph host call db = out at hcommit
      obtain ⟨committed, boundary', db'⟩ := out
      obtain ⟨rfl, rfl⟩ : boundary' = final ∧ db' = after := by
        split at hcommit <;> rename_i hout <;> cases hout <;> cases hcommit <;> exact ⟨rfl, rfl⟩
      refine .inr ⟨progressed, call, committed, hprogressed, ?_, hcommitted⟩
      simp [BoundaryOp.plan, hstore, hsafe, hprogressed, guard]
  · rw [if_pos (by simp [hsafe])] at h
    obtain ⟨-, rfl, rfl⟩ := Option.some.inj h
    exact .inl ⟨by simp [BoundaryOp.plan, hsafe, guard], rfl, .inl rfl⟩

theorem progressBoundary_outcome {input : ProgressBoundary Json}
    (h : boundary.progressBoundaryWithSnapshot host input db = some (answer, final, after)) :
    Outcome host (.progressBoundary input) boundary db (final, after) := by
  rcases progressBoundary_cases h with
    ⟨hplan, rfl, rfl | hprogressed⟩ | ⟨progressed, call, committed, -, hplan, hcommit⟩
  · exact .quiet _ hplan (.refl _)
  · exact .quiet _ hplan (progressed_spec hprogressed).1
  · exact outcome_of_commit hplan hcommit

end Checkpoints

/-- What a turn makes on its way to the final commit: the draft, what the hooks return, and the
state that is committed. -/
structure Assembled (host : TurnHost Json) (input : TurnFinishInput Json)
    (boundary drafted : TurnBoundary Json) (returned : SessionSnapshot Json)
    (state : RuntimeSessionState Json) : Prop where
  read : boundary.readFinalized input = some drafted
  hooks : finalizeTurn input.enqueued input.hookTick drafted.finalized.state.toSnapshot =
    some returned
  final : finalState host input.toFinalCommitInput returned drafted.finalized.state = some state

variable {input : TurnFinishInput Json}
  {state : RuntimeSessionState Json} {returned : SessionSnapshot Json}
  {drafted : TurnBoundary Json}

theorem Assembled.assembled (made : Assembled host input boundary drafted returned state) :
    boundary.assembled host input = some (drafted.finalized.modifyState fun _ => state) ∧
      (drafted.finalized.modifyState fun _ => state).state = state := by
  obtain ⟨_, _, _, hstage, _⟩ := finalized_spec (readFinalized_spec made.read).2
  refine ⟨by simp [TurnBoundary.assembled, made.read, made.hooks, made.final], ?_⟩
  simp only [TurnBoundary.state, TurnBoundary.modifyState, hstage]

theorem Assembled.plan {call : StoreCall Json}
    (made : Assembled host input boundary drafted returned state)
    (store : input.store = some call) :
    BoundaryOp.plan host boundary (.finishTurn input) =
      some ⟨drafted.finalized.modifyState fun _ => state, call, input.request
        (finalGraphCommit state
          (drafted.finalized.modifyState fun _ => state).progressGraphCommit)⟩ := by
  obtain ⟨hassembled, hstate⟩ := made.assembled
  simp [BoundaryOp.plan, store, hassembled, hstate]

theorem finishTurn_assembled {db after : Store Json}
    {answer : Except StoreError (SessionSnapshot Json)} {final : TurnBoundary Json}
    (h : boundary.finishTurn host input db = some (answer, final, after)) :
    ∃ drafted returned state committed, Assembled host input boundary drafted returned state ∧
        answer = committed.map (fun () => final.state.toSnapshot) ∧ (match input.store with
          | none => (.ok (), (drafted.finalized.modifyState fun _ => state).modifyState
              (·.discardRuntimeSnapshots), db)
          | some call => (drafted.finalized.modifyState fun _ => state).applyCommit host call
              (input.request (finalGraphCommit state
                (drafted.finalized.modifyState fun _ => state).progressGraphCommit)) db) =
            (committed, final, after) := by
  obtain ⟨drafted, hdrafted, h⟩ := Option.bind_eq_some_iff.mp h
  obtain ⟨returned, hreturned, h⟩ := Option.bind_eq_some_iff.mp h
  obtain ⟨⟨committed, edited, db'⟩, hcommit, h⟩ := Option.bind_eq_some_iff.mp h
  obtain ⟨rfl, rfl, rfl⟩ := Option.some.inj h
  obtain ⟨state, hstate, hcommit⟩ := Option.map_eq_some_iff.mp hcommit
  rw [finalized_finalized] at hstate hcommit
  exact ⟨drafted, returned, state, committed, ⟨hdrafted, hreturned, hstate⟩, rfl, hcommit⟩

theorem finishTurn_outcome {db after : Store Json}
    {answer : Except StoreError (SessionSnapshot Json)} {final : TurnBoundary Json}
    (h : boundary.finishTurn host input db = some (answer, final, after)) :
    Outcome host (.finishTurn input) boundary db (final, after) := by
  obtain ⟨drafted, returned, state, committed, hmade, -, hcommit⟩ := finishTurn_assembled h
  cases hstore : input.store with
  | none =>
    rw [hstore] at hcommit
    obtain ⟨-, rfl, rfl⟩ := hcommit
    refine .quiet _ (by simp [BoundaryOp.plan, hstore]) ?_
    exact (assembled_spec hmade.assembled.1).1.trans
      (modifyState_edited _ fun state => extends_of_same rfl id rfl)
  | some call =>
    rw [hstore] at hcommit
    exact outcome_of_commit (hmade.plan hstore) hcommit

theorem apply_outcome {db after : Store Json} {reply : BoundaryReply Json}
    {final : TurnBoundary Json} (h : op.apply host boundary db = some (reply, final, after)) :
    Outcome host op boundary db (final, after) := by
  cases op with
  | applyEventDelta eventDelta tick =>
    obtain ⟨appended, happended, hpair⟩ := Option.map_eq_some_iff.mp h
    obtain ⟨-, rfl, rfl⟩ := hpair
    exact .quiet _ rfl (modifyDraft_edited (fun _ _ => appendEvents_edited) happended).1
  | recordUsage tokenUsage lastPromptUsage =>
    obtain ⟨-, rfl, rfl⟩ := Option.some.inj h
    exact .quiet _ rfl (modifyState_edited _ fun state => extends_of_same rfl id rfl)
  | preparedCheckpoint input =>
    obtain ⟨⟨answer, edited, db'⟩, hout, hpair⟩ := Option.map_eq_some_iff.mp h
    obtain ⟨-, rfl, rfl⟩ := hpair
    exact preparedCheckpoint_outcome hout
  | progressBoundary input =>
    obtain ⟨⟨answer, edited, db'⟩, hout, hpair⟩ := Option.map_eq_some_iff.mp h
    obtain ⟨-, rfl, rfl⟩ := hpair
    exact progressBoundary_outcome hout
  | finishTurn input =>
    obtain ⟨⟨answer, edited, db'⟩, hout, hpair⟩ := Option.map_eq_some_iff.mp h
    obtain ⟨-, rfl, rfl⟩ := hpair
    exact finishTurn_outcome hout

end Plans

section Commits

variable {boundary : TurnBoundary Json} {request : CommitRequest Json} {db : Store Json}

/-- The ways in which the commit of a boundary ends. -/
inductive CommitEnd (host : TurnHost Json) (boundary : TurnBoundary Json)
    (call : StoreCall Json) (request : CommitRequest Json) (db : Store Json) :
    Except StoreError Unit × TurnBoundary Json × Store Json → Prop
  | failed (e : StoreError) : CommitEnd host boundary call request db (.error e, boundary, db)
  | replayed (result : RuntimeCommitResult Json) (leases : _)
      (stored : (boundary.commitOf host request).findReplay db.runtimeTurnCommits =
        .ok (some result)) :
      CommitEnd host boundary call request db (.ok (), boundary.committed host request.graph result,
        { db with sessionExecutionLeases := leases })
  | applied (graphNodes : GraphNodeTable Json) (leases : _)
      (accepts : Accepts call.host (boundary.commitOf host request) db)
      (written : writeGraph request.graph db.graphNodes = some graphNodes) :
      CommitEnd host boundary call request db (.ok (),
        boundary.committed host request.graph
          (db.commitResult call.host (boundary.commitOf host request)),
        { db.writeCommit call.host (boundary.commitOf host request) graphNodes with
          sessionExecutionLeases := leases })

theorem applyCommit_end (host : TurnHost Json) (boundary : TurnBoundary Json)
    (call : StoreCall Json) (request : CommitRequest Json) (db : Store Json) :
    CommitEnd host boundary call request db (boundary.applyCommit host call request db) := by
  unfold TurnBoundary.applyCommit StoreCall.commitRuntimeState
  cases call.failure with
  | some e => exact .failed e
  | none =>
    dsimp only
    generalize hcommit : boundary.commitOf host request = commit
    have houtcome := commitRuntimeState_outcome call.host db commit
    generalize db.commitRuntimeState call.host commit = out at houtcome
    subst hcommit
    cases houtcome with
    | rejected e fails => exact .failed e
    | replayed result bound stored =>
      rw [releaseAfterCommit_eq]
      exact .replayed result _ stored
    | applied graphNodes accepts written =>
      rw [releaseAfterCommit_eq]
      exact .applied graphNodes _ accepts written

theorem committed_resident (boundary : TurnBoundary Json) (graph : GraphCommitDelta Json)
    (result : RuntimeCommitResult Json) :
    (boundary.committed host graph result).state.headRevision = some result.headRevision ∧
      residentNodes (boundary.committed host graph result) = residentNodes boundary := by
  obtain ⟨stage, lease⟩ := boundary
  cases stage with
  | finalized state progress => exact ⟨rfl, rfl⟩
  | drafting draft =>
    refine ⟨rfl, ?_⟩
    cases graph with
    | unchanged leafNodeId | append nodes leafNodeId | replaceFull next => rfl

end Commits

end BoundarySteps
