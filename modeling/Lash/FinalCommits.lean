import Lash.CommittedHistory

/-!
# What the final commit of a turn leaves to be loaded

The state that a turn returns and the delta that its final commit writes are made one beside
the other. They agree if the delta replaces the graph; a delta that appends nodes is the one
that the draft has left before the plugins and the outcome of the turn had their say.
-/

namespace FinalCommits

open ScriptNumbers SessionGraphs RuntimeCommits InMemoryStore ActivePaths
open List Option
open CacheCoherence GraphForests TurnGraphEditors EditorCommits
open SqliteStore RuntimeStates TurnBoundaries BoundarySteps CommittedHistory

variable {Json : Type} {host : TurnHost Json}

/-! ## The graph that a load gives -/

section Stored

variable {db after : Store Json} {delta : GraphCommitDelta Json}

def storedGraph (db : Store Json) : SessionGraphData Json where
  nodes := visibleNodes db
  leafNodeId := db.sessionHead.bind (·.leafNodeId)

/-- The revision is the one of the head, or there is neither. -/
def AtHead (db : Store Json) (revision : Option Nat) : Prop :=
  revision = db.sessionHead.map (·.headRevision)

/-- A store with a head, of which the revision is not from the future. -/
def Seen (db : Store Json) (revision : Option Nat) : Prop :=
  ∀ r, revision = some r → ∃ head, db.sessionHead = some head ∧ r ≤ head.headRevision

/-- What a store holds after a commit that it has accepted. -/
theorem stored_committed {sqlite : SqliteHost Json} {commit : RuntimeCommit Json}
    {graphNodes : GraphNodeTable Json} {leases : String → Option InMemorySessionExecutionLease}
    (written : writeGraph commit.graph db.graphNodes = some graphNodes) :
    storedGraph { db.writeCommit sqlite commit graphNodes with sessionExecutionLeases := leases } =
      applyDelta commit.graph (storedGraph db) :=
  congrArg₂ SessionGraphData.mk (visible_writeGraph written) rfl

end Stored

/-! ## Drafts -/

section Editors

variable {editor after : TurnGraphEditor Json} {turn edited : EditedTurn Json}

/-- A graph without nodes has no leaf. -/
def Rooted (data : SessionGraphData Json) : Prop := data.nodes = [] → data.leafNodeId = none

/-- The editor knows its ids, and neither its graph nor the one it began with has a leaf
without nodes. -/
structure Sound (editor : TurnGraphEditor Json) : Prop where
  wired : Wired editor
  rooted : Rooted editor.data
  base : Rooted editor.baseGraph.inner

theorem rooted_foldl_withNode {data : SessionGraphData Json} (rooted : Rooted data)
    (nodes : List (SessionNodeRecord Json)) : Rooted (nodes.foldl withNode data) := by
  intro hnone
  rw [foldl_withNode_nodes] at hnone
  obtain ⟨hdata, rfl⟩ := append_eq_nil_iff.mp hnone
  exact rooted hdata

theorem activePathNodes_of_leafless {path : List (SessionNodeRecord Json)}
    (leafless : editor.leafNodeId = none) (h : editor.activePathNodes = some path) :
    path = [] := by
  obtain ⟨⟨cache, read⟩, _, hwalk⟩ := bind_eq_some_iff.mp h
  obtain ⟨walked, hwalked, rfl⟩ := map_eq_some_iff.mp hwalk
  rw [leafless, bind_none, ParentWalks.walk] at hwalked
  obtain rfl := some.inj hwalked
  rfl

theorem replaced_rooted (sound : Sound editor) {replacement : ActiveReadReplacement Json}
    {messages : List (Message Json)} {timestamp : String}
    (built : editor.buildReplacement messages timestamp = some replacement) :
    Rooted (editor.replaced replacement).data := by
  intro hnone
  have hnodes : (editor.replaced replacement).data.nodes =
      editor.data.nodes ++ replacement.newTailNodes := (append_assoc ..).symm
  rw [hnodes] at hnone
  obtain ⟨hdata, htail⟩ := append_eq_nil_iff.mp hnone
  obtain ⟨path, hpath, hbuilt⟩ := bind_eq_some_iff.mp built
  obtain rfl := activePathNodes_of_leafless (sound.rooted hdata) hpath
  obtain ⟨-, hfinal, -⟩ := buildActiveReadReplacement_spec hbuilt
    fun id => (sound.wired.existing id).mpr
  rw [htail] at hfinal
  change replacement.leafNodeId = none
  rw [hfinal]
  rfl

variable {op : EditorOp Json}

theorem sound_of_apply (sound : Sound turn.editor) (h : op.apply turn = some edited) :
    Sound edited.editor := by
  cases op with
  | appendEvents events timestamp draws =>
    obtain ⟨next, hnext, rfl⟩ := map_eq_some_iff.mp h
    obtain ⟨nodes, _, rfl⟩ := appendEvents_spec sound.wired hnext
    exact ⟨extended_wired sound.wired _ _,
      extended_data turn.editor _ _ ▸ rooted_foldl_withNode sound.rooted _, sound.base⟩
  | appendActiveConversationMessages messages timestamp draws =>
    obtain ⟨next, hnext, rfl⟩ := map_eq_some_iff.mp h
    obtain ⟨nodes, _, rfl⟩ := appendActiveConversationMessages_spec sound.wired hnext
    exact ⟨extended_wired sound.wired _ _,
      extended_data turn.editor _ _ ▸ rooted_foldl_withNode sound.rooted _, sound.base⟩
  | replaceActiveReadState messages timestamp =>
    obtain ⟨next, hnext, rfl⟩ := map_eq_some_iff.mp h
    obtain ⟨replacement, hbuilt, rfl⟩ := replaceActiveReadState_spec sound.wired hnext
    exact ⟨replaced_wired sound.wired _, replaced_rooted sound hbuilt, sound.base⟩
  | commitProgress required =>
    obtain rfl := some.inj h
    rw [commitProgress_editor]
    exact ⟨⟨sound.wired.indices, sound.wired.existing⟩, sound.rooted, sound.base⟩

theorem ledgered_of_apply (ledgered : Ledgered turn) (h : op.apply turn = some edited) :
    Ledgered edited := by
  have hstep := (editStep_spec ledgered op).1
  rwa [editStep, h] at hstep

variable {leafNodeId : Option String} {required : Bool}

theorem graphCommit_unchanged (h : editor.graphCommit required = .unchanged leafNodeId) :
    required = false ∧ leafNodeId = editor.leafNodeId := by
  cases required with
  | true => cases h
  | false =>
    rw [TurnGraphEditor.graphCommit, if_neg (by simp)] at h
    dsimp only at h
    split at h
    · exact ⟨rfl, (GraphCommitDelta.unchanged.inj h).symm⟩
    · cases h

theorem graphCommit_appended {nodes : List (SessionNodeRecord Json)}
    (h : editor.graphCommit required = .append nodes leafNodeId) :
    required = false ∧ nodes ≠ [] ∧ nodes ⊆ editor.appendedNodes := by
  cases required with
  | true => cases h
  | false =>
    rw [TurnGraphEditor.graphCommit, if_neg (by simp)] at h
    dsimp only at h
    split at h
    · cases h
    · rename_i hnonempty
      obtain ⟨rfl, -⟩ := GraphCommitDelta.append.inj h
      exact ⟨rfl, fun hnil => hnonempty (isEmpty_iff.mpr hnil), filter_sublist.subset⟩

theorem graphCommit_replaced {next : SessionGraph Json}
    (h : editor.graphCommit required = .replaceFull next) : required = true := by
  cases required with
  | true => rfl
  | false =>
    rw [TurnGraphEditor.graphCommit, if_neg (by simp)] at h
    dsimp only at h
    split at h
    · cases h
    · cases h

end Editors

/-! ## The final delta -/

section Deltas

variable {draft : TurnCommitDraft Json} {state : RuntimeSessionState Json}
  {persisted : SessionGraphData Json}

def Replaces (delta : GraphCommitDelta Json) : Prop := ∃ next, delta = .replaceFull next

instance (delta : GraphCommitDelta Json) : Decidable (Replaces delta) :=
  match delta with
  | .unchanged _ => isFalse fun ⟨_, h⟩ => nomatch h
  | .append _ _ => isFalse fun ⟨_, h⟩ => nomatch h
  | .replaceFull graph => isTrue ⟨graph, rfl⟩

/-- The final delta turns what is stored into the final graph, if this is the graph of the
draft wherever the delta does not replace it. -/
theorem finalGraphCommit_applied (sound : Sound draft.graph)
    (ledgered : state.headRevision.isSome = true → Ledgered ⟨draft.graph, persisted⟩)
    (required : draft.state.graphReplaceRequired = true → state.graphReplaceRequired = true)
    (nodes : draft.graph.data.nodes ⊆ state.sessionGraph.nodes)
    (untouched : ¬ Replaces (finalGraphCommit state
        (draft.graphCommit draft.state.graphReplaceRequired)) →
      state.sessionGraph.inner = draft.graph.intoSessionGraph.inner) :
    applyDelta (finalGraphCommit state (draft.graphCommit draft.state.graphReplaceRequired))
      persisted = state.sessionGraph.inner := by
  unfold finalGraphCommit at untouched ⊢
  rw [TurnCommitDraft.graphCommit] at untouched ⊢
  by_cases hrequired : state.graphReplaceRequired = true
  · rw [if_pos hrequired]
    rfl
  rw [if_neg hrequired] at untouched ⊢
  have hnot : draft.state.graphReplaceRequired ≠ true := fun h => hrequired (required h)
  rw [Bool.eq_false_of_not_eq_true hnot] at untouched ⊢
  cases hprogress : draft.graph.graphCommit false with
  | replaceFull next => cases graphCommit_replaced hprogress
  | unchanged leafNodeId =>
    rw [hprogress] at untouched
    cases hhead : state.headRevision with
    | none => rfl
    | some r =>
      rw [hhead] at untouched
      dsimp only at untouched ⊢
      by_cases hempty : state.sessionGraph.nodes.isEmpty = true
      · rw [if_pos hempty] at untouched ⊢
        obtain ⟨-, rfl⟩ := graphCommit_unchanged hprogress
        have hnone : draft.graph.data.nodes = [] := by
          rw [isEmpty_iff.mp hempty] at nodes
          exact subset_nil.mp nodes
        obtain ⟨hbase, happended⟩ := append_eq_nil_iff.mp hnone
        have hstands : LeafStands draft.graph :=
          .inr ((sound.rooted hnone).trans (sound.base hbase).symm)
        have hwhole := ((commitsWhole_iff (ledgered (by rw [hhead]; rfl))).mpr
          hstands).commit false
        rw [hprogress] at hwhole
        exact hwhole.trans (untouched fun ⟨_, h⟩ => nomatch h).symm
      · rw [if_neg hempty]
        rfl
  | append added leafNodeId =>
    rw [hprogress] at untouched
    obtain ⟨-, hnonempty, hadded⟩ := graphCommit_appended hprogress
    have happended : draft.graph.appendedNodes ≠ [] := fun hnil =>
      hnonempty (subset_nil.mp (hnil ▸ hadded))
    cases hhead : state.headRevision with
    | none =>
      dsimp only
      rw [if_neg]
      · rfl
      · intro hempty
        rw [isEmpty_iff.mp hempty] at nodes
        exact happended (append_eq_nil_iff.mp (subset_nil.mp nodes)).2
    | some r =>
      rw [hhead] at untouched
      have hwhole := ((commitsWhole_iff (ledgered (by rw [hhead]; rfl))).mpr
        (.inl happended)).commit false
      rw [hprogress] at hwhole
      exact hwhole.trans (untouched fun ⟨_, h⟩ => nomatch h).symm

end Deltas

/-! ## The final state -/

section States

variable {state after final : RuntimeSessionState Json}

/-- The current frame is one of the frames. -/
structure Framed (state : RuntimeSessionState Json) : Prop where
  named : state.currentAgentFrameId.isEmpty = false
  listed : state.agentFrames.any (·.frameId == state.currentAgentFrameId) = true

theorem Framed.of_same (framed : Framed state) (frames : after.agentFrames = state.agentFrames)
    (current : after.currentAgentFrameId = state.currentAgentFrameId) : Framed after where
  named := by rw [current]; exact framed.named
  listed := by rw [frames, current]; exact framed.listed

theorem ensureAgentFrameInitialized_of_framed (framed : Framed state) (host : TurnHost Json)
    (timestamp : String) : state.ensureAgentFrameInitialized host timestamp = state := by
  unfold RuntimeSessionState.ensureAgentFrameInitialized
  rw [if_neg (ne_true_of_eq_false framed.named)]
  dsimp only
  rw [if_pos framed.listed]

theorem defaultAgentFrameId_named (sessionId : String) :
    (defaultAgentFrameId sessionId).isEmpty = false := by
  refine eq_false_of_ne_true fun h => ?_
  have hparts := String.append_eq_empty_iff.mp (String.isEmpty_iff.mp h)
  exact absurd hparts.2 (by decide)

theorem ensureAgentFrameInitialized_framed (host : TurnHost Json)
    (state : RuntimeSessionState Json) (timestamp : String) :
    Framed (state.ensureAgentFrameInitialized host timestamp) := by
  unfold RuntimeSessionState.ensureAgentFrameInitialized
  have hnamed : (if state.currentAgentFrameId.isEmpty = true then
      defaultAgentFrameId state.sessionId else state.currentAgentFrameId).isEmpty = false := by
    split
    · exact defaultAgentFrameId_named _
    · exact eq_false_of_ne_true ‹_›
  generalize (if state.currentAgentFrameId.isEmpty = true then
    defaultAgentFrameId state.sessionId else state.currentAgentFrameId) = frameId at hnamed ⊢
  dsimp only
  split
  · exact ⟨hnamed, ‹_›⟩
  · exact ⟨hnamed, by simp⟩

theorem any_modifyFirst {A : Type} {p q : A → Bool} {f : A → A} (keeps : ∀ a, q (f a) = q a)
    (as : List A) : (modifyFirst p f as).any q = as.any q := by
  induction as with
  | nil => rfl
  | cons a as ih =>
    rw [modifyFirst]
    split
    · rw [any_cons, any_cons, keeps]
    · rw [any_cons, any_cons, ih]

theorem modifyCurrentAgentFrame_framed {f : AgentFrameRecord Json → AgentFrameRecord Json}
    (keeps : ∀ frame, (f frame).frameId = frame.frameId) (framed : Framed state) :
    Framed (state.modifyCurrentAgentFrame f) where
  named := framed.named
  listed := (any_modifyFirst (fun frame => by rw [keeps]) _).trans framed.listed

/-- The ledger stays, the frames and the leaf stay in order, and the graph stays unless it has
to be replaced. -/
structure Continues (state after : RuntimeSessionState Json) : Prop where
  ledger : after.tokenLedger = state.tokenLedger
  framed : Framed state → Framed after
  rooted : Rooted state.sessionGraph.inner → Rooted after.sessionGraph.inner
  graph : after.graphReplaceRequired = false →
    state.graphReplaceRequired = false ∧ after.sessionGraph.inner = state.sessionGraph.inner

theorem Continues.refl (state : RuntimeSessionState Json) : Continues state state :=
  ⟨rfl, id, id, fun h => ⟨h, rfl⟩⟩

theorem Continues.trans (first : Continues state after) (second : Continues after final) :
    Continues state final where
  ledger := second.ledger.trans first.ledger
  framed framed := second.framed (first.framed framed)
  rooted rooted := second.rooted (first.rooted rooted)
  graph unrequired := by
    obtain ⟨hafter, hgraph⟩ := second.graph unrequired
    obtain ⟨hstate, hbefore⟩ := first.graph hafter
    exact ⟨hstate, hgraph.trans hbefore⟩

theorem setExecutionStateSnapshot_continues (snapshot : Option (Option Json)) :
    Continues state (snapshot.elim state state.setExecutionStateSnapshot) := by
  cases snapshot with
  | none => exact .refl state
  | some snapshot =>
    refine ⟨rfl, fun framed => ?_, id, fun h => ⟨h, rfl⟩⟩
    have hframed := modifyCurrentAgentFrame_framed (f := fun frame => { frame with
      executionStateRef := if snapshot.isNone then none else frame.executionStateRef
      executionStateSnapshot := snapshot }) (fun _ => rfl) framed
    exact hframed.of_same rfl rfl

theorem refreshPluginSnapshots_continues (host : TurnHost Json)
    (plugins : Option (PluginReads Json)) :
    Continues state (plugins.elim state (state.refreshPluginSnapshots host)) := by
  cases plugins with
  | none => exact .refl state
  | some plugins => exact ⟨rfl, fun framed => framed.of_same rfl rfl, id, fun h => ⟨h, rfl⟩⟩

theorem ensureAgentFrameInitialized_continues (host : TurnHost Json)
    (state : RuntimeSessionState Json) (timestamp : String) :
    Continues state (state.ensureAgentFrameInitialized host timestamp) := by
  have hframed := ensureAgentFrameInitialized_framed host state timestamp
  obtain ⟨frames, frameId, hframe⟩ := ensureAgentFrameInitialized_frame host state timestamp
  rw [hframe] at hframed ⊢
  exact ⟨rfl, fun _ => hframed, id, fun h => ⟨h, rfl⟩⟩

variable {graph read : SessionGraph Json}
  {messages : List (Message Json)} {agentFrameId : Option String} {timestamp : String}

theorem appendMessages_rooted {draws : List String} (rooted : Rooted graph.inner)
    (h : graph.appendActiveConversationMessagesScopedAt agentFrameId messages timestamp draws =
      some read) : Rooted read.inner := by
  rw [SessionGraph.appendActiveConversationMessagesScopedAt, appendMessageBatchScopedAt_eq] at h
  obtain ⟨nodes, _, rfl⟩ := map_eq_some_iff.mp h
  rw [appendPrebuiltNodes_inner]
  exact rooted_foldl_withNode rooted nodes

theorem replaceActiveReadState_rooted
    (h : graph.replaceActiveReadStateScoped agentFrameId messages timestamp = some read) :
    Rooted read.inner := by
  obtain ⟨⟨currentNodes, warm⟩, hpath, h⟩ := bind_eq_some_iff.mp h
  obtain ⟨replacement, hbuilt, h⟩ := bind_eq_some_iff.mp h
  obtain rfl := some.inj h
  intro hnone
  obtain ⟨hnodes, htail⟩ := append_eq_nil_iff.mp hnone
  obtain ⟨⟨cache, cached⟩, hcache, hpair⟩ := map_eq_some_iff.mp hpath
  obtain ⟨rfl, rfl⟩ := Prod.mk.inj hpair
  have hpathless : cache.activePathIndices.filterMap (cached.nodes[·]?) = [] := by
    rw [SessionGraph.nodes, hnodes]
    simp
  rw [hpathless] at hbuilt
  have hids : ∀ id ∈ ([] : List (SessionNodeRecord Json)).map (·.nodeId),
      id ∈ cached.nodeIds := by simp
  obtain ⟨-, hfinal, -⟩ := buildActiveReadReplacement_spec hbuilt hids
  rw [htail] at hfinal
  change replacement.leafNodeId = none
  rw [hfinal]
  rfl

variable {returned : SessionSnapshot Json} {tick : Tick}
  {enqueued : Option (List (Message Json))} {snapshot : SessionSnapshot Json}

theorem finalizeTurn_rooted (rooted : Rooted snapshot.sessionGraph.inner)
    (h : finalizeTurn enqueued tick snapshot = some returned) :
    Rooted returned.sessionGraph.inner := by
  cases enqueued with
  | none =>
    obtain rfl := some.inj h
    exact rooted
  | some messages =>
    obtain ⟨readModel, _, h⟩ := bind_eq_some_iff.mp h
    obtain ⟨graph, hgraph, rfl⟩ := map_eq_some_iff.mp h
    exact replaceActiveReadState_rooted hgraph

theorem finalizeTurn_tokenLedger (h : finalizeTurn enqueued tick snapshot = some returned) :
    returned.tokenLedger = snapshot.tokenLedger := by
  cases enqueued with
  | none =>
    obtain rfl := some.inj h
    rfl
  | some messages =>
    obtain ⟨readModel, _, h⟩ := bind_eq_some_iff.mp h
    obtain ⟨graph, hgraph, rfl⟩ := map_eq_some_iff.mp h
    rfl

theorem intoFinalState_rooted {draft : TurnCommitDraft Json} (sound : Sound draft.graph) :
    Rooted draft.intoFinalState.sessionGraph.inner := by
  have hinner : draft.intoFinalState.sessionGraph.inner = _ := intoSessionGraph_inner draft.graph
  rw [hinner]
  split
  · exact sound.base
  · exact sound.rooted

variable {outcome : TurnOutcome Json}

theorem materializeTerminalOutput_continues
    (h : materializeTerminalOutput host outcome tick state = some after) :
    Continues state after := by
  unfold materializeTerminalOutput at h
  split at h
  · obtain ⟨readModel, _, h⟩ := bind_eq_some_iff.mp h
    split at h
    · obtain rfl := some.inj h
      exact .refl _
    · obtain ⟨⟨id, draws⟩, _, h⟩ := bind_eq_some_iff.mp h
      obtain ⟨appended, happended, rfl⟩ := map_eq_some_iff.mp h
      obtain ⟨graph, hgraph, rfl⟩ := map_eq_some_iff.mp happended
      refine ⟨rfl, fun framed => framed.of_same rfl rfl, fun rooted => ?_, fun h => nomatch h⟩
      exact appendMessages_rooted rooted hgraph
  · obtain rfl := some.inj h
    exact .refl _

theorem healOrphanedLeaf_rooted {healed : Bool} (h : graph.healOrphanedLeaf = some (healed, read)) :
    Rooted read.inner := by
  intro hnone
  have hnodes : graph.nodes = [] := (healOrphanedLeaf_nodes h).symm.trans hnone
  rw [SessionGraph.healOrphanedLeaf] at h
  split at h
  · rename_i hleaf
    obtain ⟨-, rfl⟩ := Prod.mk.inj (some.inj h)
    exact hleaf
  · rename_i leaf _
    obtain ⟨⟨found, warm⟩, hfound, h⟩ := map_eq_some_iff.mp h
    obtain ⟨⟨cache, cached⟩, hread, hpair⟩ := map_eq_some_iff.mp hfound
    have hwarm : cached.nodes = [] :=
      (congrArg SessionGraphData.nodes (initCache_warmed hread).readOf.1).trans hnodes
    obtain ⟨rfl, rfl⟩ := Prod.mk.inj hpair
    have hmissing : ((cache.byId leaf).bind (cached.nodes[·]?)).isNone = true := by
      rw [hwarm]
      simp
    dsimp only at h
    rw [if_pos hmissing] at h
    obtain ⟨-, rfl⟩ := Prod.mk.inj h
    change ((cached.nodes.reverse.find? _).map _) = none
    rw [hwarm]
    rfl

theorem healOrphanedLeaf_inner (h : graph.healOrphanedLeaf = some (false, read)) :
    read.inner = graph.inner := by
  rcases healOrphanedLeaf_cases h with ⟨-, warmed⟩ | ⟨hhealed, -⟩
  · exact warmed.readOf.1
  · cases hhealed

theorem normalizeSessionGraph_continues (h : state.normalizeSessionGraph = some after) :
    Continues state after := by
  obtain ⟨⟨healed, graph⟩, hheal, rfl⟩ := map_eq_some_iff.mp h
  refine ⟨rfl, fun framed => framed.of_same rfl rfl, fun _ => healOrphanedLeaf_rooted hheal,
    fun hrequired => ?_⟩
  obtain ⟨rfl, hstate⟩ := Bool.or_eq_false_iff.mp hrequired
  exact ⟨hstate, healOrphanedLeaf_inner hheal⟩

theorem appendSessionNodes_continues {drafts : List (SessionNodeDraft Json)} {nodeIds : List String}
    (h : state.appendSessionNodes host drafts tick = some (nodeIds, after)) :
    Continues state (if nodeIds.isEmpty then after else
      { after with graphReplaceRequired := true }) := by
  obtain ⟨⟨ids, graph⟩, hgraph, h⟩ := bind_eq_some_iff.mp h
  obtain ⟨normalized, hnormalized, h⟩ := bind_eq_some_iff.mp h
  obtain ⟨rfl, rfl⟩ := Prod.mk.inj (some.inj h)
  have hinit := ensureAgentFrameInitialized_continues host state tick.timestamp
  have hlast := normalizeSessionGraph_continues hnormalized
  obtain ⟨nodes, _, hpair⟩ := map_eq_some_iff.mp hgraph
  obtain ⟨rfl, rfl⟩ := Prod.mk.inj hpair
  have hrooted : Rooted state.sessionGraph.inner → Rooted ((state.ensureAgentFrameInitialized host
        tick.timestamp).sessionGraph.appendPrebuiltNodes nodes).inner := fun rooted => by
    rw [appendPrebuiltNodes_inner]
    exact rooted_foldl_withNode (hinit.rooted rooted) nodes
  split
  · rename_i hempty
    obtain rfl := map_eq_nil_iff.mp (isEmpty_iff.mp hempty)
    refine Continues.trans ⟨hinit.ledger, fun framed => (hinit.framed framed).of_same rfl rfl,
      hrooted, fun h => ⟨(hinit.graph h).1, ?_⟩⟩ hlast
    exact (appendPrebuiltNodes_inner []).trans (hinit.graph h).2
  · refine ⟨hlast.ledger.trans hinit.ledger, fun framed => ?_, fun rooted =>
      hlast.rooted (hrooted rooted), fun h => nomatch h⟩
    have hframed := hlast.framed ((hinit.framed framed).of_same rfl rfl)
    exact hframed.of_same rfl rfl

theorem trimText_named {frameId : String} (h : (trimText frameId).isEmpty ≠ true) :
    frameId.isEmpty = false := by
  refine eq_false_of_ne_true fun hempty => h ?_
  rw [String.isEmpty_iff.mp hempty]
  decide

theorem appendAgentFrame_continues {frame : AgentFrameRecord Json}
    (named : frame.frameId.isEmpty = false) : Continues state (state.appendAgentFrame frame) := by
  refine ⟨rfl, fun _ => ⟨named, ?_⟩, id, fun h => ⟨h, rfl⟩⟩
  simp [RuntimeSessionState.appendAgentFrame]

theorem openAgentFrame_continues {frameId reason : String}
    {initialNodes : List (SessionNodeDraft Json)} {causedBy : Option CausalRef}
    (h : state.openAgentFrame host frameId reason initialNodes causedBy tick = some after) :
    Continues state after := by
  have hinit := ensureAgentFrameInitialized_continues host state tick.timestamp
  unfold RuntimeSessionState.openAgentFrame at h
  dsimp only at h
  split at h
  · obtain rfl := some.inj h
    exact hinit
  · rename_i hopens
    obtain ⟨⟨nodeIds, appended⟩, happended, hafter⟩ := map_eq_some_iff.mp h
    subst hafter
    have hnamed : frameId.isEmpty = false := by
      refine trimText_named fun hempty => hopens ?_
      rw [hempty]
      exact Bool.true_or _
    exact (hinit.trans (appendAgentFrame_continues hnamed)).trans
      (appendSessionNodes_continues happended)

theorem materializeAgentFrameSwitch_continues {toolCalls : List (Option (ToolControl Json))}
    (h : materializeAgentFrameSwitch host outcome toolCalls tick state = some after) :
    Continues state after := by
  unfold materializeAgentFrameSwitch at h
  split at h
  · split at h
    · obtain rfl := some.inj h
      exact .refl _
    · exact openAgentFrame_continues h
  · obtain rfl := some.inj h
    exact .refl _

/-- The final state has its frames in order and counts the usage of the turn; its graph is the
returned one unless it has to be replaced. -/
structure Finalized (input : FinalCommitInput Json) (returned : SessionSnapshot Json)
    (state : RuntimeSessionState Json) : Prop where
  framed : Framed state
  ledger : state.tokenLedger = input.usageDeltas.foldl mergeLedgerEntry returned.tokenLedger
  rooted : Rooted returned.sessionGraph.inner → Rooted state.sessionGraph.inner
  graph : state.graphReplaceRequired = false →
    state.sessionGraph.inner = returned.sessionGraph.inner

theorem finalState_finalized {input : FinalCommitInput Json}
    (h : finalState host input returned state = some after) : Finalized input returned after := by
  obtain ⟨materialized, hmaterialized, hswitched⟩ := bind_eq_some_iff.mp h
  have hlast := (materializeTerminalOutput_continues hmaterialized).trans
    (materializeAgentFrameSwitch_continues hswitched)
  have hmiddle := (refreshPluginSnapshots_continues host input.reads.plugins).trans
    ((setExecutionStateSnapshot_continues input.reads.executionStateSnapshot).trans hlast)
  have hframed := ensureAgentFrameInitialized_framed host
    { state with
      sessionId := returned.sessionId
      policy := returned.policy
      agentFrames := returned.agentFrames
      currentAgentFrameId := returned.currentAgentFrameId } input.tick.timestamp
  exact ⟨hmiddle.framed (hframed.of_same rfl rfl), hmiddle.ledger, hmiddle.rooted,
    fun h => (hmiddle.graph h).2⟩

end States

/-! ## Loading what was returned -/

section Loads

variable {state : RuntimeSessionState Json} {db : Store Json}

/-- A graph is serialized without its cache. -/
def SessionSnapshot.serialized (snapshot : SessionSnapshot Json) : SessionSnapshot Json :=
  { snapshot with sessionGraph := ⟨snapshot.sessionGraph.inner, none⟩ }

/-- The path from the root to the leaf. -/
def activePathOf (snapshot : SessionSnapshot Json) : Option (List (SessionNodeRecord Json)) :=
  snapshot.sessionGraph.activePathNodes.map Prod.fst

/-- Two snapshots show the same graph, frames and ledger. -/
structure SameTurn (returned loaded : SessionSnapshot Json) : Prop where
  graph : loaded.sessionGraph.inner = returned.sessionGraph.inner
  activePath : activePathOf loaded = activePathOf (SessionSnapshot.serialized returned)
  readModel : SessionSnapshot.readModel loaded =
    SessionSnapshot.readModel (SessionSnapshot.serialized returned)
  agentFrames : loaded.agentFrames = returned.agentFrames
  currentAgentFrameId : loaded.currentAgentFrameId = returned.currentAgentFrameId
  tokenLedger : loaded.tokenLedger = returned.tokenLedger

/-- The session can be loaded, and then it is what was returned. -/
def Saved (host : TurnHost Json) (returned : SessionSnapshot Json) (db : Store Json) : Prop :=
  ∀ timestamp, ∃ state, RuntimeSessionState.loadPersistedSessionState host timestamp .fullGraph db =
    some (some state) ∧ SameTurn returned state.toSnapshot

theorem map_modifyFirst {A B : Type} {p : A → Bool} {f : A → A} {g : A → B} {as : List A}
    (same : ∀ a, as.find? p = some a → g (f a) = g a) :
    (modifyFirst p f as).map g = as.map g := by
  induction as with
  | nil => rfl
  | cons a as ih =>
    rw [modifyFirst]
    split
    · rename_i hfirst
      rw [map_cons, map_cons, same a (find?_cons_of_pos hfirst)]
    · rename_i hnot
      rw [map_cons, map_cons, ih fun b hb => same b ?_]
      rw [find?_cons_of_neg hnot]
      exact hb

/-- The current frame names the execution state that a commit of the state writes. -/
def NamesExecution (host : TurnHost Json) (sqlite : SqliteHost Json)
    (state : RuntimeSessionState Json) : Prop :=
  ∀ frame, state.currentAgentFrame = some frame → frame.executionStateRef =
    (sqlite.checkpointManifest (buildCheckpointFromPersistedState host state)).executionStateRef

variable {read : PersistedSessionRead Json}

/-- A read whose frames are in order is loaded as it stands. -/
theorem fromRead_eq (host : TurnHost Json) {frames : List (AgentFrameRecord Json)}
    (timestamp : String) (readable : read.agentFrames.filterMap host.readFrame = frames)
    (named : read.currentAgentFrameId.isEmpty = false)
    (listed : frames.any (·.frameId == read.currentAgentFrameId) = true) :
    let loaded := RuntimeSessionState.persistedSessionStateFromRead host timestamp read
    loaded.agentFrames = frames ∧ loaded.currentAgentFrameId = read.currentAgentFrameId ∧
      loaded.sessionGraph = read.graph ∧ loaded.tokenLedger = read.tokenLedger := by
  subst readable
  unfold RuntimeSessionState.persistedSessionStateFromRead
  dsimp only
  cases read.checkpoint with
  | none =>
    rw [elim_none, ensureAgentFrameInitialized_of_framed ⟨named, listed⟩]
    exact ⟨rfl, rfl, rfl, rfl⟩
  | some checkpoint =>
    rw [elim_some, ensureAgentFrameInitialized_of_framed ⟨named, listed⟩]
    exact ⟨rfl, rfl, rfl, rfl⟩

/-- What is loaded is the state after its commit. -/
theorem sameTurn_of_read {result : RuntimeCommitResult Json} (timestamp : String)
    (framed : Framed state) (frames : read.agentFrames.filterMap host.readFrame = state.agentFrames)
    (current : read.currentAgentFrameId = state.currentAgentFrameId)
    (graph : read.graph = ⟨state.sessionGraph.inner, none⟩)
    (ledger : read.tokenLedger = state.tokenLedger)
    (names : ∀ frame, state.currentAgentFrame = some frame →
      frame.executionStateRef = result.manifest.executionStateRef) :
    SameTurn (state.applyPersistedCommitResult host result).toSnapshot
      (RuntimeSessionState.persistedSessionStateFromRead host timestamp read).toSnapshot := by
  obtain ⟨hagent, hcurrent, hgraph, hledger⟩ := fromRead_eq host timestamp frames
    (current ▸ framed.named) (current ▸ framed.listed)
  generalize RuntimeSessionState.persistedSessionStateFromRead host timestamp read = loaded at *
  have hframes : loaded.toSnapshot.agentFrames =
      (state.applyPersistedCommitResult host result).toSnapshot.agentFrames := by
    refine (congrArg (map _) hagent).trans (map_modifyFirst fun frame hframe => ?_).symm
    rw [← names frame hframe]
  have hid : loaded.toSnapshot.currentAgentFrameId = state.currentAgentFrameId :=
    hcurrent.trans current
  have hinner : loaded.toSnapshot.sessionGraph = ⟨state.sessionGraph.inner, none⟩ :=
    hgraph.trans graph
  constructor
  · rw [hinner]
    rfl
  · rw [activePathOf, hinner]
    rfl
  · unfold SessionSnapshot.readModel
    rw [hframes, hid, hinner]
    rfl
  · exact hframes
  · exact hid
  · exact hledger.trans ledger

/-- A commit saves the state if its delta makes the stored graph the one of the state. -/
theorem saved_of_applied (host : TurnHost Json) (boundary : TurnBoundary Json)
    (leases : String → Option InMemorySessionExecutionLease) {request : CommitRequest Json}
    {sqlite : SqliteHost Json} {graphNodes : GraphNodeTable Json}
    (written : writeGraph request.graph db.graphNodes = some graphNodes)
    (graph : applyDelta request.graph (storedGraph db) = boundary.state.sessionGraph.inner)
    (framed : Framed boundary.state) (names : NamesExecution host sqlite boundary.state)
    (ledger : mergeTokenLedgerEntries (db.usageDeltas ++ request.usageDeltas) =
      boundary.state.tokenLedger) :
    Saved host (boundary.state.applyPersistedCommitResult host
        (db.commitResult sqlite (boundary.commitOf host request))).toSnapshot
      { db.writeCommit sqlite (boundary.commitOf host request) graphNodes with
        sessionExecutionLeases := leases } := by
  intro timestamp
  refine ⟨_, rfl, sameTurn_of_read timestamp framed ?_ rfl ?_ ledger names⟩
  · refine (filterMap_map ..).trans ((filterMap_congr fun frame _ => ?_).trans
      (filterMap_some ..))
    exact host.readFrame_writeFrame frame
  · rw [← graph]
    exact congrArg (SessionGraph.mk · none) (stored_committed written)

end Loads

end FinalCommits
