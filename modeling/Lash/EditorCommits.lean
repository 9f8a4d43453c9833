import Lash.TurnGraphEditors

/-!
# What an editor commits

`graphCommit`, `materializedGraph` and `intoSessionGraph` each find out for themselves
what a turn has done to the graph. The last two take an editor that has appended no node
for one that has changed nothing; a replacement that only drops the end of the active
path appends no node.
-/

namespace EditorCommits

open Runs SessionGraphs CacheCoherence GraphForests TurnGraphEditors
open TurnGraphEditor
open List

variable {Json : Type} {editor : TurnGraphEditor Json} {turn : EditedTurn Json}

section Persisted

/-- The store holds the base graph and the appended nodes up to some point; the editor
counts these nodes as committed, and no others. -/
structure Ledgered (turn : EditedTurn Json) : Prop where
  wired : Wired turn.editor
  split : ∃ done rest, turn.editor.appendedNodes = done ++ rest ∧
    turn.persisted.nodes = turn.editor.baseGraph.nodes ++ done ∧
    (∀ node ∈ done, node.nodeId ∈ turn.editor.committedNodeIds) ∧
    ∀ node ∈ rest, node.nodeId ∉ turn.editor.committedNodeIds
  known : turn.editor.committedNodeIds ⊆ turn.editor.appendBuilder.existingIds

theorem Ledgered.persisted_append (ledgered : Ledgered turn) :
    turn.persisted.nodes ++ turn.editor.appendedNodes.filter
        (fun node => decide (node.nodeId ∉ turn.editor.committedNodeIds)) =
      turn.editor.data.nodes := by
  obtain ⟨done, rest, happended, hpersisted, hdone, hrest⟩ := ledgered.split
  have hnone : done.filter
      (fun node => decide (node.nodeId ∉ turn.editor.committedNodeIds)) = [] :=
    filter_eq_nil_iff.mpr fun node hnode => by simpa using hdone node hnode
  have hall : rest.filter
      (fun node => decide (node.nodeId ∉ turn.editor.committedNodeIds)) = rest :=
    filter_eq_self.mpr fun node hnode => by simpa using hrest node hnode
  rw [TurnGraphEditor.data, happended, filter_append, hnone, hall, hpersisted]
  simp only [nil_append, append_assoc]

theorem start_ledgered (wired : Wired editor) (fresh : editor.appendedNodes = [])
    (committed : editor.committedNodeIds = editor.baseGraph.nodeIds) :
    Ledgered (.start editor) where
  wired := wired
  split := ⟨[], [], fresh, by simp [EditedTurn.start, SessionGraph.nodes], by simp, by simp⟩
  known id hid := by
    refine (wired.existing id).mpr ?_
    rw [TurnGraphEditor.data, fresh, append_nil]
    have hbase : id ∈ editor.baseGraph.nodeIds := committed ▸ hid
    exact mem_toFinset.mp hbase

variable {nodes : List (SessionNodeRecord Json)}

/-- New nodes are appended behind those that are not yet committed. -/
theorem ledgered_of_appended {after : TurnGraphEditor Json} (ledgered : Ledgered turn)
    (wired : Wired after) (base : after.baseGraph = turn.editor.baseGraph)
    (appended : after.appendedNodes = turn.editor.appendedNodes ++ nodes)
    (committed : after.committedNodeIds = turn.editor.committedNodeIds)
    (known : turn.editor.appendBuilder.existingIds ⊆ after.appendBuilder.existingIds)
    (new : ∀ node ∈ nodes, node.nodeId ∉ turn.editor.data.nodes.map (·.nodeId)) :
    Ledgered { turn with editor := after } where
  wired := wired
  split := by
    obtain ⟨done, rest, happended, hpersisted, hdone, hrest⟩ := ledgered.split
    refine ⟨done, rest ++ nodes, ?_, ?_, ?_, ?_⟩
    · rw [appended, happended, append_assoc]
    · rw [base, hpersisted]
    · rwa [committed]
    · rw [committed]
      intro node hnode hid
      rcases mem_append.mp hnode with hold | hnew
      · exact hrest node hold hid
      · exact new node hnew ((ledgered.wired.existing _).mp (ledgered.known hid))
  known := by
    rw [committed]
    exact ledgered.known.trans known

theorem extended_ledgered (ledgered : Ledgered turn) (chain : FreshChain turn.editor.data nodes)
    (messages : List (Message Json)) :
    Ledgered { turn with editor := turn.editor.extended nodes messages } := by
  refine ledgered_of_appended ledgered (extended_wired ledgered.wired nodes messages) rfl rfl rfl
    (fun id hid => ?_) fun node hnode => freshChain_new chain hnode
  exact (advance_existingIds _ nodes id).mpr (.inl hid)

theorem replaced_ledgered (ledgered : Ledgered turn) {replacement : ActiveReadReplacement Json}
    {messages : List (Message Json)} {timestamp : String}
    (built : turn.editor.buildReplacement messages timestamp = some replacement) :
    Ledgered { turn with editor := turn.editor.replaced replacement } := by
  obtain ⟨activePath, _, hbuilt⟩ := Option.bind_eq_some_iff.mp built
  obtain ⟨hchain, -, -⟩ := buildActiveReadReplacement_spec hbuilt
    fun id => (ledgered.wired.existing id).mpr
  refine ledgered_of_appended ledgered (replaced_wired ledgered.wired replacement) rfl rfl rfl
    (fun id hid => Finset.mem_union_left _ hid) fun node hnode => ?_
  exact freshChain_new hchain hnode

end Persisted

section Commits

variable {op : EditorOp Json}

theorem materializedGraph_inner (editor : TurnGraphEditor Json) :
    editor.materializedGraph.inner = editor.intoSessionGraph.inner := by
  rw [materializedGraph, intoSessionGraph]
  split
  · rfl
  · rfl

theorem intoSessionGraph_inner (editor : TurnGraphEditor Json) : editor.intoSessionGraph.inner =
      if editor.appendedNodes.isEmpty then editor.baseGraph.inner else editor.data := by
  rw [intoSessionGraph]
  split
  · rfl
  · rfl

/-- The commit, the materialized graph and the final graph are one graph. -/
structure CommitsWhole (turn : EditedTurn Json) : Prop where
  materialized : turn.editor.materializedGraph.inner = turn.editor.intoSessionGraph.inner
  commit : ∀ graphReplaceRequired,
    applyDelta (turn.editor.graphCommit graphReplaceRequired) turn.persisted =
      turn.editor.intoSessionGraph.inner

/-- A node has been appended, or the leaf is the one of the base graph. -/
def LeafStands (editor : TurnGraphEditor Json) : Prop :=
  editor.appendedNodes ≠ [] ∨ editor.leafNodeId = editor.baseGraph.leafNodeId

theorem graphCommit_append (ledgered : Ledgered turn) :
    applyDelta (turn.editor.graphCommit false) turn.persisted = turn.editor.data := by
  have hnodes := ledgered.persisted_append
  rw [graphCommit, if_neg (by simp)]
  dsimp only
  split
  · rename_i hempty
    rw [isEmpty_iff.mp hempty, append_nil] at hnodes
    exact congrArg₂ SessionGraphData.mk hnodes rfl
  · exact congrArg₂ SessionGraphData.mk hnodes rfl

theorem commitsWhole_iff (ledgered : Ledgered turn) :
    CommitsWhole turn ↔ LeafStands turn.editor := by
  have hcommit := graphCommit_append ledgered
  have hinto := intoSessionGraph_inner turn.editor
  constructor
  · intro whole
    by_cases happended : turn.editor.appendedNodes = []
    · refine .inr ?_
      have hsame : turn.editor.data = turn.editor.baseGraph.inner := by
        rw [← hcommit, whole.commit false, hinto, happended]
        rfl
      exact congrArg SessionGraphData.leafNodeId hsame
    · exact .inl happended
  · intro stands
    have hdata : turn.editor.data = turn.editor.intoSessionGraph.inner := by
      rw [hinto]
      split
      · rename_i hempty
        have hnil := isEmpty_iff.mp hempty
        have hleaf := stands.resolve_left (not_not_intro hnil)
        refine congrArg₂ SessionGraphData.mk ?_ hleaf
        rw [hnil, append_nil]
        rfl
      · rfl
    refine ⟨materializedGraph_inner _, fun required => ?_⟩
    cases required with
    | false => rw [hcommit, hdata]
    | true => exact materializedGraph_inner turn.editor

/-- A replacement without new nodes, in an editor that has appended none, keeps the leaf
of the base graph. -/
def KeepsLeaf (op : EditorOp Json) (turn : EditedTurn Json) : Prop :=
  match op with
  | .replaceActiveReadState messages timestamp =>
    ∀ replacement, turn.editor.buildReplacement messages timestamp = some replacement →
      turn.editor.appendedNodes ≠ [] ∨ replacement.newTailNodes ≠ [] ∨
        replacement.leafNodeId = turn.editor.baseGraph.leafNodeId
  | _ => True

instance KeepsLeaf.decidable (op : EditorOp Json) (turn : EditedTurn Json) :
    Decidable (KeepsLeaf op turn) :=
  match op with
  | .replaceActiveReadState messages timestamp =>
    decidable_of_iff (∀ replacement ∈ turn.editor.buildReplacement messages timestamp,
        turn.editor.appendedNodes ≠ [] ∨ replacement.newTailNodes ≠ [] ∨
          replacement.leafNodeId = turn.editor.baseGraph.leafNodeId)
      ⟨fun h replacement hbuilt => h replacement hbuilt,
        fun h replacement hbuilt => h replacement hbuilt⟩
  | .appendEvents .. => isTrue trivial
  | .appendActiveConversationMessages .. => isTrue trivial
  | .commitProgress .. => isTrue trivial

/-- Once the store holds all nodes, exactly these count as committed. -/
theorem ledgered_of_committed (wired : Wired editor) {persisted : SessionGraphData Json}
    {committed : Finset String} (written : persisted.nodes = editor.data.nodes)
    (counted : ∀ node ∈ editor.appendedNodes, node.nodeId ∈ committed)
    (known : ∀ id ∈ committed, id ∈ editor.data.nodes.map (·.nodeId)) :
    Ledgered ⟨{ editor with committedNodeIds := committed }, persisted⟩ where
  wired := ⟨wired.indices, wired.existing⟩
  split := ⟨editor.appendedNodes, [], (List.append_nil _).symm, written, counted, by simp⟩
  known id hid := (wired.existing id).mpr (known id hid)

theorem replaced_whole_ledgered (wired : Wired editor) :
    Ledgered ⟨editor.replacePersistedNodeIds (editor.materializedGraph.nodes.map (·.nodeId)),
      editor.materializedGraph.inner⟩ := by
  have hwritten : editor.materializedGraph.nodes = editor.data.nodes := by
    have hinner := (materializedGraph_inner editor).trans (intoSessionGraph_inner editor)
    rw [SessionGraph.nodes, hinner]
    split
    · rename_i hempty
      rw [TurnGraphEditor.data, isEmpty_iff.mp hempty, append_nil]
      rfl
    · rfl
  refine ledgered_of_committed wired hwritten (fun node hnode => ?_) fun id hid => ?_
  · refine mem_toFinset.mpr (mem_map_of_mem ?_)
    rw [hwritten]
    exact mem_append_right _ hnode
  · rw [← hwritten]
    exact mem_toFinset.mp hid

theorem commitProgress_ledgered (ledgered : Ledgered turn) (required : Bool) :
    Ledgered (turn.commitProgress required) := by
  have hwired := ledgered.wired
  have hknown : ∀ id ∈ turn.editor.committedNodeIds,
      id ∈ turn.editor.data.nodes.map (·.nodeId) := fun id hid =>
    (hwired.existing id).mp (ledgered.known hid)
  cases required with
  | false =>
    have hnodes := ledgered.persisted_append
    cases hempty : (turn.editor.appendedNodes.filter
        fun node => decide (node.nodeId ∉ turn.editor.committedNodeIds)).isEmpty with
    | true =>
      have hcommit : turn.editor.graphCommit false = .unchanged turn.editor.leafNodeId := by
        rw [graphCommit, if_neg (by simp)]
        exact if_pos hempty
      have hnil := isEmpty_iff.mp hempty
      rw [hnil, append_nil] at hnodes
      rw [EditedTurn.commitProgress, hcommit]
      refine ledgered_of_committed hwired hnodes (fun node hnode => ?_) hknown
      simpa using filter_eq_nil_iff.mp hnil node hnode
    | false =>
      have hcommit : turn.editor.graphCommit false = .append (turn.editor.appendedNodes.filter
          fun node => decide (node.nodeId ∉ turn.editor.committedNodeIds))
          turn.editor.leafNodeId := by
        rw [graphCommit, if_neg (by simp)]
        exact if_neg (hempty ▸ Bool.false_ne_true)
      rw [EditedTurn.commitProgress, hcommit]
      refine ledgered_of_committed hwired hnodes (fun node hnode => ?_) fun id hid => ?_
      · by_cases hid : node.nodeId ∈ turn.editor.committedNodeIds
        · exact Finset.mem_union_left _ hid
        · refine Finset.mem_union_right _ (mem_toFinset.mpr (mem_map_of_mem ?_))
          exact mem_filter.mpr ⟨hnode, decide_eq_true hid⟩
      · rcases Finset.mem_union.mp hid with hold | hnew
        · exact hknown id hold
        · obtain ⟨node, hnode, rfl⟩ := mem_map.mp (mem_toFinset.mp hnew)
          exact mem_map_of_mem (mem_append_right _ (mem_filter.mp hnode).1)
  | true => exact replaced_whole_ledgered hwired

theorem leafStands_extended {nodes : List (SessionNodeRecord Json)}
    {messages : List (Message Json)} (stands : LeafStands editor) :
    LeafStands (editor.extended nodes messages) := by
  cases nodes with
  | nil =>
    rcases stands with happended | hleaf
    · refine .inl ?_
      exact fun hnil => happended (append_eq_nil_iff.mp hnil).1
    · exact .inr hleaf
  | cons node nodes => exact .inl (by simp [extended])

theorem editStep_spec (ledgered : Ledgered turn) (op : EditorOp Json) :
    Ledgered (editStep op turn).2 ∧ (LeafStands turn.editor →
        (LeafStands (editStep op turn).2.editor ↔ KeepsLeaf op turn)) := by
  rw [editStep]
  cases happly : op.apply turn with
  | none =>
    refine ⟨ledgered, fun stands => iff_of_true stands ?_⟩
    cases op with
    | replaceActiveReadState messages timestamp =>
      intro replacement hbuilt
      rw [EditorOp.apply, replaceActiveReadState, hbuilt] at happly
      cases happly
    | _ => trivial
  | some after =>
    cases op with
    | appendEvents events timestamp draws =>
      obtain ⟨edited, hedited, rfl⟩ := Option.map_eq_some_iff.mp happly
      obtain ⟨nodes, hnodes, rfl⟩ := appendEvents_spec ledgered.wired hedited
      exact ⟨extended_ledgered ledgered (builder_freshChain ledgered.wired hnodes) _,
        fun stands => iff_of_true (leafStands_extended stands) trivial⟩
    | appendActiveConversationMessages messages timestamp draws =>
      obtain ⟨edited, hedited, rfl⟩ := Option.map_eq_some_iff.mp happly
      obtain ⟨nodes, hnodes, rfl⟩ := appendActiveConversationMessages_spec ledgered.wired hedited
      exact ⟨extended_ledgered ledgered (builder_freshChain ledgered.wired hnodes) _,
        fun stands => iff_of_true (leafStands_extended stands) trivial⟩
    | replaceActiveReadState messages timestamp =>
      obtain ⟨edited, hedited, rfl⟩ := Option.map_eq_some_iff.mp happly
      obtain ⟨replacement, hbuilt, rfl⟩ := replaceActiveReadState_spec ledgered.wired hedited
      refine ⟨replaced_ledgered ledgered hbuilt, fun _ => ?_⟩
      have hstands : LeafStands (turn.editor.replaced replacement) ↔
          turn.editor.appendedNodes ≠ [] ∨ replacement.newTailNodes ≠ [] ∨
            replacement.leafNodeId = turn.editor.baseGraph.leafNodeId := by
        rw [← or_assoc, ← not_and_or, ← append_eq_nil_iff]
        rfl
      rw [hstands]
      constructor
      · intro holds other hother
        obtain rfl := Option.some.inj (hbuilt.symm.trans hother)
        exact holds
      · intro keeps
        exact keeps replacement hbuilt
    | commitProgress required =>
      obtain rfl := Option.some.inj happly
      refine ⟨commitProgress_ledgered ledgered required, fun stands => ?_⟩
      refine iff_of_true ?_ trivial
      dsimp only
      rw [commitProgress_editor]
      exact stands

variable {history : List (Entry (EditorOp Json) (EditedTurn Json) Bool)}

/-- Along a run of the editor a commit, the materialized graph and the final graph are
the same graph exactly if no replacement moves the leaf of the base graph without
appending a node, before any node has been appended. -/
theorem commits_whole_iff {baseGraph : SessionGraph Json} {agentFrameId : String}
    {initial : Bool} (drafted : TurnGraphEditor.fromState baseGraph agentFrameId initial =
      some editor) (run : Run editStep (.start editor) history turn) :
    CommitsWhole (.start editor) ∧
      ((∀ e ∈ history, CommitsWhole e.after) ↔ ∀ e ∈ history, KeepsLeaf e.input e.before) := by
  obtain ⟨readModel, read, _, _, rfl⟩ := fromState_eq drafted
  have hstart : Ledgered (.start (TurnGraphEditor.new read readModel agentFrameId)) :=
    start_ledgered (new_wired read readModel agentFrameId) rfl rfl
  refine ⟨(commitsWhole_iff hstart).mpr (.inr rfl), ?_⟩
  suffices h : Ledgered turn ∧ ((∀ e ∈ history, CommitsWhole e.after) → LeafStands turn.editor) ∧
      ((∀ e ∈ history, CommitsWhole e.after) ↔ ∀ e ∈ history, KeepsLeaf e.input e.before) from h.2.2
  induction run with
  | nil => exact ⟨hstart, fun _ => .inr rfl, by simp⟩
  | @cons history before earlier op ih =>
    obtain ⟨hledgered, hstands, hiff⟩ := ih
    obtain ⟨hafter, hstep⟩ := editStep_spec hledgered op
    have hlast : CommitsWhole (entryAt editStep op before).after ↔
        LeafStands (editStep op before).2.editor := commitsWhole_iff hafter
    refine ⟨hafter, fun hall => hlast.mp (hall _ mem_cons_self), ?_⟩
    rw [forall_mem_cons, forall_mem_cons, hlast, ← hiff]
    constructor
    · rintro ⟨hleaf, hall⟩
      exact ⟨(hstep (hstands hall)).mp hleaf, hall⟩
    · rintro ⟨hkeeps, hall⟩
      exact ⟨(hstep (hstands hall)).mpr hkeeps, hall⟩

/-- Two messages, one under the other. -/
def twoMessages : SessionGraph Unit :=
  (perform graphStep
    [.appendNodeDrafts none [.message (userMessage "m1"), .message (userMessage "m2")] "t" []]
    ([], SessionGraph.default)).2

theorem twoMessages_draft : (fromState twoMessages "frame" true).isSome := by decide

/-- The editor of a turn after the two messages. -/
def frameEditor : TurnGraphEditor Unit :=
  (TurnGraphEditor.fromState twoMessages "frame" true).get twoMessages_draft

def revisedOps : List (EditorOp Unit) :=
  [.appendEvents [.conversation (.fromMessage (userMessage "m3"))] "t" [], .commitProgress false,
    .replaceActiveReadState [userMessage "m1", userMessage "m4"] "t", .commitProgress true,
    .replaceActiveReadState [userMessage "m1"] "t"]

theorem commits_whole_revised :
    let history := (perform editStep revisedOps ([], .start frameEditor)).1
    ∀ e ∈ history, CommitsWhole e.after := by
  intro history
  have drafted : fromState twoMessages "frame" true = some frameEditor :=
    (Option.some_get twoMessages_draft).symm
  refine (commits_whole_iff drafted (Run.nil.perform revisedOps)).2.mpr ?_
  decide

/-- The turn drops the second message, for which no node is needed. -/
theorem truncation_is_lost :
    let turn := (perform editStep [.replaceActiveReadState [userMessage "m1"] "t"]
      ([], .start frameEditor)).2
    TurnGraphEditor.fromState twoMessages "frame" true = some frameEditor ∧
      turn.editor.readModel.messages = [userMessage "m1"] ∧
      (applyDelta (turn.editor.graphCommit false) turn.persisted).leafNodeId = some "m1" ∧
      turn.editor.intoSessionGraph.leafNodeId = some "m2" ∧ ¬ CommitsWhole turn := by
  intro turn
  have hcommit : (applyDelta (turn.editor.graphCommit false) turn.persisted).leafNodeId =
      some "m1" := by decide
  have hinto : turn.editor.intoSessionGraph.leafNodeId = some "m2" := by decide
  refine ⟨(Option.some_get twoMessages_draft).symm, by decide, hcommit, hinto, ?_⟩
  intro whole
  have hsame := congrArg SessionGraphData.leafNodeId (whole.commit false)
  rw [hcommit] at hsame
  have hwrong : some "m1" = some "m2" := hsame.trans hinto
  simp at hwrong

end Commits

end EditorCommits
