import Lash.GraphForests

/-!
# The graph editor of a turn

A turn does not write to the session graph. The editor keeps the nodes that the turn
has appended beside the base graph, a builder that knows all node ids and the current
leaf, and the events and messages that the running turn sees. What is committed, what
is written to the store and what the turn sees are three different functions of it.
-/

namespace TurnGraphEditors

open ParentWalks SessionGraphs RuntimeCommits ActivePaths CacheCoherence GraphLedgers
open ActiveReadReplacement
open List Option

variable {Json : Type}

section Builders

variable (builder : SessionGraphAppendBuilder)

/-- The builder after it has made these nodes. -/
def advance (nodes : List (SessionNodeRecord Json)) : SessionGraphAppendBuilder :=
  nodes.foldl
    (fun builder node => { builder with
      existingIds := insert node.nodeId builder.existingIds
      leafNodeId := some node.nodeId })
    builder

def appendMessagesAt (messages : List (Message Json)) (timestamp : String) (draws : List String) :
    Option (List (SessionNodeRecord Json)) :=
  builder.appendDraftsAt timestamp (messages.map .message) draws

def appendEventsAt (events : List (SessionEventRecord Json)) (timestamp : String)
    (draws : List String) : Option (List (SessionNodeRecord Json)) :=
  builder.appendDraftsAt timestamp (events.map .event) draws

end Builders

structure TurnGraphEditor (Json : Type) where
  baseGraph : SessionGraph Json
  activeEvents : List (SessionEventRecord Json)
  activeMessages : List (Message Json)
  appendBuilder : SessionGraphAppendBuilder
  appendedNodes : List (SessionNodeRecord Json)
  appendedNodeIndices : String → Option Nat
  committedNodeIds : Finset String

namespace TurnGraphEditor

variable (baseGraph : SessionGraph Json)

def new (baseReadModel : SessionReadModel Json) (agentFrameId : String) : TurnGraphEditor Json where
  baseGraph := baseGraph
  activeEvents := baseReadModel.activeEvents
  activeMessages := baseReadModel.messages
  appendBuilder := baseGraph.appendBuilder.withAgentFrameId (some agentFrameId)
  appendedNodes := []
  appendedNodeIndices := fun _ => none
  committedNodeIds := baseGraph.nodeIds

/-- The draft of a turn reads the graph for its agent frame and then edits it. -/
def fromState (agentFrameId : String) (initial : Bool) : Option (TurnGraphEditor Json) :=
  (baseGraph.readModelForAgentFrame agentFrameId initial).map fun (readModel, baseGraph) =>
    new baseGraph readModel agentFrameId

variable (editor : TurnGraphEditor Json)

def readModel : SessionReadModel Json where
  activeEvents := editor.activeEvents
  messages := editor.activeMessages

def leafNodeId : Option String := editor.appendBuilder.leafNodeId

/-- Keep the events whose message has not been seen, in order. -/
def unseenEvents : Finset String → List (SessionEventRecord Json) →
    List (SessionEventRecord Json)
  | _, [] => []
  | seen, .protocol event :: events => .protocol event :: unseenEvents seen events
  | seen, .conversation record :: events =>
    if !record.toMessage.isTransient && decide (record.id ∉ seen) then
      .conversation record :: unseenEvents (insert record.id seen) events
    else unseenEvents seen events

def appendAppendedNodes (nodes : List (SessionNodeRecord Json)) : TurnGraphEditor Json :=
  nodes.foldl
    (fun editor node => { editor with
      appendedNodeIndices := Function.update editor.appendedNodeIndices node.nodeId
        (some editor.appendedNodes.length)
      appendedNodes := editor.appendedNodes ++ [node] })
    editor

def appendEvents (events : List (SessionEventRecord Json)) (timestamp : String)
    (draws : List String) : Option (TurnGraphEditor Json) :=
  let activeMessageIds := (editor.activeMessages.map (·.id)).toFinset
  let events := unseenEvents activeMessageIds events
  if events.isEmpty then some editor
  else
    (appendEventsAt editor.appendBuilder events timestamp draws).map fun nodes =>
      appendAppendedNodes
        { editor with
          appendBuilder := advance editor.appendBuilder nodes
          activeEvents := editor.activeEvents ++ nodes.filterMap SessionNodeRecord.event
          activeMessages := editor.activeMessages ++ nodes.filterMap SessionNodeRecord.message }
        nodes

/-- The messages that come into view are the given ones, not those of the new nodes. -/
def appendActiveConversationMessages (messages : List (Message Json)) (timestamp : String)
    (draws : List String) : Option (TurnGraphEditor Json) :=
  let appendable := messages.filter fun message => !message.isTransient
  if appendable.isEmpty then some editor
  else
    (appendMessagesAt editor.appendBuilder appendable timestamp draws).map fun nodes =>
      appendAppendedNodes
        { editor with
          appendBuilder := advance editor.appendBuilder nodes
          activeEvents := editor.activeEvents ++ nodes.filterMap SessionNodeRecord.event
          activeMessages := editor.activeMessages ++ appendable }
        nodes

/-- A node of this id: an appended one, or one that the index of the base graph finds. -/
def findNode (cache : SessionGraphCache Json) (nodeId : String) :
    Option (SessionNodeRecord Json) :=
  ((editor.appendedNodeIndices nodeId).bind (editor.appendedNodes[·]?)) <|>
    (cache.byId nodeId).bind (editor.baseGraph.nodes[·]?)

/-- The path to the leaf, unless the walk does not end. -/
def activePathNodes : Option (List (SessionNodeRecord Json)) :=
  editor.baseGraph.initCache.bind fun (cache, _) =>
    (walk (fun node : SessionNodeRecord Json => node.parentNodeId.bind (editor.findNode cache))
      (editor.baseGraph.nodes.length + editor.appendedNodes.length)
      (editor.leafNodeId.bind (editor.findNode cache))).map List.reverse

def buildReplacement (messages : List (Message Json)) (timestamp : String) :
    Option (ActiveReadReplacement Json) := do
  let activePath ← editor.activePathNodes
  buildActiveReadReplacement activePath editor.appendBuilder.existingIds
    editor.appendBuilder.agentFrameId messages timestamp

def replaceActiveReadState (messages : List (Message Json)) (timestamp : String) :
    Option (TurnGraphEditor Json) :=
  (editor.buildReplacement messages timestamp).map fun replacement =>
    appendAppendedNodes
      { editor with
        appendBuilder := { editor.appendBuilder with
          existingIds := editor.appendBuilder.existingIds ∪
            (replacement.newTailNodes.map (·.nodeId)).toFinset
          leafNodeId := replacement.leafNodeId }
        activeEvents := replacement.activeEvents
        activeMessages := replacement.activeMessages }
      replacement.newTailNodes

def materializedGraph : SessionGraph Json :=
  if editor.appendedNodes.isEmpty then editor.baseGraph
  else SessionGraph.fromNodes (editor.baseGraph.nodes ++ editor.appendedNodes) editor.leafNodeId

def graphCommit (graphReplaceRequired : Bool) : GraphCommitDelta Json :=
  if graphReplaceRequired then .replaceFull editor.materializedGraph
  else
    let nodes := editor.appendedNodes.filter fun node =>
      decide (node.nodeId ∉ editor.committedNodeIds)
    if nodes.isEmpty then .unchanged editor.leafNodeId
    else .append nodes editor.leafNodeId

variable (nodeIds : List String)

def markNodeIdsPersisted : TurnGraphEditor Json :=
  { editor with committedNodeIds := editor.committedNodeIds ∪ nodeIds.toFinset }

def replacePersistedNodeIds : TurnGraphEditor Json :=
  { editor with committedNodeIds := nodeIds.toFinset }

def intoSessionGraph : SessionGraph Json :=
  if editor.appendedNodes.isEmpty then editor.baseGraph
  else
    (editor.baseGraph.extendNodeRecords editor.appendedNodes).setLeafNodeId editor.leafNodeId

end TurnGraphEditor

section Turns

/-- A turn in progress: its editor, and the graph that the store holds by now. -/
structure EditedTurn (Json : Type) where
  editor : TurnGraphEditor Json
  persisted : SessionGraphData Json

/-- What a store makes of a delta. -/
def applyDelta (delta : GraphCommitDelta Json) (graph : SessionGraphData Json) :
    SessionGraphData Json where
  nodes := accumulate graph.nodes delta
  leafNodeId := delta.leafNodeId

inductive EditorOp (Json : Type) where
  | appendEvents (events : List (SessionEventRecord Json)) (timestamp : String)
      (draws : List String)
  | appendActiveConversationMessages (messages : List (Message Json)) (timestamp : String)
      (draws : List String)
  | replaceActiveReadState (messages : List (Message Json)) (timestamp : String)
  | commitProgress (graphReplaceRequired : Bool)

/-- A commit of the progress so far marks what it has written. -/
def EditedTurn.commitProgress (turn : EditedTurn Json) (graphReplaceRequired : Bool) :
    EditedTurn Json :=
  let delta := turn.editor.graphCommit graphReplaceRequired
  { persisted := applyDelta delta turn.persisted
    editor :=
      match delta with
      | .unchanged _ => turn.editor
      | .append nodes _ => turn.editor.markNodeIdsPersisted (nodes.map (·.nodeId))
      | .replaceFull graph =>
        turn.editor.replacePersistedNodeIds (graph.nodes.map (·.nodeId)) }

def EditorOp.apply (op : EditorOp Json) (turn : EditedTurn Json) : Option (EditedTurn Json) :=
  match op with
  | .appendEvents events timestamp draws =>
    (turn.editor.appendEvents events timestamp draws).map ({ turn with editor := · })
  | .appendActiveConversationMessages messages timestamp draws =>
    (turn.editor.appendActiveConversationMessages messages timestamp draws).map
      ({ turn with editor := · })
  | .replaceActiveReadState messages timestamp =>
    (turn.editor.replaceActiveReadState messages timestamp).map ({ turn with editor := · })
  | .commitProgress graphReplaceRequired => some (turn.commitProgress graphReplaceRequired)

/-- An operation that does not come back leaves the turn where it was. -/
def editStep (op : EditorOp Json) (turn : EditedTurn Json) : Bool × EditedTurn Json :=
  match op.apply turn with
  | some after => (true, after)
  | none => (false, turn)

/-- The turn before its first operation: the store holds the base graph. -/
def EditedTurn.start (editor : TurnGraphEditor Json) : EditedTurn Json where
  editor := editor
  persisted := editor.baseGraph.inner

end Turns

open TurnGraphEditor

section Wiring

variable {editor after : TurnGraphEditor Json} {nodes : List (SessionNodeRecord Json)}

/-- The nodes of the base graph and the appended ones, under the leaf of the builder. -/
def TurnGraphEditor.data (editor : TurnGraphEditor Json) : SessionGraphData Json where
  nodes := editor.baseGraph.nodes ++ editor.appendedNodes
  leafNodeId := editor.leafNodeId

/-- The index finds the appended nodes, and the builder knows every id. -/
structure Wired (editor : TurnGraphEditor Json) : Prop where
  indices : editor.appendedNodeIndices = indexNodes editor.appendedNodes
  existing : ∀ id, id ∈ editor.appendBuilder.existingIds ↔
    id ∈ editor.data.nodes.map (·.nodeId)

/-- The editor after it has appended these nodes and shows these messages. -/
def TurnGraphEditor.extended (editor : TurnGraphEditor Json)
    (nodes : List (SessionNodeRecord Json)) (messages : List (Message Json)) :
    TurnGraphEditor Json :=
  { editor with
    activeEvents := editor.activeEvents ++ nodes.filterMap SessionNodeRecord.event
    activeMessages := editor.activeMessages ++ messages
    appendBuilder := advance editor.appendBuilder nodes
    appendedNodes := editor.appendedNodes ++ nodes
    appendedNodeIndices := indexNodes (editor.appendedNodes ++ nodes) }

/-- The editor after a replacement. -/
def TurnGraphEditor.replaced (editor : TurnGraphEditor Json)
    (replacement : ActiveReadReplacement Json) : TurnGraphEditor Json :=
  { editor with
    activeEvents := replacement.activeEvents
    activeMessages := replacement.activeMessages
    appendBuilder := { editor.appendBuilder with
      existingIds := editor.appendBuilder.existingIds ∪
        (replacement.newTailNodes.map (·.nodeId)).toFinset
      leafNodeId := replacement.leafNodeId }
    appendedNodes := editor.appendedNodes ++ replacement.newTailNodes
    appendedNodeIndices := indexNodes (editor.appendedNodes ++ replacement.newTailNodes) }

theorem appendAppendedNodes_eq
    (indices : editor.appendedNodeIndices = indexNodes editor.appendedNodes)
    (nodes : List (SessionNodeRecord Json)) :
    editor.appendAppendedNodes nodes = { editor with
        appendedNodes := editor.appendedNodes ++ nodes
        appendedNodeIndices := indexNodes (editor.appendedNodes ++ nodes) } := by
  induction nodes generalizing editor with
  | nil =>
    rw [append_nil, ← indices]
    rfl
  | cons node nodes ih =>
    have hindices : Function.update editor.appendedNodeIndices node.nodeId
        (some editor.appendedNodes.length) = indexNodes (editor.appendedNodes ++ [node]) := by
      rw [indices, indexNodes_append]
    refine (ih hindices).trans ?_
    simp only [append_assoc, singleton_append]

variable {draws : List String} {timestamp : String}

theorem appendEvents_spec (wired : Wired editor) {events : List (SessionEventRecord Json)}
    (h : editor.appendEvents events timestamp draws = some after) :
    ∃ nodes, appendEventsAt editor.appendBuilder
        (unseenEvents (editor.activeMessages.map (·.id)).toFinset events)
        timestamp draws = some nodes ∧
      after = editor.extended nodes (nodes.filterMap SessionNodeRecord.message) := by
  rw [appendEvents] at h
  split at h
  · rename_i hempty
    obtain rfl := some.inj h
    refine ⟨[], by rw [isEmpty_iff.mp hempty]; rfl, ?_⟩
    simp only [extended, filterMap_nil, append_nil, ← wired.indices]
    rfl
  · obtain ⟨nodes, hnodes, rfl⟩ := map_eq_some_iff.mp h
    exact ⟨nodes, hnodes, (appendAppendedNodes_eq (by exact wired.indices) nodes).trans rfl⟩

variable {messages : List (Message Json)}

theorem appendActiveConversationMessages_spec (wired : Wired editor)
    (h : editor.appendActiveConversationMessages messages timestamp draws = some after) :
    ∃ nodes, appendMessagesAt editor.appendBuilder
        (messages.filter fun message => !message.isTransient) timestamp draws = some nodes ∧
      after = editor.extended nodes (messages.filter fun message => !message.isTransient) := by
  rw [appendActiveConversationMessages] at h
  split at h
  · rename_i hempty
    obtain rfl := some.inj h
    rw [isEmpty_iff.mp hempty]
    refine ⟨[], rfl, ?_⟩
    simp only [extended, filterMap_nil, append_nil, ← wired.indices]
    rfl
  · obtain ⟨nodes, hnodes, rfl⟩ := map_eq_some_iff.mp h
    exact ⟨nodes, hnodes, (appendAppendedNodes_eq (by exact wired.indices) nodes).trans rfl⟩

theorem replaceActiveReadState_spec (wired : Wired editor)
    (h : editor.replaceActiveReadState messages timestamp = some after) :
    ∃ replacement, editor.buildReplacement messages timestamp = some replacement ∧
      after = editor.replaced replacement := by
  obtain ⟨replacement, hbuilt, rfl⟩ := map_eq_some_iff.mp h
  exact ⟨replacement, hbuilt, (appendAppendedNodes_eq (by exact wired.indices) _).trans rfl⟩

theorem advance_existingIds (builder : SessionGraphAppendBuilder)
    (nodes : List (SessionNodeRecord Json)) (id : String) :
    id ∈ (advance builder nodes).existingIds ↔
      id ∈ builder.existingIds ∨ id ∈ nodes.map (·.nodeId) := by
  induction nodes generalizing builder with
  | nil => simp [advance]
  | cons node nodes ih =>
    refine (ih _).trans ?_
    rw [Finset.mem_insert, map_cons, mem_cons]
    tauto

theorem advance_leafNodeId (builder : SessionGraphAppendBuilder)
    (nodes : List (SessionNodeRecord Json)) {data : SessionGraphData Json}
    (leaf : builder.leafNodeId = data.leafNodeId) :
    (advance builder nodes).leafNodeId = (nodes.foldl withNode data).leafNodeId := by
  induction nodes generalizing builder data with
  | nil => exact leaf
  | cons node nodes ih => exact @ih _ (withNode data node) rfl

theorem advance_agentFrameId (builder : SessionGraphAppendBuilder)
    (nodes : List (SessionNodeRecord Json)) :
    (advance builder nodes).agentFrameId = builder.agentFrameId := by
  induction nodes generalizing builder with
  | nil => rfl
  | cons node nodes ih => exact ih _

theorem extended_data (editor : TurnGraphEditor Json) (nodes : List (SessionNodeRecord Json))
    (messages : List (Message Json)) :
    (editor.extended nodes messages).data = nodes.foldl withNode editor.data := by
  have hnodes := @GraphForests.foldl_withNode_nodes _ editor.data nodes
  have hleaf : (editor.extended nodes messages).leafNodeId =
      (nodes.foldl withNode editor.data).leafNodeId := advance_leafNodeId _ nodes rfl
  have hall : (editor.extended nodes messages).data.nodes =
      (nodes.foldl withNode editor.data).nodes := by
    rw [hnodes]
    exact (append_assoc ..).symm
  exact congrArg₂ SessionGraphData.mk hall hleaf

theorem extended_wired (wired : Wired editor) (nodes : List (SessionNodeRecord Json))
    (messages : List (Message Json)) : Wired (editor.extended nodes messages) where
  indices := rfl
  existing id := by
    rw [extended_data, GraphForests.foldl_withNode_nodes, map_append, mem_append,
      ← wired.existing id]
    exact advance_existingIds editor.appendBuilder nodes id

theorem replaced_wired (wired : Wired editor) (replacement : ActiveReadReplacement Json) :
    Wired (editor.replaced replacement) where
  indices := rfl
  existing id := by
    have hnodes : (editor.replaced replacement).data.nodes =
        editor.data.nodes ++ replacement.newTailNodes := (append_assoc ..).symm
    rw [hnodes, map_append, mem_append, ← wired.existing id]
    exact Finset.mem_union.trans (or_congr_right mem_toFinset)

theorem fromState_eq {baseGraph : SessionGraph Json} {agentFrameId : String} {initial : Bool}
    (h : fromState baseGraph agentFrameId initial = some editor) :
    ∃ readModel read, baseGraph.readModelForAgentFrame agentFrameId initial =
        some (readModel, read) ∧ Warmed baseGraph read ∧
      editor = TurnGraphEditor.new read readModel agentFrameId := by
  obtain ⟨⟨readModel, read⟩, hread, rfl⟩ := map_eq_some_iff.mp h
  exact ⟨readModel, read, hread, readModelForAgentFrame_warmed hread, rfl⟩

theorem new_wired (baseGraph : SessionGraph Json) (readModel : SessionReadModel Json)
    (agentFrameId : String) : Wired (TurnGraphEditor.new baseGraph readModel agentFrameId) where
  indices := rfl
  existing id := by
    rw [TurnGraphEditor.data, TurnGraphEditor.new, append_nil]
    exact mem_toFinset

theorem commitProgress_editor (turn : EditedTurn Json) (required : Bool) :
    (turn.commitProgress required).editor = { turn.editor with
        committedNodeIds := (turn.commitProgress required).editor.committedNodeIds } := by
  rw [EditedTurn.commitProgress]
  dsimp only
  split
  · rfl
  · rfl
  · rfl

theorem builder_freshChain (wired : Wired editor) {drafts : List (SessionNodeDraft Json)}
    (h : editor.appendBuilder.appendDraftsAt timestamp drafts draws = some nodes) :
    FreshChain editor.data nodes := by
  have hleaf : editor.appendBuilder.leafNodeId = editor.data.leafNodeId := rfl
  exact appendDraftsAt_freshChain hleaf (fun id => (wired.existing id).mpr) h

end Wiring

section Replacements

variable {replacement final : ActiveReadReplacement Json}
  {node : SessionNodeRecord Json} {nodes : List (SessionNodeRecord Json)}

theorem pushActiveReadNode_with (replacement : ActiveReadReplacement Json)
    (node : SessionNodeRecord Json) (newTailNodes : List (SessionNodeRecord Json)) :
    ({ replacement with newTailNodes := newTailNodes } :
        ActiveReadReplacement Json).pushActiveReadNode node =
      { replacement.pushActiveReadNode node with newTailNodes := newTailNodes } := by
  unfold pushActiveReadNode
  dsimp only
  split
  · split
    · rfl
    · rfl
  · rfl

theorem pushActiveReadNode_newTailNodes (replacement : ActiveReadReplacement Json)
    (node : SessionNodeRecord Json) :
    (replacement.pushActiveReadNode node).newTailNodes = replacement.newTailNodes :=
  (congrArg newTailNodes
    (pushActiveReadNode_with replacement node replacement.newTailNodes) : _)

theorem pushActiveReadNode_leafNodeId (replacement : ActiveReadReplacement Json)
    (node : SessionNodeRecord Json) :
    (replacement.pushActiveReadNode node).leafNodeId = some node.nodeId := by
  unfold pushActiveReadNode
  dsimp only
  split
  · split
    · rfl
    · rfl
  · rfl

theorem foldl_push_with (replacement : ActiveReadReplacement Json)
    (nodes newTailNodes : List (SessionNodeRecord Json)) :
    nodes.foldl pushActiveReadNode
        { replacement with newTailNodes := newTailNodes } =
      { nodes.foldl pushActiveReadNode replacement with
        newTailNodes := newTailNodes } := by
  induction nodes generalizing replacement with
  | nil => rfl
  | cons node nodes ih =>
    rw [foldl_cons, foldl_cons, pushActiveReadNode_with, ih]

variable {messages : List (Message Json)} {agentFrameId : Option String}
  {existingNodeIds : Finset String} {timestamp : String}

/-- The tail is a chain of new nodes, one for each message; it is read like the kept nodes. -/
theorem appendTarget_spec {newNodeIds : Finset String} {data : SessionGraphData Json}
    (leaf : replacement.leafNodeId = data.leafNodeId)
    (ids : ∀ id ∈ data.nodes.map (·.nodeId), id ∈ existingNodeIds ∪ newNodeIds)
    (h : appendTarget agentFrameId timestamp existingNodeIds replacement
      newNodeIds messages = some final) :
    ∃ tail, FreshChain data tail ∧ final = { tail.foldl pushActiveReadNode replacement with
        newTailNodes := replacement.newTailNodes ++ tail } ∧
      ∀ node ∈ tail, node.agentFrameId = agentFrameId := by
  induction messages generalizing replacement newNodeIds data with
  | nil =>
    obtain rfl := some.inj h
    refine ⟨[], trivial, ?_, by simp⟩
    rw [append_nil]
    rfl
  | cons message messages ih =>
    rw [appendTarget] at h
    obtain ⟨nodeId, hnodeId, h⟩ := bind_eq_some_iff.mp h
    dsimp only at h
    generalize hnode : SessionNodeRecord.mk nodeId replacement.leafNodeId
      (causalRefFromMessageOrigin message.origin) agentFrameId timestamp
      (.event (.conversation (.fromMessage message))) = node at h
    have hid : node.nodeId = nodeId := by rw [← hnode]
    have hnew : node.nodeId ∉ data.nodes.map (·.nodeId) := by
      intro hmem
      rw [hid] at hmem
      exact uniqueMessageNodeId_fresh hnodeId (ids _ hmem)
    have hids : ∀ id ∈ (withNode data node).nodes.map (·.nodeId),
        id ∈ existingNodeIds ∪ insert nodeId newNodeIds := by
      intro id hmem
      rw [Finset.union_insert]
      rw [withNode, map_append, mem_append] at hmem
      rcases hmem with hold | hlast
      · exact Finset.mem_insert_of_mem (ids id hold)
      · obtain rfl : id = nodeId := by simpa [hid] using hlast
        exact Finset.mem_insert_self _ _
    have hleaf : (replacement.pushActiveReadNode node).leafNodeId =
        (withNode data node).leafNodeId := pushActiveReadNode_leafNodeId replacement node
    obtain ⟨tail, hchain, rfl, hframe⟩ := ih (by exact hleaf) hids h
    refine ⟨node :: tail, ⟨?_, hnew, hchain⟩, ?_, forall_mem_cons.mpr ⟨?_, hframe⟩⟩
    · rw [← hnode]
      exact leaf
    · simp only [foldl_push_with, pushActiveReadNode_newTailNodes, append_assoc,
        singleton_append, foldl_cons]
    · rw [← hnode]

theorem keepMatching_newTailNodes (replacement : ActiveReadReplacement Json)
    (seen : Finset String) (nodes : List (SessionNodeRecord Json))
    (target : List (Message Json)) :
    (replacement.keepMatching seen nodes target).1.newTailNodes = replacement.newTailNodes := by
  induction nodes generalizing replacement seen target with
  | nil => rfl
  | cons node nodes ih =>
    rw [keepMatching]
    split
    · exact ih ..
    · split
      · split
        · exact ih ..
        · split
          · rfl
          · split
            · rfl
            · exact (ih ..).trans (pushActiveReadNode_newTailNodes replacement node)
      · exact (ih ..).trans (pushActiveReadNode_newTailNodes replacement node)

/-- What the scan of the active path keeps, before the tail is added. -/
def keptBy (activePath : List (SessionNodeRecord Json)) (messages : List (Message Json)) :
    ActiveReadReplacement Json :=
  (ActiveReadReplacement.keepMatching
    { leafNodeId := none
      newTailNodes := []
      activeEvents := []
      activeMessages := []
      activeMessageIds := ∅ }
    ∅ activePath (messages.filter fun message => !message.isTransient)).1

theorem buildActiveReadReplacement_spec {activePath : List (SessionNodeRecord Json)}
    (h : buildActiveReadReplacement activePath existingNodeIds agentFrameId messages
      timestamp = some replacement) (ids : ∀ id ∈ nodes.map (·.nodeId), id ∈ existingNodeIds) :
    FreshChain ⟨nodes, (keptBy activePath messages).leafNodeId⟩ replacement.newTailNodes ∧
      replacement = { replacement.newTailNodes.foldl pushActiveReadNode
        (keptBy activePath messages) with newTailNodes := replacement.newTailNodes } ∧
      ∀ node ∈ replacement.newTailNodes, node.agentFrameId = agentFrameId := by
  have hleaf : (keptBy activePath messages).leafNodeId =
      (SessionGraphData.mk nodes (keptBy activePath messages).leafNodeId).leafNodeId := rfl
  obtain ⟨tail, hchain, hfinal, hframe⟩ :=
    appendTarget_spec hleaf (fun id hid => Finset.mem_union_left ∅ (ids id hid)) h
  have hnone : (keptBy activePath messages).newTailNodes = [] := keepMatching_newTailNodes ..
  rw [hnone, nil_append] at hfinal
  have htail : replacement.newTailNodes = tail := by rw [hfinal]
  rw [htail]
  exact ⟨hchain, hfinal, hframe⟩

end Replacements

end TurnGraphEditors
