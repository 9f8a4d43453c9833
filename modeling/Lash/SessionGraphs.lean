import Lash.ParentWalks
import Mathlib.Data.Finset.Card
import Mathlib.Data.Finset.Union

/-!
# The session graph and its caches

Nodes point to their parents, the leaf selects the active path, and the cache
holds what a reader asks for most: an index by node id, the active path, its
events, its messages and the positions of the message ids. A cache that has not
been built is `none`. Building one follows parents until a lookup fails; on a
cycle the loop does not end, and `SessionGraphCache.build` is `none`. Random
ids are drawn from a list that an operation is given. Message parts, plugin
bodies and protocol payloads are values of `Json`, which nothing here inspects.
-/

namespace SessionGraphs

open ParentWalks

inductive CausalRef where
  | turn (sessionId turnId : String)
  | effect (sessionId : String) (turnId : Option String) (effectId : String)
  | toolCall (sessionId callId : String)
  | process (processId : String)
  | processEvent (processId : String) (sequence : Nat)
  | triggerOccurrence (occurrenceId : String)
  | sessionNode (sessionId nodeId : String)
  deriving DecidableEq

inductive MessageOrigin where
  | plugin (pluginId : String) (transient : Bool)
  | process (processId eventType : String) (sequence : Nat)
      (wakeId : Option String) (causedBy : Option CausalRef)
  deriving DecidableEq

inductive MessageRole where
  | user | assistant | system | event
  deriving DecidableEq

structure Message (Json : Type) where
  id : String
  role : MessageRole
  parts : List Json
  origin : Option MessageOrigin
  deriving DecidableEq

structure ConversationRecord (Json : Type) where
  id : String
  role : MessageRole
  parts : List Json
  origin : Option MessageOrigin
  deriving DecidableEq

structure ProtocolEvent (Json : Type) where
  pluginId : String
  payload : Json
  deriving DecidableEq

inductive SessionEventRecord (Json : Type) where
  | conversation (record : ConversationRecord Json)
  | protocol (event : ProtocolEvent Json)
  deriving DecidableEq

inductive SessionNodePayload (Json : Type) where
  | event (event : SessionEventRecord Json)
  | plugin (pluginType : String) (body : Json)
  deriving DecidableEq

structure SessionNodeRecord (Json : Type) where
  nodeId : String
  parentNodeId : Option String
  causedBy : Option CausalRef
  agentFrameId : Option String
  timestamp : String
  payload : SessionNodePayload Json
  deriving DecidableEq

structure SessionGraphData (Json : Type) where
  nodes : List (SessionNodeRecord Json)
  leafNodeId : Option String
  deriving DecidableEq

inductive SessionNodeDraftPayload (Json : Type) where
  | message (message : Message Json)
  | plugin (pluginType : String) (body : Json)
  | protocolEvent (event : ProtocolEvent Json)
  deriving DecidableEq

structure SessionNodeDraft (Json : Type) where
  payload : SessionNodeDraftPayload Json
  causedBy : Option CausalRef
  deriving DecidableEq

variable {Json : Type}

def SessionEventRecord.protocolEvent : SessionEventRecord Json → Option (ProtocolEvent Json)
  | .protocol event => some event
  | .conversation _ => none

def ConversationRecord.fromMessage (message : Message Json) : ConversationRecord Json where
  id := message.id
  role := message.role
  parts := message.parts
  origin := message.origin

def ConversationRecord.toMessage (record : ConversationRecord Json) : Message Json where
  id := record.id
  role := record.role
  parts := record.parts
  origin := record.origin

def Message.isTransient (message : Message Json) : Bool :=
  match message.origin with
  | some (.plugin _ true) => true
  | _ => false

def SessionNodeDraft.message (message : Message Json) : SessionNodeDraft Json where
  payload := .message message
  causedBy := none

def SessionNodeDraft.plugin (pluginType : String) (body : Json) : SessionNodeDraft Json where
  payload := .plugin pluginType body
  causedBy := none

def SessionNodeDraft.protocolEvent (event : ProtocolEvent Json) : SessionNodeDraft Json where
  payload := .protocolEvent event
  causedBy := none

def SessionNodeDraft.event : SessionEventRecord Json → SessionNodeDraft Json
  | .conversation record => .message record.toMessage
  | .protocol event => .protocolEvent event

def SessionNodeRecord.event (node : SessionNodeRecord Json) :
    Option (SessionEventRecord Json) :=
  match node.payload with
  | .event event => some event
  | .plugin _ _ => none

variable (node : SessionNodeRecord Json)

def SessionNodeRecord.message : Option (Message Json) :=
  match node.event with
  | some (.conversation record) => some record.toMessage
  | _ => none

def causalRefFromMessageOrigin : Option MessageOrigin → Option CausalRef
  | some (.process processId _ sequence _ _) => some (.processEvent processId sequence)
  | _ => none

section Caches

structure SessionGraphCache (Json : Type) where
  byId : String → Option Nat
  activePathIndices : List Nat
  activeEvents : List (SessionEventRecord Json)
  activeMessages : List (Message Json)
  activeMessageIds : String → Option Nat

/-- The graph with its lazily built cache. -/
structure SessionGraph (Json : Type) where
  inner : SessionGraphData Json
  cache : Option (SessionGraphCache Json)

def SessionGraph.nodes (graph : SessionGraph Json) : List (SessionNodeRecord Json) :=
  graph.inner.nodes

def SessionGraph.leafNodeId (graph : SessionGraph Json) : Option String :=
  graph.inner.leafNodeId

def SessionGraph.default : SessionGraph Json where
  inner := ⟨[], none⟩
  cache := none

/-- The index by node id; a later node hides an earlier one of the same id. -/
def indexNodes (nodes : List (SessionNodeRecord Json)) : String → Option Nat :=
  nodes.zipIdx.foldl
    (fun byId entry => Function.update byId entry.1.nodeId (some entry.2))
    (fun _ => none)

/-- One step of the walk to the root: look the parent's id up in the index. -/
def parentIndex (byId : String → Option Nat) (nodes : List (SessionNodeRecord Json))
    (idx : Nat) : Option Nat :=
  (nodes[idx]?).bind fun node => node.parentNodeId.bind byId

variable (cache : SessionGraphCache Json)

/-- What a node on the active path adds to the events, the messages and the
message ids. -/
def SessionGraphCache.readNode (node : SessionNodeRecord Json) : SessionGraphCache Json :=
  let cache := { cache with activeEvents := cache.activeEvents ++ node.event.toList }
  match node.message with
  | some message =>
    if !message.isTransient && (cache.activeMessageIds message.id).isNone then
      { cache with
        activeMessageIds := Function.update cache.activeMessageIds message.id
          (some cache.activeMessages.length)
        activeMessages := cache.activeMessages ++ [message] }
    else cache
  | none => cache

def SessionGraphCache.rebuildReadModel (graph : SessionGraphData Json) : SessionGraphCache Json :=
  (cache.activePathIndices.filterMap (graph.nodes[·]?)).foldl
    SessionGraphCache.readNode
    { cache with
      activeEvents := []
      activeMessages := []
      activeMessageIds := fun _ => none }

def SessionGraphCache.build (graph : SessionGraphData Json) :
    Option (SessionGraphCache Json) :=
  let byId := indexNodes graph.nodes
  (walk (parentIndex byId graph.nodes) graph.nodes.length
      (graph.leafNodeId.bind byId)).map fun activePath =>
    SessionGraphCache.rebuildReadModel
      { byId := byId
        activePathIndices := activePath.reverse
        activeEvents := []
        activeMessages := []
        activeMessageIds := fun _ => none } graph

def SessionGraphCache.appendNode (nodeIndex : Nat) (node : SessionNodeRecord Json)
    (previousLeafNodeId : Option String) : SessionGraphCache Json :=
  let cache := { cache with byId := Function.update cache.byId node.nodeId (some nodeIndex) }
  if node.parentNodeId ≠ previousLeafNodeId then cache
  else
    { cache with activePathIndices := cache.activePathIndices ++ [nodeIndex] }.readNode node

end Caches

structure SessionReadModel (Json : Type) where
  activeEvents : List (SessionEventRecord Json)
  messages : List (Message Json)
  deriving DecidableEq

def nodeBelongsToAgentFrame (frameId : String) (includeUnscoped : Bool) : Bool :=
  match node.agentFrameId with
  | some nodeFrameId => nodeFrameId == frameId
  | none => includeUnscoped

def SessionGraphCache.readModelForAgentFrame (cache : SessionGraphCache Json)
    (graph : SessionGraphData Json) (frameId : String) (includeUnscoped : Bool) :
    SessionReadModel Json :=
  let scopedCache := ((cache.activePathIndices.filterMap (graph.nodes[·]?)).filter
      (nodeBelongsToAgentFrame · frameId includeUnscoped)).foldl
    SessionGraphCache.readNode
    { cache with
      activeEvents := []
      activeMessages := []
      activeMessageIds := fun _ => none }
  { activeEvents := scopedCache.activeEvents, messages := scopedCache.activeMessages }

section NodeIds

/-- The first `base:suffix` that is not taken, from `suffix` on. -/
def searchSuffix (existingIds : Finset String) (base : String) : Nat → Nat → Option String
  | 0, _ => none
  | fuel + 1, suffix =>
    let candidate := s!"{base}:{suffix}"
    if candidate ∈ existingIds then searchSuffix existingIds base fuel (suffix + 1)
    else some candidate

def uniqueMessageNodeId (messageId : String) (existingIds : Finset String) :
    Option String :=
  if messageId ∉ existingIds then some messageId
  else
    let base := s!"message:{messageId}"
    if base ∉ existingIds then some base
    else searchSuffix existingIds base (existingIds.card + 1) 2

def uniqueMessageNodeIdForReplacement (messageId : String)
    (existingIds newIds : Finset String) : Option String :=
  uniqueMessageNodeId messageId (existingIds ∪ newIds)

/-- Draws until an unused id comes up; `none` while the draws given are all
taken. -/
def freshSemanticNodeId (kind : String) (existingIds : Finset String) :
    List String → Option (String × List String)
  | [] => none
  | draw :: draws =>
    let candidate := s!"{kind}:{draw}"
    if candidate ∈ existingIds then freshSemanticNodeId kind existingIds draws
    else some (candidate, draws)

def freshNodeId (kind : String) : List String → Option (String × List String)
  | [] => none
  | draw :: draws => some (s!"{kind}{draw}", draws)

end NodeIds

section Appending

structure SessionGraphAppendBuilder where
  existingIds : Finset String
  leafNodeId : Option String
  agentFrameId : Option String

variable (builder : SessionGraphAppendBuilder)

/-- The node id, cause and payload a draft is given. -/
def SessionGraphAppendBuilder.prepareDraft (draft : SessionNodeDraft Json) (draws : List String) :
    Option ((String × Option CausalRef × SessionNodePayload Json) × List String) :=
  match draft.payload with
  | .message message => do
      let (message, draws) ←
        if message.id.isEmpty then
          (freshNodeId "m" draws).map fun (id, draws) => ({ message with id := id }, draws)
        else some (message, draws)
      let nodeId ← uniqueMessageNodeId message.id builder.existingIds
      let causedBy := draft.causedBy <|> causalRefFromMessageOrigin message.origin
      some ((nodeId, causedBy,
        .event (.conversation (.fromMessage message))), draws)
  | .plugin pluginType body => do
      let (nodeId, draws) ← freshSemanticNodeId "plugin" builder.existingIds draws
      some ((nodeId, draft.causedBy, .plugin pluginType body), draws)
  | .protocolEvent event => do
      let (nodeId, draws) ← freshSemanticNodeId "protocol" builder.existingIds draws
      some ((nodeId, draft.causedBy, .event (.protocol event)), draws)

def SessionGraphAppendBuilder.appendDraftsAt (timestamp : String) :
    SessionGraphAppendBuilder → List (SessionNodeDraft Json) → List String →
      Option (List (SessionNodeRecord Json))
  | _, [], _ => some []
  | builder, draft :: drafts, draws => do
      let ((nodeId, causedBy, payload), draws) ← builder.prepareDraft draft draws
      let node : SessionNodeRecord Json :=
        { nodeId := nodeId
          parentNodeId := builder.leafNodeId
          causedBy := causedBy
          agentFrameId := builder.agentFrameId
          timestamp := timestamp
          payload := payload }
      let builder := { builder with
        existingIds := insert nodeId builder.existingIds
        leafNodeId := some nodeId }
      let nodes ← builder.appendDraftsAt timestamp drafts draws
      some (node :: nodes)

def SessionGraph.nodeIds (graph : SessionGraph Json) : Finset String :=
  (graph.nodes.map (·.nodeId)).toFinset

def SessionGraph.appendBuilder (graph : SessionGraph Json) : SessionGraphAppendBuilder where
  existingIds := graph.nodeIds
  leafNodeId := graph.leafNodeId
  agentFrameId := none

def SessionGraphAppendBuilder.withAgentFrameId (agentFrameId : Option String) :
    SessionGraphAppendBuilder :=
  match agentFrameId with
  | some agentFrameId => { builder with agentFrameId := some agentFrameId }
  | none => builder

end Appending

section Graphs

def SessionGraph.fromNodes (nodes : List (SessionNodeRecord Json))
    (leafNodeId : Option String) : SessionGraph Json where
  inner := ⟨nodes, leafNodeId⟩
  cache := none

variable (graph : SessionGraph Json)

def SessionGraph.invalidateCache : SessionGraph Json :=
  { graph with cache := none }

/-- Every access to the data for writing drops the cache first. -/
def SessionGraph.dataMut (write : SessionGraphData Json → SessionGraphData Json) :
    SessionGraph Json :=
  { graph.invalidateCache with inner := write graph.inner }

/-- The cache and the graph that now holds it, unless building does not end. -/
def SessionGraph.initCache : Option (SessionGraphCache Json × SessionGraph Json) :=
  match graph.cache with
  | some cache => some (cache, graph)
  | none =>
    (SessionGraphCache.build graph.inner).map fun cache =>
      (cache, { graph with cache := some cache })

def SessionGraph.activePathNodes : Option (List (SessionNodeRecord Json) × SessionGraph Json) :=
  graph.initCache.map fun (cache, graph) =>
    (cache.activePathIndices.filterMap (graph.nodes[·]?), graph)

def SessionGraph.readModel : Option (SessionReadModel Json × SessionGraph Json) :=
  graph.initCache.map fun (cache, graph) =>
    ({ activeEvents := cache.activeEvents, messages := cache.activeMessages }, graph)

def SessionGraph.readModelForAgentFrame (frameId : String) (includeUnscoped : Bool) :
    Option (SessionReadModel Json × SessionGraph Json) :=
  if frameId.isEmpty then graph.readModel
  else
    graph.initCache.map fun (cache, graph) =>
      (cache.readModelForAgentFrame graph.inner frameId includeUnscoped, graph)

def SessionGraph.findNode (nodeId : String) :
    Option (Option (SessionNodeRecord Json) × SessionGraph Json) :=
  graph.initCache.map fun (cache, graph) =>
    ((cache.byId nodeId).bind (graph.nodes[·]?), graph)

/-- The first message from `current` on towards the root; `none` while it is not found. -/
def nearestMessage (byId : String → Option Nat) (nodes : List (SessionNodeRecord Json)) :
    Nat → Option Nat → Option (Option String)
  | _, none => some none
  | 0, some _ => none
  | fuel + 1, some idx =>
    match nodes[idx]? with
    | some node =>
      if node.message.isSome then some (some node.nodeId)
      else nearestMessage byId nodes fuel (parentIndex byId nodes idx)
    | none => some none

variable (nodeId : Option String)

def SessionGraph.nearestMessageAncestor : Option (Option String) :=
  let byId := indexNodes graph.nodes
  nearestMessage byId graph.nodes graph.nodes.length (nodeId.bind byId)

def SessionGraph.forkCurrentPath : Option (SessionGraph Json × SessionGraph Json) :=
  graph.activePathNodes.map fun (path, graph) =>
    (SessionGraph.fromNodes path graph.leafNodeId, graph)

/-- Appending under the leaf patches an initialized cache node by node. -/
def SessionGraph.appendPrebuiltNode (node : SessionNodeRecord Json) : SessionGraph Json where
  inner := ⟨graph.nodes ++ [node], some node.nodeId⟩
  cache := graph.cache.map fun cache =>
    cache.appendNode graph.nodes.length node graph.leafNodeId

def SessionGraph.appendPrebuiltNodes (nodes : List (SessionNodeRecord Json)) : SessionGraph Json :=
  nodes.foldl SessionGraph.appendPrebuiltNode graph

variable (agentFrameId : Option String)

def SessionGraph.appendNodeDraftsScopedAt (drafts : List (SessionNodeDraft Json))
    (timestamp : String) (draws : List String) : Option (List String × SessionGraph Json) :=
  let builder := graph.appendBuilder.withAgentFrameId agentFrameId
  (builder.appendDraftsAt timestamp drafts draws).map fun nodes =>
    (nodes.map (·.nodeId), graph.appendPrebuiltNodes nodes)

variable (messages : List (Message Json))

variable (timestamp : String)

def SessionGraph.appendMessageBatchScopedAt (draws : List String) : Option (SessionGraph Json) :=
  if messages.isEmpty then some graph
  else
    (graph.appendNodeDraftsScopedAt agentFrameId (messages.map .message) timestamp
      draws).map Prod.snd

/-- Keep the messages whose id has not been seen, in order. -/
def unseenMessages : Finset String → List (Message Json) → List (Message Json)
  | _, [] => []
  | seen, message :: messages =>
    if !message.isTransient && decide (message.id ∉ seen) then
      message :: unseenMessages (insert message.id seen) messages
    else unseenMessages seen messages

def SessionGraph.appendActiveReadDeltaScoped (draws : List String) :
    Option (SessionGraph Json) := do
  let (readModel, graph) ←
    match agentFrameId with
    | some frameId => graph.readModelForAgentFrame frameId false
    | none => graph.readModel
  let seenMessageIds := (readModel.messages.map (·.id)).toFinset
  graph.appendMessageBatchScopedAt agentFrameId (unseenMessages seenMessageIds messages)
    timestamp draws

def SessionGraph.appendActiveConversationMessagesScopedAt (draws : List String) :
    Option (SessionGraph Json) :=
  graph.appendMessageBatchScopedAt agentFrameId
    (messages.filter fun message => !message.isTransient) timestamp draws

def SessionGraph.branchTo : SessionGraph Json :=
  graph.dataMut fun data => { data with leafNodeId := nodeId }

def SessionGraph.setLeafNodeId : SessionGraph Json :=
  graph.dataMut fun data => { data with leafNodeId := nodeId }

def SessionGraph.pushNodeRecord (node : SessionNodeRecord Json) : SessionGraph Json :=
  graph.dataMut fun data => { data with nodes := data.nodes ++ [node] }

def SessionGraph.extendNodeRecords (nodes : List (SessionNodeRecord Json)) : SessionGraph Json :=
  graph.dataMut fun data => { data with nodes := data.nodes ++ nodes }

def SessionGraph.extendActivePath (nodes : List (SessionNodeRecord Json)) : SessionGraph Json :=
  graph.appendPrebuiltNodes nodes

def SessionGraph.healOrphanedLeaf : Option (Bool × SessionGraph Json) :=
  match graph.leafNodeId with
  | none => some (false, graph)
  | some leaf =>
    (graph.findNode leaf).map fun (found, graph) =>
      if found.isNone then
        let fallback := (graph.nodes.reverse.find? (·.message.isSome)).map (·.nodeId)
        (true, graph.dataMut fun data => { data with leafNodeId := fallback })
      else (false, graph)

end Graphs

section Replacement

structure ActiveReadReplacement (Json : Type) where
  leafNodeId : Option String
  newTailNodes : List (SessionNodeRecord Json)
  activeEvents : List (SessionEventRecord Json)
  activeMessages : List (Message Json)
  activeMessageIds : Finset String

def recognizedActiveReadKey (node : SessionNodeRecord Json) : Option String :=
  match node.payload with
  | .event (.conversation record) => some s!"message:{record.id}"
  | _ => none

def ActiveReadReplacement.pushActiveReadNode (replacement : ActiveReadReplacement Json)
    (node : SessionNodeRecord Json) : ActiveReadReplacement Json :=
  let replacement := { replacement with
    leafNodeId := some node.nodeId
    activeEvents := replacement.activeEvents ++ node.event.toList }
  match node.message with
  | some message =>
    if !message.isTransient && decide (message.id ∉ replacement.activeMessageIds) then
      { replacement with
        activeMessageIds := insert message.id replacement.activeMessageIds
        activeMessages := replacement.activeMessages ++ [message] }
    else replacement
  | none => replacement

/-- Keep the nodes that the target messages still start with; the first
message that differs, or is missing, ends the scan. -/
def ActiveReadReplacement.keepMatching (replacement : ActiveReadReplacement Json) :
    Finset String → List (SessionNodeRecord Json) → List (Message Json) →
      ActiveReadReplacement Json × List (Message Json)
  | _, [], target => (replacement, target)
  | seenActiveReadKeys, node :: nodes, target =>
    if node.message.any (·.isTransient) then
      replacement.keepMatching seenActiveReadKeys nodes target
    else
      match recognizedActiveReadKey node with
      | some key =>
        if key ∈ seenActiveReadKeys then
          replacement.keepMatching seenActiveReadKeys nodes target
        else
          match target with
          | [] => (replacement, [])
          | targetItem :: rest =>
            if key ≠ s!"message:{targetItem.id}" then
              (replacement, targetItem :: rest)
            else
              (replacement.pushActiveReadNode node).keepMatching
                (insert key seenActiveReadKeys) nodes rest
      | none =>
        (replacement.pushActiveReadNode node).keepMatching seenActiveReadKeys
          nodes target

def ActiveReadReplacement.appendTarget (agentFrameId : Option String)
    (timestamp : String) (existingNodeIds : Finset String) :
    ActiveReadReplacement Json → Finset String → List (Message Json) →
      Option (ActiveReadReplacement Json)
  | replacement, _, [] => some replacement
  | replacement, newNodeIds, message :: messages => do
      let nodeId ←
        uniqueMessageNodeIdForReplacement message.id existingNodeIds newNodeIds
      let node : SessionNodeRecord Json :=
        { nodeId := nodeId
          parentNodeId := replacement.leafNodeId
          causedBy := causalRefFromMessageOrigin message.origin
          agentFrameId := agentFrameId
          timestamp := timestamp
          payload := .event (.conversation (.fromMessage message)) }
      let replacement := replacement.pushActiveReadNode node
      ActiveReadReplacement.appendTarget agentFrameId timestamp existingNodeIds
        { replacement with newTailNodes := replacement.newTailNodes ++ [node] }
        (insert nodeId newNodeIds) messages

def buildActiveReadReplacement (currentNodes : List (SessionNodeRecord Json))
    (existingNodeIds : Finset String) (agentFrameId : Option String)
    (messages : List (Message Json)) (timestamp : String) :
    Option (ActiveReadReplacement Json) :=
  let target := messages.filter fun message => !message.isTransient
  let start : ActiveReadReplacement Json :=
    { leafNodeId := none
      newTailNodes := []
      activeEvents := []
      activeMessages := []
      activeMessageIds := ∅ }
  let (replacement, rest) := start.keepMatching ∅ currentNodes target
  replacement.appendTarget agentFrameId timestamp existingNodeIds ∅ rest

def SessionGraph.replaceActiveReadStateScoped (graph : SessionGraph Json)
    (agentFrameId : Option String) (messages : List (Message Json))
    (timestamp : String) : Option (SessionGraph Json) := do
  let (currentNodes, graph) ← graph.activePathNodes
  let replacement ← buildActiveReadReplacement currentNodes graph.nodeIds agentFrameId
    messages timestamp
  some (graph.dataMut fun data =>
    { leafNodeId := replacement.leafNodeId
      nodes := data.nodes ++ replacement.newTailNodes })

end Replacement

end SessionGraphs
