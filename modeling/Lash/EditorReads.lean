import Lash.EditorCommits

/-!
# What an editor shows and what a reload sees

The running turn sees the events and messages that the editor keeps; a reload reads
them off the nodes of the committed graph that belong to the agent frame.
-/

namespace EditorReads

open Runs ParentWalks SessionGraphs ActivePaths CacheCoherence GraphLedgers GraphForests
  TurnGraphEditors EditorCommits List Option Bool
open SessionNodeRecord ActiveReadReplacement TurnGraphEditor SessionGraphCache

variable {Json : Type} {nodes added path : List (SessionNodeRecord Json)}
  {node : SessionNodeRecord Json}

section Readings

def eventMessage : SessionEventRecord Json → Option (Message Json)
  | .conversation record => some record.toMessage
  | .protocol _ => none

variable (events : List (SessionEventRecord Json))

/-- A read model follows from its events. -/
def readOf : SessionReadModel Json where
  activeEvents := events
  messages := unseenMessages ∅ (events.filterMap eventMessage)

theorem message_eq (node : SessionNodeRecord Json) :
    node.message = node.event.bind eventMessage := by
  rw [message]
  cases node.event with
  | none => rfl
  | some event => cases event <;> rfl

theorem filterMap_message (nodes : List (SessionNodeRecord Json)) : nodes.filterMap message =
      (nodes.filterMap event).filterMap eventMessage := by
  rw [filterMap_filterMap]
  exact filterMap_congr fun node _ => message_eq node

variable (messages : List (Message Json))

def messageIds : Finset String :=
  (messages.map (·.id)).toFinset

theorem messageIds_cons (message : Message Json) (messages : List (Message Json)) :
    messageIds (message :: messages) = insert message.id (messageIds messages) := by
  rw [messageIds, map_cons, toFinset_cons, messageIds]

theorem messageIds_append (later : List (Message Json)) :
    messageIds (messages ++ later) = messageIds messages ∪ messageIds later := by
  rw [messageIds, map_append, toFinset_append, messageIds, messageIds]

theorem unseenMessages_append (seen : Finset String) (messages later : List (Message Json)) :
    unseenMessages seen (messages ++ later) = unseenMessages seen messages ++
      unseenMessages (seen ∪ messageIds (unseenMessages seen messages)) later := by
  induction messages generalizing seen with
  | nil => simp [unseenMessages, messageIds]
  | cons message messages ih =>
    rw [cons_append, unseenMessages, unseenMessages]
    split
    · rw [ih, cons_append, messageIds_cons, Finset.union_insert, Finset.insert_union]
    · exact ih seen

/-- New messages that are not transient and whose ids are new come into view. -/
theorem unseenMessages_of_new {seen : Finset String} {messages : List (Message Json)}
    (shown : ∀ message ∈ messages, message.isTransient = false)
    (distinct : (messages.map (·.id)).Nodup) (new : ∀ message ∈ messages, message.id ∉ seen) :
    unseenMessages seen messages = messages := by
  induction messages generalizing seen with
  | nil => rfl
  | cons message messages ih =>
    obtain ⟨hshown, hrest⟩ := forall_mem_cons.mp shown
    obtain ⟨hnew, hlater⟩ := forall_mem_cons.mp new
    rw [map_cons, nodup_cons] at distinct
    obtain ⟨hid, hdistinct⟩ := distinct
    rw [unseenMessages, if_pos (by simp [hshown, hnew]), ih hrest hdistinct]
    intro later hmem hseen
    rcases Finset.mem_insert.mp hseen with hsame | hold
    · exact hid (hsame ▸ mem_map_of_mem hmem)
    · exact hlater later hmem hold

theorem readOf_append (later : List (SessionEventRecord Json)) : readOf (events ++ later) =
      { activeEvents := events ++ later
        messages := (readOf events).messages ++ unseenMessages (messageIds (readOf events).messages)
            (later.filterMap eventMessage) } := by
  rw [readOf, filterMap_append, unseenMessages_append, Finset.empty_union]
  rfl

theorem filterMap_cons_toList {A B : Type} (f : A → Option B) (a : A) (l : List A) :
    (a :: l).filterMap f = (f a).toList ++ l.filterMap f := by
  cases hf : f a with
  | none => rw [filterMap_cons_none hf]; rfl
  | some b => rw [filterMap_cons_some hf]; rfl

theorem unseenMessages_singleton (seen : Finset String) (message : Message Json) :
    unseenMessages seen [message] =
      if !message.isTransient && decide (message.id ∉ seen) then [message] else [] := by
  rw [unseenMessages, unseenMessages, unseenMessages]

/-- What one more node of the path adds to a read model. -/
def readOne (model : SessionReadModel Json) (node : SessionNodeRecord Json) :
    SessionReadModel Json where
  activeEvents := model.activeEvents ++ node.event.toList
  messages := model.messages ++
    unseenMessages (messageIds model.messages) node.message.toList

theorem foldl_readOne :
    nodes.foldl readOne (readOf events) = readOf (events ++ nodes.filterMap event) := by
  induction nodes generalizing events with
  | nil => rw [foldl_nil, filterMap_nil, append_nil]
  | cons node nodes ih =>
    have hone : readOne (readOf events) node = readOf (events ++ node.event.toList) := by
      have hmessage : node.message.toList = node.event.toList.filterMap eventMessage := by
        rw [message_eq]
        cases node.event with
        | none => rfl
        | some event => cases event <;> rfl
      rw [readOf_append, readOne, hmessage]
      rfl
    rw [foldl_cons, hone, ih, filterMap_cons_toList, append_assoc]

section Caches

variable {cache : SessionGraphCache Json}

def cachedModel (cache : SessionGraphCache Json) : SessionReadModel Json where
  activeEvents := cache.activeEvents
  messages := cache.activeMessages

/-- The message index of the cache finds the ids of its messages. -/
def MessagesIndexed (cache : SessionGraphCache Json) : Prop :=
  ∀ id, (cache.activeMessageIds id).isSome ↔ id ∈ messageIds cache.activeMessages

theorem readNode_spec (indexed : MessagesIndexed cache) (node : SessionNodeRecord Json) :
    cachedModel (cache.readNode node) = readOne (cachedModel cache) node ∧
      MessagesIndexed (cache.readNode node) := by
  rw [readNode, readOne]
  cases hmessage : node.message with
  | none => exact ⟨by simp [cachedModel, unseenMessages], indexed⟩
  | some message =>
    have hseen : (cache.activeMessageIds message.id).isNone =
        decide (message.id ∉ messageIds cache.activeMessages) := by
      rw [Bool.eq_iff_iff, decide_eq_true_eq, ← indexed message.id, Option.isNone_iff_eq_none,
        not_isSome_iff_eq_none]
    have hread := unseenMessages_singleton (messageIds cache.activeMessages) message
    dsimp only
    rw [hseen, toList_some]
    split
    · rename_i hnew
      rw [if_pos hnew] at hread
      refine ⟨congrArg₂ SessionReadModel.mk rfl
        (congrArg (cache.activeMessages ++ ·) hread).symm, fun id => ?_⟩
      dsimp only
      rw [messageIds_append, Finset.mem_union, ← indexed id]
      by_cases hid : id = message.id
      · subst hid
        simp [messageIds]
      · rw [Function.update_of_ne hid]
        simp [messageIds, hid]
    · rename_i hold
      rw [if_neg hold] at hread
      refine ⟨congrArg₂ SessionReadModel.mk rfl ?_, indexed⟩
      exact ((congrArg (cache.activeMessages ++ ·) hread).trans (append_nil _)).symm

theorem foldl_readNode (indexed : MessagesIndexed cache) :
    cachedModel (nodes.foldl readNode cache) = nodes.foldl readOne (cachedModel cache) := by
  induction nodes generalizing cache with
  | nil => rfl
  | cons node nodes ih =>
    obtain ⟨hmodel, hindexed⟩ := readNode_spec indexed node
    rw [foldl_cons, foldl_cons, ih hindexed, hmodel]

theorem foldl_readNode_empty {byId : String → Option Nat} {indices : List Nat} :
    cachedModel (nodes.foldl readNode
      { byId := byId
        activePathIndices := indices
        activeEvents := []
        activeMessages := []
        activeMessageIds := fun _ => none }) =
      readOf (nodes.filterMap event) := by
  refine (foldl_readNode fun id => by simp [messageIds]).trans ?_
  exact foldl_readOne []

end Caches

section Replacements

variable {replacement : ActiveReadReplacement Json}

def replacementModel (replacement : ActiveReadReplacement Json) : SessionReadModel Json where
  activeEvents := replacement.activeEvents
  messages := replacement.activeMessages

theorem pushActiveReadNode_spec
    (indexed : replacement.activeMessageIds = messageIds replacement.activeMessages)
    (node : SessionNodeRecord Json) :
    replacementModel (replacement.pushActiveReadNode node) =
        readOne (replacementModel replacement) node ∧
      (replacement.pushActiveReadNode node).activeMessageIds =
        messageIds (replacement.pushActiveReadNode node).activeMessages := by
  rw [pushActiveReadNode, readOne]
  cases hmessage : node.message with
  | none => exact ⟨by simp [replacementModel, unseenMessages], indexed⟩
  | some message =>
    have hread := unseenMessages_singleton (messageIds replacement.activeMessages) message
    dsimp only
    rw [indexed, toList_some]
    split
    · rename_i hnew
      rw [if_pos hnew] at hread
      refine ⟨congrArg₂ SessionReadModel.mk rfl
        (congrArg (replacement.activeMessages ++ ·) hread).symm, ?_⟩
      dsimp only
      rw [messageIds_append, messageIds_cons, Finset.union_insert]
      simp [messageIds]
    · rename_i hold
      rw [if_neg hold] at hread
      refine ⟨congrArg₂ SessionReadModel.mk rfl ?_, rfl⟩
      exact ((congrArg (replacement.activeMessages ++ ·) hread).trans (append_nil _)).symm

theorem foldl_push_spec
    (indexed : replacement.activeMessageIds = messageIds replacement.activeMessages) :
    replacementModel (nodes.foldl pushActiveReadNode replacement) =
      nodes.foldl readOne (replacementModel replacement) := by
  induction nodes generalizing replacement with
  | nil => rfl
  | cons node nodes ih =>
    obtain ⟨hmodel, hindexed⟩ := pushActiveReadNode_spec indexed node
    rw [foldl_cons, foldl_cons, ih hindexed, hmodel]

end Replacements

end Readings

section Graphs

variable {graph : SessionGraph Json}

/-- The nodes that a reader of this agent frame looks at. -/
def shown (frameId : String) (includeUnscoped : Bool) (node : SessionNodeRecord Json) : Bool :=
  frameId.isEmpty || nodeBelongsToAgentFrame node frameId includeUnscoped

/-- A read model shows the nodes of the frame on the path to the leaf. -/
theorem readModelForAgentFrame_iff (coherent : Coherent graph) {frameId : String}
    {includeUnscoped : Bool} {model : SessionReadModel Json} :
    (graph.readModelForAgentFrame frameId includeUnscoped).map Prod.fst = some model ↔
      ∃ path, RootToLeaf graph.nodes graph.leafNodeId path ∧
        model = readOf ((path.filter (shown frameId includeUnscoped)).filterMap
          event) := by
  have hread : (graph.readModelForAgentFrame frameId includeUnscoped).map Prod.fst =
      (build graph.inner).map fun cache =>
        readOf (((cache.activePathIndices.filterMap (graph.nodes[·]?)).filter
          (shown frameId includeUnscoped)).filterMap event) := by
    rw [SessionGraph.readModelForAgentFrame]
    split
    · rename_i hempty
      have hall : shown frameId includeUnscoped = fun _ : SessionNodeRecord Json => true := by
        funext node
        rw [shown, hempty, Bool.true_or]
      rw [SessionGraph.readModel, initCache_eq coherent, Option.map_map, Option.map_map, hall]
      refine map_congr fun cache hcache => ?_
      obtain ⟨indices, -, rfl⟩ := build_eq_some_iff.mp hcache
      rw [filter_true]
      refine foldl_readNode_empty.trans ?_
      rw [cacheOf_activePathIndices]
      rfl
    · rename_i hnonempty
      have hshown : shown frameId includeUnscoped =
          (nodeBelongsToAgentFrame · frameId includeUnscoped : SessionNodeRecord Json → Bool) := by
        funext node
        rw [shown, Bool.eq_false_of_not_eq_true hnonempty, Bool.false_or]
      rw [initCache_eq coherent, Option.map_map, Option.map_map, hshown]
      refine map_congr fun cache _ => ?_
      exact foldl_readNode_empty
  rw [hread]
  exact build_path_iff fun path =>
    readOf ((path.filter (shown frameId includeUnscoped)).filterMap event)

theorem readModel_iff (coherent : Coherent graph) {model : SessionReadModel Json} :
    graph.readModel.map Prod.fst = some model ↔
      ∃ path, RootToLeaf graph.nodes graph.leafNodeId path ∧
        model = readOf (path.filterMap event) := by
  have hread := @readModelForAgentFrame_iff _ graph coherent "" true model
  have hall : shown "" true = fun _ : SessionNodeRecord Json => true := rfl
  simp only [hall, filter_true] at hread
  exact hread

end Graphs

section Scans

/-- The nodes of the active path that a replacement looks at, each with whether it is
kept: transient messages and repeated ones are passed over. -/
def scan : Finset String → List (SessionNodeRecord Json) → List (Message Json) →
    List (SessionNodeRecord Json × Bool)
  | _, [], _ => []
  | seen, node :: nodes, target =>
    if node.message.any (·.isTransient) then (node, false) :: scan seen nodes target
    else
      match recognizedActiveReadKey node with
      | some key =>
        if key ∈ seen then (node, false) :: scan seen nodes target
        else
          match target with
          | [] => []
          | targetItem :: rest =>
            if key ≠ s!"message:{targetItem.id}" then []
            else (node, true) :: scan (insert key seen) nodes rest
      | none => (node, true) :: scan seen nodes target

def keptNodes (marks : List (SessionNodeRecord Json × Bool)) : List (SessionNodeRecord Json) :=
  (marks.filter (·.2)).map (·.1)

/-- The scanned nodes up to the last one that is kept. -/
def upToLastKept : List (SessionNodeRecord Json × Bool) → List (SessionNodeRecord Json)
  | [] => []
  | mark :: marks =>
    if mark.2 || marks.any (·.2) then mark.1 :: upToLastKept marks else []

/-- Up to the last node that is kept, the events that are kept are those of the frame. -/
def KeepsFrame (inFrame : SessionNodeRecord Json → Bool) :
    List (SessionNodeRecord Json × Bool) → Prop
  | [] => True
  | mark :: marks =>
    ((mark.2 || marks.any (·.2)) = true → mark.1.event.isSome → mark.2 = inFrame mark.1) ∧
      KeepsFrame inFrame marks

instance KeepsFrame.decidable (inFrame : SessionNodeRecord Json → Bool) :
    (marks : List (SessionNodeRecord Json × Bool)) → Decidable (KeepsFrame inFrame marks)
  | [] => inferInstanceAs (Decidable True)
  | _ :: marks =>
    haveI := KeepsFrame.decidable inFrame marks
    inferInstanceAs (Decidable (_ ∧ _))

theorem keepMatching_eq (replacement : ActiveReadReplacement Json) (seen : Finset String)
    (nodes : List (SessionNodeRecord Json)) (target : List (Message Json)) :
    (replacement.keepMatching seen nodes target).1 =
      (keptNodes (scan seen nodes target)).foldl pushActiveReadNode
        replacement := by
  induction nodes generalizing replacement seen target with
  | nil => rfl
  | cons node nodes ih =>
    rw [keepMatching, scan]
    cases htransient : node.message.any (·.isTransient) with
    | true => exact ih ..
    | false =>
      rw [if_neg Bool.false_ne_true, if_neg Bool.false_ne_true]
      cases hkey : recognizedActiveReadKey node with
      | none => exact ih ..
      | some key =>
        dsimp only
        by_cases hseen : key ∈ seen
        · rw [if_pos hseen, if_pos hseen]
          exact ih ..
        · rw [if_neg hseen, if_neg hseen]
          cases target with
          | nil => rfl
          | cons targetItem rest =>
            dsimp only
            by_cases hother : key ≠ s!"message:{targetItem.id}"
            · rw [if_pos hother, if_pos hother]
              rfl
            · rw [if_neg hother, if_neg hother]
              exact ih ..

theorem scan_initial (seen : Finset String) (nodes : List (SessionNodeRecord Json))
    (target : List (Message Json)) :
    ∃ rest, nodes = (scan seen nodes target).map (·.1) ++ rest := by
  induction nodes generalizing seen target with
  | nil => exact ⟨[], rfl⟩
  | cons node nodes ih =>
    rw [scan]
    split
    · exact (ih seen target).imp fun rest h => congrArg (node :: ·) h
    · split
      · split
        · exact (ih seen target).imp fun rest h => congrArg (node :: ·) h
        · split
          · exact ⟨_, rfl⟩
          · split
            · exact ⟨_, rfl⟩
            · exact (ih _ _).imp fun rest h => congrArg (node :: ·) h
      · exact (ih seen target).imp fun rest h => congrArg (node :: ·) h

variable {marks : List (SessionNodeRecord Json × Bool)}

theorem upToLastKept_initial (marks : List (SessionNodeRecord Json × Bool)) :
    ∃ rest, marks.map (·.1) = upToLastKept marks ++ rest := by
  induction marks with
  | nil => exact ⟨[], rfl⟩
  | cons mark marks ih =>
    rw [upToLastKept]
    split
    · exact ih.imp fun rest h => congrArg (mark.1 :: ·) h
    · exact ⟨_, rfl⟩

theorem upToLastKept_eq_nil (none : marks.any (·.2) = false) : upToLastKept marks = [] := by
  cases marks with
  | nil => rfl
  | cons mark marks =>
    rw [upToLastKept, if_neg]
    rw [any_cons] at none
    rw [none]
    exact false_ne_true

theorem keptNodes_cons (mark : SessionNodeRecord Json × Bool)
    (marks : List (SessionNodeRecord Json × Bool)) :
    keptNodes (mark :: marks) = if mark.2 then mark.1 :: keptNodes marks else keptNodes marks := by
  rw [keptNodes, filter_cons]
  split
  · rfl
  · rfl

theorem filterMap_event_ite (keep : Bool) (node : SessionNodeRecord Json)
    (nodes : List (SessionNodeRecord Json)) :
    (if keep then node :: nodes else nodes).filterMap event =
      (if keep then node.event.toList else []) ++ nodes.filterMap event := by
  split
  · exact filterMap_cons_toList ..
  · rfl

theorem keptNodes_eq_nil (none : marks.any (·.2) = false) : keptNodes marks = [] := by
  rw [keptNodes, List.map_eq_nil_iff, List.filter_eq_nil_iff]
  intro mark hmark
  rw [List.any_eq_false] at none
  exact none mark hmark

/-- The last node that is kept is where the scanned part ends. -/
theorem getLast_keptNodes (marks : List (SessionNodeRecord Json × Bool)) :
    (keptNodes marks).getLast? = (upToLastKept marks).getLast? := by
  induction marks with
  | nil => rfl
  | cons mark marks ih =>
    cases hlater : marks.any (·.2) with
    | false =>
      cases hmark : mark.2 with
      | false =>
        have hnone : (mark :: marks).any (·.2) = false := by
          rw [any_cons, hmark, hlater]
          rfl
        rw [keptNodes_eq_nil hnone, upToLastKept_eq_nil hnone]
      | true =>
        rw [keptNodes, filter_cons_of_pos hmark, map_cons, upToLastKept, hmark,
          Bool.true_or, if_pos rfl, upToLastKept_eq_nil hlater]
        have hnil : (marks.filter (·.2)).map (·.1) = [] := keptNodes_eq_nil hlater
        rw [hnil]
    | true =>
      have hsome : (keptNodes marks).getLast? ≠ none := by
        rw [ne_eq, getLast?_eq_none_iff, keptNodes, map_eq_nil_iff, filter_eq_nil_iff]
        obtain ⟨later, hmem, hkept⟩ := any_eq_true.mp hlater
        exact fun hnone => hnone later hmem hkept
      obtain ⟨last, hlast⟩ := ne_none_iff_exists'.mp hsome
      rw [upToLastKept, hlater, Bool.or_true, if_pos rfl, List.getLast?_cons, ← ih, hlast]
      rw [keptNodes_cons]
      split
      · rw [getLast?_cons, hlast]
      · exact hlast

theorem event_keptNodes {inFrame : SessionNodeRecord Json → Bool}
    (keeps : KeepsFrame inFrame marks) :
    (keptNodes marks).filterMap event = ((upToLastKept marks).filter inFrame).filterMap event := by
  induction marks with
  | nil => rfl
  | cons mark marks ih =>
    obtain ⟨hmark, hrest⟩ := keeps
    cases hsome : mark.2 || marks.any (·.2) with
    | false =>
      have hnone : (mark :: marks).any (·.2) = false := hsome
      rw [keptNodes_eq_nil hnone, upToLastKept_eq_nil hnone]
      rfl
    | true =>
      rw [keptNodes_cons, filterMap_event_ite, ih hrest, upToLastKept, if_pos hsome,
        filter_cons, filterMap_event_ite]
      cases hevent : mark.1.event with
      | none => rw [toList_none, ite_self, ite_self]
      | some event => rw [hmark hsome (by rw [hevent]; rfl)]

end Scans

section Drafts

/-- What a node has of its draft. -/
def Carries (agentFrameId : Option String) (draft : SessionNodeDraft Json)
    (node : SessionNodeRecord Json) : Prop :=
  node.agentFrameId = agentFrameId ∧
    match draft.payload with
    | .message message => ∃ id, (message.id ≠ "" → id = message.id) ∧
        node.event = some (.conversation (.fromMessage { message with id := id }))
    | .plugin _ _ => node.event = none
    | .protocolEvent event => node.event = some (.protocol event)

variable {drafts : List (SessionNodeDraft Json)}

theorem appendDraftsAt_carries {builder : SessionGraphAppendBuilder} {timestamp : String}
    {draws : List String} (h : builder.appendDraftsAt timestamp drafts draws = some nodes) :
    List.Forall₂ (Carries builder.agentFrameId) drafts nodes := by
  induction drafts generalizing builder draws nodes with
  | nil =>
    obtain rfl := some.inj h
    exact .nil
  | cons draft drafts ih =>
    rw [SessionGraphAppendBuilder.appendDraftsAt] at h
    obtain ⟨⟨⟨nodeId, causedBy, payload⟩, rest⟩, hprepared, h⟩ := bind_eq_some_iff.mp h
    obtain ⟨tail, htail, h⟩ := bind_eq_some_iff.mp h
    obtain rfl := some.inj h
    have hrest := ih htail
    refine .cons ⟨rfl, ?_⟩ hrest
    rw [SessionGraphAppendBuilder.prepareDraft] at hprepared
    cases hpayload : draft.payload with
    | message message =>
      rw [hpayload] at hprepared
      dsimp only at hprepared ⊢
      split at hprepared
      · rename_i hempty
        obtain ⟨⟨named, draws⟩, hnamed, hprepared⟩ := bind_eq_some_iff.mp hprepared
        obtain ⟨id, -, hprepared⟩ := bind_eq_some_iff.mp hprepared
        obtain ⟨⟨-, -, rfl⟩, -⟩ := by simpa using hprepared
        obtain ⟨⟨fresh, draws⟩, -, hpair⟩ := map_eq_some_iff.mp hnamed
        obtain ⟨rfl, -⟩ := Prod.mk.inj hpair
        exact ⟨fresh, fun hid => absurd (String.isEmpty_iff.mp hempty) hid, rfl⟩
      · obtain ⟨⟨named, draws⟩, hnamed, hprepared⟩ := bind_eq_some_iff.mp hprepared
        obtain ⟨id, -, hprepared⟩ := bind_eq_some_iff.mp hprepared
        obtain ⟨⟨-, -, rfl⟩, -⟩ := by simpa using hprepared
        obtain ⟨rfl, -⟩ := Prod.mk.inj (some.inj hnamed)
        exact ⟨message.id, fun _ => rfl, rfl⟩
    | plugin pluginType body | protocolEvent event =>
      rw [hpayload] at hprepared
      obtain ⟨⟨id, draws⟩, -, hprepared⟩ := bind_eq_some_iff.mp hprepared
      obtain ⟨⟨-, -, rfl⟩, -⟩ := by simpa using hprepared
      rfl

variable {agentFrameId : Option String}

theorem agentFrameId_of_carries (carried : List.Forall₂ (Carries agentFrameId) drafts nodes) :
    ∀ node ∈ nodes, node.agentFrameId = agentFrameId := by
  induction carried with
  | nil => simp
  | cons hnode _ ih => exact forall_mem_cons.mpr ⟨hnode.1, ih⟩

/-- The nodes of messages that have an id are these messages. -/
theorem messages_of_carries {messages : List (Message Json)}
    (carried : List.Forall₂ (Carries agentFrameId) (messages.map .message) nodes)
    (named : ∀ message ∈ messages, message.id ≠ "") : nodes.filterMap message = messages := by
  induction messages generalizing nodes with
  | nil =>
    cases carried
    rfl
  | cons message messages ih =>
    obtain ⟨hid, hrest⟩ := forall_mem_cons.mp named
    cases carried with
    | @cons _ node _ nodes hnode htail =>
      obtain ⟨-, id, hnamed, hevent⟩ := hnode
      obtain rfl := hnamed hid
      have hmessage : node.message = some message := by
        rw [message_eq, hevent]
        rfl
      rw [filterMap_cons_some hmessage, ih htail hrest]

theorem transient_of_carries {events : List (SessionEventRecord Json)}
    (carried : List.Forall₂ (Carries agentFrameId) (events.map .event) nodes)
    (shown : ∀ event ∈ events, ∀ message ∈ eventMessage event, message.isTransient = false) :
    ∀ message ∈ nodes.filterMap SessionNodeRecord.message, message.isTransient = false := by
  induction events generalizing nodes with
  | nil =>
    cases carried
    simp
  | cons event events ih =>
    obtain ⟨hshown, hrest⟩ := forall_mem_cons.mp shown
    cases carried with
    | @cons _ node _ nodes hnode htail =>
      intro message hmessage
      rw [filterMap_cons_toList, mem_append, mem_toList] at hmessage
      rcases hmessage with hhead | hlater
      · cases event with
        | conversation record =>
          obtain ⟨-, id, -, hevent⟩ := hnode
          rw [message_eq, hevent] at hhead
          obtain rfl := some.inj hhead
          exact hshown record.toMessage rfl
        | protocol event =>
          obtain ⟨-, hevent⟩ := hnode
          rw [message_eq, hevent] at hhead
          cases hhead
      · exact ih htail hrest message hlater

theorem transient_of_unseenEvents (seen : Finset String) (events : List (SessionEventRecord Json)) :
    ∀ event ∈ unseenEvents seen events,
      ∀ message ∈ eventMessage event, message.isTransient = false := by
  induction events generalizing seen with
  | nil => simp [unseenEvents]
  | cons event events ih =>
    cases event with
    | protocol event =>
      refine forall_mem_cons.mpr ⟨fun message hmessage => ?_, ih seen⟩
      cases hmessage
    | conversation record =>
      rw [unseenEvents]
      split
      · rename_i hnew
        refine forall_mem_cons.mpr ⟨fun message hmessage => ?_, ih _⟩
        obtain rfl := some.inj hmessage
        simpa using (and_eq_true_iff.mp hnew).1
      · exact ih seen

end Drafts

section Editors

variable {frameId : String} {includeUnscoped : Bool} {editor : TurnGraphEditor Json}
  {turn : EditedTurn Json}

/-- The walk over parent ids from `start` ends and does not come to an added node. -/
def clears (nodes : List (SessionNodeRecord Json)) (start : Option String)
    (added : List (SessionNodeRecord Json)) : Bool :=
  (walk (parentId nodes) (nodes.length + 1) start).any fun above =>
    added.all fun node => decide (node.nodeId ∉ above)

theorem away_of_clears {start : Option String} (h : clears nodes start added = true) :
    ∀ node ∈ added, ¬ Climbs (parentId nodes) start node.nodeId := by
  obtain ⟨above, hwalk, hall⟩ := (any_eq_true _ _).mp h
  intro node hnode climbs
  have haway := all_eq_true.mp hall node hnode
  exact of_decide_eq_true haway (climbs.mem (walk_sound hwalk))

theorem latestNode_append_list (nodes added : List (SessionNodeRecord Json)) (id : String) :
    latestNode (nodes ++ added) id = (latestNode added id <|> latestNode nodes id) := by
  rw [latestNode, reverse_append, find?_append, latestNode, latestNode]
  cases find? (fun node => node.nodeId == id) added.reverse <;> rfl

/-- The editor shows the nodes of its frame on the path to its leaf, and its leaf is the
one that is committed. -/
structure Shows (frameId : String) (includeUnscoped : Bool) (editor : TurnGraphEditor Json) :
    Prop where
  wired : Wired editor
  framed : editor.appendBuilder.agentFrameId = some frameId
  coherent : Coherent editor.baseGraph
  stands : LeafStands editor
  path : ∃ path, RootToLeaf editor.data.nodes editor.data.leafNodeId path ∧
    editor.readModel = readOf ((path.filter (shown frameId includeUnscoped)).filterMap
      SessionNodeRecord.event)

/-- What the turn sees is what a reload of the committed graph sees. -/
def ReloadsAsShown (frameId : String) (includeUnscoped : Bool)
    (editor : TurnGraphEditor Json) : Prop :=
  (editor.intoSessionGraph.readModelForAgentFrame frameId includeUnscoped).map Prod.fst =
    some editor.readModel

theorem Shows.reloads (shows : Shows frameId includeUnscoped editor) :
    ReloadsAsShown frameId includeUnscoped editor := by
  obtain ⟨path, hpath, hmodel⟩ := shows.path
  have hinner := intoSessionGraph_inner editor
  by_cases hnil : editor.appendedNodes = []
  · have hinto : editor.intoSessionGraph = editor.baseGraph := by
      rw [intoSessionGraph, hnil]
      rfl
    have hdata : editor.data = editor.baseGraph.inner := by
      refine congrArg₂ SessionGraphData.mk ?_ (shows.stands.resolve_left (not_not_intro hnil))
      rw [hnil, append_nil]
      rfl
    rw [hdata] at hpath
    rw [ReloadsAsShown, hinto]
    exact (readModelForAgentFrame_iff shows.coherent).mpr ⟨path, hpath, hmodel⟩
  · rw [if_neg (by simpa using hnil)] at hinner
    have hcache : editor.intoSessionGraph.cache = none := by
      rw [intoSessionGraph, if_neg (by simpa using hnil)]
      rfl
    refine (readModelForAgentFrame_iff (coherent_of_none hcache)).mpr ⟨path, ?_, hmodel⟩
    rw [SessionGraph.nodes, SessionGraph.leafNodeId, hinner]
    exact hpath

theorem shown_of_framed (framed : node.agentFrameId = some frameId) :
    shown frameId includeUnscoped node = true := by
  rw [shown, nodeBelongsToAgentFrame, framed]
  dsimp only
  rw [beq_self_eq_true, Bool.or_true]

theorem filter_shown (framed : ∀ node ∈ added, node.agentFrameId = some frameId) :
    (path ++ added).filter (shown frameId includeUnscoped) =
      path.filter (shown frameId includeUnscoped) ++ added := by
  have hall : added.filter (shown frameId includeUnscoped) = added :=
    filter_eq_self.mpr fun node hnode => shown_of_framed (framed node hnode)
  rw [filter_append, hall]

theorem Shows.extended (shows : Shows frameId includeUnscoped editor)
    (chain : FreshChain editor.data nodes)
    (away : ∀ node ∈ nodes,
      ¬ Climbs (parentId editor.data.nodes) editor.data.leafNodeId node.nodeId)
    (framed : ∀ node ∈ nodes, node.agentFrameId = some frameId)
    (new : unseenMessages (messageIds editor.activeMessages)
      (nodes.filterMap message) = nodes.filterMap message) :
    Shows frameId includeUnscoped
      (editor.extended nodes (nodes.filterMap message)) where
  wired := extended_wired shows.wired nodes _
  framed := (advance_agentFrameId editor.appendBuilder nodes).trans shows.framed
  coherent := shows.coherent
  stands := leafStands_extended shows.stands
  path := by
    obtain ⟨path, hpath, hmodel⟩ := shows.path
    have hevents := congrArg SessionReadModel.activeEvents hmodel
    have hmessages := congrArg SessionReadModel.messages hmodel
    have hids : messageIds (readOf ((path.filter (shown frameId includeUnscoped)).filterMap
        event)).messages = messageIds editor.activeMessages :=
      congrArg messageIds hmessages.symm
    refine ⟨path ++ nodes, ?_, ?_⟩
    · rw [extended_data]
      exact RootToLeaf.chain hpath chain away
    · rw [filter_shown framed, filterMap_append, readOf_append, ← filterMap_message, hids, new]
      exact congrArg₂ SessionReadModel.mk
        (congrArg (· ++ nodes.filterMap event) hevents)
        (congrArg (· ++ nodes.filterMap message) hmessages)

theorem activePathNodes_sound (wired : Wired editor) (coherent : Coherent editor.baseGraph)
    (h : editor.activePathNodes = some path) :
    RootToLeaf editor.data.nodes editor.data.leafNodeId path := by
  obtain ⟨⟨cache, read⟩, hcache, h⟩ := bind_eq_some_iff.mp h
  obtain ⟨back, hback, rfl⟩ := map_eq_some_iff.mp h
  have hindex : cache.byId = indexNodes editor.baseGraph.nodes := by
    rw [initCache_eq coherent] at hcache
    obtain ⟨built, hbuilt, hpair⟩ := map_eq_some_iff.mp hcache
    obtain ⟨rfl, -⟩ := Prod.mk.inj hpair
    obtain ⟨indices, -, rfl⟩ := build_eq_some_iff.mp hbuilt
    rw [cacheOf_byId]
    rfl
  have hfind : editor.findNode cache = latestNode editor.data.nodes := by
    funext id
    rw [findNode, wired.indices, hindex, indexNodes_bind, indexNodes_bind,
      TurnGraphEditor.data, latestNode_append_list]
  have hwalk := walk_sound hback
  rw [hfind] at hwalk
  rw [RootToLeaf, reverse_reverse]
  exact hwalk

theorem foldl_push_leafNodeId (replacement : ActiveReadReplacement Json)
    (data : SessionGraphData Json) (leaf : replacement.leafNodeId = data.leafNodeId) :
    (nodes.foldl pushActiveReadNode replacement).leafNodeId =
      (nodes.foldl withNode data).leafNodeId := by
  induction nodes generalizing replacement data with
  | nil => exact leaf
  | cons node nodes ih =>
    exact ih _ (withNode data node) (pushActiveReadNode_leafNodeId replacement node)

theorem keptBy_leafNodeId (path : List (SessionNodeRecord Json)) (messages : List (Message Json)) :
    (keptBy path messages).leafNodeId = (upToLastKept
      (scan ∅ path (messages.filter fun message => !message.isTransient))).getLast?.map
        (·.nodeId) := by
  generalize hmarks : scan ∅ path (messages.filter fun message => !message.isTransient) = marks
  have hkept : keptBy path messages = (keptNodes marks).foldl
      pushActiveReadNode _ := hmarks ▸ keepMatching_eq ..
  rw [hkept, ← getLast_keptNodes]
  cases hlast : (keptNodes marks).getLast? with
  | none =>
    rw [getLast?_eq_none_iff.mp hlast]
    rfl
  | some last =>
    obtain ⟨front, hfront⟩ := getLast?_eq_some_iff.mp hlast
    rw [hfront, foldl_append]
    exact pushActiveReadNode_leafNodeId ..

/-- The path to the kept leaf is the scanned part of the active path. -/
theorem rootToLeaf_keptBy {leaf : Option String} (whole : RootToLeaf nodes leaf path)
    (messages : List (Message Json)) :
    RootToLeaf nodes (keptBy path messages).leafNodeId
      (upToLastKept (scan ∅ path (messages.filter fun message => !message.isTransient))) := by
  rw [keptBy_leafNodeId]
  generalize hmarks : scan ∅ path (messages.filter fun message => !message.isTransient) = marks
  obtain ⟨scanned, hscanned⟩ :=
    scan_initial ∅ path (messages.filter fun message => !message.isTransient)
  obtain ⟨passed, hpassed⟩ := upToLastKept_initial marks
  rw [hmarks, hpassed, append_assoc] at hscanned
  cases hlast : (upToLastKept marks).getLast? with
  | none =>
    rw [getLast?_eq_none_iff.mp hlast]
    exact rootToLeaf_none.mpr rfl
  | some last =>
    obtain ⟨front, hfront⟩ := getLast?_eq_some_iff.mp hlast
    rw [hfront, append_assoc, singleton_append] at hscanned
    rw [hscanned] at whole
    rw [hfront]
    exact RootToLeaf.take whole

theorem Shows.replaced (shows : Shows frameId includeUnscoped editor)
    {messages : List (Message Json)} {timestamp : String}
    {replacement : ActiveReadReplacement Json} {activePath : List (SessionNodeRecord Json)}
    (walked : editor.activePathNodes = some activePath)
    (built : editor.buildReplacement messages timestamp = some replacement)
    (keeps : KeepsFrame (shown frameId includeUnscoped)
      (scan ∅ activePath (messages.filter fun message => !message.isTransient)))
    (away : ∀ node ∈ replacement.newTailNodes, ¬ Climbs (parentId editor.data.nodes)
      (keptBy activePath messages).leafNodeId node.nodeId)
    (stands : LeafStands (editor.replaced replacement)) :
    Shows frameId includeUnscoped (editor.replaced replacement) where
  wired := replaced_wired shows.wired replacement
  framed := shows.framed
  coherent := shows.coherent
  stands := stands
  path := by
    rw [buildReplacement, walked] at built
    have hpath := activePathNodes_sound shows.wired shows.coherent walked
    obtain ⟨hchain, hfinal, hframed⟩ := buildActiveReadReplacement_spec built
      fun id => (shows.wired.existing id).mpr
    rw [shows.framed] at hframed
    have hleaf := congrArg ActiveReadReplacement.leafNodeId hfinal
    have hpushed := congrArg replacementModel hfinal
    have hkept := rootToLeaf_keptBy hpath messages
    generalize hmarks : scan ∅ activePath
      (messages.filter fun message => !message.isTransient) = marks at keeps hkept
    have hdata : (editor.replaced replacement).data = replacement.newTailNodes.foldl withNode
          ⟨editor.data.nodes, (keptBy activePath messages).leafNodeId⟩ := by
      refine congrArg₂ SessionGraphData.mk ?_ ?_
      · rw [foldl_withNode_nodes]
        exact (append_assoc ..).symm
      · exact Eq.trans hleaf (foldl_push_leafNodeId _ _ rfl)
    refine ⟨upToLastKept marks ++ replacement.newTailNodes, ?_, ?_⟩
    · rw [hdata]
      exact RootToLeaf.chain hkept hchain away
    · have hmodel : (editor.replaced replacement).readModel = replacementModel
          (replacement.newTailNodes.foldl pushActiveReadNode
            (keptBy activePath messages)) := hpushed
      have hscan : keptBy activePath messages = (keptNodes marks).foldl
          pushActiveReadNode _ := hmarks ▸ keepMatching_eq ..
      rw [hmodel, hscan, ← foldl_append, foldl_push_spec (by rfl), filter_shown hframed,
        filterMap_append, ← event_keptNodes keeps, ← filterMap_append]
      exact foldl_readOne []

theorem fromState_shows {baseGraph : SessionGraph Json} (coherent : Coherent baseGraph)
    (drafted : fromState baseGraph frameId includeUnscoped = some editor) :
    Shows frameId includeUnscoped editor := by
  obtain ⟨readModel, read, hread, hwarmed, rfl⟩ := fromState_eq drafted
  obtain ⟨hinner, hcoherent⟩ := hwarmed.readOf
  have hmodel : (baseGraph.readModelForAgentFrame frameId includeUnscoped).map Prod.fst =
      some readModel := by rw [hread, map_some]
  obtain ⟨path, hpath, hshown⟩ := (readModelForAgentFrame_iff coherent).mp hmodel
  exact
    { wired := new_wired read readModel frameId
      framed := rfl
      coherent := hcoherent coherent
      stands := .inr rfl
      path := by
        refine ⟨path, ?_, hshown⟩
        have hdata : (TurnGraphEditor.new read readModel frameId).data = baseGraph.inner := by
          rw [← hinner, TurnGraphEditor.data, TurnGraphEditor.new, append_nil]
          rfl
        rw [hdata]
        exact hpath }

end Editors

section Law

variable {frameId : String} {includeUnscoped : Bool} {editor : TurnGraphEditor Json}
  {turn : EditedTurn Json}

/-- The messages have different ids, and none that is in view. -/
def NewIds (current messages : List (Message Json)) : Prop :=
  (messages.map (·.id)).Nodup ∧ ∀ message ∈ messages, message.id ∉ messageIds current

/-- What an operation has to meet for the turn to see what a reload will see. -/
def KeepsReading (frameId : String) (includeUnscoped : Bool) (op : EditorOp Json)
    (turn : EditedTurn Json) : Prop :=
  match op with
  | .appendEvents events timestamp draws =>
    ∀ nodes ∈ appendEventsAt turn.editor.appendBuilder
        (TurnGraphEditor.unseenEvents (turn.editor.activeMessages.map (·.id)).toFinset events)
        timestamp draws,
      clears turn.editor.data.nodes turn.editor.leafNodeId nodes = true ∧
        NewIds turn.editor.activeMessages (nodes.filterMap SessionNodeRecord.message)
  | .appendActiveConversationMessages messages timestamp draws =>
    (∀ message ∈ messages.filter fun message => !message.isTransient, message.id ≠ "") ∧
      NewIds turn.editor.activeMessages (messages.filter fun message => !message.isTransient) ∧
      ∀ nodes ∈ appendMessagesAt turn.editor.appendBuilder
          (messages.filter fun message => !message.isTransient) timestamp draws,
        clears turn.editor.data.nodes turn.editor.leafNodeId nodes = true
  | .replaceActiveReadState messages timestamp =>
    ∀ activePath ∈ turn.editor.activePathNodes,
      KeepsFrame (shown frameId includeUnscoped)
          (scan ∅ activePath (messages.filter fun message => !message.isTransient)) ∧
        ∀ replacement ∈ turn.editor.buildReplacement messages timestamp,
          clears turn.editor.data.nodes (keptBy activePath messages).leafNodeId
              replacement.newTailNodes = true ∧
            LeafStands (turn.editor.replaced replacement)
  | .commitProgress _ => True

instance NewIds.decidable (current messages : List (Message Json)) :
    Decidable (NewIds current messages) :=
  inferInstanceAs (Decidable (_ ∧ _))

instance LeafStands.decidable (editor : TurnGraphEditor Json) : Decidable (LeafStands editor) :=
  decidable_of_iff (editor.appendedNodes.isEmpty = false ∨
    editor.leafNodeId = editor.baseGraph.leafNodeId) (by rw [LeafStands, List.isEmpty_eq_false_iff])

instance KeepsReading.decidable (frameId : String) (includeUnscoped : Bool)
    (op : EditorOp Json) (turn : EditedTurn Json) :
    Decidable (KeepsReading frameId includeUnscoped op turn) :=
  match op with
  | .appendEvents .. => inferInstanceAs (Decidable (∀ _ ∈ _, _ ∧ _))
  | .appendActiveConversationMessages .. =>
    inferInstanceAs (Decidable ((∀ _ ∈ _, _ ≠ _) ∧ _ ∧ ∀ _ ∈ _, _ = _))
  | .replaceActiveReadState .. => inferInstanceAs (Decidable (∀ _ ∈ _, _ ∧ ∀ _ ∈ _, _ ∧ _))
  | .commitProgress _ => isTrue trivial

theorem editStep_shows {op : EditorOp Json} (shows : Shows frameId includeUnscoped turn.editor)
    (keeps : KeepsReading frameId includeUnscoped op turn) :
    Shows frameId includeUnscoped (editStep op turn).2.editor := by
  rw [editStep]
  cases happly : op.apply turn with
  | none => exact shows
  | some after =>
    cases op with
    | appendEvents events timestamp draws =>
      obtain ⟨edited, hedited, rfl⟩ := map_eq_some_iff.mp happly
      obtain ⟨nodes, hnodes, rfl⟩ := appendEvents_spec shows.wired hedited
      obtain ⟨hclears, hdistinct, hnew⟩ := keeps nodes hnodes
      have hcarries := appendDraftsAt_carries hnodes
      rw [shows.framed] at hcarries
      refine shows.extended (builder_freshChain shows.wired hnodes) (away_of_clears hclears)
        (agentFrameId_of_carries hcarries) (unseenMessages_of_new ?_ hdistinct hnew)
      exact transient_of_carries hcarries (transient_of_unseenEvents _ _)
    | appendActiveConversationMessages messages timestamp draws =>
      obtain ⟨edited, hedited, rfl⟩ := map_eq_some_iff.mp happly
      obtain ⟨nodes, hnodes, rfl⟩ := appendActiveConversationMessages_spec shows.wired hedited
      obtain ⟨hnamed, ⟨hdistinct, hnew⟩, hclears⟩ := keeps
      have hcarries := appendDraftsAt_carries hnodes
      have hmessages := messages_of_carries hcarries hnamed
      rw [shows.framed] at hcarries
      have hextended := shows.extended (builder_freshChain shows.wired hnodes)
        (away_of_clears (hclears nodes hnodes)) (agentFrameId_of_carries hcarries)
      rw [hmessages] at hextended
      refine hextended (unseenMessages_of_new (fun message hmessage => ?_) hdistinct hnew)
      simpa using (mem_filter.mp hmessage).2
    | replaceActiveReadState messages timestamp =>
      obtain ⟨edited, hedited, rfl⟩ := map_eq_some_iff.mp happly
      obtain ⟨replacement, hbuilt, rfl⟩ := replaceActiveReadState_spec shows.wired hedited
      obtain ⟨activePath, hwalked, _⟩ := bind_eq_some_iff.mp hbuilt
      obtain ⟨hframe, hreplacement⟩ := keeps activePath hwalked
      obtain ⟨hclears, hstands⟩ := hreplacement replacement hbuilt
      exact shows.replaced hwalked hbuilt hframe (away_of_clears hclears) hstands
    | commitProgress required =>
      obtain rfl := some.inj happly
      dsimp only
      rw [commitProgress_editor]
      exact ⟨⟨shows.wired.indices, shows.wired.existing⟩, shows.framed, shows.coherent,
        shows.stands, shows.path⟩

variable {history : List (Entry (EditorOp Json) (EditedTurn Json) Bool)}

/-- In a run whose operations all meet the condition, what the turn sees is at every point
what a reload of the graph committed there sees. -/
theorem reloads_as_shown {baseGraph : SessionGraph Json} (coherent : Coherent baseGraph)
    (drafted : TurnGraphEditor.fromState baseGraph frameId includeUnscoped = some editor)
    (run : Run editStep (.start editor) history turn)
    (keeps : ∀ e ∈ history, KeepsReading frameId includeUnscoped e.input e.before) :
    ReloadsAsShown frameId includeUnscoped turn.editor := by
  refine Shows.reloads (run.invariant_of (P := fun _ turn =>
    Shows frameId includeUnscoped turn.editor) (fromState_shows coherent drafted) ?_ keeps)
  intro history turn op _ hkeeps hshows
  exact editStep_shows hshows hkeeps

theorem reloads_as_shown_revised :
    let turn := (perform editStep revisedOps ([], .start frameEditor)).2
    turn.editor.readModel.messages = [userMessage "m1"] ∧
      ReloadsAsShown "frame" true turn.editor := by
  intro turn
  have drafted : fromState twoMessages "frame" true = some frameEditor :=
    (some_get twoMessages_draft).symm
  refine ⟨by decide, ?_⟩
  refine reloads_as_shown (coherent_of_none (by rfl)) drafted (Run.nil.perform revisedOps) ?_
  decide

/-- A message whose id is in view is shown a second time. -/
theorem repeated_message_shown_twice : let turn := (perform editStep
      [.appendActiveConversationMessages [userMessage "m2"] "t" []] ([], .start frameEditor)).2
    TurnGraphEditor.fromState twoMessages "frame" true = some frameEditor ∧
      turn.editor.readModel.messages = [userMessage "m1", userMessage "m2", userMessage "m2"] ∧
      (turn.editor.intoSessionGraph.readModelForAgentFrame "frame" true).map (·.1.messages) =
        some [userMessage "m1", userMessage "m2"] ∧
      ¬ ReloadsAsShown "frame" true turn.editor := by
  intro turn
  have hshown : turn.editor.readModel.messages =
      [userMessage "m1", userMessage "m2", userMessage "m2"] := by decide
  have hreload : (turn.editor.intoSessionGraph.readModelForAgentFrame "frame" true).map
      (·.1.messages) = some [userMessage "m1", userMessage "m2"] := by decide
  refine ⟨(some_get twoMessages_draft).symm, hshown, hreload, fun hsame => ?_⟩
  have hmessages := congrArg (Option.map SessionReadModel.messages) hsame
  rw [Option.map_map, Option.map_some, hshown] at hmessages
  have hwrong := hreload.symm.trans hmessages
  simp at hwrong

end Law

end EditorReads
