import Lash.EditorReads
import Lash.GrownPaths

/-!
# Replacing what a graph shows

A replacement scans the active path beside the given messages, keeps the nodes up to the
first message that differs, and puts the other messages under the last node it has kept.
It tells messages apart by their ids.
-/

namespace ReadReplacements

open ParentWalks SessionGraphs ActivePaths CacheCoherence GraphLedgers GraphForests
  TurnGraphEditors EditorReads GrownPaths List Option Bool
open SessionNodeRecord SessionGraph ActiveReadReplacement

variable {Json : Type} {graph after : SessionGraph Json} {node : SessionNodeRecord Json}
  {path nodes : List (SessionNodeRecord Json)} {messages target : List (Message Json)}
  {message item : Message Json} {marks : List (SessionNodeRecord Json × Bool)}
  {seen ids : Finset String}

def messagesOf (nodes : List (SessionNodeRecord Json)) : List (Message Json) :=
  nodes.filterMap SessionNodeRecord.message

theorem messagesOf_cons (node : SessionNodeRecord Json) (nodes : List (SessionNodeRecord Json)) :
    messagesOf (node :: nodes) = node.message.toList ++ messagesOf nodes :=
  filterMap_cons_toList ..

theorem messagesOf_append (nodes later : List (SessionNodeRecord Json)) :
    messagesOf (nodes ++ later) = messagesOf nodes ++ messagesOf later :=
  List.filterMap_append

theorem readOf_messages (nodes : List (SessionNodeRecord Json)) :
    (readOf (nodes.filterMap event)).messages = unseenMessages ∅ (messagesOf nodes) :=
  congrArg (unseenMessages ∅) (filterMap_message nodes).symm

section Scans

/-- A message that a reader who has seen these ids is shown. -/
def fresh (ids : Finset String) (message : Message Json) : Bool :=
  !message.isTransient && decide (message.id ∉ ids)

theorem unseenMessages_fresh (h : fresh ids message = true) (messages : List (Message Json)) :
    unseenMessages ids (message :: messages) =
      message :: unseenMessages (insert message.id ids) messages :=
  if_pos h

theorem unseenMessages_hidden (h : fresh ids message = false) (messages : List (Message Json)) :
    unseenMessages ids (message :: messages) = unseenMessages ids messages :=
  if_neg (by rw [fresh] at h; rw [h]; exact Bool.false_ne_true)

theorem unseenMessages_filter (ids : Finset String) (messages : List (Message Json)) :
    unseenMessages ids (messages.filter fun message => !message.isTransient) =
      unseenMessages ids messages := by
  induction messages generalizing ids with
  | nil => rfl
  | cons message messages ih =>
    cases htransient : message.isTransient with
    | true =>
      have hhidden : fresh ids message = false := by rw [fresh, htransient]; rfl
      rw [filter_cons_of_neg (by simp [htransient]), unseenMessages_hidden hhidden, ih]
    | false =>
      rw [filter_cons_of_pos (by simp [htransient]), unseenMessages, unseenMessages]
      split
      · rw [ih]
      · exact ih ids

/-- A scan of a path by someone who has seen messages of these ids. -/
inductive Scanned : Finset String → List (SessionNodeRecord Json) → List (Message Json) →
    List (SessionNodeRecord Json × Bool) → Prop
  | nil {ids : Finset String} {target : List (Message Json)} : Scanned ids [] target []
  | event {ids : Finset String} {node : SessionNodeRecord Json}
      {path : List (SessionNodeRecord Json)} {target : List (Message Json)}
      {marks : List (SessionNodeRecord Json × Bool)} (none : node.message = none)
      (rest : Scanned ids path target marks) :
      Scanned ids (node :: path) target ((node, true) :: marks)
  | hidden {ids : Finset String} {node : SessionNodeRecord Json} {message : Message Json}
      {path : List (SessionNodeRecord Json)} {target : List (Message Json)}
      {marks : List (SessionNodeRecord Json × Bool)} (found : node.message = some message)
      (old : fresh ids message = false) (rest : Scanned ids path target marks) :
      Scanned ids (node :: path) target ((node, false) :: marks)
  | same {ids : Finset String} {node : SessionNodeRecord Json} {message item : Message Json}
      {path : List (SessionNodeRecord Json)} {target : List (Message Json)}
      {marks : List (SessionNodeRecord Json × Bool)} (found : node.message = some message)
      (new : fresh ids message = true) (id : message.id = item.id)
      (rest : Scanned (insert message.id ids) path target marks) :
      Scanned ids (node :: path) (item :: target) ((node, true) :: marks)
  | apart {ids : Finset String} {node : SessionNodeRecord Json} {message : Message Json}
      {path : List (SessionNodeRecord Json)} {target : List (Message Json)}
      (found : node.message = some message) (new : fresh ids message = true)
      (other : ∀ item ∈ target.head?, message.id ≠ item.id) :
      Scanned ids (node :: path) target []

theorem recognizedActiveReadKey_eq (node : SessionNodeRecord Json) :
    recognizedActiveReadKey node = node.message.map fun message => s!"message:{message.id}" := by
  rw [recognizedActiveReadKey, message, event]
  cases node.payload with
  | event event => cases event <;> rfl
  | plugin => rfl

theorem key_inj {id other : String} : s!"message:{id}" = s!"message:{other}" ↔ id = other := by
  constructor
  · intro h
    have hlist : (toString id).toList = (toString other).toList := by
      simpa using congrArg String.toList h
    exact String.toList_inj.mp hlist
  · rintro rfl
    rfl

/-- The keys that a scan has seen are those of these ids. -/
def Keyed (seen ids : Finset String) : Prop :=
  ∀ id, s!"message:{id}" ∈ seen ↔ id ∈ ids

theorem Keyed.insert (keyed : Keyed seen ids) (id : String) :
    Keyed (insert s!"message:{id}" seen) (insert id ids) := by
  intro other
  rw [Finset.mem_insert, Finset.mem_insert, key_inj, keyed other]

theorem scanned (keyed : Keyed seen ids) (path : List (SessionNodeRecord Json))
    (target : List (Message Json)) :
    Scanned ids path target (scan seen path target) ∧ ∀ replacement : ActiveReadReplacement Json,
        (replacement.keepMatching seen path target).2 =
          target.drop (messagesOf (keptNodes (scan seen path target))).length := by
  induction path generalizing seen ids target with
  | nil => exact ⟨.nil, fun _ => rfl⟩
  | cons node path ih =>
    rw [scan, recognizedActiveReadKey_eq]
    simp only [keepMatching, recognizedActiveReadKey_eq]
    cases hmessage : node.message with
    | none =>
      obtain ⟨hscan, hrest⟩ := ih keyed target
      refine ⟨.event hmessage hscan, fun replacement => ?_⟩
      rw [Option.any_none, if_neg Bool.false_ne_true, Option.map_none, if_neg
        Bool.false_ne_true, keptNodes_cons, if_pos rfl, messagesOf_cons, hmessage]
      exact hrest _
    | some message =>
      obtain ⟨hscan, hrest⟩ := ih keyed target
      have hpassed : ∀ replacement : ActiveReadReplacement Json,
          (replacement.keepMatching seen path target).2 = target.drop
            (messagesOf (keptNodes ((node, false) :: scan seen path target))).length := by
        intro replacement
        rw [keptNodes_cons, if_neg Bool.false_ne_true]
        exact hrest replacement
      cases htransient : message.isTransient with
      | true =>
        have hold : fresh ids message = false := by rw [fresh, htransient]; rfl
        simp only [any_some, htransient, if_true]
        exact ⟨.hidden hmessage hold hscan, hpassed⟩
      | false =>
        simp only [Option.any_some, htransient, if_neg Bool.false_ne_true, Option.map_some]
        by_cases hseen : s!"message:{message.id}" ∈ seen
        · have hold : fresh ids message = false := by
            simp [fresh, (keyed message.id).mp hseen]
          simp only [if_pos hseen]
          exact ⟨.hidden hmessage hold hscan, hpassed⟩
        · have hnew : fresh ids message = true := by
            have hid : message.id ∉ ids := fun hid => hseen ((keyed _).mpr hid)
            simp [fresh, htransient, hid]
          simp only [if_neg hseen]
          cases target with
          | nil => exact ⟨.apart hmessage hnew (by simp), fun _ => rfl⟩
          | cons item target =>
            dsimp only
            by_cases hid : message.id = item.id
            · obtain ⟨hscan, hrest⟩ := ih (keyed.insert message.id) target
              have hkey : ¬ s!"message:{message.id}" ≠ s!"message:{item.id}" :=
                not_not.mpr (key_inj.mpr hid)
              simp only [if_neg hkey]
              refine ⟨.same hmessage hnew hid hscan, fun replacement => ?_⟩
              rw [keptNodes_cons, if_pos rfl, messagesOf_cons, hmessage]
              exact hrest _
            · have hkey : s!"message:{message.id}" ≠ s!"message:{item.id}" :=
                fun h => hid (key_inj.mp h)
              simp only [if_pos hkey]
              refine ⟨.apart hmessage hnew ?_, fun _ => rfl⟩
              rintro other hother
              obtain rfl : item = other := some.inj hother
              exact hid

section

variable (scanned : Scanned ids path target marks)
include scanned

theorem Scanned.kept_new :
    unseenMessages ids (messagesOf (keptNodes marks)) = messagesOf (keptNodes marks) := by
  induction scanned with
  | nil | apart => rfl
  | event none _ ih =>
    rw [keptNodes_cons, if_pos rfl, messagesOf_cons, none]
    exact ih
  | hidden _ _ _ ih => exact ih
  | same found new _ _ ih =>
    rw [keptNodes_cons, if_pos rfl, messagesOf_cons, found]
    exact (unseenMessages_fresh new _).trans (congrArg _ ih)

/-- What the scan passes over shows no message. -/
theorem Scanned.passed (later : List (Message Json)) :
    unseenMessages ids (messagesOf (upToLastKept marks) ++ later) =
      unseenMessages ids (messagesOf (keptNodes marks) ++ later) := by
  induction scanned with
  | nil | apart => rfl
  | event none _ ih =>
    rw [upToLastKept, Bool.true_or, if_pos rfl, keptNodes_cons, if_pos rfl, messagesOf_cons,
      messagesOf_cons, none]
    exact ih
  | @hidden ids node message path target marks found old _ ih =>
    rw [upToLastKept, keptNodes_cons, if_neg Bool.false_ne_true, Bool.false_or]
    split
    · rw [messagesOf_cons, found]
      exact (unseenMessages_hidden old _).trans ih
    · rename_i hnone
      rw [keptNodes_eq_nil (eq_false_of_not_eq_true hnone)]
  | same found new _ _ ih =>
    rw [upToLastKept, Bool.true_or, if_pos rfl, keptNodes_cons, if_pos rfl, messagesOf_cons,
      messagesOf_cons, found]
    exact (unseenMessages_fresh new _).trans
      ((congrArg _ ih).trans (unseenMessages_fresh new _).symm)

/-- The given messages are those in the place of the kept ones, and what follows them. -/
theorem Scanned.given (shown : ∀ item ∈ target, item.isTransient = false) :
    unseenMessages ids target = target.take (messagesOf (keptNodes marks)).length ++
      unseenMessages (ids ∪ messageIds (messagesOf (keptNodes marks)))
        (target.drop (messagesOf (keptNodes marks)).length) := by
  induction scanned with
  | nil | apart => simp [keptNodes, messagesOf, messageIds]
  | event none _ ih =>
    rw [keptNodes_cons, if_pos rfl, messagesOf_cons, none]
    exact ih shown
  | hidden _ _ _ ih => exact ih shown
  | @same ids node message item path target marks found new id _ ih =>
    obtain ⟨hitem, hrest⟩ := forall_mem_cons.mp shown
    have hnew : fresh ids item = true := by
      rw [fresh, hitem, ← id]
      exact (and_eq_true_iff.mp new).2
    rw [keptNodes_cons, if_pos rfl, messagesOf_cons, found, unseenMessages_fresh hnew, ← id,
      ih hrest, toList_some, singleton_append, messageIds_cons,
      Finset.union_insert, Finset.insert_union]
    rfl

/-- As long as the messages of the path are the given ones, its other nodes are kept. -/
theorem Scanned.keeps {front : List (SessionNodeRecord Json)} (initial : front <+: path)
    (agrees : unseenMessages ids (messagesOf front) <+: target) (member : node ∈ front)
    (other : node.message = none) : node ∈ keptNodes marks := by
  induction scanned generalizing front with
  | nil =>
    rw [prefix_nil.mp initial] at member
    cases member
  | event none _ ih =>
    rw [keptNodes_cons, if_pos rfl]
    cases front with
    | nil => cases member
    | cons first front =>
      obtain ⟨rfl, hfront⟩ := cons_prefix_cons.mp initial
      rw [messagesOf_cons, none] at agrees
      rcases mem_cons.mp member with rfl | hmem
      · exact mem_cons_self
      · exact mem_cons_of_mem _ (ih hfront agrees hmem)
  | hidden found old _ ih =>
    cases front with
    | nil => cases member
    | cons first front =>
      obtain ⟨rfl, hfront⟩ := cons_prefix_cons.mp initial
      rw [messagesOf_cons, found] at agrees
      rcases mem_cons.mp member with rfl | hmem
      · rw [found] at other
        cases other
      · exact ih hfront ((unseenMessages_hidden old _) ▸ agrees) hmem
  | same found new _ _ ih =>
    rw [keptNodes_cons, if_pos rfl]
    cases front with
    | nil => cases member
    | cons first front =>
      obtain ⟨rfl, hfront⟩ := cons_prefix_cons.mp initial
      rw [messagesOf_cons, found, toList_some, singleton_append, unseenMessages_fresh new] at agrees
      rcases mem_cons.mp member with rfl | hmem
      · rw [found] at other
        cases other
      · exact mem_cons_of_mem _ (ih hfront (cons_prefix_cons.mp agrees).2 hmem)
  | apart found new differs =>
    cases front with
    | nil => cases member
    | cons first front =>
      obtain ⟨rfl, hfront⟩ := cons_prefix_cons.mp initial
      rw [messagesOf_cons, found, toList_some, singleton_append, unseenMessages_fresh new] at agrees
      obtain ⟨rest, rfl⟩ := agrees
      exact absurd rfl (differs _ rfl)

end

theorem mem_upToLastKept (kept : node ∈ keptNodes marks) : node ∈ upToLastKept marks := by
  induction marks with
  | nil => cases kept
  | cons mark marks ih =>
    rw [keptNodes_cons] at kept
    rw [upToLastKept]
    cases hmark : mark.2 with
    | true =>
      rw [hmark, if_pos rfl] at kept
      rw [Bool.true_or, if_pos rfl]
      exact (mem_cons.mp kept).elim (fun h => h ▸ mem_cons_self)
        fun h => mem_cons_of_mem _ (ih h)
    | false =>
      rw [hmark, if_neg Bool.false_ne_true] at kept
      have hlater := ih kept
      split
      · exact mem_cons_of_mem _ hlater
      · rename_i hnone
        rw [Bool.false_or] at hnone
        rw [upToLastKept_eq_nil (eq_false_of_not_eq_true hnone)] at hlater
        exact hlater

theorem keepsFrame_of_none {inFrame : SessionNodeRecord Json → Bool}
    (none : marks.any (·.2) = false) : KeepsFrame inFrame marks := by
  induction marks with
  | nil => trivial
  | cons mark marks ih =>
    rw [any_cons] at none
    refine ⟨fun h => ?_, ih (or_eq_false_iff.mp none).2⟩
    rw [none] at h
    cases h

theorem keptEvents_length (marks : List (SessionNodeRecord Json × Bool)) :
    ((keptNodes marks).filterMap event).length ≤ ((upToLastKept marks).filterMap event).length := by
  induction marks with
  | nil => exact Nat.le_refl _
  | cons mark marks ih =>
    rw [keptNodes_cons, filterMap_event_ite, upToLastKept]
    cases hlater : mark.2 || marks.any (·.2) with
    | true =>
      rw [if_pos rfl, filterMap_cons_toList, length_append, length_append]
      split
      · omega
      · rw [length_nil]
        omega
    | false =>
      obtain ⟨hmark, hnone⟩ := or_eq_false_iff.mp hlater
      rw [hmark, keptNodes_eq_nil hnone]
      exact Nat.le_refl _

/-- The kept events are those of the path exactly if every event up to the last is kept. -/
theorem keptEvents_eq_iff : (keptNodes marks).filterMap event =
      (upToLastKept marks).filterMap event ↔
    KeepsFrame (fun _ => true) marks := by
  constructor
  · intro h
    induction marks with
    | nil => trivial
    | cons mark marks ih =>
      cases hlater : mark.2 || marks.any (·.2) with
      | false => exact keepsFrame_of_none hlater
      | true =>
        rw [keptNodes_cons, filterMap_event_ite, upToLastKept, hlater, if_pos rfl,
          filterMap_cons_toList] at h
        cases hmark : mark.2 with
        | true =>
          rw [hmark, if_pos rfl] at h
          exact ⟨fun _ _ => hmark, ih (append_cancel_left h)⟩
        | false =>
          rw [hmark, if_neg Bool.false_ne_true, List.nil_append] at h
          have hlength := keptEvents_length marks
          rw [h, length_append] at hlength
          have hnil : mark.1.event = none := by
            cases hevent : mark.1.event with
            | none => rfl
            | some event =>
              rw [hevent, toList_some, length_singleton] at hlength
              omega
          rw [hnil, toList_none, nil_append] at h
          refine ⟨fun _ hsome => ?_, ih h⟩
          rw [hnil] at hsome
          cases hsome
  · intro keeps
    rw [event_keptNodes keeps, filter_true]

end Scans

section Tails

/-- The ids that the nodes of these messages take, one after another. -/
def newIds (existingNodeIds : Finset String) :
    Finset String → List (Message Json) → List String
  | _, [] => []
  | newNodeIds, message :: messages =>
    match uniqueMessageNodeIdForReplacement message.id existingNodeIds newNodeIds with
    | none => []
    | some id => id :: newIds existingNodeIds (insert id newNodeIds) messages

variable {replacement : ActiveReadReplacement Json} {agentFrameId : Option String}
  {timestamp : String} {existingNodeIds newNodeIds : Finset String}

/-- The tail has a node for each message that is left. -/
theorem appendTarget_tail : ∃ final, appendTarget agentFrameId timestamp existingNodeIds
        replacement newNodeIds messages = some final ∧
      final.newTailNodes.map (·.nodeId) = replacement.newTailNodes.map (·.nodeId) ++
        newIds existingNodeIds newNodeIds messages ∧
      messagesOf final.newTailNodes = messagesOf replacement.newTailNodes ++ messages := by
  induction messages generalizing replacement newNodeIds with
  | nil => exact ⟨replacement, rfl, (append_nil _).symm, (append_nil _).symm⟩
  | cons message messages ih =>
    obtain ⟨nodeId, hnodeId⟩ := isSome_iff_exists.mp
      (uniqueMessageNodeId_isSome message.id (existingNodeIds ∪ newNodeIds))
    have hunique : uniqueMessageNodeIdForReplacement message.id existingNodeIds newNodeIds =
      some nodeId := hnodeId
    rw [appendTarget, newIds, hunique]
    generalize hnode : SessionNodeRecord.mk nodeId replacement.leafNodeId
      (causalRefFromMessageOrigin message.origin) agentFrameId timestamp
      (.event (.conversation (.fromMessage message))) = node
    obtain ⟨final, hfinal, hids, hmessages⟩ := @ih
      { replacement.pushActiveReadNode node with
        newTailNodes := (replacement.pushActiveReadNode node).newTailNodes ++ [node] }
      (insert nodeId newNodeIds)
    have hid : node.nodeId = nodeId := by rw [← hnode]
    have hmessage : node.message = some message := by rw [← hnode]; rfl
    refine ⟨final, ?_, ?_, ?_⟩
    · rw [← hnode] at hfinal
      exact hfinal
    · rw [hids, pushActiveReadNode_newTailNodes, map_append, map_singleton, hid, append_assoc]
      rfl
    · rw [hmessages, pushActiveReadNode_newTailNodes, messagesOf_append, messagesOf_cons,
        hmessage, append_assoc]
      rfl

end Tails

section Law

/-- The marks of a scan of the path beside the messages that are not transient. -/
def marksOf (path : List (SessionNodeRecord Json)) (messages : List (Message Json)) :
    List (SessionNodeRecord Json × Bool) :=
  scan ∅ path (messages.filter fun message => !message.isTransient)

/-- What a replacement is expected to do to a graph with this active path. -/
structure Replaced (graph after : SessionGraph Json)
    (path afterPath : List (SessionNodeRecord Json)) (messages : List (Message Json))
    (replacement : ActiveReadReplacement Json)
    (model : SessionReadModel Json) : Prop where
  rebuilt : after.readModel.map Prod.fst = some model
  shows : model.messages = unseenMessages ∅ messages
  nodes : graph.nodes <+: after.nodes
  stays : ∀ front, front <+: path →
    unseenMessages ∅ (messagesOf front) <+: messages.filter (fun message => !message.isTransient) →
      ∀ node ∈ front, node.message = none → node ∈ afterPath
  activeEvents : replacement.activeEvents = model.activeEvents
  activeMessages : replacement.activeMessages = model.messages

def ReplacesSoundly (graph : SessionGraph Json) (agentFrameId : Option String)
    (messages : List (Message Json)) (timestamp : String) : Prop :=
  ∃ path replacement after afterPath model,
    RootToLeaf graph.nodes graph.leafNodeId path ∧
    buildActiveReadReplacement path graph.nodeIds agentFrameId messages timestamp =
      some replacement ∧
    graph.replaceActiveReadStateScoped agentFrameId messages timestamp = some after ∧
    RootToLeaf after.nodes after.leafNodeId afterPath ∧
    Replaced graph after path afterPath messages replacement model

/-- The kept messages are the given ones, no event is passed over before the last kept node, and
no new node takes the id at which the kept path breaks off. -/
structure Aligned (graph : SessionGraph Json) (path : List (SessionNodeRecord Json))
    (messages : List (Message Json)) : Prop where
  content : messagesOf (keptNodes (marksOf path messages)) <+:
    messages.filter fun message => !message.isTransient
  events : KeepsFrame (fun _ => true) (marksOf path messages)
  ends : ∀ id ∈ newIds graph.nodeIds ∅ ((messages.filter fun message => !message.isTransient).drop
      (messagesOf (keptNodes (marksOf path messages))).length),
    (upToLastKept (marksOf path messages)).head?.bind (·.parentNodeId) ≠ some id

def ReplacesWhen (graph : SessionGraph Json) (messages : List (Message Json)) : Prop :=
  ∃ path, RootToLeaf graph.nodes graph.leafNodeId path ∧ Aligned graph path messages

variable {agentFrameId : Option String} {timestamp : String}
  {replacement : ActiveReadReplacement Json} {afterPath : List (SessionNodeRecord Json)}

theorem build_tail (path : List (SessionNodeRecord Json)) (existingNodeIds : Finset String)
    (agentFrameId : Option String) (messages : List (Message Json)) (timestamp : String) :
    ∃ replacement, buildActiveReadReplacement path existingNodeIds agentFrameId messages timestamp =
        some replacement ∧
      replacement.newTailNodes.map (·.nodeId) = newIds existingNodeIds ∅
        ((messages.filter fun message => !message.isTransient).drop
          (messagesOf (keptNodes (marksOf path messages))).length) ∧
      messagesOf replacement.newTailNodes =
        (messages.filter fun message => !message.isTransient).drop
          (messagesOf (keptNodes (marksOf path messages))).length := by
  have hkeyed : Keyed ∅ ∅ := fun id => by simp
  obtain ⟨-, hrest⟩ := scanned hkeyed path (messages.filter fun message => !message.isTransient)
  have hnone : (keptBy path messages).newTailNodes = [] := keepMatching_newTailNodes ..
  obtain ⟨final, hfinal, hids, hmessages⟩ := @appendTarget_tail Json
    ((messages.filter fun message => !message.isTransient).drop
      (messagesOf (keptNodes (marksOf path messages))).length)
    (keptBy path messages) agentFrameId timestamp existingNodeIds ∅
  rw [hnone] at hids hmessages
  refine ⟨final, ?_, hids, hmessages⟩
  rw [← hfinal, marksOf, ← hrest]
  rfl

theorem activePathNodes_of_path (coherent : Coherent graph)
    (whole : RootToLeaf graph.nodes graph.leafNodeId path) :
    ∃ read, graph.activePathNodes = some (path, read) ∧ read.inner = graph.inner := by
  obtain ⟨indices, hwalk, rfl⟩ := rootToLeaf_iff.mp whole
  have hbuilt := build_eq_some_iff.mpr ⟨indices, hwalk, rfl⟩
  rw [activePathNodes, initCache_eq coherent, hbuilt]
  simp only [map_some, cacheOf_activePathIndices]
  exact ⟨_, rfl, rfl⟩

/-- The graph after a replacement. -/
def replacedGraph (graph : SessionGraph Json) (replacement : ActiveReadReplacement Json) :
    SessionGraph Json where
  inner := ⟨graph.nodes ++ replacement.newTailNodes, replacement.leafNodeId⟩
  cache := none

section Built

variable (built : buildActiveReadReplacement path graph.nodeIds agentFrameId messages timestamp =
  some replacement)

include built

theorem replaceActiveReadStateScoped_eq (coherent : Coherent graph)
    (whole : RootToLeaf graph.nodes graph.leafNodeId path) :
    graph.replaceActiveReadStateScoped agentFrameId messages timestamp =
      some (replacedGraph graph replacement) := by
  obtain ⟨read, hread, hinner⟩ := activePathNodes_of_path coherent whole
  have hids : read.nodeIds = graph.nodeIds := by
    rw [nodeIds, nodeIds, nodes, nodes, hinner]
  rw [replaceActiveReadStateScoped, hread]
  simp only [bind, bind_some]
  rw [hids, built, bind_some, dataMut, replacedGraph, hinner]
  rfl

/-- The path after a replacement is what was kept and the tail, if it does not come back to
itself. -/
theorem afterPath_iff (whole : RootToLeaf graph.nodes graph.leafNodeId path) :
    RootToLeaf (replacedGraph graph replacement).nodes
        (replacedGraph graph replacement).leafNodeId afterPath ↔
      (∀ node ∈ replacement.newTailNodes,
        (upToLastKept (marksOf path messages)).head?.bind (·.parentNodeId) ≠ some node.nodeId) ∧
      afterPath = upToLastKept (marksOf path messages) ++ replacement.newTailNodes := by
  obtain ⟨hchain, hfinal, -⟩ := buildActiveReadReplacement_spec built fun id hid => by
    rwa [SessionGraph.nodeIds, List.mem_toFinset]
  have hleaf := congrArg ActiveReadReplacement.leafNodeId hfinal
  have hgrown : (replacedGraph graph replacement).inner = replacement.newTailNodes.foldl withNode
      ⟨graph.nodes, (keptBy path messages).leafNodeId⟩ := by
    have hlast := (foldl_push_leafNodeId (keptBy path messages)
      ⟨graph.nodes, (keptBy path messages).leafNodeId⟩ rfl).symm.trans hleaf.symm
    exact (foldl_withNode_eq hlast).symm
  have hkept := rootToLeaf_keptBy whole messages
  have hend : breaksOffAt (keptBy path messages).leafNodeId (upToLastKept (marksOf path messages)) =
      (upToLastKept (marksOf path messages)).head?.bind (·.parentNodeId) := by
    rw [breaksOffAt, keptBy_leafNodeId, marksOf]
    cases upToLastKept (scan ∅ path (messages.filter fun message => !message.isTransient)) with
    | nil | cons root rest => rfl
  rw [SessionGraph.nodes, SessionGraph.leafNodeId, hgrown, rootToLeaf_chain_iff hchain, ← hend]
  constructor
  · rintro ⟨kept, hfirst, hends, rfl⟩
    obtain rfl : kept = upToLastKept (marksOf path messages) :=
      reverse_injective (Walk.unique hfirst hkept)
    exact ⟨hends, rfl⟩
  · rintro ⟨hends, rfl⟩
    exact ⟨_, hkept, hends, rfl⟩

/-- What comes back is read off the kept nodes and the tail. -/
theorem returned_eq :
    replacementModel replacement = readOf ((keptNodes (marksOf path messages) ++
      replacement.newTailNodes).filterMap event) := by
  obtain ⟨-, hfinal, -⟩ := buildActiveReadReplacement_spec built fun id hid => by
    rwa [nodeIds, List.mem_toFinset]
  have hmodel : replacementModel replacement = replacementModel
      (replacement.newTailNodes.foldl pushActiveReadNode
        (keptBy path messages)) := by
    rw [hfinal]
    rfl
  have hkept : keptBy path messages = (keptNodes (marksOf path messages)).foldl
      pushActiveReadNode _ := keepMatching_eq ..
  rw [hmodel, hkept, ← foldl_append, foldl_push_spec (by rfl)]
  exact foldl_readOne []

omit built in
theorem rebuilt_iff (coherent : Coherent after)
    (whole : RootToLeaf after.nodes after.leafNodeId afterPath) {model : SessionReadModel Json} :
    after.readModel.map Prod.fst = some model ↔ model = readOf (afterPath.filterMap event) := by
  rw [readModel_iff coherent]
  constructor
  · rintro ⟨other, hother, rfl⟩
    rw [reverse_injective (Walk.unique hother whole)]
  · intro h
    exact ⟨afterPath, whole, h⟩

/-- The messages that come back are those that are rebuilt, and they are the given ones if the
kept ones are. -/
theorem returned_messages :
    replacement.activeMessages = (readOf ((upToLastKept (marksOf path messages) ++
        replacement.newTailNodes).filterMap event)).messages ∧
      (replacement.activeMessages = unseenMessages ∅ messages ↔
        messagesOf (keptNodes (marksOf path messages)) <+:
          messages.filter fun message => !message.isTransient) := by
  obtain ⟨found, hfound, -, hrest⟩ := build_tail path graph.nodeIds agentFrameId messages timestamp
  obtain rfl : replacement = found := some.inj (built.symm.trans hfound)
  have hkeyed : Keyed ∅ ∅ := fun id => by simp
  obtain ⟨hscanned, -⟩ := scanned hkeyed path (messages.filter fun message => !message.isTransient)
  rw [← marksOf] at hscanned
  have hread : replacement.activeMessages = _ :=
    congrArg SessionReadModel.messages (returned_eq built)
  rw [readOf_messages, messagesOf_append] at hread
  constructor
  · rw [readOf_messages, messagesOf_append, hscanned.passed]
    exact hread
  · have hall := hscanned.given fun item hitem => by simpa using (mem_filter.mp hitem).2
    rw [unseenMessages_filter] at hall
    rw [unseenMessages_append, hscanned.kept_new, hrest] at hread
    rw [prefix_iff_eq_take, hread, hall]
    exact ⟨append_cancel_right, fun h => congrArg (· ++ _) h⟩

theorem returned_events :
    replacement.activeEvents = (upToLastKept (marksOf path messages) ++
        replacement.newTailNodes).filterMap event ↔
      KeepsFrame (fun _ => true) (marksOf path messages) := by
  have hread : replacement.activeEvents = _ :=
    congrArg SessionReadModel.activeEvents (returned_eq built)
  rw [hread, ← keptEvents_eq_iff]
  change filterMap _ _ = _ ↔ _
  rw [filterMap_append, filterMap_append]
  exact ⟨append_cancel_right, fun h => congrArg (· ++ _) h⟩

theorem replaced_iff (whole : RootToLeaf graph.nodes graph.leafNodeId path) :
    (∃ afterPath model, RootToLeaf (replacedGraph graph replacement).nodes
          (replacedGraph graph replacement).leafNodeId afterPath ∧
        Replaced graph (replacedGraph graph replacement) path afterPath messages replacement
          model) ↔
      Aligned graph path messages := by
  obtain ⟨found, hfound, hids, -⟩ := build_tail path graph.nodeIds agentFrameId messages timestamp
  obtain rfl : replacement = found := some.inj (built.symm.trans hfound)
  obtain ⟨hmessages, hgiven⟩ := returned_messages built
  have hevents := returned_events built
  have hends : (∀ node ∈ replacement.newTailNodes,
      (upToLastKept (marksOf path messages)).head?.bind (·.parentNodeId) ≠ some node.nodeId) ↔
      ∀ id ∈ newIds graph.nodeIds ∅ ((messages.filter fun message => !message.isTransient).drop
        (messagesOf (keptNodes (marksOf path messages))).length),
        (upToLastKept (marksOf path messages)).head?.bind (·.parentNodeId) ≠ some id := by
    rw [← hids]
    simp only [List.forall_mem_map]
  constructor
  · rintro ⟨afterPath, model, hpath, hreplaced⟩
    obtain ⟨haway, rfl⟩ := (afterPath_iff built whole).mp hpath
    obtain rfl := (rebuilt_iff (coherent_of_none (by rfl)) hpath).mp hreplaced.rebuilt
    exact
      { content := hgiven.mp (hreplaced.activeMessages.trans hreplaced.shows)
        events := hevents.mp hreplaced.activeEvents
        ends := hends.mp haway }
  · rintro ⟨hcontent, hkeeps, haway⟩
    have hpath := (afterPath_iff built whole).mpr ⟨hends.mpr haway, rfl⟩
    have hread := (rebuilt_iff (coherent_of_none (by rfl)) hpath).mpr rfl
    refine ⟨upToLastKept (marksOf path messages) ++ replacement.newTailNodes, _, hpath,
      { rebuilt := hread
        shows := hmessages.symm.trans (hgiven.mpr hcontent)
        nodes := prefix_append _ _
        stays := by
          intro front hfront hagrees node hnode hother
          have hkeyed : Keyed ∅ ∅ := fun id => by simp
          obtain ⟨hscanned, -⟩ :=
            scanned hkeyed path (messages.filter fun message => !message.isTransient)
          exact mem_append_left _
            (mem_upToLastKept (hscanned.keeps hfront hagrees hnode hother))
        activeEvents := hevents.mpr hkeeps
        activeMessages := hmessages }⟩

end Built

/-- A replacement does what is expected of it exactly if the given messages start with those it
keeps, it passes over no event, and the path it keeps does not break off at a new id. -/
theorem replaces_soundly_iff (coherent : Coherent graph) (agentFrameId : Option String)
    (messages : List (Message Json)) (timestamp : String) :
    ReplacesSoundly graph agentFrameId messages timestamp ↔ ReplacesWhen graph messages := by
  constructor
  · rintro ⟨path, replacement, after, afterPath, model, hwhole, hbuilt, hafter, hpath, hreplaced⟩
    rw [replaceActiveReadStateScoped_eq hbuilt coherent hwhole] at hafter
    obtain rfl := some.inj hafter
    exact ⟨path, hwhole, (replaced_iff hbuilt hwhole).mp ⟨afterPath, model, hpath, hreplaced⟩⟩
  · rintro ⟨path, hwhole, haligned⟩
    obtain ⟨replacement, hbuilt, -⟩ := build_tail path graph.nodeIds agentFrameId messages timestamp
    obtain ⟨afterPath, model, hpath, hreplaced⟩ := (replaced_iff hbuilt hwhole).mpr haligned
    exact ⟨path, replacement, _, afterPath, model, hwhole, hbuilt,
      replaceActiveReadStateScoped_eq hbuilt coherent hwhole, hpath, hreplaced⟩

def textMessage (id text : String) : Message String where
  id := id
  role := .user
  parts := [text]
  origin := none

variable (parent : Option String)

def messageNode (message : Message String) : SessionNodeRecord String where
  nodeId := message.id
  parentNodeId := parent
  causedBy := none
  agentFrameId := none
  timestamp := "t"
  payload := .event (.conversation (.fromMessage message))

def eventNode (id : String) : SessionNodeRecord String where
  nodeId := id
  parentNodeId := parent
  causedBy := none
  agentFrameId := none
  timestamp := "t"
  payload := .event (.protocol ⟨"plugin", id⟩)

/-- Two messages with an event between them. -/
def twoTexts : SessionGraph String :=
  SessionGraph.fromNodes [messageNode none (textMessage "m1" "image"),
    eventNode (some "m1") "e1", messageNode (some "e1") (textMessage "m2" "two")] (some "m2")

theorem replaces_soundly_iff_second : ReplacesSoundly twoTexts none
    [textMessage "m1" "image", textMessage "m3" "three"] "t" := by
  refine (replaces_soundly_iff (coherent_of_none rfl) none _ "t").mpr
    ⟨twoTexts.nodes, .visit (.visit (.visit .stop)), ?_⟩
  exact ⟨by decide, by decide, by decide⟩

/-- A message that is given again with other content is shown as it was. -/
theorem edited_message_kept :
    ((twoTexts.replaceActiveReadStateScoped none [textMessage "m1" "pruned"] "t").bind
      (·.readModel)).map (·.1.messages) = some [textMessage "m1" "image"] ∧
    ¬ ReplacesSoundly twoTexts none [textMessage "m1" "pruned"] "t" := by
  have hshown : ((twoTexts.replaceActiveReadStateScoped none [textMessage "m1" "pruned"] "t").bind
      (·.readModel)).map (·.1.messages) = some [textMessage "m1" "image"] := by decide
  refine ⟨hshown, ?_⟩
  rintro ⟨path, replacement, after, afterPath, model, -, -, hafter, -, hreplaced⟩
  obtain ⟨⟨found, read⟩, hread, rfl⟩ := map_eq_some_iff.mp hreplaced.rebuilt
  have hmessages := hreplaced.shows
  rw [hafter, bind_some, hread, map_some, hmessages] at hshown
  exact absurd (some.inj hshown) (by decide)

end Law

end ReadReplacements
