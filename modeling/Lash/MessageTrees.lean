import Lash.GraphForests
import Lash.ParentTrees

/-!
# The tree of the messages of a session

The tree shows every message node below the nearest message above it. Which nodes it marks as
active is looked up by node id among the ids of the messages on the active path; the two need
not be the same.
-/

namespace MessageTrees

open Runs ParentWalks ParentTrees SessionGraphs ActivePaths CacheCoherence List Option

variable {Json : Type}

/-- What a node of the tree holds besides its children. -/
structure MessageTreeFields (Json : Type) where
  nodeId : String
  parentMessageNodeId : Option String
  message : Message Json
  timestamp : String
  active : Bool
  deriving DecidableEq

abbrev SessionMessageTreeNode (Json : Type) := ParentTrees.Tree (MessageTreeFields Json)

def activeMessageIds (path : List (SessionNodeRecord Json)) : List String :=
  path.filterMap fun node => node.message.map (·.id)

/-- The tree node of a message node, without children; `none` while its ancestor is not found. -/
def treeFields (graph : SessionGraph Json) (activeIds : List String)
    (node : SessionNodeRecord Json) : Option (MessageTreeFields Json) := do
  let message ← node.message
  let parent ← graph.nearestMessageAncestor node.parentNodeId
  some
    { nodeId := node.nodeId
      parentMessageNodeId := parent
      message := message
      timestamp := node.timestamp
      active := activeIds.contains node.nodeId }

/-- Siblings by their timestamps. -/
def timestampOrder (a b : MessageTreeFields Json) : Bool := decide (a.timestamp ≤ b.timestamp)

/-- The source's `build_tree` with its `sort_tree`. -/
def buildTree (nodes : List (MessageTreeFields Json)) : List (SessionMessageTreeNode Json) :=
  sortSiblings timestampOrder (sortEach timestampOrder
    (build (·.nodeId) (·.parentMessageNodeId) nodes).1)

/-- The message nodes in the order of the graph. -/
def messageNodes (graph : SessionGraph Json) : List (SessionNodeRecord Json) :=
  graph.nodes.filter (·.message.isSome)

def messageTree (graph : SessionGraph Json) :
    Option (List (SessionMessageTreeNode Json) × SessionGraph Json) := do
  let (path, read) ← graph.activePathNodes
  let nodes ← (messageNodes graph).mapM (treeFields graph (activeMessageIds path))
  some (buildTree nodes, read)

/-! ## What the tree should show -/

/-- The first message from an index on towards the root. -/
inductive NearestMessage (nodes : List (SessionNodeRecord Json)) :
    Option Nat → Option String → Prop
  | root : NearestMessage nodes none none
  | here {i : Nat} {node : SessionNodeRecord Json} (stands : nodes[i]? = some node)
      (message : node.message.isSome = true) : NearestMessage nodes (some i) (some node.nodeId)
  | above {i : Nat} {node : SessionNodeRecord Json} {p : Option String}
      (stands : nodes[i]? = some node) (other : node.message.isSome = false)
      (further : NearestMessage nodes (parentIndex (indexNodes nodes) nodes i) p) :
      NearestMessage nodes (some i) p

/-- The nearest message above a node. -/
def MessageAbove (graph : SessionGraph Json) (node : SessionNodeRecord Json)
    (p : Option String) : Prop :=
  NearestMessage graph.nodes (node.parentNodeId.bind (indexNodes graph.nodes)) p

/-- A place in the tree shows the node rightly, where this is the active path. -/
structure Shows (graph : SessionGraph Json) (path : List (SessionNodeRecord Json))
    (node : SessionNodeRecord Json) (row : Option String × MessageTreeFields Json) : Prop where
  under : MessageAbove graph node row.1
  parent : row.2.parentMessageNodeId = row.1
  nodeId : row.2.nodeId = node.nodeId
  message : node.message = some row.2.message
  timestamp : row.2.timestamp = node.timestamp
  active : row.2.active = true ↔ node ∈ path

/-- The tree holds each message node once and shows it rightly. -/
def MessageTreeLaw (graph : SessionGraph Json) : Prop :=
  ∃ tree path read places, graph.activePathNodes = some (path, read) ∧
    messageTree graph = some (tree, read) ∧
    List.Forall₂ (Shows graph path) (messageNodes graph) places ∧
    (rows (·.nodeId) tree).Perm places

/-- From the node of this id, messages above messages lead to the root. -/
inductive MessagesLeadUp (graph : SessionGraph Json) : Option String → Prop
  | root : MessagesLeadUp graph none
  | message {node : SessionNodeRecord Json} {p : Option String} (mem : node ∈ graph.nodes)
      (message : node.message.isSome = true) (nearest : MessageAbove graph node p)
      (above : MessagesLeadUp graph p) : MessagesLeadUp graph (some node.nodeId)

/-- Every message node has its way up to the root. -/
def MessagesRooted (graph : SessionGraph Json) : Prop :=
  ∀ node ∈ graph.nodes, node.message.isSome = true →
    ∃ p, MessageAbove graph node p ∧ MessagesLeadUp graph p

/-- The message nodes on the active path are those whose node id is the id of a message on it. -/
def MarksAgree (graph : SessionGraph Json) (path : List (SessionNodeRecord Json)) : Prop :=
  ∀ node ∈ graph.nodes, node.message.isSome = true →
    (node.nodeId ∈ activeMessageIds path ↔ node ∈ path)

/-! ## The nearest message -/

section Nearest

variable {nodes : List (SessionNodeRecord Json)} {start : Option Nat} {p : Option String}
  {graph : SessionGraph Json} {node : SessionNodeRecord Json}

theorem nearestMessage_sound {fuel : Nat} (inside : ∀ i ∈ start, i < nodes.length)
    (h : nearestMessage (indexNodes nodes) nodes fuel start = some p) :
    NearestMessage nodes start p := by
  induction fuel generalizing start with
  | zero =>
    cases start with
    | none =>
      obtain rfl : none = p := by simpa [nearestMessage] using h
      exact .root
    | some i => simp [nearestMessage] at h
  | succ fuel ih =>
    cases start with
    | none =>
      obtain rfl : none = p := by simpa [nearestMessage] using h
      exact .root
    | some i =>
      have hi : i < nodes.length := inside i rfl
      have hnode : nodes[i]? = some nodes[i] := getElem?_eq_getElem hi
      rw [nearestMessage, hnode] at h
      dsimp only at h
      by_cases hmessage : nodes[i].message.isSome = true
      · rw [if_pos hmessage] at h
        obtain rfl := some.inj h
        exact .here hnode hmessage
      · rw [if_neg hmessage] at h
        refine .above hnode (by simpa using hmessage) (ih (fun u hu => ?_) h)
        exact parentIndex_lt hu

/-- The way to the root as far as the first message. -/
def toMessage (nodes : List (SessionNodeRecord Json)) (i : Nat) : Option Nat :=
  if (nodes[i]?.bind (·.message)).isSome then none else parentIndex (indexNodes nodes) nodes i

theorem toMessage_of_message {i : Nat} (stands : nodes[i]? = some node)
    (message : node.message.isSome = true) : toMessage nodes i = none := by
  rw [toMessage, stands, bind_some, if_pos message]

theorem toMessage_of_other {i : Nat} (stands : nodes[i]? = some node)
    (other : node.message.isSome = false) :
    toMessage nodes i = parentIndex (indexNodes nodes) nodes i := by
  rw [toMessage, stands, bind_some, if_neg (by simp [other])]

theorem NearestMessage.walk (nearest : NearestMessage nodes start p) :
    ∃ path, Walk (toMessage nodes) start path ∧ ∀ fuel, path.length ≤ fuel →
        nearestMessage (indexNodes nodes) nodes fuel start = some p := by
  induction nearest with
  | root =>
    refine ⟨[], .stop, fun fuel _ => ?_⟩
    rw [nearestMessage]
  | @here i node stands message =>
    have hstop := toMessage_of_message stands message
    refine ⟨[i], .visit (by rw [hstop]; exact .stop), fun fuel enough => ?_⟩
    cases fuel with
    | zero => simp at enough
    | succ fuel => simp only [nearestMessage, stands, message, if_true]
  | @above i node p stands other further ih =>
    obtain ⟨path, w, hfuel⟩ := ih
    have hnext := toMessage_of_other stands other
    refine ⟨i :: path, .visit (by rw [hnext]; exact w), fun fuel enough => ?_⟩
    cases fuel with
    | zero => simp at enough
    | succ fuel =>
      have hrest := hfuel fuel (Nat.le_of_succ_le_succ enough)
      simp only [nearestMessage, stands, other, Bool.false_eq_true, if_false]
      exact hrest

theorem toMessage_lt {i u : Nat} (h : toMessage nodes i = some u) : u < nodes.length := by
  rw [toMessage] at h
  split at h
  · simp at h
  · exact parentIndex_lt h

/-- The loop finds the nearest message where there is one to find. -/
theorem nearestMessageAncestor_iff (id : Option String) : graph.nearestMessageAncestor id = some p ↔
      NearestMessage graph.nodes (id.bind (indexNodes graph.nodes)) p := by
  have hinside : ∀ i ∈ id.bind (indexNodes graph.nodes), i < graph.nodes.length :=
    fun i hi => leafIndex_lt hi
  constructor
  · intro h
    exact nearestMessage_sound hinside h
  · intro nearest
    obtain ⟨path, w, hfuel⟩ := nearest.walk
    have hsubset : path ⊆ range graph.nodes.length := by
      refine w.subset (fun i hi => ?_) (fun i _ u hu => ?_)
      · exact mem_range.mpr (hinside i hi)
      · exact mem_range.mpr (toMessage_lt hu)
    have hlength := (w.nodup.subperm hsubset).length_le
    rw [length_range] at hlength
    exact hfuel _ hlength

theorem MessageAbove.unique {q : Option String} (h : MessageAbove graph node p)
    (h' : MessageAbove graph node q) : p = q := by
  have hp := (nearestMessageAncestor_iff node.parentNodeId).mpr h
  have hq := (nearestMessageAncestor_iff node.parentNodeId).mpr h'
  rw [hp] at hq
  exact some.inj hq

end Nearest

/-! ## The nodes of the tree -/

section Entries

variable {graph : SessionGraph Json} {ids : List String} {node : SessionNodeRecord Json}
  {entry : MessageTreeFields Json} {p : Option String}

theorem mapM_some_iff {A B : Type} {f : A → Option B} {items : List A} {out : List B} :
    items.mapM f = some out ↔ List.Forall₂ (fun a b => f a = some b) items out := by
  induction items generalizing out with
  | nil => simp [eq_comm]
  | cons a items ih =>
    rw [mapM_cons]
    constructor
    · intro h
      obtain ⟨b, hb, h⟩ := bind_eq_some_iff.mp h
      obtain ⟨bs, hbs, h⟩ := bind_eq_some_iff.mp h
      obtain rfl := some.inj h
      exact .cons hb (ih.mp hbs)
    · intro h
      cases h with
      | cons hb hbs =>
        have hrest := ih.mpr hbs
        simp only [hb, hrest, Option.bind_eq_bind, Option.bind_some, Option.pure_def]

/-- What a node of the tree says of its message node. -/
structure Enters (graph : SessionGraph Json) (ids : List String) (node : SessionNodeRecord Json)
    (entry : MessageTreeFields Json) : Prop where
  under : MessageAbove graph node entry.parentMessageNodeId
  nodeId : entry.nodeId = node.nodeId
  message : node.message = some entry.message
  timestamp : entry.timestamp = node.timestamp
  active : entry.active = ids.contains node.nodeId

theorem treeFields_iff : treeFields graph ids node = some entry ↔ Enters graph ids node entry := by
  constructor
  · intro h
    obtain ⟨message, hmessage, h⟩ := bind_eq_some_iff.mp h
    obtain ⟨parent, hparent, h⟩ := bind_eq_some_iff.mp h
    obtain rfl := some.inj h
    exact ⟨(nearestMessageAncestor_iff _).mp hparent, rfl, hmessage, rfl, rfl⟩
  · rintro ⟨hunder, hnodeId, hmessage, htimestamp, hactive⟩
    obtain ⟨nodeId, parent, message, timestamp, active⟩ := entry
    subst hnodeId htimestamp hactive
    have hparent := (nearestMessageAncestor_iff node.parentNodeId).mpr hunder
    simp only [treeFields, hmessage, hparent, bind_eq_bind, bind_some]

variable {entries : List (MessageTreeFields Json)}

theorem exists_related {A B : Type} {R : A → B → Prop} {items : List A} {out : List B}
    (related : List.Forall₂ R items out) {a : A} (mem : a ∈ items) : ∃ b ∈ out, R a b := by
  induction related with
  | nil => simp at mem
  | @cons first b items out hrelated _ ih =>
    rcases mem_cons.mp mem with rfl | mem
    · exact ⟨b, mem_cons_self, hrelated⟩
    · obtain ⟨other, hother, hother'⟩ := ih mem
      exact ⟨other, mem_cons_of_mem _ hother, hother'⟩

section

variable (entered : List.Forall₂ (Enters graph ids) (messageNodes graph) entries)
include entered

theorem exists_entry (mem : node ∈ graph.nodes) (message : node.message.isSome = true) :
    ∃ entry ∈ entries, Enters graph ids node entry :=
  exists_related entered (List.mem_filter.mpr ⟨mem, message⟩)

theorem exists_node (mem : entry ∈ entries) :
    ∃ node ∈ graph.nodes, node.message.isSome = true ∧ Enters graph ids node entry := by
  obtain ⟨node, hnode, enters⟩ := exists_related entered.flip mem
  obtain ⟨hmem, hmessage⟩ := mem_filter.mp hnode
  exact ⟨node, hmem, hmessage, enters⟩

/-- Following the parents of the tree nodes is following the messages of the graph. -/
theorem rooted_iff :
    Rooted (·.nodeId) (·.parentMessageNodeId) entries p ↔ MessagesLeadUp graph p := by
  constructor
  · intro rooted
    induction rooted with
    | top => exact .root
    | @under entry mem above ih =>
      obtain ⟨node, hmem, hmessage, enters⟩ := exists_node entered mem
      rw [enters.nodeId]
      exact .message hmem hmessage enters.under ih
  · intro leads
    induction leads with
    | root => exact .top
    | @message node p mem message nearest above ih =>
      obtain ⟨entry, hentry, enters⟩ := exists_entry entered mem message
      obtain rfl := nearest.unique enters.under
      rw [← enters.nodeId]
      exact .under hentry ih

theorem messagesRooted_iff :
    MessagesRooted graph ↔ ∀ entry ∈ entries,
      Rooted (·.nodeId) (·.parentMessageNodeId) entries entry.parentMessageNodeId := by
  constructor
  · intro rooted entry hentry
    obtain ⟨node, hmem, hmessage, enters⟩ := exists_node entered hentry
    obtain ⟨p, hnearest, hleads⟩ := rooted node hmem hmessage
    obtain rfl := hnearest.unique enters.under
    exact (rooted_iff entered).mpr hleads
  · intro rooted node hmem hmessage
    obtain ⟨entry, hentry, enters⟩ := exists_entry entered hmem hmessage
    exact ⟨_, enters.under, (rooted_iff entered).mp (rooted entry hentry)⟩

end

/-- Where every message has its way up, every message has its node of the tree. -/
theorem exists_entries (ids : List String) (rooted : MessagesRooted graph) :
    ∃ entries, List.Forall₂ (Enters graph ids) (messageNodes graph) entries := by
  have hall : ∀ node ∈ messageNodes graph, ∃ entry, Enters graph ids node entry := by
    intro node hnode
    obtain ⟨hmem, hmessage⟩ := mem_filter.mp hnode
    obtain ⟨message, hmessage⟩ := isSome_iff_exists.mp hmessage
    obtain ⟨p, hnearest, _⟩ := rooted node hmem (by rw [hmessage]; rfl)
    exact ⟨⟨node.nodeId, p, message, node.timestamp, ids.contains node.nodeId⟩,
      hnearest, rfl, hmessage, rfl, rfl⟩
  generalize messageNodes graph = nodes at hall
  induction nodes with
  | nil => exact ⟨[], .nil⟩
  | cons node nodes ih =>
    obtain ⟨entry, hentry⟩ := hall node mem_cons_self
    obtain ⟨entries, hentries⟩ := ih fun other hother => hall other (mem_cons_of_mem _ hother)
    exact ⟨entry :: entries, .cons hentry hentries⟩

theorem messageTree_iff {tree : List (SessionMessageTreeNode Json)} {read : SessionGraph Json} :
    messageTree graph = some (tree, read) ↔
      ∃ path entries, graph.activePathNodes = some (path, read) ∧
        List.Forall₂ (Enters graph (activeMessageIds path)) (messageNodes graph) entries ∧
        tree = buildTree entries := by
  have hentered : ∀ ids entries, List.Forall₂ (Enters graph ids) (messageNodes graph) entries ↔
      (messageNodes graph).mapM (treeFields graph ids) = some entries := by
    intro ids entries
    rw [mapM_some_iff]
    simp only [treeFields_iff]
  constructor
  · intro h
    obtain ⟨⟨path, read'⟩, hpath, h⟩ := bind_eq_some_iff.mp h
    obtain ⟨entries, hentries, h⟩ := bind_eq_some_iff.mp h
    obtain ⟨rfl, rfl⟩ := Prod.mk.inj (some.inj h)
    exact ⟨path, entries, hpath, (hentered _ _).mpr hentries, rfl⟩
  · rintro ⟨path, entries, hpath, entered, rfl⟩
    have hentries := (hentered _ _).mp entered
    simp only [messageTree, hpath, bind_eq_bind, bind_some, hentries]

/-- The rows of the sorted tree are those of the tree as built. -/
theorem rows_buildTree (entries : List (MessageTreeFields Json)) :
    (rows (·.nodeId) (buildTree entries)).Perm
      (rows (·.nodeId) (build (·.nodeId) (·.parentMessageNodeId) entries).1) :=
  rows_sortSiblings timestampOrder _

end Entries

/-! ## When the tree shows what it should -/

section Law

variable {graph read : SessionGraph Json} {path : List (SessionNodeRecord Json)}
  {ids : List String} {entries : List (MessageTreeFields Json)}

/-- All nodes are in the tree only if none of them is left over. -/
theorem rooted_of_length (length : (rows (·.nodeId) (buildTree entries)).length = entries.length) :
    ∀ entry ∈ entries,
      Rooted (·.nodeId) (·.parentMessageNodeId) entries entry.parentMessageNodeId := by
  refine left_eq_nil_iff.mp (eq_nil_of_length_eq_zero ?_)
  have hall := (rows_append_left_perm (fun entry : MessageTreeFields Json => entry.nodeId)
    (·.parentMessageNodeId) entries).length_eq
  rw [length_append, ← (rows_buildTree entries).length_eq, length, length_map, length_map] at hall
  omega

theorem mem_of_mem_rows {row : Option String × MessageTreeFields Json}
    (h : row ∈ rows (·.nodeId) (buildTree entries)) : row.2 ∈ entries := by
  have hbuilt := (rows_buildTree entries).subset h
  obtain ⟨entry, hentry, rfl⟩ := mem_map.mp ((rows_append_left_perm _ _ entries).subset
    (mem_append_left _ hbuilt))
  exact hentry

/-- A tree that shows the nodes rightly marks by message ids what is on the path. -/
theorem marksAgree_of_rows {places : List (Option String × MessageTreeFields Json)}
    (entered : List.Forall₂ (Enters graph (activeMessageIds path)) (messageNodes graph) entries)
    (shown : List.Forall₂ (Shows graph path) (messageNodes graph) places)
    (held : (rows (·.nodeId) (buildTree entries)).Perm places) : MarksAgree graph path := by
  intro node hmem hmessage
  obtain ⟨row, hrow, hshows⟩ := exists_related shown (mem_filter.mpr ⟨hmem, hmessage⟩)
  obtain ⟨other, _, _, enters⟩ := exists_node entered (mem_of_mem_rows (held.symm.subset hrow))
  have hid : other.nodeId = node.nodeId := by rw [← enters.nodeId, hshows.nodeId]
  rw [← hshows.active, enters.active, hid, contains_iff_mem]

theorem shows_of_enters {node : SessionNodeRecord Json} {entry : MessageTreeFields Json}
    (marks : MarksAgree graph path) (mem : node ∈ messageNodes graph)
    (enters : Enters graph (activeMessageIds path) node entry) :
    Shows graph path node (placed (·.parentMessageNodeId) entry) where
  under := enters.under
  parent := rfl
  nodeId := enters.nodeId
  message := enters.message
  timestamp := enters.timestamp
  active := by
    obtain ⟨hmem, hmessage⟩ := mem_filter.mp mem
    rw [← marks node hmem hmessage, placed, enters.active, contains_iff_mem]

theorem forall₂_shows (marks : MarksAgree graph path)
    (entered : List.Forall₂ (Enters graph (activeMessageIds path)) (messageNodes graph) entries) :
    List.Forall₂ (Shows graph path) (messageNodes graph)
      (entries.map (placed (·.parentMessageNodeId))) := by
  have hboth := (forall₂_and_left (messageNodes graph) entries).mpr ⟨fun _ h => h, entered⟩
  refine forall₂_map_right_iff.mpr (hboth.imp ?_)
  rintro node entry ⟨mem, enters⟩
  exact shows_of_enters marks mem enters

/-- The tree holds each message node once, below the nearest message above it and marked as active
exactly when it lies on the active path, if and only if the walk from the leaf ends, messages above
messages lead to the root, and the ids of the active messages are those of their nodes. -/
theorem message_tree_law_iff : MessageTreeLaw graph ↔
    ∃ path read, graph.activePathNodes = some (path, read) ∧ MessagesRooted graph ∧
      MarksAgree graph path := by
  constructor
  · rintro ⟨tree, path, read, places, hpath, htree, shown, held⟩
    obtain ⟨path', entries, hpath', entered, rfl⟩ := messageTree_iff.mp htree
    obtain ⟨rfl, -⟩ := Prod.mk.inj (some.inj (hpath.symm.trans hpath'))
    refine ⟨path, read, hpath, ?_, marksAgree_of_rows entered shown held⟩
    refine (messagesRooted_iff entered).mpr (rooted_of_length ?_)
    rw [held.length_eq, ← shown.length_eq, entered.length_eq]
  · rintro ⟨path, read, hpath, rooted, marks⟩
    obtain ⟨entries, entered⟩ := exists_entries (activeMessageIds path) rooted
    refine ⟨_, path, read, _, hpath, messageTree_iff.mpr ⟨path, entries, hpath, entered, rfl⟩,
      forall₂_shows marks entered, ?_⟩
    exact (rows_buildTree entries).trans
      (rows_build_perm_iff.mpr ((messagesRooted_iff entered).mp rooted))

/-- The same message is appended on two branches. -/
def repeatedMessageOps : List (GraphOp Unit) :=
  [.appendNodeDrafts none [.message (userMessage "m1")] "t" [], .branchTo none,
    .appendNodeDrafts none [.message (userMessage "m1")] "u" []]

/-- The second node of the message has an id of its own: the node on the active path is not marked
as active, the node of the other branch is. -/
theorem repeated_message_marks_other_branch :
    let graph := (perform graphStep repeatedMessageOps ([], SessionGraph.default)).2
    Made graph ∧ graph.nodes.map (·.nodeId) = ["m1", "message:m1"] ∧
      (graph.activePathNodes.map fun (path, _) => (path.map (·.nodeId), activeMessageIds path)) =
        some (["message:m1"], ["m1"]) ∧ ¬ MessageTreeLaw graph := by
  intro graph
  have hids : graph.nodes.map (·.nodeId) = ["m1", "message:m1"] := by decide
  have hpath : (graph.activePathNodes.map fun (path, _) =>
      (path.map (·.nodeId), activeMessageIds path)) = some (["message:m1"], ["m1"]) := by
    decide
  have hmessages : graph.nodes.all (·.message.isSome) = true := by decide
  refine ⟨(Run.nil.perform repeatedMessageOps).reachable, hids, hpath, fun hlaw => ?_⟩
  obtain ⟨tree, path, read, places, hactive, htree, shown, held⟩ := hlaw
  obtain ⟨path', entries, hactive', entered, rfl⟩ := messageTree_iff.mp htree
  obtain ⟨rfl, -⟩ := Prod.mk.inj (some.inj (hactive.symm.trans hactive'))
  have hmarks := marksAgree_of_rows entered shown held
  rw [hactive, map_some, some.injEq, Prod.mk.injEq] at hpath
  obtain ⟨hpathIds, hactiveIds⟩ := hpath
  -- the inactive node is marked by the id of its message
  obtain ⟨node, hnode, hid⟩ : ∃ node ∈ graph.nodes, node.nodeId = "m1" := by
    have hfirst : "m1" ∈ graph.nodes.map (·.nodeId) := by simp [hids]
    obtain ⟨node, hnode, hid⟩ := mem_map.mp hfirst
    exact ⟨node, hnode, hid⟩
  have hmarked := hmarks node hnode (all_eq_true.mp hmessages node hnode)
  rw [hid, hactiveIds] at hmarked
  have honPath : node.nodeId ∈ path.map (·.nodeId) := mem_map_of_mem (hmarked.mp mem_cons_self)
  rw [hpathIds, hid] at honPath
  simp at honPath

end Law

end MessageTrees
