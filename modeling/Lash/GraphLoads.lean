import Lash.CompletedInputs
import Lash.StoreLedgers

/-!
# What a session is loaded from

The database reads the leaf from the session head. The in-memory store keeps a
leaf inside its graph too, which only a full replacement moves, and loads the
whole graph under that one. It takes tombstoned nodes out of the path after it has
walked it, the database stops at them.
-/

namespace GraphLoads

open Runs ParentWalks StoreTypes SessionGraphs RuntimeCommits InMemoryStore CacheCoherence
  GraphLedgers StoreLedgers List Option InMemorySessionStore SessionGraph

variable {Json : Type}

section Loads

variable {load load' : SessionReadScope → Option (Option (SessionGraphData Json))}
  {ledger : GraphLedger Json}

/-- A read answers from the ledger: the visible nodes with the leaf named last, and the
path from the root to that leaf. Where no path ends at the leaf the read does not return. -/
structure LoadsLedger (load : SessionReadScope → Option (Option (SessionGraphData Json)))
    (ledger : GraphLedger Json) : Prop where
  unbound : ledger.leaf = none → ∀ scope, load scope = some none
  bound : ∀ leaf, ledger.leaf = some leaf → ∀ scope, load scope ≠ some none
  fullGraph : ∀ leaf, ledger.leaf = some leaf →
    load .fullGraph = some (some ⟨ledger.visibleNodes, leaf⟩)
  activePath : ∀ leaf, ledger.leaf = some leaf → ∀ data,
    load (.activePath none) = some (some data) ↔
      ∃ path, RootToLeaf ledger.visibleNodes leaf path ∧ data = ⟨path, leaf⟩

theorem LoadsLedger.agree (loads : LoadsLedger load ledger) (loads' : LoadsLedger load' ledger) :
    load .fullGraph = load' .fullGraph ∧ load (.activePath none) = load' (.activePath none) := by
  cases hleaf : ledger.leaf with
  | none => simp only [loads.unbound hleaf, loads'.unbound hleaf, and_self]
  | some leaf =>
    refine ⟨(loads.fullGraph leaf hleaf).trans (loads'.fullGraph leaf hleaf).symm, ?_⟩
    refine ext fun answer => ?_
    cases answer with
    | none =>
      exact iff_of_false (loads.bound leaf hleaf _) (loads'.bound leaf hleaf _)
    | some data =>
      exact (loads.activePath leaf hleaf data).trans (loads'.activePath leaf hleaf data).symm

end Loads

section DatabaseLoads

open SqliteStore

variable {db : Store Json} {ledger : GraphLedger Json}

def databaseGraph (db : Store Json) (scope : SessionReadScope) :
    Option (Option (SessionGraphData Json)) :=
  (db.loadSession scope).map (Option.map (·.graph.inner))

/-- Where ids are distinct it does not matter from which end a node is looked up. -/
theorem find?_reverse_of_nodup {nodes : List (SessionNodeRecord Json)}
    (distinct : (nodes.map (·.nodeId)).Nodup) (id : String) :
    nodes.reverse.find? (·.nodeId == id) = nodes.find? (·.nodeId == id) := by
  induction nodes with
  | nil => rfl
  | cons node nodes ih =>
    obtain ⟨hfresh, hrest⟩ := nodup_cons.mp distinct
    rw [reverse_cons, find?_append, ih hrest, find?_cons]
    by_cases hid : node.nodeId = id
    · have hnone : nodes.find? (·.nodeId == id) = none := by
        refine find?_eq_none.mpr fun other hother hsame => hfresh ?_
        exact mem_map.mpr ⟨other, hother, (beq_iff_eq.mp hsame).trans hid.symm⟩
      simp [hid, hnone]
    · simp [beq_false_of_ne hid]

theorem findVisible_eq (holds : Holds db ledger) (id : String) :
    findVisible db.graphNodes id = latestNode ledger.visibleNodes id := by
  have hdistinct : (ledger.visibleNodes.map (·.nodeId)).Nodup := by
    rw [← holds.visible, List.map_map]
    exact (filter_sublist.map _).nodup db.graphNodes.distinct
  rw [latestNode, find?_reverse_of_nodup hdistinct, ← holds.visible, find?_map]
  rfl

theorem activePath_iff (holds : Holds db ledger) (leaf : String)
    {path : List (SessionNodeRecord Json)} :
    activePath db.graphNodes leaf = some path ↔
      RootToLeaf ledger.visibleNodes (some leaf) path := by
  have hnext : (fun node : SessionNodeRecord Json =>
      node.parentNodeId.bind (findVisible db.graphNodes)) = parentNode ledger.visibleNodes := by
    funext node
    exact bind_congr fun id _ => findVisible_eq holds id
  have hlength : (visibleRows db.graphNodes).length = ledger.visibleNodes.length := by
    rw [← holds.visible, length_map]
  rw [activePath, hnext, hlength, findVisible_eq holds, map_eq_some_iff, RootToLeaf]
  have hwalk : ∀ backwards, walk (parentNode ledger.visibleNodes) ledger.visibleNodes.length
      (latestNode ledger.visibleNodes leaf) = some backwards ↔
        Walk (parentNode ledger.visibleNodes) (leafNode ledger.visibleNodes (some leaf))
          backwards := fun backwards => by
    refine walk_length_eq_some_iff (fun node h => latestNode_mem h) fun _ _ node h => ?_
    obtain ⟨id, _, hid⟩ := bind_eq_some_iff.mp h
    exact latestNode_mem hid
  simp only [hwalk]
  constructor
  · rintro ⟨backwards, hbackwards, rfl⟩
    rwa [reverse_reverse]
  · intro hpath
    exact ⟨path.reverse, hpath, reverse_reverse path⟩

theorem databaseGraph_of_head {head : SessionHeadMeta Json} (h : db.sessionHead = some head)
    (scope : SessionReadScope) :
    databaseGraph db scope = (db.scopedGraph scope head).map fun graph => some graph.inner := by
  simp [databaseGraph, Store.loadSession, h, Option.map_map, Function.comp_def]

theorem loadsLedger_of_holds (holds : Holds db ledger) : LoadsLedger (databaseGraph db) ledger := by
  have hleaf := holds.leaf
  cases hhead : db.sessionHead with
  | none =>
    rw [hhead, map_none] at hleaf
    have hsome : ∀ leaf, ledger.leaf ≠ some leaf := fun leaf h => by
      rw [← hleaf] at h
      cases h
    refine ⟨fun _ scope => ?_, fun leaf h => absurd h (hsome leaf),
      fun leaf h => absurd h (hsome leaf), fun leaf h => absurd h (hsome leaf)⟩
    simp [databaseGraph, Store.loadSession, hhead]
  | some head =>
    rw [hhead, map_some] at hleaf
    constructor
    · intro hnone
      rw [← hleaf] at hnone
      cases hnone
    · intro _ _ scope
      rw [databaseGraph_of_head hhead]
      simp
    · intro leaf h
      obtain rfl := some.inj (hleaf.trans h)
      rw [databaseGraph_of_head hhead, Store.scopedGraph, holds.visible]
      rfl
    · intro leaf h data
      obtain rfl := some.inj (hleaf.trans h)
      rw [databaseGraph_of_head hhead, Store.scopedGraph]
      cases hnamed : head.leafNodeId with
      | none =>
        simp only [rootToLeaf_none, exists_eq_left]
        exact ⟨fun h => (some.inj (some.inj h)).symm, fun h => by rw [h]; rfl⟩
      | some leaf =>
        have horElse : ((none : Option String) <|> some leaf) = some leaf := rfl
        rw [horElse]
        simp only [Option.map_map, Option.map_eq_some_iff, activePath_iff holds,
          Function.comp_apply, Option.some.injEq, fromNodes]
        exact exists_congr fun path => and_congr_right fun _ => eq_comm

end DatabaseLoads

section StoreLoads

variable {store : InMemorySessionStore Json}

def storeGraph (store : InMemorySessionStore Json) (scope : SessionReadScope) :
    Option (Option (SessionGraphData Json)) :=
  (store.loadSession scope).map (Option.map (·.graph.inner))

def visibleLeaf (hidden : Finset String) (leaf : Option String) : Option String :=
  leaf.filter fun id => decide (id ∉ hidden)

theorem visibleLeaf_eq_self {hidden : Finset String} {leaf : Option String} :
    visibleLeaf hidden leaf = leaf ↔ ∀ id ∈ leaf, id ∉ hidden := by
  cases leaf with
  | none => simp [visibleLeaf]
  | some id => simp [visibleLeaf, filter_some]

variable {head : SessionHeadMeta Json}

theorem storeGraph_of_head (h : store.sessionHeadMeta = some head) (scope : SessionReadScope) :
    storeGraph store scope = (store.scopedGraph scope head).map fun graph =>
      some ⟨graph.nodes.filter (isVisible store.tombstonedNodeIds),
        visibleLeaf store.tombstonedNodeIds graph.leafNodeId⟩ := by
  simp only [storeGraph, loadSession, h, Option.map_map]
  refine Option.map_congr fun graph _ => ?_
  simp only [Function.comp_apply, map_some]
  split
  · rename_i hnone
    have hall : graph.nodes.filter (isVisible store.tombstonedNodeIds) = graph.nodes :=
      filter_eq_self.mpr fun node _ => by simp [isVisible, hnone]
    have hleaf : visibleLeaf store.tombstonedNodeIds graph.leafNodeId = graph.leafNodeId :=
      visibleLeaf_eq_self.mpr fun id _ => by simp [hnone]
    rw [hall, hleaf]
    rfl
  · rfl

/-- The leaf inside the stored graph is the one that was named last, and no tombstone
stands in the way of a read. -/
def Stands (store : InMemorySessionStore Json) : Prop :=
  ∀ leaf, (storeLedger store).leaf = some leaf →
    store.sessionGraph.leafNodeId = leaf ∧ (storeLedger store).Undisturbed leaf

/-- What holds of the stored graph in every run. -/
structure Sound (store : InMemorySessionStore Json) : Prop where
  leafless : store.sessionGraph.leafNodeId = none → Coherent store.sessionGraph
  unbound : store.sessionHeadMeta = none → store.sessionGraph.leafNodeId = none

theorem scopedGraph_activePath (sound : Sound store)
    (same : store.sessionGraph.leafNodeId = head.leafNodeId) {fork : SessionGraph Json} :
    store.scopedGraph (.activePath none) head = some fork ↔
      ∃ path, RootToLeaf store.sessionGraph.nodes head.leafNodeId path ∧
        fork = .fromNodes path head.leafNodeId := by
  rw [scopedGraph]
  cases hleaf : head.leafNodeId with
  | none =>
    rw [hleaf] at same
    have hfork := @forkCurrentPath_iff Json store.sessionGraph fork (sound.leafless same)
    rwa [same] at hfork
  | some leaf =>
    exact @forkCurrentPath_iff Json (store.sessionGraph.setLeafNodeId (some leaf)) fork
      (coherent_of_none rfl)

/-- With the right leaf, and that one visible, a read of the active path answers with
what is visible of it. -/
theorem storeGraph_activePath (sound : Sound store) (hhead : store.sessionHeadMeta = some head)
    (same : store.sessionGraph.leafNodeId = head.leafNodeId)
    (visible : ∀ id ∈ head.leafNodeId, id ∉ store.tombstonedNodeIds)
    (data : SessionGraphData Json) :
    storeGraph store (.activePath none) = some (some data) ↔
      ∃ whole, RootToLeaf store.sessionGraph.nodes head.leafNodeId whole ∧
        data = ⟨whole.filter (isVisible store.tombstonedNodeIds), head.leafNodeId⟩ := by
  rw [storeGraph_of_head hhead, map_eq_some_iff]
  simp only [scopedGraph_activePath sound same, some.injEq]
  constructor
  · rintro ⟨_, ⟨whole, hwhole, rfl⟩, rfl⟩
    refine ⟨whole, hwhole, ?_⟩
    rw [fromNodes, leafNodeId, visibleLeaf_eq_self.mpr visible]
    rfl
  · rintro ⟨whole, hwhole, rfl⟩
    refine ⟨_, ⟨whole, hwhole, rfl⟩, ?_⟩
    rw [fromNodes, leafNodeId, visibleLeaf_eq_self.mpr visible]
    rfl

theorem leaf_of_head (hhead : store.sessionHeadMeta = some head) :
    (storeLedger store).leaf = some head.leafNodeId := by
  simp [storeLedger, hhead]

theorem stands_of_loadsLedger (sound : Sound store) (hhead : store.sessionHeadMeta = some head)
    (near : store.sessionGraph.leafNodeId = head.leafNodeId ∨
      ∀ id ∈ store.sessionGraph.leafNodeId, id ∉ store.tombstonedNodeIds)
    (loads : LoadsLedger (storeGraph store) (storeLedger store)) : Stands store := by
  have hleaf := leaf_of_head hhead
  intro leaf h
  obtain rfl := some.inj (hleaf.symm.trans h)
  have hfull := loads.fullGraph _ hleaf
  rw [storeGraph_of_head hhead, scopedGraph, map_some,
    some.injEq, some.injEq, SessionGraphData.mk.injEq] at hfull
  have hright : store.sessionGraph.leafNodeId = head.leafNodeId := by
    rcases near with hsame | hvisible
    · exact hsame
    · rw [visibleLeaf_eq_self.mpr hvisible] at hfull
      exact hfull.2
  have hvisible : ∀ id ∈ head.leafNodeId, id ∉ store.tombstonedNodeIds := by
    refine visibleLeaf_eq_self.mp ?_
    rw [hright] at hfull
    exact hfull.2
  refine ⟨hright, hvisible, dropsTop_iff_rootToLeaf.mpr fun path => ?_⟩
  have hanswer := loads.activePath _ hleaf ⟨path, head.leafNodeId⟩
  have hloaded : RootToLeaf (storeLedger store).visibleNodes head.leafNodeId path ↔ _ :=
    Iff.trans ⟨fun h => hanswer.mpr ⟨path, h, rfl⟩, fun h => by
      obtain ⟨other, hother, heq⟩ := hanswer.mp h
      obtain rfl : path = other := congrArg SessionGraphData.nodes heq
      exact hother⟩ (storeGraph_activePath sound hhead hright hvisible ⟨path, head.leafNodeId⟩)
  refine hloaded.trans ⟨?_, ?_⟩
  · rintro ⟨whole, hwhole, h⟩
    exact ⟨whole, hwhole, congrArg SessionGraphData.nodes h⟩
  · rintro ⟨whole, hwhole, rfl⟩
    exact ⟨whole, hwhole, rfl⟩

theorem loadsLedger_of_stands (sound : Sound store) (hhead : store.sessionHeadMeta = some head)
    (stands : Stands store) : LoadsLedger (storeGraph store) (storeLedger store) := by
  have hleaf := leaf_of_head hhead
  obtain ⟨hright, hundisturbed, htop⟩ := stands _ hleaf
  have hvisible : ∀ id ∈ head.leafNodeId, id ∉ store.tombstonedNodeIds := hundisturbed
  have hpaths := dropsTop_iff_rootToLeaf.mp htop
  constructor
  · intro hnone
    rw [hleaf] at hnone
    cases hnone
  · intro _ _ scope
    rw [storeGraph_of_head hhead]
    simp
  · intro leaf h
    obtain rfl := some.inj (hleaf.symm.trans h)
    rw [storeGraph_of_head hhead, scopedGraph, map_some, hright, visibleLeaf_eq_self.mpr hvisible]
    rfl
  · intro leaf h data
    obtain rfl := some.inj (hleaf.symm.trans h)
    rw [storeGraph_activePath sound hhead hright hvisible data]
    constructor
    · rintro ⟨whole, hwhole, rfl⟩
      exact ⟨_, (hpaths _).mpr ⟨whole, hwhole, rfl⟩, rfl⟩
    · rintro ⟨path, hpath, rfl⟩
      obtain ⟨whole, hwhole, rfl⟩ := (hpaths path).mp hpath
      exact ⟨whole, hwhole, rfl⟩

/-- If the leaf inside the graph is right or at least visible, a read answers from the
ledger exactly if the leaf is right and no tombstone stands in the way. -/
theorem loadsLedger_iff_stands (sound : Sound store)
    (near : ∀ leaf, (storeLedger store).leaf = some leaf → store.sessionGraph.leafNodeId = leaf ∨
        ∀ id ∈ store.sessionGraph.leafNodeId, id ∉ store.tombstonedNodeIds) :
    LoadsLedger (storeGraph store) (storeLedger store) ↔ Stands store := by
  cases hhead : store.sessionHeadMeta with
  | none =>
    have hleaf : ∀ leaf, (storeLedger store).leaf ≠ some leaf := fun leaf => by
      simp [storeLedger, hhead]
    refine iff_of_true ⟨fun _ scope => ?_, fun leaf h => absurd h (hleaf leaf),
      fun leaf h => absurd h (hleaf leaf), fun leaf h => absurd h (hleaf leaf)⟩
      fun leaf h => absurd h (hleaf leaf)
    simp [storeGraph, loadSession, hhead]
  | some head =>
    exact ⟨stands_of_loadsLedger sound hhead (near _ (leaf_of_head hhead)),
      loadsLedger_of_stands sound hhead⟩

end StoreLoads

section Steps

variable {store after : InMemorySessionStore Json}

/-- A commit that does not replace the graph names the leaf that is stored inside it. -/
def NamesStored (stored : Option String) : GraphWrite Json → Prop
  | .commit (.unchanged leaf) => leaf = stored
  | .commit (.append _ leaf) => leaf = stored
  | .commit (.replaceFull _) => True
  | .tombstone _ => True
  | .vacuum => True

def WriteKeepsLeaf (store : InMemorySessionStore Json) (write : GraphWrite Json) : Prop :=
  NamesStored store.sessionGraph.leafNodeId write ∧
    ∀ leaf, (write.apply (storeLedger store)).leaf = some leaf →
      (write.apply (storeLedger store)).Undisturbed leaf

/-- What the call writes names the stored leaf and leaves the way from it to the root
undisturbed. -/
def KeepsLeaf (e : StoreEntry Json) : Prop :=
  ∀ write, storeWrite e = some write → WriteKeepsLeaf e.before write

variable {e : StoreEntry Json}

theorem commit_of_storeWrite {delta : GraphCommitDelta Json}
    (h : storeWrite e = some (.commit delta)) :
    ∃ commit, e.input.2 = .commitRuntimeState commit ∧ commit.graph = delta := by
  unfold storeWrite writeOf at h
  split at h
  · rename_i commit _ hop _
    split at h
    · exact ⟨commit, hop, by cases h; rfl⟩
    · cases h
  · cases h
  · cases h
  · cases h

/-- Where nothing is hidden and the call hides nothing, only the named leaf matters. -/
theorem keepsLeaf_of_clear (clear : e.before.tombstonedNodeIds = ∅)
    (hides : ∀ ids, e.input.2 ≠ .tombstoneNodes ids)
    (names : ∀ commit, e.input.2 = .commitRuntimeState commit →
      NamesStored e.before.sessionGraph.leafNodeId (.commit commit.graph)) : KeepsLeaf e := by
  intro write hwrite
  have hhidden : (storeLedger e.before).hidden = ∅ := clear
  cases write with
  | commit delta =>
    obtain ⟨commit, hop, rfl⟩ := commit_of_storeWrite hwrite
    refine ⟨names commit hop, fun leaf _ => undisturbed_of_empty ?_ leaf⟩
    rw [GraphWrite.apply, hhidden, Finset.empty_sdiff]
  | tombstone ids =>
    unfold storeWrite writeOf at hwrite
    split at hwrite
    · split at hwrite
      · cases hwrite
      · cases hwrite
    · rename_i ids hop
      exact absurd hop (hides ids)
    · cases hwrite
    · cases hwrite
  | vacuum => exact ⟨trivial, fun leaf _ => undisturbed_of_empty rfl leaf⟩

theorem leaf_of_stands (sound : Sound store) (stands : Stands store) :
    ∀ id ∈ store.sessionGraph.leafNodeId, id ∉ store.tombstonedNodeIds := by
  cases hhead : store.sessionHeadMeta with
  | none => simp [sound.unbound hhead]
  | some head =>
    obtain ⟨hsame, hvisible, _⟩ := stands head.leafNodeId (by simp [storeLedger, hhead])
    rw [hsame]
    exact hvisible

/-- A vacuum keeps a leaf that is visible. -/
theorem vacuum_leaf (visible : ∀ id ∈ store.sessionGraph.leafNodeId, id ∉ store.tombstonedNodeIds) :
    (writtenGraph store .vacuum).leafNodeId = store.sessionGraph.leafNodeId := by
  rw [writtenGraph]
  split
  · rfl
  · exact visibleLeaf_eq_self.mpr visible

theorem Sound.step {write : Option (GraphWrite Json)} (sound : Sound store)
    (follows : Follows store after write)
    (made : ∀ next, write = some (.commit (.replaceFull next)) → Made next) : Sound after := by
  have hleaf : after.sessionHeadMeta = none → (storeLedger after).leaf = none := fun h => by
    simp [storeLedger, h]
  have hunbound : (storeLedger store).leaf = none → store.sessionGraph.leafNodeId = none :=
    fun h => sound.unbound (map_eq_none_iff.mp h)
  rw [follows.ledger] at hleaf
  constructor
  · rw [follows.graph]
    cases write with
    | none => exact sound.leafless
    | some write =>
      cases write with
      | commit delta =>
        cases delta with
        | unchanged leaf => exact sound.leafless
        | append nodes leaf => exact fun _ => coherent_of_none rfl
        | replaceFull next => exact (made next rfl).leafless_coherent
      | tombstone ids => exact sound.leafless
      | vacuum =>
        rw [elim_some, writtenGraph]
        split
        · exact sound.leafless
        · exact fun _ => coherent_of_none rfl
  · intro hnone
    have hledger := hleaf hnone
    rw [follows.graph]
    cases write with
    | none => exact hunbound hledger
    | some write =>
      cases write with
      | commit delta => cases hledger
      | tombstone ids => exact hunbound hledger
      | vacuum =>
        have hstored := hunbound hledger
        rw [elim_some, vacuum_leaf (by simp [hstored]), hstored]

variable {write : GraphWrite Json}

/-- After a write to a store that stands, the stored leaf is right or visible. -/
theorem near_of_stands (sound : Sound store) (stands : Stands store)
    (follows : Follows store after (some write)) :
    ∀ leaf, (storeLedger after).leaf = some leaf → after.sessionGraph.leafNodeId = leaf ∨
        ∀ id ∈ after.sessionGraph.leafNodeId, id ∉ after.tombstonedNodeIds := by
  have hvisible := leaf_of_stands sound stands
  have hhidden : after.tombstonedNodeIds = (storeLedger after).hidden := rfl
  intro leaf hleaf
  rw [hhidden]
  rw [follows.ledger] at hleaf ⊢
  rw [follows.graph]
  cases write with
  | commit delta =>
    cases delta with
    | unchanged named | append nodes named =>
      exact .inr fun id hid hmem => hvisible id hid (Finset.mem_sdiff.mp hmem).1
    | replaceFull next => exact .inl (some.inj hleaf)
  | tombstone ids => exact .inl (stands leaf hleaf).1
  | vacuum => exact .inl ((vacuum_leaf hvisible).trans (stands leaf hleaf).1)

/-- A write to a store that stands leads to one that stands exactly if it keeps the leaf. -/
theorem stands_iff_of_write (sound : Sound store) (stands : Stands store)
    (follows : Follows store after (some write)) : Stands after ↔ WriteKeepsLeaf store write := by
  have hvisible := leaf_of_stands sound stands
  rw [Stands, follows.graph, follows.ledger, WriteKeepsLeaf]
  simp only [elim_some]
  cases write with
  | commit delta =>
    cases delta with
    | unchanged named | append nodes named =>
      simp only [GraphWrite.apply, GraphCommitDelta.leafNodeId, writtenGraph, NamesStored,
        applyGraphDelta, some.injEq, forall_eq']
      exact and_congr_left fun _ => eq_comm
    | replaceFull next =>
      simp only [GraphWrite.apply, GraphCommitDelta.leafNodeId, writtenGraph, NamesStored,
        applyGraphDelta, some.injEq, forall_eq']
  | tombstone ids =>
    constructor
    · exact fun h => ⟨trivial, fun leaf hleaf => (h leaf hleaf).2⟩
    · exact fun h leaf hleaf => ⟨(stands leaf hleaf).1, h.2 leaf hleaf⟩
  | vacuum =>
    constructor
    · exact fun h => ⟨trivial, fun leaf hleaf => (h leaf hleaf).2⟩
    · exact fun h leaf hleaf =>
        ⟨(vacuum_leaf hvisible).trans (stands leaf hleaf).1, h.2 leaf hleaf⟩

/-- From a store that stands: a call leads to one whose reads answer from its ledger
exactly if the call keeps the leaf, and then that one stands too. -/
theorem step_loads_iff {call : Host × Op Json} (sound : Sound store) (stands : Stands store)
    (soundAfter : Sound (step call store).2) :
    (LoadsLedger (storeGraph (step call store).2) (storeLedger (step call store).2) ↔
        KeepsLeaf (entryAt step call store)) ∧
      (KeepsLeaf (entryAt step call store) → Stands (step call store).2) := by
  have hfollows := step_follows call store
  have hwrite : storeWrite (entryAt step call store) =
      writeOf store.runtimeTurnCommits call.2 (step call store).1 := rfl
  rw [KeepsLeaf, hwrite]
  generalize writeOf store.runtimeTurnCommits call.2 (step call store).1 = write at hfollows
  cases write with
  | none =>
    have hstands : Stands (step call store).2 := by
      rw [Stands, hfollows.graph, hfollows.ledger]
      exact stands
    refine ⟨iff_of_true ?_ fun _ h => (by cases h), fun _ => hstands⟩
    exact (loadsLedger_iff_stands soundAfter fun leaf h => .inl (hstands leaf h).1).mpr hstands
  | some write =>
    have hiff := stands_iff_of_write sound stands hfollows
    have hall : (∀ other, some write = some other →
        WriteKeepsLeaf (entryAt step call store).before other) ↔ WriteKeepsLeaf store write :=
      ⟨fun h => h write rfl, fun h other hother => some.inj hother ▸ h⟩
    rw [hall]
    refine ⟨?_, hiff.mpr⟩
    exact (loadsLedger_iff_stands soundAfter (near_of_stands sound stands hfollows)).trans hiff

end Steps

section Histories

variable {history : List (StoreEntry Json)} {store : InMemorySessionStore Json}

/-- The reads answer from the ledger of the writes so far, and the database gives the
same answers after the same writes. -/
structure LoadLaw (history : List (StoreEntry Json)) (store : InMemorySessionStore Json) :
    Prop where
  loads : LoadsLedger (storeGraph store) (ledgerOf (history.filterMap storeWrite))
  database : ∀ dbHistory db, SqliteStore.SqliteRun dbHistory db →
    dbHistory.filterMap databaseWrite = history.filterMap storeWrite →
      databaseGraph db .fullGraph = storeGraph store .fullGraph ∧
        databaseGraph db (.activePath none) = storeGraph store (.activePath none)

theorem loadLaw_iff : LoadLaw history store ↔
      LoadsLedger (storeGraph store) (ledgerOf (history.filterMap storeWrite)) := by
  refine ⟨LoadLaw.loads, fun loads => ⟨loads, fun dbHistory db run same => ?_⟩⟩
  have hdatabase := loadsLedger_of_holds (database_holds run)
  rw [same] at hdatabase
  exact hdatabase.agree loads

theorem ledger_of_run (run : StoreRun history store) :
    storeLedger store = ledgerOf (history.filterMap storeWrite) := by
  induction run with
  | nil => rfl
  | @cons history store earlier call ih =>
    have hledger := (step_follows call store).ledger
    have hwrite : storeWrite (entryAt step call store) =
        writeOf store.runtimeTurnCommits call.2 (step call store).1 := rfl
    rw [filterMap_cons, hledger, hwrite]
    cases writeOf store.runtimeTurnCommits call.2 (step call store).1 with
    | none => exact ih
    | some write => rw [elim_some, ih]; rfl

/-- Every full replacement carries a graph that the operations of graphs have made. -/
def ReplacesByMade (history : List (StoreEntry Json)) : Prop :=
  ∀ e ∈ history, ∀ next, storeWrite e = some (.commit (.replaceFull next)) → Made next

theorem sound_of_run (run : StoreRun history store) (made : ReplacesByMade history) :
    Sound store := by
  induction run with
  | nil => exact ⟨fun _ => coherent_of_none rfl, fun _ => rfl⟩
  | @cons history store earlier call ih =>
    have hsound := ih fun e he => made e (mem_cons_of_mem _ he)
    exact hsound.step (step_follows call store)
      (made (entryAt step call store) mem_cons_self)

/-- In every state of a run the reads answer from the ledger, and as the database does,
exactly if every call of the run keeps the leaf. -/
theorem loads_follow_commits_iff (run : StoreRun history store) (made : ReplacesByMade history) :
    (∀ newer e older, history = newer ++ e :: older → LoadLaw (e :: older) e.after) ↔
      ∀ e ∈ history, KeepsLeaf e := by
  suffices h : ((∀ e ∈ history, KeepsLeaf e) → Stands store) ∧
      ((∀ newer e older, history = newer ++ e :: older → LoadLaw (e :: older) e.after) ↔
        ∀ e ∈ history, KeepsLeaf e) from h.2
  induction run with
  | nil =>
    refine ⟨fun _ leaf h => (by cases h), by simp⟩
  | @cons history store earlier call ih =>
    have hmade : ReplacesByMade history := fun e he => made e (mem_cons_of_mem _ he)
    obtain ⟨hstands, hiff⟩ := ih hmade
    have hlast : ∀ stands : Stands store, (LoadLaw (entryAt step call store :: history)
        (entryAt step call store).after ↔ KeepsLeaf (entryAt step call store)) ∧
          (KeepsLeaf (entryAt step call store) → Stands (step call store).2) := by
      intro stands
      rw [loadLaw_iff, ← ledger_of_run (earlier.cons call)]
      exact step_loads_iff (sound_of_run earlier hmade) stands
        (sound_of_run (earlier.cons call) made)
    rw [forall_mem_cons]
    refine ⟨fun h => (hlast (hstands h.2)).2 h.1, ?_⟩
    constructor
    · intro hlaw
      have hearlier := hiff.mp fun newer e older shape =>
        hlaw (entryAt step call store :: newer) e older (by rw [shape]; rfl)
      exact ⟨(hlast (hstands hearlier)).1.mp (hlaw [] _ history rfl), hearlier⟩
    · rintro ⟨hcall, hearlier⟩ newer e older shape
      cases newer with
      | nil =>
        obtain ⟨rfl, rfl⟩ := cons_eq_cons.mp shape
        exact (hlast (hstands hearlier)).1.mpr hcall
      | cons d newer =>
        obtain ⟨-, hrest⟩ := cons_eq_cons.mp shape
        exact hiff.mpr hearlier newer e older hrest

end Histories

section Example

def plainNode (id : String) (parent : Option String) : SessionNodeRecord Unit where
  nodeId := id
  parentNodeId := parent
  causedBy := none
  agentFrameId := none
  timestamp := "t"
  payload := .plugin "note" ()

def graphCommit (delta : GraphCommitDelta Unit) : Op Unit :=
  .commitRuntimeState { RuntimeCommit.bare "s" workerFence with graph := delta }

variable (leaf : String)

/-- The worker replaces the graph, and then appends a node and names a leaf. -/
def appendUnder : List (Op Unit) :=
  [.tryClaimSessionExecutionLease "s" worker 100,
    graphCommit (.replaceFull (.fromNodes [plainNode "a" none] (some "a"))),
    graphCommit (.append [plainNode "b" (some "a")] (some leaf))]

def memoryCalls : List (Host × Op Unit) :=
  (appendUnder leaf).map (Host.quiet 0, ·)

def databaseCalls : List (SqliteStore.SqliteHost Unit × Op Unit) :=
  (appendUnder leaf).map (SqliteStore.SqliteHost.quiet 0, ·)

theorem made_fromNodes (nodes : List (SessionNodeRecord Unit)) (leaf : Option String) :
    Made (fromNodes nodes leaf) :=
  Reachable.refl.next (GraphOp.fromNodes nodes leaf)

theorem replacesByMade_append : ReplacesByMade (perform step (memoryCalls leaf) ([], .new)).1 := by
  intro e he next hwrite
  obtain ⟨commit, hop, hgraph⟩ := commit_of_storeWrite hwrite
  have hinput := (input_mem_of_perform he).resolve_left not_mem_nil
  have hmem : e.input.2 ∈ appendUnder leaf := by
    obtain ⟨op, hop, h⟩ := mem_map.mp hinput
    rwa [← h]
  rw [hop, appendUnder] at hmem
  simp only [graphCommit, mem_cons, not_mem_nil, or_false, reduceCtorEq, false_or,
    Op.commitRuntimeState.injEq] at hmem
  rcases hmem with rfl | rfl
  · cases hgraph
    exact made_fromNodes _ _
  · cases hgraph

/-- The appended node is a side branch: the commit names the stored leaf. -/
theorem loads_follow_commits_side_branch :
    let history := (perform step (memoryCalls "a") ([], .new)).1
    ReplacesByMade history ∧
      ∀ newer e older, history = newer ++ e :: older → LoadLaw (e :: older) e.after := by
  intro history
  refine ⟨replacesByMade_append "a",
    (loads_follow_commits_iff (Run.nil.perform _) (replacesByMade_append "a")).mpr ?_⟩
  have hclear : ∀ e ∈ history, e.before.tombstonedNodeIds = ∅ := by decide
  have hstored : ∀ e ∈ history.take 1, e.before.sessionGraph.leafNodeId = some "a" := by
    decide
  refine forall_mem_cons.mpr ⟨?_, forall_mem_cons.mpr ⟨?_,
    forall_mem_cons.mpr ⟨?_, forall_mem_nil _⟩⟩⟩
  · refine keepsLeaf_of_clear (hclear _ mem_cons_self) (fun _ h => nomatch h) ?_
    rintro _ ⟨⟩
    exact (hstored _ mem_cons_self).symm
  · refine keepsLeaf_of_clear (hclear _ (mem_cons_of_mem _ mem_cons_self))
      (fun _ h => nomatch h) ?_
    rintro _ ⟨⟩
    trivial
  · exact fun _ h => nomatch h

/-- The commit names the appended node: the in-memory store loads the whole graph under
the old leaf, the database under the new one. -/
theorem append_loads_old_leaf : let history := (perform step (memoryCalls "b") ([], .new)).1
    let store := (perform step (memoryCalls "b") ([], .new)).2
    let dbHistory := (perform SqliteStore.step (databaseCalls "b") ([], .new)).1
    let db := (perform SqliteStore.step (databaseCalls "b") ([], .new)).2
    let nodes := [plainNode "a" none, plainNode "b" (some "a")]
    StoreRun history store ∧ SqliteStore.SqliteRun dbHistory db ∧ ReplacesByMade history ∧
      storeGraph store .fullGraph = some (some ⟨nodes, some "a"⟩) ∧
      databaseGraph db .fullGraph = some (some ⟨nodes, some "b"⟩) ∧ ¬ LoadLaw history store := by
  intro history store dbHistory db nodes
  have hstore : storeGraph store .fullGraph = some (some ⟨nodes, some "a"⟩) := by decide
  have hdatabase : databaseGraph db .fullGraph = some (some ⟨nodes, some "b"⟩) := by
    decide
  refine ⟨Run.nil.perform _, Run.nil.perform _, replacesByMade_append "b", hstore, hdatabase,
    fun hlaw => ?_⟩
  have hledger : (ledgerOf (history.filterMap storeWrite)).leaf = some (some "b") := by
    decide
  have hfull := hlaw.loads.fullGraph _ hledger
  rw [hstore] at hfull
  have hleaf := congrArg SessionGraphData.leafNodeId (some.inj (some.inj hfull))
  exact absurd hleaf (by decide)

end Example

end GraphLoads
