import Lash.RegistryRuns

/-!
# Restoring a registry from its own state

A registry that is restored or forked with its own exported state asks the sources again for
every tool. It comes back as it was exactly where each bound tool has one source that answers
for its id and each orphan has none. Along the history of one registry, a generation stands
for one exported state as long as every restore brings a newer generation or changes nothing.
-/

namespace RegistryRoundTrips

open NameTables ToolRegistries ToolRegistry ToolRebinding RegistryRuns Option

variable {C D : Type} {registry : ToolRegistry C D}

/-- The same ids with the same membership, and the same of them orphaned. -/
def SameStanding (first second : ToolState C D) : Prop :=
  ∀ id, (first.tools.get id).map (fun entry => (entry.orphaned, entry.member)) =
    (second.tools.get id).map fun entry => (entry.orphaned, entry.member)

def RestoresItself (registry : ToolRegistry C D) : Prop :=
  ∃ report restored, registry.restoreState registry.exportState = (.ok report, restored) ∧
    restored.exportState.generation = registry.exportState.generation ∧
    SameStanding restored.exportState registry.exportState

def ForksItself (registry : ToolRegistry C D) : Prop :=
  ∃ child, registry.forkWithState registry.exportState = .ok child ∧
    SameStanding child.exportState registry.exportState

/-- The sources answer for the tools of a registry as its entries stand. -/
structure Settled (registry : ToolRegistry C D) : Prop where
  valid : validateUniqueManifestEntries registry.exportState.tools = .ok ()
  keyed : ∀ id entry, registry.tools.get id = some entry → id = entry.manifest.id
  answered : ∀ id entry, registry.tools.get id = some entry →
    (idMatches registry.sources id).length = if entry.isOrphaned then 0 else 1

/-- The sources answer with the very manifests that the registry holds. -/
def SameManifests (registry : ToolRegistry C D) : Prop :=
  ∀ id entry sourceId manifest, registry.tools.get id = some entry →
    (sourceId, manifest) ∈ idMatches registry.sources id → manifest = entry.manifest

theorem get_exportState (id : String) (registry : ToolRegistry C D) :
    registry.exportState.tools.get id = (registry.tools.get id).map ToolRegistryEntry.export := by
  rw [exportState, Table.get_mapValues]

theorem settled_admitted (settled : Settled registry) :
    Admitted registry.sources .orphanUnresolved registry.exportState.tools := by
  refine ⟨settled.valid, fun id stored h => ?_⟩
  rw [get_exportState] at h
  obtain ⟨entry, hentry, rfl⟩ := map_eq_some_iff.mp h
  refine ⟨settled.keyed id entry hentry, ?_, fun hmode => nomatch hmode⟩
  rw [settled.answered id entry hentry]
  split <;> omega

variable {sources : Table (ToolSource C D)} {entry : ToolStateEntry C D}

theorem reboundEntry_orphaned {id : String} :
    (reboundEntry sources id entry).isOrphaned = (idMatches sources id).isEmpty := by
  unfold reboundEntry
  cases idMatches sources id <;> rfl

theorem reboundEntry_member {id : String} :
    (reboundEntry sources id entry).member = entry.member := by
  unfold reboundEntry
  cases idMatches sources id <;> rfl

/-- A registry whose tools are its own exported ones, rebound. -/
structure RebornOf (registry reborn : ToolRegistry C D) : Prop where
  tools : reborn.tools =
    registry.exportState.tools.mapValues (reboundEntry registry.sources)

variable {reborn : ToolRegistry C D}

theorem RebornOf.get (h : RebornOf registry reborn) (id : String) :
    reborn.exportState.tools.get id = (registry.tools.get id).map fun entry =>
      (reboundEntry registry.sources id entry.export).export := by
  rw [get_exportState, h.tools, Table.get_mapValues, get_exportState, map_map, map_map]
  rfl

theorem RebornOf.standing_iff (h : RebornOf registry reborn) :
    SameStanding reborn.exportState registry.exportState ↔
      ∀ id entry, registry.tools.get id = some entry →
        (idMatches registry.sources id).isEmpty = entry.isOrphaned := by
  constructor
  · intro same id entry hentry
    have hid := same id
    rw [h.get, get_exportState, hentry] at hid
    simp only [map_some, some.injEq, Prod.mk.injEq] at hid
    exact reboundEntry_orphaned.symm.trans hid.1
  · intro answered id
    rw [h.get, get_exportState]
    cases hentry : registry.tools.get id with
    | none => rfl
    | some entry =>
      simp only [map_some, some.injEq, Prod.mk.injEq]
      exact ⟨by
        rw [ToolRegistryEntry.export, reboundEntry_orphaned]
        exact answered id entry hentry, reboundEntry_member⟩

theorem settled_iff : Settled registry ↔
      Admitted registry.sources .orphanUnresolved registry.exportState.tools ∧
        ∀ id entry, registry.tools.get id = some entry →
          (idMatches registry.sources id).isEmpty = entry.isOrphaned := by
  constructor
  · intro settled
    refine ⟨settled_admitted settled, fun id entry hentry => ?_⟩
    have hlength := settled.answered id entry hentry
    cases horphaned : entry.isOrphaned with
    | true =>
      rw [horphaned, if_pos rfl] at hlength
      rw [List.eq_nil_of_length_eq_zero hlength]
      rfl
    | false =>
      rw [horphaned, if_neg Bool.false_ne_true] at hlength
      cases hmatches : idMatches registry.sources id with
      | nil => simp [hmatches] at hlength
      | cons first rest => rfl
  · rintro ⟨admitted, answered⟩
    have hstored : ∀ id entry, registry.tools.get id = some entry →
        Rebinds registry.sources .orphanUnresolved id entry.export := fun id entry hentry =>
      admitted.rebinds id entry.export (by rw [get_exportState, hentry]; rfl)
    refine ⟨admitted.valid, fun id entry hentry => (hstored id entry hentry).keyed,
      fun id entry hentry => ?_⟩
    have hsingle := (hstored id entry hentry).single
    have hempty := answered id entry hentry
    cases hmatches : idMatches registry.sources id with
    | nil =>
      rw [hmatches] at hempty
      rw [← hempty]
      rfl
    | cons first rest =>
      rw [hmatches] at hempty hsingle
      rw [← hempty, List.isEmpty_cons, if_neg Bool.false_ne_true]
      exact Nat.le_antisymm hsingle (by simp)

theorem restoresItself_iff : RestoresItself registry ↔ Settled registry := by
  rw [settled_iff]
  constructor
  · rintro ⟨report, restored, hrestored, -, same⟩
    by_cases admitted : Admitted registry.sources .orphanUnresolved registry.exportState.tools
    · rw [restoreState_ok admitted, Prod.mk.injEq] at hrestored
      exact ⟨admitted, (RebornOf.standing_iff ⟨by rw [← hrestored.2]; rfl⟩).mp same⟩
    · obtain ⟨error, herror⟩ := restoreState_refused admitted
      rw [herror] at hrestored
      cases hrestored
  · rintro ⟨admitted, answered⟩
    exact ⟨_, _, restoreState_ok admitted, rfl, (RebornOf.standing_iff ⟨rfl⟩).mpr answered⟩

theorem forksItself_iff : ForksItself registry ↔ Settled registry := by
  rw [settled_iff]
  constructor
  · rintro ⟨child, hchild, same⟩
    by_cases admitted : Admitted registry.sources .orphanUnresolved registry.exportState.tools
    · rw [forkWithState_ok admitted, Except.ok.injEq] at hchild
      exact ⟨admitted, (RebornOf.standing_iff ⟨by rw [← hchild]⟩).mp same⟩
    · obtain ⟨error, herror⟩ := forkWithState_refused admitted
      rw [herror] at hchild
      cases hchild
  · rintro ⟨admitted, answered⟩
    exact ⟨_, forkWithState_ok admitted, (RebornOf.standing_iff ⟨rfl⟩).mpr answered⟩

/-- Where the sources answer with the manifests that are held, the whole export comes back. -/
theorem RebornOf.exports (h : RebornOf registry reborn) (settled : Settled registry)
    (same : SameManifests registry) : reborn.exportState.tools = registry.exportState.tools := by
  refine Table.ext fun id => ?_
  rw [h.get, get_exportState]
  cases hentry : registry.tools.get id with
  | none => rfl
  | some entry =>
    have horphaned := (settled_iff.mp settled).2 id entry hentry
    have hmanifest : (reboundEntry registry.sources id entry.export).manifest = entry.manifest := by
      unfold reboundEntry
      cases hmatches : idMatches registry.sources id with
      | nil => rfl
      | cons first rest =>
        exact same id entry first.1 first.2 hentry (hmatches ▸ List.mem_cons_self)
    have hflag : (reboundEntry registry.sources id entry.export).isOrphaned =
        entry.isOrphaned := reboundEntry_orphaned.trans horphaned
    have hmember : (reboundEntry registry.sources id entry.export).member = entry.member :=
      reboundEntry_member
    rw [map_some, map_some, ToolRegistryEntry.export, hmanifest, hflag, hmember]
    rfl

/-! ## Generations -/

/-- Either the export is what it was or its generation is a newer one. -/
def Rose (before after : ToolRegistry C D) : Prop :=
  after.exportState = before.exportState ∨ before.generation < after.generation

theorem Rose.refl (registry : ToolRegistry C D) : Rose registry registry := .inl rfl

variable {after before : ToolRegistry C D}

theorem Rose.le (h : Rose before after) : before.generation ≤ after.generation := by
  rcases h with hsame | hlt
  · exact Nat.le_of_eq (congrArg ToolState.generation hsame).symm
  · exact Nat.le_of_lt hlt

theorem Rose.trans {first second third : ToolRegistry C D} (h : Rose first second)
    (h' : Rose second third) : Rose first third := by
  rcases h with hsame | hlt
  · rcases h' with hsame' | hlt'
    · exact .inl (hsame'.trans hsame)
    · have hgeneration : second.generation = first.generation := congrArg ToolState.generation hsame
      exact .inr (hgeneration ▸ hlt')
  · exact .inr (Nat.lt_of_lt_of_le hlt h'.le)

theorem lt_nextGeneration {generation : Nat} (h : generation + 1 < 2 ^ 64) :
    generation < nextGeneration generation := by
  rw [nextGeneration, Nat.mod_eq_of_lt h]
  exact Nat.lt_succ_self _

/-- Room on the counter for whatever one operation counts. -/
def HasRoom (registry : ToolRegistry C D) : Prop :=
  registry.generation + registry.sources.entries.length + 2 < 2 ^ 64

theorem HasRoom.next (room : HasRoom registry) : registry.generation + 1 < 2 ^ 64 := by
  unfold HasRoom at room
  omega

/-- An operation that counts once, if it does anything. -/
def Ticks (before after : ToolRegistry C D) : Prop :=
  after = before ∨ after.generation = nextGeneration before.generation

theorem Ticks.le (h : Ticks before after) : after.generation ≤ before.generation + 1 := by
  rcases h with rfl | hnext
  · exact Nat.le_succ _
  · rw [hnext]
    exact Nat.mod_le _ _

theorem Ticks.rose (h : Ticks before after) (room : before.generation + 1 < 2 ^ 64) :
    Rose before after := by
  rcases h with rfl | hnext
  · exact .refl _
  · exact .inr (hnext ▸ lt_nextGeneration room)

theorem upsertSource_ticks (source : ToolSource C D) (registry : ToolRegistry C D) :
    Ticks registry (registry.upsertSource source).2 := by
  unfold upsertSource reconcileSource
  dsimp only
  split
  · exact .inl rfl
  · split
    · exact .inl rfl
    · exact .inr rfl

theorem upsertEach_rose {sources : List (ToolSource C D)} {generation : Nat}
    (room : registry.generation + sources.length < 2 ^ 64) :
    Rose registry (upsertEach sources generation registry).2 := by
  induction sources generalizing registry generation with
  | nil => exact .refl registry
  | cons source rest ih =>
    rw [List.length_cons] at room
    have hupsert := upsertSource_ticks source registry
    rw [upsertEach]
    split
    next heq =>
      rw [heq] at hupsert
      exact hupsert.rose (by omega)
    next counted grown heq =>
      rw [heq] at hupsert
      have hle : grown.generation ≤ registry.generation + 1 := hupsert.le
      have hrest : Rose grown (upsertEach rest counted grown).2 := ih (by omega)
      exact (hupsert.rose (by omega)).trans hrest

theorem addToolProvider_rose (provider : ToolProvider C D)
    (room : registry.generation + 1 < 2 ^ 64) :
    Rose registry (registry.addToolProvider provider).2 := by
  have hupsert := (upsertSource_ticks (toolProviderSource
    s!"live:{(registry.nextLiveSourceId + 1) % 2 ^ 64}" provider)
    { registry with nextLiveSourceId := (registry.nextLiveSourceId + 1) % 2 ^ 64 }).rose room
  have hnumbered : Rose registry
      { registry with nextLiveSourceId := (registry.nextLiveSourceId + 1) % 2 ^ 64 } := .inl rfl
  unfold addToolProvider
  dsimp only
  split
  all_goals
    next heq =>
      rw [heq] at hupsert
      exact hnumbered.trans hupsert

theorem removeSourceId_ticks (sourceId : String) (registry : ToolRegistry C D) :
    Ticks registry (registry.removeSourceId sourceId).2 := by
  unfold removeSourceId
  split
  · exact .inr rfl
  · exact .inl rfl

theorem applyState_ticks (next : ToolState C D) (registry : ToolRegistry C D) :
    Ticks registry (registry.applyState next).2 := by
  by_cases admitted : next.generation = registry.generation ∧
      Admitted registry.sources .rejectUnresolved next.tools
  · rw [applyState_ok admitted.1 admitted.2]
    exact .inr rfl
  · obtain ⟨error, herror⟩ := applyState_refused admitted
    rw [herror]
    exact .inl rfl

theorem looked_ticks (h : Looked before after) : Ticks before after := by
  obtain rfl | ⟨_, _, _, _, _, -, rfl⟩ := h
  · exact .inl rfl
  · exact .inr rfl

theorem execute_rose {name : String} (room : registry.generation + 2 < 2 ^ 64) :
    Rose registry (registry.execute name).2 := by
  have hresolved := looked_ticks (resolveManifest_looked name registry)
  unfold execute
  split
  next heq =>
    rw [heq] at hresolved
    exact hresolved.rose (by omega)
  next manifest found heq =>
    rw [heq] at hresolved
    have hle : found.generation ≤ registry.generation + 1 := hresolved.le
    rw [executeById_state]
    exact (hresolved.rose (by omega)).trans
      ((looked_ticks (resolveManifestById_looked manifest.id found)).rose (by omega))

/-- A restore brings a newer generation or the very state that is there. -/
def RestoreRises (snapshot : ToolState C D) (registry : ToolRegistry C D) : Prop :=
  Admitted registry.sources .orphanUnresolved snapshot.tools →
    registry.generation < snapshot.generation ∨
      snapshot = registry.exportState ∧ Settled registry ∧ SameManifests registry

theorem restoreState_rose {snapshot : ToolState C D} (rises : RestoreRises snapshot registry) :
    Rose registry (registry.restoreState snapshot).2 := by
  by_cases admitted : Admitted registry.sources .orphanUnresolved snapshot.tools
  · rw [restoreState_ok admitted]
    rcases rises admitted with hlt | ⟨rfl, settled, same⟩
    · exact .inr hlt
    · have htools : (reboundRegistry registry.exportState registry.generation
          registry).exportState.tools = registry.exportState.tools :=
        RebornOf.exports ⟨rfl⟩ settled same
      exact .inl (congrArg (ToolState.mk registry.generation) htools)
  · obtain ⟨error, herror⟩ := restoreState_refused admitted
    rw [herror]
    exact .refl registry

def Rises : Operation C D → ToolRegistry C D → Prop
  | .restoreState snapshot, registry => HasRoom registry ∧ RestoreRises snapshot registry
  | _, registry => HasRoom registry

theorem perform_rose {operation : Operation C D} (rises : Rises operation registry) :
    Rose registry (operation.perform registry) := by
  cases operation with
  | addToolProvider provider => exact addToolProvider_rose provider rises.next
  | upsertSource source => exact (upsertSource_ticks source registry).rose rises.next
  | removeSource sourceId => exact (removeSourceId_ticks sourceId registry).rose rises.next
  | refreshSources =>
    refine upsertEach_rose ?_
    have hroom : HasRoom registry := rises
    unfold HasRoom at hroom
    rw [List.length_map]
    omega
  | applyState next => exact (applyState_ticks next registry).rose rises.next
  | restoreState snapshot => exact restoreState_rose rises.2
  | resolveManifest name =>
    exact (looked_ticks (resolveManifest_looked name registry)).rose rises.next
  | resolveManifestById id =>
    exact (looked_ticks (resolveManifestById_looked id registry)).rose rises.next
  | execute name =>
    refine execute_rose ?_
    have hroom : HasRoom registry := rises
    unfold HasRoom at hroom
    omega
  | executeById id =>
    rw [Operation.perform, executeById_state]
    exact (looked_ticks (resolveManifestById_looked id registry)).rose rises.next
  | answer answers => exact .inl rfl

/-- What one registry goes through, each step meeting a condition on the registry before it. -/
inductive Later (Meets : Operation C D → ToolRegistry C D → Prop) (start : ToolRegistry C D) :
    ToolRegistry C D → Prop
  | here : Later Meets start start
  | step {registry : ToolRegistry C D} (h : Later Meets start registry)
      (operation : Operation C D) (meets : Meets operation registry) :
      Later Meets start (operation.perform registry)

theorem later_rose (h : Later Rises before after) : Rose before after := by
  induction h with
  | here => exact .refl before
  | step _ operation meets ih => exact ih.trans (perform_rose meets)

/-- A registry comes back from its own state exactly where the sources answer for its tools as
they stand, and with the whole export where they answer with the manifests it holds; and while
restores bring newer generations or nothing new, two exports of one generation are equal. -/
theorem state_round_trips : (∀ registry : ToolRegistry C D,
      (RestoresItself registry ↔ Settled registry) ∧ (ForksItself registry ↔ Settled registry) ∧
      (Settled registry → SameManifests registry →
        (registry.restoreState registry.exportState).2.exportState = registry.exportState)) ∧
    ∀ before after : ToolRegistry C D, Later Rises before after →
      before.generation = after.generation → before.exportState = after.exportState := by
  refine ⟨fun registry => ⟨restoresItself_iff, forksItself_iff, fun settled same => ?_⟩,
    fun before after later hgeneration => ?_⟩
  · rw [restoreState_ok (settled_admitted settled)]
    have htools : (reboundRegistry registry.exportState registry.generation
        registry).exportState.tools = registry.exportState.tools :=
      RebornOf.exports ⟨rfl⟩ settled same
    exact congrArg (ToolState.mk registry.generation) htools
  · rcases later_rose later with hsame | hlt
    · exact hsame.symm
    · exact absurd hgeneration (Nat.ne_of_lt hlt)

/-! ## Where it fails -/

/-- The tools of `searchRegistry` under a context that brings a tool of the same id. -/
def composedCatalog : Except ReconfigureError (ToolRegistry Unit Unit) :=
  searchRegistry.composeSessionCatalog true [listedProvider [plainManifest "tool:b" "lookup"]]

def hidden : ToolState Unit Unit :=
  ⟨1, Table.ofList [("tool:b", ⟨plainManifest "tool:b" "search", false, false⟩)]⟩

theorem composed_catalog_does_not_restore : (¬ ∀ registry : ToolRegistry Unit Unit,
      Reached (fun _ _ => True) (fun _ _ => True) registry →
        RestoresItself registry ∧ ForksItself registry) ∧
    ¬ ∀ before after : ToolRegistry Unit Unit,
      Reached (fun _ _ => True) (fun _ _ => True) before → Later (fun _ _ => True) before after →
        before.generation = after.generation → before.exportState = after.exportState := by
  have hsearch : Reached (fun _ _ => True) (fun _ _ => True) searchRegistry :=
    .step .empty _ trivial
  constructor
  · intro h
    have hmade : (composedCatalog.toOption.map fun composed =>
        ((composed.tools.get "tool:b").map ToolRegistryEntry.isOrphaned,
          (idMatches composed.sources "tool:b").length)) = some (some false, 2) := by
      decide
    cases hcomposed : composedCatalog with
    | error error =>
      rw [hcomposed] at hmade
      cases hmade
    | ok composed =>
      rw [hcomposed] at hmade
      simp only [Except.toOption, map_some, some.injEq, Prod.mk.injEq] at hmade
      obtain ⟨hentry, hmatches⟩ := hmade
      obtain ⟨entry, hentry, hlive⟩ := map_eq_some_iff.mp hentry
      have settled : Settled composed :=
        restoresItself_iff.mp (h composed (.compose hsearch true _ (fun _ => trivial)
          hcomposed)).1
      have hone := settled.answered "tool:b" entry hentry
      rw [hmatches, hlive] at hone
      cases hone
  · intro h
    have hsame := h searchRegistry _ hsearch (.step .here (.restoreState hidden) trivial)
      (by decide)
    have hmember : (searchRegistry.exportState.tools.get "tool:b").map
          (fun entry => entry.member) =
        (((Operation.restoreState hidden).perform searchRegistry).exportState.tools.get
          "tool:b").map fun entry => entry.member := by
      rw [hsame]
    exact absurd hmember (by decide)

end RegistryRoundTrips
