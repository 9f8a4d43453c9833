import Lash.RegistryRuns

/-!
# Adding a provider

The handle of a new provider is numbered by a counter of the registry. A fork starts counting
anew among the sources it inherits, so the next handle may name one of them, and the new
provider then takes its place.
-/

namespace AddedProviders

open NameTables ToolRegistries ToolRegistry ToolRebinding UnambiguousTools RegistryRuns List Option
open Table

variable {C D : Type} {registry after : ToolRegistry C D} {provider : ToolProvider C D}
  {handle : String}

/-- The handle that the next provider gets. -/
def nextHandle (registry : ToolRegistry C D) : String :=
  s!"live:{(registry.nextLiveSourceId + 1) % 2 ^ 64}"

/-- What a provider that is added under a handle does to the registry. -/
structure AddsLocally (provider : ToolProvider C D) (handle : String)
    (before after : ToolRegistry C D) : Prop where
  provided : ∀ manifest ∈ provider.toolManifests, ∃ entry,
    after.tools.get manifest.id = some entry ∧ entry.binding = .bound handle ∧
      entry.manifest =
        manifestWithCompactContract (toolProviderSource handle provider) manifest
  answered : after.sources.get handle = some (toolProviderSource handle provider)
  only : ∀ id entry, after.tools.get id = some entry → before.tools.get id = some entry ∨
    entry.binding = .bound handle ∧ ∃ manifest ∈ provider.toolManifests, manifest.id = id
  standing : ∀ id entry sourceId, before.tools.get id = some entry →
    entry.binding = .bound sourceId →
      after.tools.get id = some entry ∧
        after.sources.get sourceId = before.sources.get sourceId ∧
        (after.executeById id).1 = (before.executeById id).1
  fresh : ∀ sourceId, before.sources.has sourceId = true → handle ≠ sourceId
  removable : ∀ later : ToolRegistry C D,
    later.sources.get handle = some (toolProviderSource handle provider) → ∀ id,
      (later.removeSourceId handle).2.tools.get id =
        (later.tools.get id).filter fun entry => entry.binding.sourceId != some handle

/-! ## Bound tools have their source -/

def Registered (registry : ToolRegistry C D) : Prop :=
  ∀ id entry sourceId, registry.tools.get id = some entry → entry.binding = .bound sourceId →
    registry.sources.has sourceId = true

variable {source : ToolSource C D} {sourceId : String} {table : Table (ToolSource C D)}

theorem has_of_get (h : table.get sourceId = some source) : table.has sourceId = true := by
  rw [Table.has, h]
  rfl

theorem has_set (source : ToolSource C D) (h : table.has sourceId = true) :
    (table.set source.id source).has sourceId = true := by
  rw [Table.has, get_set]
  split
  · rfl
  · exact h

variable {policy : SourceReconcilePolicy}

/-- What a reconciled source leaves behind where it is taken in. -/
theorem reconcileSource_ok {generation : Nat}
    (h : registry.reconcileSource source policy = (.ok generation, after)) :
    let advertised := source.advertisedTools.map (manifestWithCompactContract source)
    validateUniqueManifests advertised = .ok () ∧ (policy = .rejectExternalConflicts →
        rejectConflicts registry.tools source.id advertised = .ok ()) ∧
      after = { registry with
        tools := insertAdvertised registry.tools source.id
          (registry.tools.retain (keepsEntry policy source.id advertised)) advertised
        sources := registry.sources.set source.id source
        generation := nextGeneration registry.generation } := by
  unfold reconcileSource at h
  dsimp only at h ⊢
  cases hvalid : validateUniqueManifests
      (source.advertisedTools.map (manifestWithCompactContract source)) with
  | error error =>
    rw [hvalid] at h
    cases h
  | ok _ =>
    rw [hvalid] at h
    cases policy with
    | rejectExternalConflicts =>
      dsimp only at h
      cases hchecked : rejectConflicts registry.tools source.id
          (source.advertisedTools.map (manifestWithCompactContract source)) with
      | error error =>
        rw [hchecked] at h
        cases h
      | ok _ =>
        rw [hchecked] at h
        cases h
        exact ⟨rfl, fun _ => rfl, rfl⟩
    | overlayReplacingConflicts =>
      cases h
      exact ⟨rfl, nofun, rfl⟩

theorem reconcileSource_refused {error : ReconfigureError}
    (h : registry.reconcileSource source policy = (.error error, after)) : after = registry := by
  unfold reconcileSource at h
  dsimp only at h
  split at h
  · cases h
    rfl
  · split at h
    · cases h
      rfl
    · cases h

theorem reconcileSource_registered (policy : SourceReconcilePolicy) (source : ToolSource C D)
    (h : Registered registry) : Registered (registry.reconcileSource source policy).2 := by
  rcases hdone : registry.reconcileSource source policy with ⟨_ | _, after⟩
  · rw [reconcileSource_refused hdone]
    exact h
  · obtain ⟨-, -, rfl⟩ := reconcileSource_ok hdone
    intro id entry sourceId hentry hbound
    rcases get_insertAdvertised hentry with ⟨-, -, hnew⟩ | hkept
    · rw [hnew] at hbound
      cases hbound
      rw [Table.has, get_set, if_pos rfl]
      rfl
    · rw [get_retain, filter_eq_some_iff] at hkept
      exact has_set source (h id entry sourceId hkept.1 hbound)

theorem addToolProvider_registered (provider : ToolProvider C D) (h : Registered registry) :
    Registered (registry.addToolProvider provider).2 := by
  have hnumbered : Registered { registry with
      nextLiveSourceId := (registry.nextLiveSourceId + 1) % 2 ^ 64 } := h
  have hupsert := reconcileSource_registered .rejectExternalConflicts
    (toolProviderSource (nextHandle registry) provider) hnumbered
  unfold addToolProvider upsertSource
  dsimp only
  split
  all_goals
    next heq =>
      unfold nextHandle at hupsert
      rw [heq] at hupsert
      exact hupsert

theorem removeSourceId_registered (sourceId : String) (h : Registered registry) :
    Registered (registry.removeSourceId sourceId).2 := by
  unfold removeSourceId
  split
  · intro id entry bound hentry hbound
    rw [get_retain, filter_eq_some_iff] at hentry
    have hne : bound ≠ sourceId := by
      rintro rfl
      simp [hbound, ToolBinding.sourceId] at hentry
    dsimp only
    rw [Table.has, get_remove, if_neg hne]
    exact h id entry bound hentry.1 hbound
  · exact h

theorem upsertEach_registered {sources : List (ToolSource C D)} {generation : Nat}
    (h : Registered registry) : Registered (upsertEach sources generation registry).2 := by
  induction sources generalizing registry generation with
  | nil => exact h
  | cons source rest ih =>
    have hupsert := reconcileSource_registered .rejectExternalConflicts source h
    rw [upsertEach]
    split
    next heq =>
      unfold upsertSource at heq
      rw [heq] at hupsert
      exact hupsert
    next heq =>
      unfold upsertSource at heq
      rw [heq] at hupsert
      exact ih hupsert

variable {entry : ToolRegistryEntry C D} {id : String}

theorem rebound_registered {sources : Table (ToolSource C D)} {entries : Table (ToolStateEntry C D)}
    (hentry : (entries.mapValues (reboundEntry sources)).get id = some entry)
    (hbound : entry.binding = .bound sourceId) : sources.has sourceId = true := by
  rw [get_mapValues, map_eq_some_iff] at hentry
  obtain ⟨stored, -, rfl⟩ := hentry
  obtain ⟨source, hsource, -⟩ := rebound_provides hbound
  exact has_of_get hsource

theorem looked_registered (looked : Looked registry after) (h : Registered registry) :
    Registered after := by
  obtain rfl | ⟨id, sourceId, source, manifest, member, hsource, rfl⟩ := looked
  · exact h
  · intro other entry bound hentry hbound
    unfold insertBound at hentry
    rw [get_set] at hentry
    split at hentry
    · cases hentry
      cases hbound
      exact has_of_get hsource
    · exact h other entry bound hentry hbound

theorem execute_registered (name : String) (h : Registered registry) :
    Registered (registry.execute name).2 := by
  have hresolved := looked_registered (resolveManifest_looked name registry) h
  unfold execute
  split
  next heq =>
    rw [heq] at hresolved
    exact hresolved
  next manifest found heq =>
    rw [heq] at hresolved
    rw [executeById_state]
    exact looked_registered (resolveManifestById_looked manifest.id found) hresolved

theorem perform_registered (operation : Operation C D) (h : Registered registry) :
    Registered (operation.perform registry) := by
  cases operation with
  | addToolProvider provider => exact addToolProvider_registered provider h
  | upsertSource source => exact reconcileSource_registered _ source h
  | removeSource sourceId => exact removeSourceId_registered sourceId h
  | refreshSources => exact upsertEach_registered h
  | applyState next =>
    by_cases admitted : next.generation = registry.generation ∧
        Admitted registry.sources .rejectUnresolved next.tools
    · rw [Operation.perform, applyState_ok admitted.1 admitted.2]
      exact fun _ _ _ => rebound_registered
    · obtain ⟨error, herror⟩ := applyState_refused admitted
      rw [Operation.perform, herror]
      exact h
  | restoreState snapshot =>
    by_cases admitted : Admitted registry.sources .orphanUnresolved snapshot.tools
    · rw [Operation.perform, restoreState_ok admitted]
      exact fun _ _ _ => rebound_registered
    · obtain ⟨error, herror⟩ := restoreState_refused admitted
      rw [Operation.perform, herror]
      exact h
  | resolveManifest name => exact looked_registered (resolveManifest_looked name registry) h
  | resolveManifestById id => exact looked_registered (resolveManifestById_looked id registry) h
  | execute name => exact execute_registered name h
  | executeById id =>
    rw [Operation.perform, executeById_state]
    exact looked_registered (resolveManifestById_looked id registry) h
  | answer answers =>
    intro id entry sourceId hentry hbound
    have hhas := h id entry sourceId hentry hbound
    rw [Operation.perform, answerAnew, Table.has, get_mapValues, isSome_map]
    exact hhas

variable {child : ToolRegistry C D}

theorem forkWithState_registered {snapshot : ToolState C D}
    (made : registry.forkWithState snapshot = .ok child) : Registered child := by
  by_cases admitted : Admitted registry.sources .orphanUnresolved snapshot.tools
  · rw [forkWithState_ok admitted, Except.ok.injEq] at made
    rw [← made]
    exact fun _ _ _ => rebound_registered
  · obtain ⟨error, herror⟩ := forkWithState_refused admitted
    rw [herror] at made
    cases made

theorem composeSessionCatalog_registered {includeBaseTools : Bool}
    {providers : List (ToolProvider C D)}
    (made : registry.composeSessionCatalog includeBaseTools providers = .ok child) :
    Registered child := by
  unfold composeSessionCatalog upsertOverlaySource at made
  split at made
  · cases made
  next composed hcomposed =>
    have hbase : Registered composed := by
      cases includeBaseTools with
      | true => exact forkWithState_registered hcomposed
      | false =>
        cases hcomposed
        exact nofun
    have hoverlay := reconcileSource_registered .overlayReplacingConflicts
      (toolProviderGroupSource "context" providers) hbase
    split at made
    · cases made
    next heq =>
      cases made
      rw [heq] at hoverlay
      exact hoverlay

theorem reached_registered {Fits : Operation C D → ToolRegistry C D → Prop}
    {Forks : Table (ToolSource C D) → Table (ToolStateEntry C D) → Prop}
    (h : Reached Fits Forks registry) : Registered registry := by
  induction h with
  | empty => exact nofun
  | step _ operation _ ih => exact perform_registered operation ih
  | fork _ snapshot _ made _ => exact forkWithState_registered made
  | compose _ includeBaseTools providers _ made _ => exact composeSessionCatalog_registered made

/-! ## What comes in and what stays -/

variable {advertised : List (ToolManifest C D)}

variable (previous : Table (ToolRegistryEntry C D))

theorem insertAdvertised_other (sourceId : String) (kept : Table (ToolRegistryEntry C D))
    (hne : ∀ manifest ∈ advertised, manifest.id ≠ id) :
    (insertAdvertised previous sourceId kept advertised).get id = kept.get id := by
  unfold insertAdvertised
  induction advertised generalizing kept with
  | nil => rfl
  | cons first rest ih =>
    rw [foldl_cons, ih _ fun manifest hmem => hne manifest (mem_cons_of_mem _ hmem),
      get_set, if_neg (hne first mem_cons_self).symm]

/-- Of advertised tools with ids of their own each comes in as it is advertised. -/
theorem insertAdvertised_get (sourceId : String) (kept : Table (ToolRegistryEntry C D))
    (valid : validateUniqueManifests advertised = .ok ()) {manifest : ToolManifest C D}
    (hmem : manifest ∈ advertised) :
    ∃ entry, (insertAdvertised previous sourceId kept advertised).get manifest.id = some entry ∧
      entry.binding = .bound sourceId ∧ entry.manifest = manifest := by
  have hids : advertised.Pairwise fun a b => a.id ≠ b.id :=
    (validateManifests_ok valid).1.imp fun hne => hne.2
  clear valid
  unfold insertAdvertised
  induction advertised generalizing kept with
  | nil => cases hmem
  | cons first rest ih =>
    obtain ⟨hfirst, hrest⟩ := pairwise_cons.mp hids
    rcases mem_cons.mp hmem with rfl | hmem
    · rw [foldl_cons]
      have hlater := insertAdvertised_other previous sourceId (kept.set manifest.id
        { ToolRegistryEntry.new manifest sourceId with
          member := ((previous.get manifest.id).map fun entry => entry.member).getD true })
        fun other hother => (hfirst other hother).symm
      unfold insertAdvertised at hlater
      rw [hlater, get_set, if_pos rfl]
      exact ⟨_, rfl, rfl, rfl⟩
    · exact ih _ hmem hrest

/-- No checked tool has the id of one that another source has. -/
theorem rejectConflicts_id {tools : Table (ToolRegistryEntry C D)} {bound : String}
    (checked : rejectConflicts tools sourceId advertised = .ok ())
    (hentry : tools.get id = some entry) (hbound : entry.binding = .bound bound)
    (hne : bound ≠ sourceId) : ∀ manifest ∈ advertised, manifest.id ≠ id := by
  rintro manifest hmem rfl
  have hnone := (rejectConflicts_ok checked manifest hmem).1
  simp [idConflict, hentry, hbound, ToolBinding.sourceId, hne] at hnone

theorem executeById_bound (hentry : registry.tools.get id = some entry)
    (hbound : entry.binding = .bound sourceId) :
    (registry.executeById id).1 = if entry.isMember then
        match registry.sources.get sourceId with
        | some source => .ok (source, id)
        | none => .error s!"Tool source missing for tool id `{id}`"
      else .error s!"Tool id `{id}` is unavailable" := by
  have hlive : entry.isOrphaned = false := by
    rw [ToolRegistryEntry.isOrphaned, hbound]
    rfl
  have hid : registry.resolveManifestById id = (some entry.manifest, registry) := by
    rw [resolveManifestById, hentry]
    simp [resolveKnown, hlive]
  unfold executeById resolveExecutionSource
  rw [hid]
  cases hmember : entry.isMember with
  | false => simp [hentry, hmember]
  | true =>
    cases hsource : registry.sources.get sourceId <;> simp [hentry, hmember, hbound, hsource]

theorem get_removeSourceId (h : registry.sources.get sourceId = some source) (id : String) :
    (registry.removeSourceId sourceId).2.tools.get id =
      (registry.tools.get id).filter fun entry => entry.binding.sourceId != some sourceId := by
  rw [removeSourceId, if_pos (has_of_get h)]
  apply get_retain

/-- The tools that a provider advertises under a handle. -/
def advertisedUnder (handle : String) (provider : ToolProvider C D) : List (ToolManifest C D) :=
  provider.toolManifests.map (manifestWithCompactContract (toolProviderSource handle provider))

theorem addToolProvider_ok (added : registry.addToolProvider provider = (.ok handle, after)) :
    handle = nextHandle registry ∧
      validateUniqueManifests (advertisedUnder handle provider) = .ok () ∧
      rejectConflicts registry.tools handle (advertisedUnder handle provider) = .ok () ∧
      after.tools = insertAdvertised registry.tools handle
        (registry.tools.retain (keepsEntry .rejectExternalConflicts handle
          (advertisedUnder handle provider))) (advertisedUnder handle provider) ∧
      after.sources = registry.sources.set handle (toolProviderSource handle provider) := by
  unfold addToolProvider upsertSource at added
  dsimp only at added
  split at added
  · cases added
  next heq =>
    cases added
    obtain ⟨valid, checked, rfl⟩ := reconcileSource_ok heq
    exact ⟨rfl, valid, checked rfl, rfl, rfl⟩

/-- A new handle leaves every bound tool with its source. -/
theorem addToolProvider_local (registered : Registered registry)
    (added : registry.addToolProvider provider = (.ok handle, after))
    (fresh : registry.sources.has (nextHandle registry) = false) :
    AddsLocally provider handle registry after := by
  obtain ⟨hhandle, valid, checked, htools, hsources⟩ := addToolProvider_ok added
  have hother : ∀ sourceId, registry.sources.has sourceId = true → sourceId ≠ handle := by
    rintro sourceId hhas rfl
    rw [hhandle, fresh] at hhas
    cases hhas
  have hanswered : after.sources.get handle = some (toolProviderSource handle provider) := by
    rw [hsources, get_set, if_pos rfl]
  refine ⟨fun manifest hmem => ?_, hanswered, fun id entry hentry => ?_,
    fun id entry sourceId hentry hbound => ?_, fun sourceId hhas => (hother sourceId hhas).symm,
    fun later hlater => get_removeSourceId hlater⟩
  · have hin := insertAdvertised_get registry.tools handle
      (registry.tools.retain (keepsEntry .rejectExternalConflicts handle
        (advertisedUnder handle provider))) valid (mem_map_of_mem hmem)
    rw [manifestWithCompactContract_id] at hin
    rw [htools]
    exact hin
  · rw [htools] at hentry
    rcases get_insertAdvertised hentry with ⟨hmem, hid, hbound⟩ | hkept
    · obtain ⟨manifest, hmem, heq⟩ := mem_map.mp hmem
      refine .inr ⟨hbound, manifest, hmem, ?_⟩
      rw [← hid, ← heq, manifestWithCompactContract_id]
    · rw [get_retain, filter_eq_some_iff] at hkept
      exact .inl hkept.1
  · have hne : sourceId ≠ handle := hother sourceId (registered id entry sourceId hentry hbound)
    have hstays : after.tools.get id = some entry := by
      rw [htools, insertAdvertised_other _ _ _ (rejectConflicts_id checked hentry hbound hne),
        get_retain, hentry]
      simp [keepsEntry, hbound, hne]
    have hsource : after.sources.get sourceId = registry.sources.get sourceId := by
      rw [hsources, get_set, if_neg hne]
    refine ⟨hstays, hsource, ?_⟩
    rw [executeById_bound hstays hbound, executeById_bound hentry hbound, hsource]

/-- Adding a provider is local exactly where no source stands under the next number. -/
theorem provider_added_locally_iff
    (h : Reached (fun _ _ => True) (fun _ _ => True) registry)
    (added : registry.addToolProvider provider = (.ok handle, after)) :
    AddsLocally provider handle registry after ↔
      registry.sources.has (nextHandle registry) = false := by
  constructor
  · intro hlocal
    have hfresh := hlocal.fresh (nextHandle registry)
    rw [(addToolProvider_ok added).1] at hfresh
    exact Bool.not_eq_true _ ▸ fun hhas => hfresh hhas rfl
  · exact addToolProvider_local (reached_registered h) added

/-! ## A fork that counts anew -/

def firstRegistry : ToolRegistry Unit Unit :=
  (ToolRegistry.empty.addToolProvider (listedProvider [plainManifest "tool:a" "find"])).2

def searchProvider : ToolProvider Unit Unit := listedProvider [plainManifest "tool:b" "search"]

theorem provider_added_locally_iff_second : AddsLocally searchProvider "live:2" firstRegistry
        (firstRegistry.addToolProvider searchProvider).2 ↔
      firstRegistry.sources.has (nextHandle firstRegistry) = false :=
  provider_added_locally_iff (.step .empty (.addToolProvider _) trivial)
    (Prod.ext (by decide) rfl)

/-- A fork that holds what its parent holds. -/
def forkedRegistry : ToolRegistry Unit Unit :=
  ((firstRegistry.forkWithState firstRegistry.exportState).toOption).getD ToolRegistry.empty

/-- The first source of the fork takes the place of the first one of its parent. -/
theorem fork_replaces_the_source_of_its_parent :
    ¬ ∀ registry after : ToolRegistry Unit Unit, ∀ provider handle,
      Reached (fun _ _ => True) (fun _ _ => True) registry →
        registry.addToolProvider provider = (.ok handle, after) →
          AddsLocally provider handle registry after := by
  intro h
  have hmade : firstRegistry.forkWithState firstRegistry.exportState = .ok forkedRegistry := by
    have hok : (firstRegistry.forkWithState firstRegistry.exportState).toBool = true := by
      decide
    unfold forkedRegistry
    cases hfork : firstRegistry.forkWithState firstRegistry.exportState with
    | error error =>
      rw [hfork] at hok
      cases hok
    | ok child => rfl
  have hlocal := h forkedRegistry (forkedRegistry.addToolProvider searchProvider).2
    searchProvider "live:1"
    (.fork (.step .empty (.addToolProvider _) trivial) _ trivial hmade)
    (Prod.ext (by decide) rfl)
  have hbefore : (forkedRegistry.tools.get "tool:a").map ToolRegistryEntry.binding =
      some (.bound "live:1") := by decide
  have hafter : ((forkedRegistry.addToolProvider searchProvider).2.tools.get "tool:a").isNone =
      true := by decide
  obtain ⟨entry, hentry, hbound⟩ := map_eq_some_iff.mp hbefore
  rw [(hlocal.standing "tool:a" entry "live:1" hentry hbound).1] at hafter
  cases hafter

end AddedProviders
