import Lash.ToolRebinding
import Lash.UnambiguousTools

/-!
# Runs of a tool registry

The operations of a registry, together with sources whose answers change between them, from
the empty registry through forks and composed catalogs. A stored table that comes back, an
orphan that is rebound and an unknown id that is looked up bring in manifests nobody checks
against the other entries; every other operation keeps the tools without ambiguity.
-/

namespace RegistryRuns

open NameTables ToolRegistries ToolRegistry ToolRebinding UnambiguousTools Option Table

variable {C D : Type} {registry : ToolRegistry C D}

inductive Operation (C D : Type) where
  | addToolProvider (provider : ToolProvider C D)
  | upsertSource (source : ToolSource C D)
  | removeSource (sourceId : String)
  | refreshSources
  | applyState (next : ToolState C D)
  | restoreState (snapshot : ToolState C D)
  | resolveManifest (name : String)
  | resolveManifestById (id : String)
  | execute (name : String)
  | executeById (id : String)
  /-- The registered sources answer differently from here on. -/
  | answer (answers : String → ToolProvider C D)

def answerAnew (answers : String → ToolProvider C D) (registry : ToolRegistry C D) :
    ToolRegistry C D :=
  { registry with
    sources := registry.sources.mapValues fun sourceId source =>
      toolProviderSource source.id (answers sourceId) }

def Operation.perform : Operation C D → ToolRegistry C D → ToolRegistry C D
  | .addToolProvider provider, registry => (registry.addToolProvider provider).2
  | .upsertSource source, registry => (registry.upsertSource source).2
  | .removeSource sourceId, registry => (registry.removeSourceId sourceId).2
  | .refreshSources, registry => registry.refreshSources.2
  | .applyState next, registry => (registry.applyState next).2
  | .restoreState snapshot, registry => (registry.restoreState snapshot).2
  | .resolveManifest name, registry => (registry.resolveManifest name).2
  | .resolveManifestById id, registry => (registry.resolveManifestById id).2
  | .execute name, registry => (registry.execute name).2
  | .executeById id, registry => (registry.executeById id).2
  | .answer answers, registry => answerAnew answers registry

/-! ## What may come back -/

/-- The manifests that come back for a stored table carry the ids they are asked for and have
names of their own. -/
structure ComesBack (sources : Table (ToolSource C D))
    (entries : Table (ToolStateEntry C D)) : Prop where
  keyed : ∀ id entry, entries.get id = some entry →
    (reboundEntry sources id entry).manifest.id = id
  named : ∀ id entry other otherEntry, entries.get id = some entry →
    entries.get other = some otherEntry →
      (reboundEntry sources id entry).manifest.name =
        (reboundEntry sources other otherEntry).manifest.name → id = other

/-- The first source that answers for an orphan's id does so with a manifest of that id under
a name that no other entry has. -/
def OrphanReturns (id : String) (registry : ToolRegistry C D) : Prop :=
  ∀ sourceId manifest,
    firstAnswer registry.sources (fun source => source.resolveManifestById id) =
      some (sourceId, manifest) →
    manifest.id = id ∧ ∀ other entry, registry.tools.get other = some entry →
      entry.manifest.name = manifest.name → other = id

/-- The first source that answers for an unknown id under a free name does so with a manifest
of that id. -/
def NewcomerFits (id : String) (registry : ToolRegistry C D) : Prop :=
  ∀ sourceId manifest,
    firstAnswer registry.sources (fun source => source.resolveManifestById id) =
      some (sourceId, manifest) →
    entryNamed registry.tools manifest.name = none → manifest.id = id

def LookupFits (id : String) (registry : ToolRegistry C D) : Prop :=
  match registry.tools.get id with
  | some entry => entry.isOrphaned = true → OrphanReturns id registry
  | none => NewcomerFits id registry

def NameFits (name : String) (registry : ToolRegistry C D) : Prop :=
  ∀ id entry, entryNamed registry.tools name = some (id, entry) → entry.isOrphaned = true →
    OrphanReturns id registry

def Operation.Fits : Operation C D → ToolRegistry C D → Prop
  | .applyState next, registry =>
    Admitted registry.sources .rejectUnresolved next.tools →
      ComesBack registry.sources next.tools
  | .restoreState snapshot, registry =>
    Admitted registry.sources .orphanUnresolved snapshot.tools →
      ComesBack registry.sources snapshot.tools
  | .resolveManifest name, registry | .execute name, registry => NameFits name registry
  | .resolveManifestById id, registry | .executeById id, registry => LookupFits id registry
  | .answer answers, registry =>
    ∀ id entry sourceId source, registry.tools.get id = some entry →
      entry.binding = .bound sourceId → registry.sources.get sourceId = some source →
        (toolProviderSource source.id (answers sourceId)).Provides id
  | _, _ => True

/-- The registries that come about where every step meets a condition on the registry before
it and every stored table that is forked meets one on the sources. -/
inductive Reached (Fits : Operation C D → ToolRegistry C D → Prop)
    (Forks : Table (ToolSource C D) → Table (ToolStateEntry C D) → Prop) :
    ToolRegistry C D → Prop
  | empty : Reached Fits Forks ToolRegistry.empty
  | step {registry : ToolRegistry C D} (h : Reached Fits Forks registry)
      (operation : Operation C D) (fits : Fits operation registry) :
      Reached Fits Forks (operation.perform registry)
  | fork {registry child : ToolRegistry C D} (h : Reached Fits Forks registry)
      (snapshot : ToolState C D) (fits : Forks registry.sources snapshot.tools)
      (made : registry.forkWithState snapshot = .ok child) : Reached Fits Forks child
  | compose {registry child : ToolRegistry C D} (h : Reached Fits Forks registry)
      (includeBaseTools : Bool) (providers : List (ToolProvider C D))
      (fits : includeBaseTools = true → Forks registry.sources registry.exportState.tools)
      (made : registry.composeSessionCatalog includeBaseTools providers = .ok child) :
      Reached Fits Forks child

/-- A registry without ambiguity. -/
abbrev Clear (registry : ToolRegistry C D) : Prop := Unambiguous registry.sources registry.tools

/-! ## Sources -/

variable {source : ToolSource C D}

theorem reconcileSource_clear {policy : SourceReconcilePolicy} (clear : Clear registry) :
    Clear (registry.reconcileSource source policy).2 := by
  unfold reconcileSource
  dsimp only
  cases hvalid : validateUniqueManifests
      (source.advertisedTools.map (manifestWithCompactContract source)) with
  | error error => exact clear
  | ok _ =>
    cases policy with
    | rejectExternalConflicts =>
      dsimp only
      cases hchecked : rejectConflicts registry.tools source.id
          (source.advertisedTools.map (manifestWithCompactContract source)) with
      | error error => exact clear
      | ok _ => exact registered clear hvalid (strict_leaves hchecked)
    | overlayReplacingConflicts => exact registered clear hvalid (overlay_leaves _ _ _)

theorem upsertSource_clear (source : ToolSource C D) (clear : Clear registry) :
    Clear (registry.upsertSource source).2 :=
  reconcileSource_clear clear

theorem addToolProvider_clear (provider : ToolProvider C D) (clear : Clear registry) :
    Clear (registry.addToolProvider provider).2 := by
  have hnumbered : Clear { registry with
      nextLiveSourceId := (registry.nextLiveSourceId + 1) % 2 ^ 64 } := clear
  have hupsert := upsertSource_clear (toolProviderSource
    s!"live:{(registry.nextLiveSourceId + 1) % 2 ^ 64}" provider) hnumbered
  unfold addToolProvider
  dsimp only
  split
  all_goals
    next heq =>
      rw [heq] at hupsert
      exact hupsert

theorem removeSourceId_clear (sourceId : String) (clear : Clear registry) :
    Clear (registry.removeSourceId sourceId).2 := by
  unfold removeSourceId
  split
  · have hkept := clear.retain fun _ entry => entry.binding.sourceId != some sourceId
    refine ⟨hkept.keyed, hkept.named, fun id entry bound h hbound => ?_⟩
    obtain ⟨source, hsource, provides⟩ := hkept.provided id entry bound h hbound
    have hne : bound ≠ sourceId := by
      rintro rfl
      dsimp only at h
      rw [get_retain, filter_eq_some_iff] at h
      simp [hbound, ToolBinding.sourceId] at h
    exact ⟨source, by dsimp only; rw [get_remove, if_neg hne, hsource], provides⟩
  · exact clear

theorem upsertEach_clear {sources : List (ToolSource C D)} {generation : Nat}
    (clear : Clear registry) : Clear (upsertEach sources generation registry).2 := by
  induction sources generalizing registry generation with
  | nil => exact clear
  | cons source rest ih =>
    have hupsert := upsertSource_clear source clear
    rw [upsertEach]
    split
    next heq =>
      rw [heq] at hupsert
      exact hupsert
    next heq =>
      rw [heq] at hupsert
      exact ih hupsert

/-! ## Stored tables -/

theorem rebound_clear {sources : Table (ToolSource C D)} {entries : Table (ToolStateEntry C D)}
    (fits : ComesBack sources entries) :
    Unambiguous sources (entries.mapValues (reboundEntry sources)) := by
  have hold : ∀ {id entry}, (entries.mapValues (reboundEntry sources)).get id = some entry →
      ∃ stored, entries.get id = some stored ∧ reboundEntry sources id stored = entry := by
    intro id entry h
    rw [get_mapValues] at h
    exact map_eq_some_iff.mp h
  constructor
  · intro id entry h
    obtain ⟨stored, hstored, rfl⟩ := hold h
    exact fits.keyed id stored hstored
  · intro id entry other otherEntry h h' hname
    obtain ⟨stored, hstored, rfl⟩ := hold h
    obtain ⟨otherStored, hother, rfl⟩ := hold h'
    exact fits.named id stored other otherStored hstored hother hname
  · intro id entry sourceId h hbound
    obtain ⟨stored, -, rfl⟩ := hold h
    exact rebound_provides hbound

variable {snapshot : ToolState C D}

theorem restoreState_clear (clear : Clear registry)
    (fits : Admitted registry.sources .orphanUnresolved snapshot.tools →
      ComesBack registry.sources snapshot.tools) : Clear (registry.restoreState snapshot).2 := by
  by_cases admitted : Admitted registry.sources .orphanUnresolved snapshot.tools
  · rw [restoreState_ok admitted]
    exact rebound_clear (fits admitted)
  · obtain ⟨error, herror⟩ := restoreState_refused admitted
    rw [herror]
    exact clear

theorem applyState_clear {next : ToolState C D} (clear : Clear registry)
    (fits : Admitted registry.sources .rejectUnresolved next.tools →
      ComesBack registry.sources next.tools) :
    Clear (registry.applyState next).2 := by
  by_cases admitted : next.generation = registry.generation ∧
      Admitted registry.sources .rejectUnresolved next.tools
  · rw [applyState_ok admitted.1 admitted.2]
    exact rebound_clear (fits admitted.2)
  · obtain ⟨error, herror⟩ := applyState_refused admitted
    rw [herror]
    exact clear

/-- The condition on the stored table of a fork. -/
def ForkFits (sources : Table (ToolSource C D)) (entries : Table (ToolStateEntry C D)) : Prop :=
  Admitted sources .orphanUnresolved entries → ComesBack sources entries

variable {child : ToolRegistry C D}

theorem forkWithState_clear (fits : ForkFits registry.sources snapshot.tools)
    (made : registry.forkWithState snapshot = .ok child) : Clear child := by
  by_cases admitted : Admitted registry.sources .orphanUnresolved snapshot.tools
  · rw [forkWithState_ok admitted, Except.ok.injEq] at made
    rw [← made]
    exact rebound_clear (fits admitted)
  · obtain ⟨error, herror⟩ := forkWithState_refused admitted
    rw [herror] at made
    cases made

theorem composeSessionCatalog_clear {includeBaseTools : Bool} {providers : List (ToolProvider C D)}
    (fits : includeBaseTools = true → ForkFits registry.sources registry.exportState.tools)
    (made : registry.composeSessionCatalog includeBaseTools providers = .ok child) :
    Clear child := by
  unfold composeSessionCatalog at made
  split at made
  · cases made
  next composed hcomposed =>
    have clear : Clear composed := by
      cases includeBaseTools with
      | true => exact forkWithState_clear (fits rfl) hcomposed
      | false =>
        cases hcomposed
        exact .empty
    have hoverlay : Clear (composed.reconcileSource
        (toolProviderGroupSource "context" providers) .overlayReplacingConflicts).2 :=
      reconcileSource_clear clear
    unfold upsertOverlaySource at made
    split at made
    · cases made
    next heq =>
      cases made
      rw [heq] at hoverlay
      exact hoverlay

/-! ## Names and ids -/

variable {entry : ToolRegistryEntry C D} {id name : String} {tools : Table (ToolRegistryEntry C D)}

theorem entryNamed_some (h : entryNamed tools name = some (id, entry)) :
    tools.get id = some entry ∧ entry.manifest.name = name :=
  ⟨mem_entries_iff.mp (List.mem_of_find?_eq_some h), by simpa using List.find?_some h⟩

theorem entryNamed_none (h : entryNamed tools name = none) (hentry : tools.get id = some entry) :
    entry.manifest.name ≠ name := by
  simpa using List.find?_eq_none.mp h (id, entry) (mem_entries_iff.mpr hentry)

variable {manifest : ToolManifest C D}

variable {sourceId : String}

theorem insertBound_clear {member : Bool} (clear : Clear registry) (hid : manifest.id = id)
    (hname : ∀ other entry, registry.tools.get other = some entry →
      entry.manifest.name = manifest.name → other = id)
    (hsource : registry.sources.get sourceId = some source) (provides : source.Provides id) :
    Clear (registry.insertBound id sourceId manifest member) :=
  clear.insert hid hname hsource provides

theorem tryRebindOrphan_clear (clear : Clear registry) (fits : OrphanReturns id registry) :
    Clear (registry.tryRebindOrphan id).2 := by
  unfold tryRebindOrphan
  cases hanswer : firstAnswer registry.sources fun source => source.resolveManifestById id with
  | none => exact clear
  | some found =>
    obtain ⟨sourceId, manifest⟩ := found
    dsimp only
    cases hentry : registry.tools.get id with
    | none => exact clear
    | some existing =>
      dsimp only
      split
      · obtain ⟨hid, hname⟩ := fits sourceId manifest hanswer
        obtain ⟨source, hsource, provides⟩ := firstAnswer_provides hanswer
        exact insertBound_clear clear hid hname hsource provides
      · exact clear

theorem resolveKnown_state (id : String) (entry : ToolRegistryEntry C D)
    (registry : ToolRegistry C D) :
    (registry.resolveKnown id entry).2 =
      if entry.isOrphaned then (registry.tryRebindOrphan id).2 else registry := by
  unfold resolveKnown
  split <;> rfl

theorem resolveKnown_clear (clear : Clear registry)
    (fits : entry.isOrphaned = true → OrphanReturns id registry) :
    Clear (registry.resolveKnown id entry).2 := by
  rw [resolveKnown_state]
  split
  next horphaned => exact tryRebindOrphan_clear clear (fits horphaned)
  · exact clear

theorem resolveManifest_clear (clear : Clear registry) (fits : NameFits name registry) :
    Clear (registry.resolveManifest name).2 := by
  unfold resolveManifest
  cases hnamed : entryNamed registry.tools name with
  | some found =>
    exact resolveKnown_clear clear (fits found.1 found.2 hnamed)
  | none =>
    dsimp only
    cases hanswer : firstAnswer registry.sources fun source => source.resolveManifest name with
    | none => exact clear
    | some found =>
      obtain ⟨sourceId, manifest⟩ := found
      dsimp only
      cases hexisting : registry.tools.get manifest.id with
      | some existing => exact clear
      | none =>
        dsimp only
        cases htaken : entryNamed registry.tools manifest.name with
        | some existing => exact clear
        | none =>
          obtain ⟨source, raw, hsource, hraw, heq⟩ := firstAnswer_mem hanswer
          refine insertBound_clear clear rfl (fun other entry hentry hname =>
            absurd hname (entryNamed_none htaken hentry)) hsource (.inr (.inl ?_))
          exact ⟨name, raw, hraw, by rw [heq, manifestWithCompactContract_id]⟩

theorem resolveManifestById_clear (clear : Clear registry) (fits : LookupFits id registry) :
    Clear (registry.resolveManifestById id).2 := by
  unfold resolveManifestById
  cases hentry : registry.tools.get id with
  | some entry =>
    rw [LookupFits, hentry] at fits
    exact resolveKnown_clear clear fits
  | none =>
    rw [LookupFits, hentry] at fits
    dsimp only
    cases hanswer : firstAnswer registry.sources fun source => source.resolveManifestById id with
    | none => exact clear
    | some found =>
      obtain ⟨sourceId, manifest⟩ := found
      dsimp only
      cases htaken : entryNamed registry.tools manifest.name with
      | some existing => exact clear
      | none =>
        obtain ⟨source, hsource, provides⟩ := firstAnswer_provides hanswer
        exact insertBound_clear clear (fits sourceId manifest hanswer htaken)
          (fun other entry hother hname => absurd hname (entryNamed_none htaken hother))
          hsource provides

/-! ## Execution -/

theorem lookupFits_of_bound (hentry : registry.tools.get id = some entry)
    (hbound : entry.binding = .bound sourceId) : LookupFits id registry := by
  rw [LookupFits, hentry]
  intro horphaned
  simp [ToolRegistryEntry.isOrphaned, hbound] at horphaned

theorem viewFrom_some {existing : ToolRegistryEntry C D}
    (h : viewFrom sourceId existing = some manifest) :
    existing.binding = .bound sourceId ∧ existing.manifest = manifest := by
  unfold viewFrom at h
  split at h
  next hsource =>
    cases h
    cases hbinding : existing.binding with
    | bound other =>
      rw [hbinding, ToolBinding.sourceId, some.injEq] at hsource
      rw [hsource]
      exact ⟨rfl, rfl⟩
    | orphaned =>
      rw [hbinding] at hsource
      cases hsource
  · cases h

theorem get_insertBound (id sourceId : String) (manifest : ToolManifest C D) (member : Bool)
    (registry : ToolRegistry C D) :
    (registry.insertBound id sourceId manifest member).tools.get id =
      some { ToolRegistryEntry.new manifest sourceId with member := member } := by
  rw [insertBound]
  dsimp only
  rw [get_set, if_pos rfl]

theorem resolveKnown_fits (clear : Clear registry) (hentry : registry.tools.get id = some entry)
    (fits : entry.isOrphaned = true → OrphanReturns id registry)
    (h : (registry.resolveKnown id entry).1 = some manifest) :
    LookupFits manifest.id (registry.resolveKnown id entry).2 := by
  have hkept : LookupFits id registry := by
    rw [LookupFits, hentry]
    exact fits
  have hkeyed := clear.keyed id entry hentry
  unfold resolveKnown at h ⊢
  split at h
  next horphaned =>
    rw [if_pos horphaned]
    unfold tryRebindOrphan at h ⊢
    cases hanswer : firstAnswer registry.sources fun source => source.resolveManifestById id with
    | none =>
      rw [hanswer] at h
      cases h
      exact hkeyed.symm ▸ hkept
    | some found =>
      obtain ⟨sourceId, found⟩ := found
      rw [hanswer] at h
      simp only [hentry, horphaned, if_true, getD_some, some.injEq] at h ⊢
      subst h
      rw [(fits horphaned sourceId found hanswer).1]
      exact lookupFits_of_bound (get_insertBound _ _ _ _ _) rfl
  next hbound =>
    rw [if_neg hbound]
    cases h
    exact hkeyed.symm ▸ hkept

/-- Whatever a name is answered with may be looked up again by its id. -/
theorem resolveManifest_fits (clear : Clear registry) (fits : NameFits name registry)
    (h : (registry.resolveManifest name).1 = some manifest) :
    LookupFits manifest.id (registry.resolveManifest name).2 := by
  unfold resolveManifest at h ⊢
  cases hnamed : entryNamed registry.tools name with
  | some found =>
    rw [hnamed] at h
    exact resolveKnown_fits clear (entryNamed_some hnamed).1 (fits found.1 found.2 hnamed) h
  | none =>
    rw [hnamed] at h
    dsimp only at h ⊢
    cases hanswer : firstAnswer registry.sources fun source => source.resolveManifest name with
    | none =>
      rw [hanswer] at h
      cases h
    | some found =>
      obtain ⟨sourceId, found⟩ := found
      rw [hanswer] at h
      dsimp only at h ⊢
      cases hexisting : registry.tools.get found.id with
      | some existing =>
        rw [hexisting] at h
        obtain ⟨hbound, heq⟩ := viewFrom_some h
        have hid := clear.keyed found.id existing hexisting
        rw [← heq, hid]
        exact lookupFits_of_bound hexisting hbound
      | none =>
        rw [hexisting] at h
        dsimp only at h ⊢
        cases htaken : entryNamed registry.tools found.name with
        | some existing =>
          rw [htaken] at h
          obtain ⟨hbound, heq⟩ := viewFrom_some h
          have hexists := (entryNamed_some htaken).1
          rw [← heq, clear.keyed existing.1 existing.2 hexists]
          exact lookupFits_of_bound hexists hbound
        | none =>
          rw [htaken] at h
          cases h
          exact lookupFits_of_bound (get_insertBound _ _ _ _ _) rfl

theorem executeById_state (id : String) (registry : ToolRegistry C D) :
    (registry.executeById id).2 = (registry.resolveManifestById id).2 := by
  have hsource : (registry.resolveExecutionSource id).2 = (registry.resolveManifestById id).2 := by
    unfold resolveExecutionSource
    split
    next heq => rw [heq]
    next heq =>
      rw [heq]
      split
      · split
        · split <;> rfl
        · rfl
        · rfl
      · rfl
  rw [← hsource]
  unfold executeById
  split
  next heq => rw [heq]
  next heq => rw [heq]

/-- A lookup leaves the registry as it is or binds one tool to a registered source. -/
def Looked (before after : ToolRegistry C D) : Prop :=
  after = before ∨ ∃ id sourceId source manifest member,
    before.sources.get sourceId = some source ∧
      after = before.insertBound id sourceId manifest member

theorem resolveKnown_looked (id : String) (entry : ToolRegistryEntry C D)
    (registry : ToolRegistry C D) : Looked registry (registry.resolveKnown id entry).2 := by
  rw [resolveKnown_state]
  unfold tryRebindOrphan
  split
  · split
    · exact .inl rfl
    next hanswer =>
      obtain ⟨source, -, hsource, -⟩ := firstAnswer_mem hanswer
      split
      · exact .inl rfl
      · split
        · exact .inr ⟨_, _, source, _, _, hsource, rfl⟩
        · exact .inl rfl
  · exact .inl rfl

theorem resolveManifest_looked (name : String) (registry : ToolRegistry C D) :
    Looked registry (registry.resolveManifest name).2 := by
  unfold resolveManifest
  split
  · apply resolveKnown_looked
  · split
    · exact .inl rfl
    next hanswer =>
      obtain ⟨source, -, hsource, -⟩ := firstAnswer_mem hanswer
      split
      · exact .inl rfl
      · split
        · exact .inl rfl
        · exact .inr ⟨_, _, source, _, _, hsource, rfl⟩

theorem resolveManifestById_looked (id : String) (registry : ToolRegistry C D) :
    Looked registry (registry.resolveManifestById id).2 := by
  unfold resolveManifestById
  split
  · apply resolveKnown_looked
  · split
    · exact .inl rfl
    next hanswer =>
      obtain ⟨source, -, hsource, -⟩ := firstAnswer_mem hanswer
      split
      · exact .inl rfl
      · exact .inr ⟨_, _, source, _, _, hsource, rfl⟩

theorem execute_clear (clear : Clear registry) (fits : NameFits name registry) :
    Clear (registry.execute name).2 := by
  have hresolved := resolveManifest_clear clear fits
  unfold execute
  split
  next heq =>
    rw [heq] at hresolved
    exact hresolved
  next manifest found heq =>
    have hlookup : LookupFits manifest.id (registry.resolveManifest name).2 :=
      resolveManifest_fits clear fits (by rw [heq])
    rw [heq] at hresolved hlookup
    rw [executeById_state]
    exact resolveManifestById_clear hresolved hlookup

theorem answerAnew_clear {answers : String → ToolProvider C D} (clear : Clear registry)
    (fits : ∀ id entry sourceId source, registry.tools.get id = some entry →
      entry.binding = .bound sourceId → registry.sources.get sourceId = some source →
        (toolProviderSource source.id (answers sourceId)).Provides id) :
    Clear (answerAnew answers registry) := by
  refine ⟨clear.keyed, clear.named, fun id entry sourceId h hbound => ?_⟩
  obtain ⟨source, hsource, -⟩ := clear.provided id entry sourceId h hbound
  refine ⟨toolProviderSource source.id (answers sourceId), ?_,
    fits id entry sourceId source h hbound hsource⟩
  rw [answerAnew]
  dsimp only
  rw [get_mapValues, hsource]
  rfl

theorem perform_clear {operation : Operation C D} (clear : Clear registry)
    (fits : operation.Fits registry) : Clear (operation.perform registry) := by
  cases operation with
  | addToolProvider provider => exact addToolProvider_clear provider clear
  | upsertSource source => exact upsertSource_clear source clear
  | removeSource sourceId => exact removeSourceId_clear sourceId clear
  | refreshSources => exact upsertEach_clear clear
  | applyState next => exact applyState_clear clear fits
  | restoreState snapshot => exact restoreState_clear clear fits
  | resolveManifest name => exact resolveManifest_clear clear fits
  | resolveManifestById id => exact resolveManifestById_clear clear fits
  | execute name => exact execute_clear clear fits
  | executeById id =>
    rw [Operation.perform, executeById_state]
    exact resolveManifestById_clear clear fits
  | answer answers => exact answerAnew_clear clear fits

theorem reached_clear (h : Reached Operation.Fits ForkFits registry) : Clear registry := by
  induction h with
  | empty => exact .empty
  | step _ operation fits ih => exact perform_clear ih fits
  | fork _ snapshot fits made _ => exact forkWithState_clear fits made
  | compose _ includeBaseTools providers fits made _ => exact composeSessionCatalog_clear fits made

/-- Every advertised name leads to one tool: a call under it goes to a registered source that
provides the tool, under the tool's id, and nothing else is advertised under it. -/
def RunsOneTool (registry : ToolRegistry C D) : Prop :=
  ∀ manifest ∈ registry.toolManifests,
    (∃ sourceId source, registry.sources.get sourceId = some source ∧
      source.Provides manifest.id ∧
      registry.execute manifest.name = (.ok (source, manifest.id), registry)) ∧
    ∀ other ∈ registry.toolManifests, other.name = manifest.name → other.id = manifest.id

theorem mem_toolManifests (hmem : manifest ∈ registry.toolManifests) :
    ∃ id entry, registry.tools.get id = some entry ∧ entry.isMember = true ∧
      entry.manifest = manifest := by
  obtain ⟨⟨id, entry⟩, hkept, heq⟩ := List.mem_map.mp hmem
  obtain ⟨hentry, hmember⟩ := List.mem_filter.mp hkept
  exact ⟨id, entry, mem_entries_iff.mp hentry, hmember, heq⟩

theorem member_bound (h : entry.isMember = true) :
    entry.isOrphaned = false ∧ ∃ sourceId, entry.binding = .bound sourceId := by
  simp only [ToolRegistryEntry.isMember, Bool.and_eq_true, Bool.not_eq_true'] at h
  refine ⟨h.2, ?_⟩
  cases hbinding : entry.binding with
  | bound sourceId => exact ⟨sourceId, rfl⟩
  | orphaned => simp [ToolRegistryEntry.isOrphaned, hbinding] at h

theorem entryNamed_of_clear (clear : Clear registry) (hentry : registry.tools.get id = some entry) :
    entryNamed registry.tools entry.manifest.name = some (id, entry) := by
  cases hnamed : entryNamed registry.tools entry.manifest.name with
  | none => exact absurd rfl (entryNamed_none hnamed hentry)
  | some found =>
    obtain ⟨hfound, hname⟩ := entryNamed_some hnamed
    obtain ⟨hid, hsame⟩ := clear.unique hfound hentry hname
    rw [← hid, ← hsame]

theorem execute_member (clear : Clear registry) (hentry : registry.tools.get id = some entry)
    (hmember : entry.isMember = true) (hbound : entry.binding = .bound sourceId)
    (hsource : registry.sources.get sourceId = some source) :
    registry.execute entry.manifest.name = (.ok (source, id), registry) := by
  have hlive := (member_bound hmember).1
  have hknown : registry.resolveKnown id entry = (some entry.manifest, registry) := by
    simp [resolveKnown, hlive]
  have hname : registry.resolveManifest entry.manifest.name = (some entry.manifest, registry) := by
    rw [resolveManifest, entryNamed_of_clear clear hentry]
    exact hknown
  have hid : registry.resolveManifestById id = (some entry.manifest, registry) := by
    rw [resolveManifestById, hentry]
    exact hknown
  have hroute : registry.resolveExecutionSource id = (.ok (source, entry.manifest), registry) := by
    rw [resolveExecutionSource, hid]
    simp [hentry, hmember, hbound, hsource]
  rw [execute, hname]
  simp only [clear.keyed id entry hentry]
  rw [executeById, hroute]

theorem clear_runsOneTool (clear : Clear registry) : RunsOneTool registry := by
  intro manifest hmem
  obtain ⟨id, entry, hentry, hmember, rfl⟩ := mem_toolManifests hmem
  have hkeyed := clear.keyed id entry hentry
  constructor
  · obtain ⟨sourceId, hbound⟩ := (member_bound hmember).2
    obtain ⟨source, hsource, provides⟩ := clear.provided id entry sourceId hentry hbound
    refine ⟨sourceId, source, hsource, hkeyed.symm ▸ provides, ?_⟩
    rw [hkeyed]
    exact execute_member clear hentry hmember hbound hsource
  · intro other hother hname
    obtain ⟨otherId, otherEntry, hget, -, rfl⟩ := mem_toolManifests hother
    obtain ⟨-, hsame⟩ := clear.unique hget hentry hname
    rw [hsame]

/-- Where whatever comes back fits, every state is without ambiguity and every advertised name
runs one tool. -/
theorem reached_names_run_one_tool (h : Reached Operation.Fits ForkFits registry) :
    Clear registry ∧ RunsOneTool registry :=
  ⟨reached_clear h, clear_runsOneTool (reached_clear h)⟩

/-! ## Two tools under one name -/

variable (manifests : List (ToolManifest Unit Unit))

def listedProvider : ToolProvider Unit Unit where
  toolManifests := manifests
  resolveManifest name := manifests.find? fun manifest => manifest.name == name
  resolveManifestById id := manifests.find? fun manifest => manifest.id == id
  compactContract _ := none

/-- A provider that answers for the id of a tool it does not advertise. -/
def unlistedProvider (manifest : ToolManifest Unit Unit) : ToolProvider Unit Unit where
  toolManifests := []
  resolveManifest _ := none
  resolveManifestById id := if id = manifest.id then some manifest else none
  compactContract _ := none

def plainManifest (id name : String) : ToolManifest Unit Unit := ⟨id, name, none, ()⟩

def storedTools : ToolState Unit Unit :=
  ⟨1, Table.ofList (manifests.map fun manifest => (manifest.id, ⟨manifest, false, true⟩))⟩

def searchRegistry : ToolRegistry Unit Unit :=
  (Operation.upsertSource (toolProviderSource "plugins"
    (listedProvider [plainManifest "tool:b" "search"]))).perform ToolRegistry.empty

def restoredRegistry : ToolRegistry Unit Unit :=
  (Operation.restoreState (storedTools [plainManifest "tool:a" "find",
      plainManifest "tool:b" "search"])).perform
    ((Operation.addToolProvider (unlistedProvider (plainManifest "tool:a" "search"))).perform
      searchRegistry)

/-- A tool that is stored under its old name, and one that keeps its name. -/
def renamedTools : ToolState Unit Unit :=
  storedTools [plainManifest "tool:a" "grep", plainManifest "tool:b" "search"]

def twoSourceRegistry : ToolRegistry Unit Unit :=
  (Operation.upsertSource (toolProviderSource "files"
    (listedProvider [plainManifest "tool:a" "find"]))).perform searchRegistry

theorem reached_names_run_one_tool_restored :
    Clear ((Operation.restoreState renamedTools).perform twoSourceRegistry) ∧
      RunsOneTool ((Operation.restoreState renamedTools).perform twoSourceRegistry) := by
  refine reached_names_run_one_tool
    (.step (.step (.step .empty _ trivial) _ trivial) _ fun _ => ?_)
  have hid : ∀ id entry, renamedTools.tools.get id = some entry →
      (id, entry) = ("tool:a", ⟨plainManifest "tool:a" "grep", false, true⟩) ∨
        (id, entry) = ("tool:b", ⟨plainManifest "tool:b" "search", false, true⟩) := by
    intro id entry h
    have hmem : (id, entry) ∈ [("tool:a", ⟨plainManifest "tool:a" "grep", false, true⟩),
        ("tool:b", ⟨plainManifest "tool:b" "search", false, true⟩)] := mem_entries_iff.mpr h
    rcases List.mem_cons.mp hmem with h | hmem
    · exact .inl h
    · exact .inr (List.mem_singleton.mp hmem)
  constructor
  · intro id entry h
    rcases hid id entry h with h | h <;> cases h
    · rfl
    · rfl
  · intro id entry other otherEntry h h' hname
    rcases hid id entry h with h | h <;> rcases hid other otherEntry h' with h' | h' <;>
      cases h <;> cases h'
    · rfl
    · exact absurd hname (by decide)
    · exact absurd hname (by decide)
    · rfl

theorem restored_tools_share_a_name : ¬ ∀ registry : ToolRegistry Unit Unit,
      Reached (fun _ _ => True) (fun _ _ => True) registry →
        Clear registry ∧ RunsOneTool registry := by
  intro h
  have hreached : Reached (fun _ _ => True) (fun _ _ => True) restoredRegistry :=
    .step (.step (.step .empty _ trivial) _ trivial) _ trivial
  have hfirst : (restoredRegistry.tools.get "tool:a").isSome = true := by decide
  have hsecond : (restoredRegistry.tools.get "tool:b").isSome = true := by decide
  have hnames : (restoredRegistry.tools.get "tool:a").map (fun entry => entry.manifest.name) =
      (restoredRegistry.tools.get "tool:b").map fun entry => entry.manifest.name := by
    decide
  obtain ⟨first, hfirst⟩ := isSome_iff_exists.mp hfirst
  obtain ⟨second, hsecond⟩ := isSome_iff_exists.mp hsecond
  rw [hfirst, hsecond] at hnames
  have hsame := (h restoredRegistry hreached).1.named "tool:a" first "tool:b" second hfirst hsecond
    (some.inj hnames)
  exact absurd hsame (by decide)

end RegistryRuns
