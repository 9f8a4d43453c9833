import Lash.NameTables
import Lash.TurnProtocols

/-!
# The registry of tools

Tools come from registered sources. The registry keeps one entry per tool id, bound to the
source it came from, or orphaned when no registered source answered for it on a restore. A
source is known here by what it answers at the time: its advertised tools, its manifest for a
name or an id, and the compact contract of a manifest. Generations are `u64` counters that
wrap.
-/

namespace ToolRegistries

open NameTables TurnProtocols

variable {C D : Type}

structure ToolManifest (C D : Type) where
  id : String
  name : String
  compactContract : Option C
  details : D

/-! ## Providers and sources -/

structure ToolProvider (C D : Type) where
  toolManifests : List (ToolManifest C D)
  resolveManifest : String → Option (ToolManifest C D)
  resolveManifestById : String → Option (ToolManifest C D)
  compactContract : ToolManifest C D → Option C

structure ToolSource (C D : Type) where
  id : String
  advertisedTools : List (ToolManifest C D)
  resolveManifest : String → Option (ToolManifest C D)
  resolveManifestById : String → Option (ToolManifest C D)
  compactContract : ToolManifest C D → Option C

def toolProviderSource (id : String) (provider : ToolProvider C D) : ToolSource C D where
  id := id
  advertisedTools := provider.toolManifests
  resolveManifest := provider.resolveManifest
  resolveManifestById := provider.resolveManifestById
  compactContract := provider.compactContract

/-- The tools of a group, the last provider of an id before the others. -/
def groupTools (providers : List (ToolProvider C D)) :
    Table (ToolManifest C D × ToolProvider C D) :=
  providers.foldl (fun tools provider =>
    provider.toolManifests.foldl (fun tools manifest =>
      tools.set manifest.id (manifest, provider)) tools) Table.empty

def toolProviderGroupSource (id : String) (providers : List (ToolProvider C D)) :
    ToolSource C D where
  id := id
  advertisedTools := (groupTools providers).entries.map fun entry => entry.2.1
  resolveManifest name :=
    match (groupTools providers).entries.find? fun entry => entry.2.1.name == name with
    | some entry => some entry.2.1
    | none => providers.findSome? fun provider => provider.resolveManifest name
  resolveManifestById id :=
    match (groupTools providers).get id with
    | some (manifest, _) => some manifest
    | none => providers.findSome? fun provider => provider.resolveManifestById id
  compactContract manifest :=
    match (groupTools providers).get manifest.id with
    | some (_, provider) => provider.compactContract manifest
    | none =>
      (providers.find? fun provider => (provider.resolveManifestById manifest.id).isSome).bind
        fun provider => provider.compactContract manifest

variable (source : ToolSource C D)

/-- A source provides a tool that it advertises or answers for by name or id. -/
def ToolSource.Provides (id : String) : Prop :=
  (∃ manifest ∈ source.advertisedTools, manifest.id = id) ∨
    (∃ name manifest, source.resolveManifest name = some manifest ∧ manifest.id = id) ∨
    (source.resolveManifestById id).isSome

def manifestWithCompactContract (manifest : ToolManifest C D) : ToolManifest C D :=
  match manifest.compactContract with
  | some _ => manifest
  | none => { manifest with compactContract := source.compactContract manifest }

@[simp] theorem manifestWithCompactContract_id (manifest : ToolManifest C D) :
    (manifestWithCompactContract source manifest).id = manifest.id := by
  unfold manifestWithCompactContract
  split <;> rfl

/-! ## Entries and states -/

inductive ToolBinding where
  | bound (sourceId : String)
  | orphaned
deriving DecidableEq

def ToolBinding.sourceId : ToolBinding → Option String
  | .bound id => some id
  | .orphaned => none

structure ToolRegistryEntry (C D : Type) where
  manifest : ToolManifest C D
  binding : ToolBinding
  member : Bool

namespace ToolRegistryEntry

def new (manifest : ToolManifest C D) (sourceId : String) : ToolRegistryEntry C D :=
  ⟨manifest, .bound sourceId, true⟩

def orphaned (manifest : ToolManifest C D) : ToolRegistryEntry C D :=
  ⟨manifest, .orphaned, true⟩

variable (entry : ToolRegistryEntry C D)

def isOrphaned : Bool := entry.binding == .orphaned

def isMember : Bool := entry.member && !entry.isOrphaned

end ToolRegistryEntry

structure ToolStateEntry (C D : Type) where
  manifest : ToolManifest C D
  orphaned : Bool
  member : Bool

def ToolRegistryEntry.export (entry : ToolRegistryEntry C D) : ToolStateEntry C D :=
  ⟨entry.manifest, entry.isOrphaned, entry.member⟩

structure ToolState (C D : Type) where
  generation : Nat
  tools : Table (ToolStateEntry C D)

inductive ReconfigureError where
  | validation (message : String)
  | unknownSource (id : String)
  | generationMismatch (expected actual : Nat)
deriving DecidableEq

structure ToolRegistry (C D : Type) where
  sources : Table (ToolSource C D)
  generation : Nat
  tools : Table (ToolRegistryEntry C D)
  nextLiveSourceId : Nat

abbrev Outcome (C D α : Type) := Except ReconfigureError α × ToolRegistry C D

def nextGeneration (generation : Nat) : Nat := (generation + 1) % 2 ^ 64

def ToolRegistry.empty : ToolRegistry C D := ⟨Table.empty, 0, Table.empty, 0⟩

/-! ## Validation and rebinding -/

def validateManifests (names ids : List String) :
    List (ToolManifest C D) → Except ReconfigureError Unit
  | [] => .ok ()
  | manifest :: rest =>
    if (trim manifest.id).isEmpty then .error (.validation "tool id cannot be empty")
    else if manifest.id ∈ ids then
      .error (.validation s!"duplicate tool id `{manifest.id}` in source")
    else if (trim manifest.name).isEmpty then .error (.validation "tool name cannot be empty")
    else if manifest.name ∈ names then
      .error (.validation s!"duplicate tool name `{manifest.name}` in source")
    else validateManifests (manifest.name :: names) (manifest.id :: ids) rest

def validateUniqueManifests (manifests : List (ToolManifest C D)) :
    Except ReconfigureError Unit :=
  validateManifests [] [] manifests

def validateUniqueManifestEntries (tools : Table (ToolStateEntry C D)) :
    Except ReconfigureError Unit :=
  validateUniqueManifests (tools.entries.map fun entry => entry.2.manifest)

inductive RebindMode where
  | orphanUnresolved
  | rejectUnresolved
deriving DecidableEq

structure ReboundTools (C D : Type) where
  tools : Table (ToolRegistryEntry C D)
  orphaned : List String

/-- The registered sources that answer for an id, in their order, with their manifests. -/
def idMatches (sources : Table (ToolSource C D)) (id : String) :
    List (String × ToolManifest C D) :=
  sources.entries.filterMap fun (sourceId, source) =>
    (source.resolveManifestById id).map fun manifest =>
      (sourceId, manifestWithCompactContract source manifest)

def rebindEntries (sources : Table (ToolSource C D)) (mode : RebindMode) :
    List (String × ToolStateEntry C D) → ReboundTools C D →
      Except ReconfigureError (ReboundTools C D)
  | [], rebound => .ok rebound
  | (id, entry) :: rest, rebound =>
    if id ≠ entry.manifest.id then
      .error (.validation
        s!"tool state key `{id}` does not match manifest id `{entry.manifest.id}`")
    else
      match idMatches sources id with
      | [] =>
        if mode = .rejectUnresolved ∧ entry.orphaned = false then
          .error (.validation s!"no registered tool source resolves tool id `{id}`")
        else
          rebindEntries sources mode rest
            ⟨rebound.tools.set id
              { ToolRegistryEntry.orphaned entry.manifest with member := entry.member },
            rebound.orphaned ++ [id]⟩
      | [(sourceId, manifest)] =>
        rebindEntries sources mode rest
          { rebound with
            tools := rebound.tools.set id
              { ToolRegistryEntry.new manifest sourceId with member := entry.member } }
      | _ :: _ :: _ =>
        .error (.validation s!"tool id `{id}` is resolved by multiple registered sources")

def rebindToolStateEntries (entries : Table (ToolStateEntry C D))
    (sources : Table (ToolSource C D)) (mode : RebindMode) :
    Except ReconfigureError (ReboundTools C D) :=
  rebindEntries sources mode entries.entries ⟨Table.empty, []⟩

namespace ToolRegistry

variable (registry : ToolRegistry C D)

def exportState : ToolState C D :=
  ⟨registry.generation, registry.tools.mapValues fun _ entry => entry.export⟩

def applyState (next : ToolState C D) (registry : ToolRegistry C D) : Outcome C D Nat :=
  if next.generation ≠ registry.generation then
    (.error (.generationMismatch next.generation registry.generation), registry)
  else
    match validateUniqueManifestEntries next.tools with
    | .error error => (.error error, registry)
    | .ok () =>
      match rebindToolStateEntries next.tools registry.sources .rejectUnresolved with
      | .error error => (.error error, registry)
      | .ok rebound =>
        (.ok (nextGeneration registry.generation),
          { registry with
            tools := rebound.tools, generation := nextGeneration registry.generation })

structure ToolRestoreReport where
  generation : Nat
  orphaned : List String
deriving DecidableEq

variable (snapshot : ToolState C D)

def restoreState (registry : ToolRegistry C D) : Outcome C D ToolRestoreReport :=
  match validateUniqueManifestEntries snapshot.tools with
  | .error error => (.error error, registry)
  | .ok () =>
    match rebindToolStateEntries snapshot.tools registry.sources .orphanUnresolved with
    | .error error => (.error error, registry)
    | .ok rebound =>
      (.ok ⟨snapshot.generation, rebound.orphaned⟩,
        { registry with tools := rebound.tools, generation := snapshot.generation })

def forkWithState (registry : ToolRegistry C D) : Except ReconfigureError (ToolRegistry C D) :=
  match validateUniqueManifestEntries snapshot.tools with
  | .error error => .error error
  | .ok () =>
    match rebindToolStateEntries snapshot.tools registry.sources .orphanUnresolved with
    | .error error => .error error
    | .ok rebound => .ok ⟨registry.sources, max snapshot.generation 1, rebound.tools, 0⟩

/-! ## Sources that come and go -/

inductive SourceReconcilePolicy where
  | rejectExternalConflicts
  | overlayReplacingConflicts
deriving DecidableEq

variable (tools : Table (ToolRegistryEntry C D))

/-- The other source that a tool of this id is bound to. -/
def idConflict (sourceId : String) (manifest : ToolManifest C D) : Option String :=
  ((tools.get manifest.id).bind fun existing => existing.binding.sourceId).filter
    fun existingSource => existingSource != sourceId

/-- The first tool of this name that is bound to another source. -/
def nameConflict (sourceId : String) (manifest : ToolManifest C D) : Option (String × String) :=
  tools.entries.findSome? fun (id, entry) =>
    entry.binding.sourceId.bind fun existingSource =>
      if existingSource ≠ sourceId ∧ entry.manifest.name = manifest.name then
        some (id, existingSource)
      else none

def rejectConflicts (tools : Table (ToolRegistryEntry C D)) (sourceId : String) :
    List (ToolManifest C D) → Except ReconfigureError Unit
  | [] => .ok ()
  | manifest :: rest =>
    match idConflict tools sourceId manifest with
    | some existingSource =>
      .error (.validation (s!"duplicate tool id `{manifest.id}` from source `{sourceId}` " ++
        s!"conflicts with source `{existingSource}`"))
    | none =>
      match nameConflict tools sourceId manifest with
      | some (existingId, existingSource) =>
        .error (.validation
          (s!"duplicate tool name `{manifest.name}` from source `{sourceId}` conflicts " ++
            s!"with tool id `{existingId}` from source `{existingSource}`"))
      | none => rejectConflicts tools sourceId rest

def advertises (advertised : List (ToolManifest C D)) (id : String)
    (entry : ToolRegistryEntry C D) : Bool :=
  advertised.any (fun manifest => manifest.id == id) ||
    advertised.any fun manifest => manifest.name == entry.manifest.name

def keepsEntry (policy : SourceReconcilePolicy) (sourceId : String)
    (advertised : List (ToolManifest C D)) (id : String) (entry : ToolRegistryEntry C D) : Bool :=
  match policy with
  | .rejectExternalConflicts =>
    match entry.binding with
    | .bound bound => bound != sourceId
    | .orphaned => !advertises advertised id entry
  | .overlayReplacingConflicts =>
    entry.binding.sourceId != some sourceId && !advertises advertised id entry

def insertAdvertised (previous : Table (ToolRegistryEntry C D)) (sourceId : String)
    (tools : Table (ToolRegistryEntry C D)) (advertised : List (ToolManifest C D)) :
    Table (ToolRegistryEntry C D) :=
  advertised.foldl (fun tools manifest =>
    tools.set manifest.id
      { ToolRegistryEntry.new manifest sourceId with
        member := ((previous.get manifest.id).map fun entry => entry.member).getD true }) tools

def reconcileSource (source : ToolSource C D) (policy : SourceReconcilePolicy)
    (registry : ToolRegistry C D) : Outcome C D Nat :=
  let advertised := source.advertisedTools.map (manifestWithCompactContract source)
  match validateUniqueManifests advertised with
  | .error error => (.error error, registry)
  | .ok () =>
    match (match policy with
      | .rejectExternalConflicts => rejectConflicts registry.tools source.id advertised
      | .overlayReplacingConflicts => .ok ()) with
    | .error error => (.error error, registry)
    | .ok () =>
      let kept := registry.tools.retain (keepsEntry policy source.id advertised)
      (.ok (nextGeneration registry.generation),
        { registry with
          tools := insertAdvertised registry.tools source.id kept advertised
          sources := registry.sources.set source.id source
          generation := nextGeneration registry.generation })

def upsertSource (source : ToolSource C D) : ToolRegistry C D → Outcome C D Nat :=
  reconcileSource source .rejectExternalConflicts

def upsertOverlaySource (source : ToolSource C D) : ToolRegistry C D → Outcome C D Nat :=
  reconcileSource source .overlayReplacingConflicts

/-- The number of the new source is used up also where the source is refused. -/
def addToolProvider (provider : ToolProvider C D) (registry : ToolRegistry C D) :
    Outcome C D String :=
  let number := (registry.nextLiveSourceId + 1) % 2 ^ 64
  let sourceId := s!"live:{number}"
  match upsertSource (toolProviderSource sourceId provider)
      { registry with nextLiveSourceId := number } with
  | (.error error, registry) => (.error error, registry)
  | (.ok _, registry) => (.ok sourceId, registry)

def removeSourceId (sourceId : String) (registry : ToolRegistry C D) : Outcome C D Nat :=
  if registry.sources.has sourceId then
    (.ok (nextGeneration registry.generation),
      { registry with
        sources := registry.sources.remove sourceId
        tools := registry.tools.retain fun _ entry => entry.binding.sourceId != some sourceId
        generation := nextGeneration registry.generation })
  else (.error (.unknownSource sourceId), registry)

def upsertEach : List (ToolSource C D) → Nat → ToolRegistry C D → Outcome C D Nat
  | [], generation, registry => (.ok generation, registry)
  | source :: rest, _, registry =>
    match upsertSource source registry with
    | (.error error, registry) => (.error error, registry)
    | (.ok generation, registry) => upsertEach rest generation registry

def refreshSources : Outcome C D Nat :=
  upsertEach (registry.sources.entries.map Prod.snd) registry.generation registry

def composeSessionCatalog (includeBaseTools : Bool)
    (contextProviders : List (ToolProvider C D)) (registry : ToolRegistry C D) :
    Except ReconfigureError (ToolRegistry C D) :=
  match (if includeBaseTools then registry.forkWithState registry.exportState
    else .ok empty) with
  | .error error => .error error
  | .ok composed =>
    match composed.upsertOverlaySource (toolProviderGroupSource "context" contextProviders) with
    | (.error error, _) => .error error
    | (.ok _, composed) => .ok composed

/-! ## Answering for names and ids -/

abbrev Answer (C D : Type) := Option (ToolManifest C D) × ToolRegistry C D

/-- The first source that answers, and its manifest. -/
def firstAnswer (sources : Table (ToolSource C D))
    (ask : ToolSource C D → Option (ToolManifest C D)) : Option (String × ToolManifest C D) :=
  sources.entries.findSome? fun (sourceId, source) =>
    (ask source).map fun manifest => (sourceId, manifestWithCompactContract source manifest)

def entryNamed (name : String) : Option (String × ToolRegistryEntry C D) :=
  tools.entries.find? fun entry => entry.2.manifest.name == name

/-- The manifest of an entry, where it belongs to the source that was asked. -/
def viewFrom (sourceId : String) (existing : ToolRegistryEntry C D) :
    Option (ToolManifest C D) :=
  if existing.binding.sourceId = some sourceId then some existing.manifest else none

def insertBound (id sourceId : String) (manifest : ToolManifest C D) (member : Bool)
    (registry : ToolRegistry C D) : ToolRegistry C D :=
  { registry with
    tools := registry.tools.set id { ToolRegistryEntry.new manifest sourceId with member := member }
    generation := nextGeneration registry.generation }

variable (toolId : String)

def tryRebindOrphan (registry : ToolRegistry C D) : Answer C D :=
  match firstAnswer registry.sources fun source => source.resolveManifestById toolId with
  | none => (none, registry)
  | some (sourceId, manifest) =>
    match registry.tools.get toolId with
    | none => (none, registry)
    | some existing =>
      if existing.isOrphaned then
        (some manifest, registry.insertBound toolId sourceId manifest existing.member)
      else (some existing.manifest, registry)

def resolveKnown (entry : ToolRegistryEntry C D) (registry : ToolRegistry C D) : Answer C D :=
  if entry.isOrphaned then
    let (rebound, registry) := registry.tryRebindOrphan toolId
    (some (rebound.getD entry.manifest), registry)
  else (some entry.manifest, registry)

def resolveManifest (name : String) (registry : ToolRegistry C D) : Answer C D :=
  match entryNamed registry.tools name with
  | some (toolId, entry) => registry.resolveKnown toolId entry
  | none =>
    match firstAnswer registry.sources fun source => source.resolveManifest name with
    | none => (none, registry)
    | some (sourceId, manifest) =>
      match registry.tools.get manifest.id with
      | some existing => (viewFrom sourceId existing, registry)
      | none =>
        match entryNamed registry.tools manifest.name with
        | some (_, existing) => (viewFrom sourceId existing, registry)
        | none =>
          (some manifest, registry.insertBound manifest.id sourceId manifest true)

def resolveManifestById (id : String) (registry : ToolRegistry C D) : Answer C D :=
  match registry.tools.get id with
  | some entry => registry.resolveKnown id entry
  | none =>
    match firstAnswer registry.sources fun source => source.resolveManifestById id with
    | none => (none, registry)
    | some (sourceId, manifest) =>
      match entryNamed registry.tools manifest.name with
      | some (_, existing) => (viewFrom sourceId existing, registry)
      | none => (some manifest, registry.insertBound id sourceId manifest true)

def toolManifests : List (ToolManifest C D) :=
  (registry.tools.entries.filter fun entry => entry.2.isMember).map fun entry =>
    entry.2.manifest

/-! ## Execution -/

/-- Where a call goes: to a source, under a tool id; or the text of the refusal. -/
abbrev Route (C D : Type) := Except String (ToolSource C D × String) × ToolRegistry C D

def resolveExecutionSource (registry : ToolRegistry C D) :
    Except String (ToolSource C D × ToolManifest C D) × ToolRegistry C D :=
  match registry.resolveManifestById toolId with
  | (none, registry) => (.error s!"Unknown tool id: {toolId}", registry)
  | (some manifest, registry) =>
    if ((registry.tools.get toolId).map ToolRegistryEntry.isMember).getD true then
      match (registry.tools.get toolId).map ToolRegistryEntry.binding with
      | some (.bound sourceId) =>
        match registry.sources.get sourceId with
        | some source => (.ok (source, manifest), registry)
        | none => (.error s!"Tool source missing for tool id `{toolId}`", registry)
      | some .orphaned =>
        (.error (s!"Tool id `{toolId}` is unavailable: it was restored from a persisted " ++
          "session but its source is not currently registered"), registry)
      | none => (.error s!"Unknown tool id: {toolId}", registry)
    else (.error s!"Tool id `{toolId}` is unavailable", registry)

def executeById (registry : ToolRegistry C D) : Route C D :=
  match registry.resolveExecutionSource toolId with
  | (.error text, registry) => (.error text, registry)
  | (.ok (source, _), registry) => (.ok (source, toolId), registry)

def execute (name : String) (registry : ToolRegistry C D) : Route C D :=
  match registry.resolveManifest name with
  | (none, registry) => (.error s!"Unknown tool: {name}", registry)
  | (some manifest, registry) => registry.executeById manifest.id

end ToolRegistry

end ToolRegistries
