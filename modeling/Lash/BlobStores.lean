import Lash.SqliteStore
import Lash.Worklists

/-!
# Blobs of the SQLite session store

A session database also keeps blobs under the digests of their contents, and references by name
to some of them. A checkpoint is a manifest blob that names snapshot blobs. Garbage collection
marks from the checkpoint of the session head and from the named references and deletes all
other blobs. Encodings, compression and the digest are parameters.
-/

namespace BlobStores

open StoreTypes SessionGraphs RuntimeCommits ClaimTables InMemoryStore SqliteStore Worklists

abbrev Bytes := List UInt8

inductive PersistedArtifactKind where
  | genericBlob | checkpointManifest | toolState | pluginSessionSnapshot
  | executionStateSnapshot | lashlangModule | processExecutionEnv
  deriving DecidableEq

inductive BlobStorageHint where
  | compressible | inlinePreferred | largePayload
  deriving DecidableEq

inductive BlobCompression where
  | none | zlib
  deriving DecidableEq

structure BlobArtifactDescriptor where
  kind : PersistedArtifactKind
  hints : List BlobStorageHint
  deriving DecidableEq

namespace BlobArtifactDescriptor

def checkpointManifest : BlobArtifactDescriptor := ⟨.checkpointManifest, [.compressible]⟩

def toolStateSnapshot : BlobArtifactDescriptor := ⟨.toolState, [.compressible, .largePayload]⟩

def pluginSessionSnapshot : BlobArtifactDescriptor :=
  ⟨.pluginSessionSnapshot, [.compressible, .largePayload]⟩

def executionStateSnapshot : BlobArtifactDescriptor :=
  ⟨.executionStateSnapshot, [.compressible, .largePayload]⟩

def lashlangModule : BlobArtifactDescriptor := ⟨.lashlangModule, [.compressible, .largePayload]⟩

def processExecutionEnv : BlobArtifactDescriptor := ⟨.processExecutionEnv, [.compressible]⟩

end BlobArtifactDescriptor

inductive BuiltinBlobProfile where
  | lowLatency | balanced | compact
  deriving DecidableEq

/-- With `autoRunEveryCommits` a collection follows every so many commits. -/
structure StoreOptions where
  blobProfile : BuiltinBlobProfile
  autoRunEveryCommits : Option Nat
  deriving DecidableEq

structure StoredBlobEnvelope where
  descriptor : BlobArtifactDescriptor
  compression : BlobCompression
  content : Bytes
  deriving DecidableEq

/-- The encodings: the digest of a content, compression, the envelope of a stored blob,
checkpoints and snapshots, the row of the session head, modules, and the reference an agent
frame holds. -/
structure BlobCodec (Json Module : Type) where
  sha256Hex : Bytes → BlobRef
  compressBlob : Bytes → Bytes
  decompressBlob : Bytes → Option Bytes
  encodeEnvelope : StoredBlobEnvelope → Bytes
  decodeEnvelope : Bytes → Option StoredBlobEnvelope
  encodeCheckpoint : SessionCheckpoint Json → Bytes
  decodeCheckpoint : Bytes → Option (SessionCheckpoint Json)
  encodeSnapshot : Json → Bytes
  decodeToolState : Bytes → Option Json
  decodePluginSnapshot : Bytes → Option Json
  decodeExecutionState : Bytes → Option Json
  decodeHead : SessionHeadMeta Json → Except String (SessionHeadMeta Json)
  moduleRef : Module → String
  toStoreBytes : Module → Except String Bytes
  fromStoreBytes : Bytes → Except String Module
  executionStateRef : Json → Option BlobRef

structure BlobRow where
  hash : String
  content : Bytes
  deriving DecidableEq

abbrev BlobTable := KeyedTable BlobRow String (·.hash)

structure ArtifactRefRow where
  artifactRef : String
  blobRef : BlobRef
  deriving DecidableEq

abbrev ArtifactRefTable := KeyedTable ArtifactRefRow String (·.artifactRef)

/-- A session store: its database, the modules it has in memory and the commits it counted. -/
structure ArtifactStore (Json Module : Type) where
  tables : Store Json
  blobs : BlobTable
  artifactRefs : ArtifactRefTable
  artifactCache : String → Option Module
  commitCount : Nat

variable {Json Module : Type}

def ArtifactStore.new : ArtifactStore Json Module where
  tables := .new
  blobs := .empty
  artifactRefs := .empty
  artifactCache := fun _ => none
  commitCount := 0

/-! ## Blobs -/

def shouldCompressBlob (profile : BuiltinBlobProfile) (descriptor : BlobArtifactDescriptor)
    (len : Nat) : Bool :=
  if !descriptor.hints.contains .compressible then false
  else
    match profile with
    | .lowLatency => false
    | .balanced => decide (4 * 1024 ≤ len)
    | .compact => decide (1024 ≤ len)

variable (codec : BlobCodec Json Module)

variable (descriptor : BlobArtifactDescriptor)

def encodeArtifactBlob (profile : BuiltinBlobProfile) (content : Bytes) : Bytes :=
  codec.encodeEnvelope
    (if shouldCompressBlob profile descriptor content.length then
      ⟨descriptor, .zlib, codec.compressBlob content⟩
    else ⟨descriptor, .none, content⟩)

def decodeArtifactBlob (bytes : Bytes) : Option Bytes :=
  (codec.decodeEnvelope bytes).bind fun envelope =>
    match envelope.compression with
    | .none => some envelope.content
    | .zlib => codec.decompressBlob envelope.content

variable (blobs : BlobTable)

variable (blobRef : BlobRef)

def findBlob : Option Bytes :=
  (blobs.rows.find? (·.hash == blobRef)).map (·.content)

/-- A blob that is there already stays as it is. -/
def insertOrIgnore (row : BlobRow) : BlobTable :=
  (blobs.insert row).getD blobs

def insertArtifactBlob (profile : BuiltinBlobProfile) (content : Bytes) (blobs : BlobTable) :
    BlobRef × BlobTable :=
  let hash := codec.sha256Hex content
  (hash, insertOrIgnore blobs ⟨hash, encodeArtifactBlob codec descriptor profile content⟩)

/-- A snapshot gets a blob of its own; without one the reference that is given stays. -/
def putSnapshot (profile : BuiltinBlobProfile) (snapshot : Option Json) (given : Option BlobRef)
    (blobs : BlobTable) : Option BlobRef × BlobTable :=
  match snapshot with
  | some snapshot =>
    let (blobRef, blobs) :=
      insertArtifactBlob codec descriptor profile (codec.encodeSnapshot snapshot) blobs
    (some blobRef, blobs)
  | none => (given, blobs)

structure StoredSessionCheckpoint (Json : Type) where
  checkpointRef : BlobRef
  manifest : SessionCheckpoint Json

def putCheckpointConn (profile : BuiltinBlobProfile) (checkpoint : HydratedSessionCheckpoint Json)
    (blobs : BlobTable) : StoredSessionCheckpoint Json × BlobTable :=
  let (toolStateRef, blobs) := putSnapshot codec .toolStateSnapshot profile
    checkpoint.toolState checkpoint.toolStateRef blobs
  let (pluginSnapshotRef, blobs) := putSnapshot codec .pluginSessionSnapshot profile
    checkpoint.pluginSnapshot checkpoint.pluginSnapshotRef blobs
  let (executionStateRef, blobs) := putSnapshot codec .executionStateSnapshot profile
    checkpoint.executionState checkpoint.executionStateRef blobs
  let manifest : SessionCheckpoint Json :=
    { turnState := checkpoint.turnState
      toolStateRef := toolStateRef
      pluginSnapshotRef := pluginSnapshotRef
      pluginSnapshotRevision := checkpoint.pluginSnapshotRevision
      executionStateRef := executionStateRef }
  let (checkpointRef, blobs) :=
    insertArtifactBlob codec .checkpointManifest profile (codec.encodeCheckpoint manifest) blobs
  (⟨checkpointRef, manifest⟩, blobs)

def getBlobConn : Option Bytes :=
  (findBlob blobs blobRef).map fun bytes => (decodeArtifactBlob codec bytes).getD bytes

def getCheckpointConn : Option (HydratedSessionCheckpoint Json) :=
  ((getBlobConn codec blobs blobRef).bind codec.decodeCheckpoint).map fun record =>
    { turnState := record.turnState
      toolStateRef := record.toolStateRef
      toolState := record.toolStateRef.bind fun blobRef =>
        (getBlobConn codec blobs blobRef).bind codec.decodeToolState
      pluginSnapshotRef := record.pluginSnapshotRef
      pluginSnapshot := record.pluginSnapshotRef.bind fun blobRef =>
        (getBlobConn codec blobs blobRef).bind codec.decodePluginSnapshot
      pluginSnapshotRevision := record.pluginSnapshotRevision
      executionStateRef := record.executionStateRef
      executionState := record.executionStateRef.bind fun blobRef =>
        (getBlobConn codec blobs blobRef).bind codec.decodeExecutionState }

/-! ## Garbage collection -/

structure RetainedArtifactRef where
  blobRef : BlobRef
  kind : PersistedArtifactKind
  deriving DecidableEq

structure GcReport where
  rootCount : Nat
  retainedBlobCount : Nat
  deletedBlobCount : Nat
  deriving DecidableEq

def GcReport.default : GcReport := ⟨0, 0, 0⟩

def retainedArtifactRefs (checkpoint : SessionCheckpoint Json) : List RetainedArtifactRef :=
  (checkpoint.toolStateRef.toList.map (⟨·, .toolState⟩)) ++
    (checkpoint.pluginSnapshotRef.toList.map (⟨·, .pluginSessionSnapshot⟩)) ++
    (checkpoint.executionStateRef.toList.map (⟨·, .executionStateSnapshot⟩))

variable (tables : Store Json)

/-- The head as it is read: its revision comes from a column of its own. -/
def tryLoadSessionHeadMeta : Except StoreError (Option (SessionHeadMeta Json)) :=
  match tables.sessionHead with
  | none => .ok none
  | some row =>
    match codec.decodeHead row with
    | .error err => .error (.backend s!"decode session head: {err}")
    | .ok head => .ok (some { head with headRevision := row.headRevision })

def loadSessionHeadMeta : Option (SessionHeadMeta Json) :=
  match tryLoadSessionHeadMeta codec tables with
  | .ok head => head
  | .error _ => none

/-- The reference to the checkpoint of the session head. -/
def liveCheckpointRef : Option BlobRef :=
  (loadSessionHeadMeta codec tables).bind (·.checkpointRef)

def liveCheckpointRoots : List RetainedArtifactRef :=
  (liveCheckpointRef codec tables).toList.map (⟨·, .checkpointManifest⟩)

variable (artifactRefs : ArtifactRefTable)

def artifactRoots : List RetainedArtifactRef :=
  (artifactRefs.rows.insertionSort fun a b => a.artifactRef ≤ b.artifactRef).map
    fun row => ⟨row.blobRef, .lashlangModule⟩

variable (current : RetainedArtifactRef)

/-- What a retained blob makes retain: only a manifest that is there names other blobs. -/
def retainedBy : Except StoreError (List RetainedArtifactRef) :=
  if current.kind ≠ .checkpointManifest then .ok []
  else
    match getBlobConn codec blobs current.blobRef with
    | none => .ok []
    | some content =>
      match codec.decodeCheckpoint content with
      | none => .error (.backend
          s!"gc: live checkpoint manifest `{current.blobRef}` could not be decoded")
      | some checkpoint => .ok (retainedArtifactRefs checkpoint)

/-- A manifest names three blobs at most. -/
def retainWeight : Nat :=
  if current.kind = .checkpointManifest then 4 else 1

variable (db : ArtifactStore Json Module)

def gcRoots : List RetainedArtifactRef :=
  liveCheckpointRoots codec db.tables ++ artifactRoots db.artifactRefs

/-- The references a collection retains, on a stack whose top is the last root. -/
def retainedRefs : Option (Except StoreError (List BlobRef)) :=
  let stack := (gcRoots codec db).reverse
  mark (·.blobRef) (retainedBy codec db.blobs) (stack.map retainWeight).sum stack []

/-- One collection: on an error nothing is deleted. -/
def gcUnreachable : GcReport × ArtifactStore Json Module :=
  match retainedRefs codec db with
  | some (.ok retained) =>
    (⟨(gcRoots codec db).length, retained.length,
      db.blobs.rows.countP fun row => !retained.contains row.hash⟩,
      { db with blobs := db.blobs.delete fun row => !retained.contains row.hash })
  | _ => (.default, db)

variable (options : StoreOptions)

def maybeAutoGc (db : ArtifactStore Json Module) : ArtifactStore Json Module :=
  match options.autoRunEveryCommits with
  | none => db
  | some interval =>
    let commits := db.commitCount + 1
    let db := { db with commitCount := commits }
    if interval ≠ 0 ∧ commits % interval = 0 then (gcUnreachable codec db).2 else db

/-! ## Writes -/

/-- The references of a commit are those of the blobs that are written for it. -/
def BlobCodec.host (codec : BlobCodec Json Module) (host : SqliteHost Json) : SqliteHost Json :=
  { host with
    putBlob := fun snapshot => codec.sha256Hex (codec.encodeSnapshot snapshot)
    putManifest := fun manifest => codec.sha256Hex (codec.encodeCheckpoint manifest) }

def commitRuntimeState (codec : BlobCodec Json Module) (options : StoreOptions)
    (host : SqliteHost Json) (commit : RuntimeCommit Json) (db : ArtifactStore Json Module) :
    Except StoreError (RuntimeCommitResult Json) × ArtifactStore Json Module :=
  let (answer, tables) := db.tables.commitRuntimeState (codec.host host) commit
  match answer with
  | .error e => (.error e, { db with tables := tables })
  | .ok result =>
    -- a replayed commit writes no blobs
    let blobs :=
      match commit.findReplay db.tables.runtimeTurnCommits with
      | .ok none => (putCheckpointConn codec options.blobProfile commit.checkpoint db.blobs).2
      | _ => db.blobs
    (.ok result, maybeAutoGc codec options { db with tables := tables, blobs := blobs })

def putBlob (content : Bytes) (db : ArtifactStore Json Module) :
    BlobRef × ArtifactStore Json Module :=
  let hash := codec.sha256Hex content
  (hash, { db with blobs := insertOrIgnore db.blobs ⟨hash, content⟩ })

def putArtifactBlob (descriptor : BlobArtifactDescriptor) (content : Bytes)
    (db : ArtifactStore Json Module) : BlobRef × ArtifactStore Json Module :=
  let (blobRef, blobs) := insertArtifactBlob codec descriptor options.blobProfile content db.blobs
  (blobRef, { db with blobs := blobs })

def putCheckpoint (checkpoint : HydratedSessionCheckpoint Json) (db : ArtifactStore Json Module) :
    StoredSessionCheckpoint Json × ArtifactStore Json Module :=
  let (stored, blobs) := putCheckpointConn codec options.blobProfile checkpoint db.blobs
  (stored, { db with blobs := blobs })

def insertOrReplace (row : ArtifactRefRow) : ArtifactRefTable :=
  ((artifactRefs.delete fun other => other.artifactRef == row.artifactRef).insert row).getD
    artifactRefs

variable (artifactRef : String)

def putArtifactRefBlob (descriptor : BlobArtifactDescriptor) (bytes : Bytes)
    (db : ArtifactStore Json Module) : ArtifactStore Json Module :=
  let (blobRef, blobs) := insertArtifactBlob codec descriptor options.blobProfile bytes db.blobs
  { db with
    blobs := blobs
    artifactRefs := insertOrReplace db.artifactRefs ⟨artifactRef, blobRef⟩ }

inductive ArtifactStoreError where
  | encode (message : String)
  | backend (message : String)
  | decode (message : String)
  deriving DecidableEq

def cacheModule (artifact : Module) (db : ArtifactStore Json Module) : ArtifactStore Json Module :=
  { db with
    artifactCache := Function.update db.artifactCache (codec.moduleRef artifact) (some artifact) }

def putModuleArtifact (artifact : Module) (db : ArtifactStore Json Module) :
    Except ArtifactStoreError Unit × ArtifactStore Json Module :=
  match codec.toStoreBytes artifact with
  | .error err => (.error (.encode err), db)
  | .ok bytes =>
    (.ok (), cacheModule codec artifact
      (putArtifactRefBlob codec options (codec.moduleRef artifact) .lashlangModule bytes db))

def putArtifactBytes (descriptor : String) (bytes : Bytes) (db : ArtifactStore Json Module) :
    ArtifactStore Json Module :=
  let descriptor :=
    if descriptor = "process_execution_env" then BlobArtifactDescriptor.processExecutionEnv
    else ⟨.genericBlob, []⟩
  putArtifactRefBlob codec options artifactRef descriptor bytes db

def putProcessExecutionEnv (envRef : String) (bytes : Bytes) (db : ArtifactStore Json Module) :
    ArtifactStore Json Module :=
  putArtifactRefBlob codec options envRef .processExecutionEnv bytes db

def saveSessionHeadMeta (head : SessionHeadMeta Json) (db : ArtifactStore Json Module) :
    ArtifactStore Json Module :=
  { db with tables := { db.tables with sessionHead := some head } }

/-- The rows are replaced, or stay if two nodes have one id. -/
def replaceSessionGraph (graph : SessionGraph Json) (db : ArtifactStore Json Module) :
    ArtifactStore Json Module :=
  match writeGraph (.replaceFull graph) db.tables.graphNodes with
  | none => db
  | some graphNodes => { db with tables := { db.tables with graphNodes := graphNodes } }

/-! ## Loads -/

def loadSession (scope : SessionReadScope) (db : ArtifactStore Json Module) :
    Option (Except StoreError (Option (PersistedSessionRead Json))) :=
  match tryLoadSessionHeadMeta codec db.tables with
  | .error err => some (.error err)
  | .ok none => some (.ok none)
  | .ok (some head) =>
    (db.tables.scopedGraph scope head).map fun graph => .ok (some
      { sessionId := head.sessionId
        headRevision := head.headRevision
        config := head.config
        agentFrames := head.agentFrames
        currentAgentFrameId := head.currentAgentFrameId
        graph := graph
        checkpointRef := head.checkpointRef
        checkpoint := head.checkpointRef.bind (getCheckpointConn codec db.blobs)
        tokenLedger := mergeTokenLedgerEntries db.tables.usageDeltas })

def loadNode (nodeId : String) (db : ArtifactStore Json Module) :
    Option (SessionNodeRecord Json) :=
  findVisible db.tables.graphNodes nodeId

structure SessionHead (Json : Type) where
  sessionId : String
  headRevision : Nat
  agentFrames : List Json
  currentAgentFrameId : String
  graph : SessionGraph Json
  config : Json
  checkpointRef : Option BlobRef
  tokenLedger : List TokenLedgerEntry

def loadSessionHead : Option (SessionHead Json) :=
  (loadSessionHeadMeta codec db.tables).map fun head =>
    { sessionId := head.sessionId
      headRevision := head.headRevision
      agentFrames := head.agentFrames
      currentAgentFrameId := head.currentAgentFrameId
      graph := (SessionGraph.fromNodes ((visibleRows db.tables.graphNodes).map (·.node))
        none).setLeafNodeId head.leafNodeId
      config := head.config
      checkpointRef := head.checkpointRef
      tokenLedger := mergeTokenLedgerEntries db.tables.usageDeltas }

variable (head : SessionHead Json)

def sessionHeadMeta : SessionHeadMeta Json where
  sessionId := head.sessionId
  headRevision := 0
  config := head.config
  agentFrames := head.agentFrames
  currentAgentFrameId := head.currentAgentFrameId
  checkpointRef := head.checkpointRef
  leafNodeId := head.graph.leafNodeId
  graphNodeCount := head.graph.nodes.length
  tokenLedger := []

def saveSessionHead (db : ArtifactStore Json Module) : ArtifactStore Json Module :=
  saveSessionHeadMeta (sessionHeadMeta head) (replaceSessionGraph head.graph db)

def getArtifactRefBlob (missingDiagnostic : String) (db : ArtifactStore Json Module) :
    Except StoreError (Option Bytes) :=
  match db.artifactRefs.rows.find? (·.artifactRef == artifactRef) with
  | none => .ok none
  | some row =>
    match getBlobConn codec db.blobs row.blobRef with
    | none => .error (.backend s!"{missingDiagnostic} points at a missing blob")
    | some blob => .ok (some blob)

def getArtifactBytes (db : ArtifactStore Json Module) : Except StoreError (Option Bytes) :=
  getArtifactRefBlob codec artifactRef s!"artifact `{artifactRef}`" db

def getProcessExecutionEnv (envRef : String) (db : ArtifactStore Json Module) :
    Except StoreError (Option Bytes) :=
  getArtifactRefBlob codec envRef s!"process execution env `{envRef}`" db

/-- A module from memory or from its blob; `message` is how an error of the database reads. -/
def getModuleArtifact (message : StoreError → String) (moduleRef : String)
    (db : ArtifactStore Json Module) :
    Except ArtifactStoreError (Option Module) × ArtifactStore Json Module :=
  match db.artifactCache moduleRef with
  | some artifact => (.ok (some artifact), db)
  | none =>
    match getArtifactRefBlob codec moduleRef s!"lashlang module artifact `{moduleRef}`" db with
    | .error err => (.error (.backend (message err)), db)
    | .ok none => (.ok none, db)
    | .ok (some bytes) =>
      match codec.fromStoreBytes bytes with
      | .error err => (.error (.decode err), db)
      | .ok artifact =>
        (.ok (some artifact),
          { db with
            artifactCache := Function.update db.artifactCache moduleRef (some artifact) })

variable (source : ArtifactStore Json Module)

/-- Copy one blob of another store, if it is there. -/
def copyBlob (descriptor : BlobArtifactDescriptor) (blobRef : BlobRef)
    (db : ArtifactStore Json Module) : ArtifactStore Json Module :=
  match getBlobConn codec source.blobs blobRef with
  | none => db
  | some blob => (putArtifactBlob codec options descriptor blob db).2

/-- Copy the head of another store, with its manifest and the first two snapshots. -/
def headCopyFromStore (db : ArtifactStore Json Module) : ArtifactStore Json Module :=
  match loadSessionHead codec source with
  | none => db
  | some head =>
    let manifest := head.checkpointRef.bind fun blobRef =>
      ((getBlobConn codec source.blobs blobRef).bind codec.decodeCheckpoint).map (blobRef, ·)
    let copied :=
      match manifest with
      | none => db
      | some (checkpointRef, record) =>
        let snapshots := record.toolStateRef.toList ++ record.pluginSnapshotRef.toList
        copyBlob codec options source .checkpointManifest checkpointRef
          (snapshots.foldl
            (fun db blobRef =>
              let descriptor :=
                if record.toolStateRef = some blobRef then .toolStateSnapshot
                else BlobArtifactDescriptor.pluginSessionSnapshot
              copyBlob codec options source descriptor blobRef db) db)
    saveSessionHead head copied

/-! ## Calls -/

inductive StoreCall (Json Module : Type) where
  | tables (host : SqliteHost Json) (op : Op Json)
  | putBlob (content : Bytes)
  | putArtifactBlob (descriptor : BlobArtifactDescriptor) (content : Bytes)
  | putCheckpoint (checkpoint : HydratedSessionCheckpoint Json)
  | putModuleArtifact (artifact : Module)
  | putArtifactBytes (artifactRef descriptor : String) (bytes : Bytes)
  | putProcessExecutionEnv (envRef : String) (bytes : Bytes)
  | getModuleArtifact (moduleRef : String)
  | saveSessionHead (head : SessionHead Json)
  | headCopyFromStore (source : ArtifactStore Json Module)
  | gcUnreachable

/-- One call; what it returns is left to its function. -/
def step (codec : BlobCodec Json Module) (options : StoreOptions)
    (call : StoreCall Json Module) (db : ArtifactStore Json Module) :
    Unit × ArtifactStore Json Module :=
  ((), match call with
    | .tables host (.commitRuntimeState commit) =>
      (commitRuntimeState codec options host commit db).2
    | .tables host op => { db with tables := (SqliteStore.step (host, op) db.tables).2 }
    | .putBlob content => (putBlob codec content db).2
    | .putArtifactBlob descriptor content =>
      (putArtifactBlob codec options descriptor content db).2
    | .putCheckpoint checkpoint => (putCheckpoint codec options checkpoint db).2
    | .putModuleArtifact artifact => (putModuleArtifact codec options artifact db).2
    | .putArtifactBytes artifactRef descriptor bytes =>
      putArtifactBytes codec options artifactRef descriptor bytes db
    | .putProcessExecutionEnv envRef bytes =>
      putProcessExecutionEnv codec options envRef bytes db
    | .getModuleArtifact moduleRef => (getModuleArtifact codec (fun _ => "") moduleRef db).2
    | .saveSessionHead head => saveSessionHead head db
    | .headCopyFromStore source => headCopyFromStore codec options source db
    | .gcUnreachable => (gcUnreachable codec db).2)

end BlobStores
