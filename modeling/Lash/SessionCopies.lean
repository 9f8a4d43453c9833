import Lash.GarbageCollection

/-!
# Copies of a session

A store takes over the session head of another one: the manifest of its checkpoint, the tool
state, the plugin snapshot, the graph and the head row. The execution state and the usage rows
stay behind.
-/

namespace SessionCopies

open StoreTypes SessionGraphs RuntimeCommits ClaimTables InMemoryStore SqliteStore BlobStores
  GarbageCollection List Option

variable {Json Module : Type}

/-- What a load shows of the session, but for the revision, which starts over in a copy. -/
def loaded (codec : BlobCodec Json Module) (scope : SessionReadScope)
    (db : ArtifactStore Json Module) :
    Option (Except StoreError (Option (PersistedSessionRead Json))) :=
  (loadSession codec scope db).map fun answer =>
    answer.map fun read => read.map fun read => { read with headRevision := 0 }

/-- The manifest of the session's checkpoint and the blobs that it names. -/
def Referred (codec : BlobCodec Json Module) (db : ArtifactStore Json Module)
    (blobRef : BlobRef) : Prop :=
  ∃ checkpointRef, liveCheckpointRef codec db.tables = some checkpointRef ∧
    (blobRef = checkpointRef ∨ NamedByManifest codec db.blobs checkpointRef blobRef)

/-- Every load gives the same of the copy, and so does every blob the session refers to. -/
structure Faithful (codec : BlobCodec Json Module) (source copy : ArtifactStore Json Module) :
    Prop where
  loads : ∀ scope, loaded codec scope copy = loaded codec scope source
  blobs : ∀ blobRef, Referred codec source blobRef →
    getBlobConn codec copy.blobs blobRef = getBlobConn codec source.blobs blobRef

/-- What the store relies on: compressed contents, envelopes and head rows are read as they were
written. -/
structure Lawful (codec : BlobCodec Json Module) : Prop where
  compressed : ∀ content, codec.decompressBlob (codec.compressBlob content) = some content
  enveloped : ∀ envelope, ∃ descriptor, codec.decodeEnvelope (codec.encodeEnvelope envelope) =
    some ⟨descriptor, envelope.compression, envelope.content⟩
  saved : ∀ head : SessionHead Json,
    codec.decodeHead (sessionHeadMeta head) = .ok (sessionHeadMeta head)

/-- The manifest of a head, if it can be read, with its reference. -/
def manifestOf (codec : BlobCodec Json Module) (blobs : BlobTable)
    (checkpointRef : Option BlobRef) : Option (BlobRef × SessionCheckpoint Json) :=
  checkpointRef.bind fun blobRef =>
    ((getBlobConn codec blobs blobRef).bind codec.decodeCheckpoint).map (blobRef, ·)

/-- The contents that a copy writes, in order: two snapshots and the manifest that names them. -/
def taken (codec : BlobCodec Json Module) (source : ArtifactStore Json Module) : List Bytes :=
  match manifestOf codec source.blobs (liveCheckpointRef codec source.tables) with
  | none => []
  | some (checkpointRef, record) =>
    (record.toolStateRef.toList ++ record.pluginSnapshotRef.toList ++ [checkpointRef]).filterMap
      (getBlobConn codec source.blobs)

/-- Under the name of a blob the store holds what the source reads there, or it holds nothing and
that is the first of the written contents with this digest. -/
def Arrives (codec : BlobCodec Json Module) (source target : ArtifactStore Json Module)
    (blobRef : BlobRef) : Prop :=
  match getBlobConn codec target.blobs blobRef with
  | some held => getBlobConn codec source.blobs blobRef = some held
  | none => (taken codec source).find? (codec.sha256Hex · == blobRef) =
      getBlobConn codec source.blobs blobRef

variable {codec : BlobCodec Json Module} {options : StoreOptions}
  {source target db : ArtifactStore Json Module} {blobRef : BlobRef}

/-! ## Blobs -/

theorem decode_encoded (lawful : Lawful codec) (descriptor : BlobArtifactDescriptor)
    (profile : BuiltinBlobProfile) (content : Bytes) :
    decodeArtifactBlob codec (encodeArtifactBlob codec descriptor profile content) =
      some content := by
  unfold decodeArtifactBlob encodeArtifactBlob
  split
  · obtain ⟨read, hread⟩ := lawful.enveloped ⟨descriptor, .zlib, codec.compressBlob content⟩
    rw [hread]
    exact lawful.compressed content
  · obtain ⟨read, hread⟩ := lawful.enveloped ⟨descriptor, .none, content⟩
    rw [hread]
    rfl

theorem findBlob_insertOrIgnore (blobs : BlobTable) (row : BlobRow) (blobRef : BlobRef) :
    findBlob (insertOrIgnore blobs row) blobRef =
      (findBlob blobs blobRef).or (if row.hash = blobRef then some row.content else none) := by
  unfold insertOrIgnore KeyedTable.insert findBlob
  split
  next taken =>
    obtain ⟨held, hmem, hheld⟩ := mem_map.mp taken
    rw [getD_none]
    split
    next hhash =>
      have hsome : (blobs.rows.find? (·.hash == blobRef)).isSome :=
        find?_isSome.mpr ⟨held, hmem, by simp [hheld, hhash]⟩
      obtain ⟨found, hfound⟩ := isSome_iff_exists.mp hsome
      rw [hfound]
      rfl
    next => rw [or_none]
  next free =>
    rw [getD_some, find?_append, map_or]
    congr 1
    by_cases hhash : row.hash = blobRef <;> simp [hhash]

/-- A copied blob is there afterwards unless another one of its name was there before. -/
theorem getBlobConn_copyBlob (lawful : Lawful codec) (descriptor : BlobArtifactDescriptor)
    (copiedRef : BlobRef) :
    getBlobConn codec (copyBlob codec options source descriptor copiedRef db).blobs blobRef =
      (getBlobConn codec db.blobs blobRef).or
        ((getBlobConn codec source.blobs copiedRef).toList.find?
          (codec.sha256Hex · == blobRef)) := by
  unfold copyBlob
  cases getBlobConn codec source.blobs copiedRef with
  | none => exact (or_none).symm
  | some blob =>
    change getBlobConn codec (insertOrIgnore db.blobs _) blobRef = _
    rw [getBlobConn, findBlob_insertOrIgnore, map_or, ← getBlobConn]
    congr 1
    by_cases hhash : codec.sha256Hex blob = blobRef <;>
      simp [hhash, decode_encoded lawful]

theorem find?_filterMap_cons {α β : Type} (f : α → Option β) (p : β → Bool) (a : α)
    (as : List α) : ((a :: as).filterMap f).find? p =
      ((f a).toList.find? p).or ((as.filterMap f).find? p) := by
  rw [filterMap_cons]
  cases f a with
  | none => rfl
  | some b => cases hp : p b <;> simp [hp]

theorem getBlobConn_copied (lawful : Lawful codec)
    (descriptorOf : BlobRef → BlobArtifactDescriptor) (refs : List BlobRef)
    (db : ArtifactStore Json Module) :
    getBlobConn codec (refs.foldl (fun db copiedRef =>
        copyBlob codec options source (descriptorOf copiedRef) copiedRef db) db).blobs blobRef =
      (getBlobConn codec db.blobs blobRef).or
        ((refs.filterMap (getBlobConn codec source.blobs)).find?
          (codec.sha256Hex · == blobRef)) := by
  induction refs generalizing db with
  | nil => exact (or_none).symm
  | cons copiedRef refs ih =>
    rw [foldl_cons, ih, getBlobConn_copyBlob lawful, find?_filterMap_cons, Option.or_assoc]

theorem copyBlob_tables (descriptor : BlobArtifactDescriptor) (copiedRef : BlobRef) :
    (copyBlob codec options source descriptor copiedRef db).tables = db.tables := by
  unfold copyBlob
  split <;> rfl

theorem copied_tables (descriptorOf : BlobRef → BlobArtifactDescriptor) (refs : List BlobRef)
    (db : ArtifactStore Json Module) :
    (refs.foldl (fun db copiedRef =>
      copyBlob codec options source (descriptorOf copiedRef) copiedRef db) db).tables =
        db.tables := by
  induction refs generalizing db with
  | nil => rfl
  | cons copiedRef refs ih => rw [foldl_cons, ih, copyBlob_tables]

/-! ## The copy -/

variable {head : SessionHead Json}

theorem liveCheckpointRef_of_head (hhead : loadSessionHead codec source = some head) :
    liveCheckpointRef codec source.tables = head.checkpointRef := by
  obtain ⟨row, hrow, rfl⟩ := map_eq_some_iff.mp hhead
  rw [liveCheckpointRef, hrow]
  rfl

/-- A copy saves the head over the contents that are taken and leaves the tables alone before. -/
theorem headCopyFromStore_saves (lawful : Lawful codec)
    (hhead : loadSessionHead codec source = some head) :
    ∃ copied, headCopyFromStore codec options source target = saveSessionHead head copied ∧
      copied.tables = target.tables ∧ ∀ blobRef, getBlobConn codec copied.blobs blobRef =
        (getBlobConn codec target.blobs blobRef).or
          ((taken codec source).find? (codec.sha256Hex · == blobRef)) := by
  rw [headCopyFromStore, hhead, taken, liveCheckpointRef_of_head hhead, manifestOf]
  dsimp only
  refine ⟨_, rfl, ?_⟩
  cases head.checkpointRef.bind fun blobRef =>
      ((getBlobConn codec source.blobs blobRef).bind codec.decodeCheckpoint).map (blobRef, ·) with
  | none => exact ⟨rfl, fun blobRef => (or_none).symm⟩
  | some manifest =>
    obtain ⟨checkpointRef, record⟩ := manifest
    dsimp only
    refine ⟨?_, fun blobRef => ?_⟩
    · rw [copyBlob_tables]
      exact copied_tables (fun blobRef => if record.toolStateRef = some blobRef then
        .toolStateSnapshot else .pluginSessionSnapshot) _ target
    · rw [getBlobConn_copyBlob lawful, getBlobConn_copied lawful (fun blobRef =>
        if record.toolStateRef = some blobRef then .toolStateSnapshot
        else .pluginSessionSnapshot), Option.or_assoc, ← List.find?_append]
      congr 2
      rw [filterMap_append (l := _ ++ _)]
      cases hmanifest : getBlobConn codec source.blobs checkpointRef <;> simp [hmanifest]

theorem visibleRows_saved (db : ArtifactStore Json Module)
    (hhead : loadSessionHead codec source = some head) :
    visibleRows (saveSessionHead head db).tables.graphNodes =
      visibleRows source.tables.graphNodes := by
  obtain ⟨row, -, rfl⟩ := map_eq_some_iff.mp hhead
  have hrows : ((visibleRows source.tables.graphNodes).map (·.node)).map nodeRow =
      visibleRows source.tables.graphNodes := by
    rw [List.map_map]
    refine (map_congr_left fun row hrow => ?_).trans (map_id _)
    have hclear : row.tombstoned = false := by simpa using (mem_filter.mp hrow).2
    rw [Function.comp_apply, nodeRow, ← hclear]
    rfl
  obtain ⟨after, hwritten, hafter⟩ := @KeyedTable.insertAll_of_nodup _ _ _ _ KeyedTable.empty
    (visibleRows source.tables.graphNodes)
    ((filter_sublist.map _).nodup source.tables.graphNodes.distinct)
  have hgraph : writeGraph (.replaceFull ((SessionGraph.fromNodes
      ((visibleRows source.tables.graphNodes).map (·.node)) none).setLeafNodeId row.leafNodeId))
        db.tables.graphNodes = some after := by
    rw [← hrows] at hwritten
    exact hwritten
  unfold saveSessionHead replaceSessionGraph
  rw [hgraph]
  change after.rows.filter _ = _
  rw [hafter]
  exact filter_eq_self.mpr fun row hrow => (mem_filter.mp hrow).2

theorem saveSessionHead_frame (head : SessionHead Json) (db : ArtifactStore Json Module) :
    (saveSessionHead head db).blobs = db.blobs ∧
      (saveSessionHead head db).tables.usageDeltas = db.tables.usageDeltas := by
  unfold saveSessionHead saveSessionHeadMeta replaceSessionGraph
  dsimp only
  split <;> exact ⟨rfl, rfl⟩

/-! ## Loads -/

theorem scopedGraph_congr {tables tables' : Store Json}
    (hrows : visibleRows tables'.graphNodes = visibleRows tables.graphNodes)
    (scope : SessionReadScope) {row row' : SessionHeadMeta Json}
    (hleaf : row'.leafNodeId = row.leafNodeId) :
    tables'.scopedGraph scope row' = tables.scopedGraph scope row := by
  simp only [Store.scopedGraph, activePath, funext fun id =>
    (by rw [findVisible, hrows]; rfl : findVisible tables'.graphNodes id =
      findVisible tables.graphNodes id), hrows, hleaf]

theorem loaded_of_row {row : SessionHeadMeta Json}
    (hrow : loadSessionHeadMeta codec db.tables = some row) (scope : SessionReadScope) :
    loaded codec scope db = (db.tables.scopedGraph scope row).map fun graph => .ok (some
      { sessionId := row.sessionId
        headRevision := 0
        config := row.config
        agentFrames := row.agentFrames
        currentAgentFrameId := row.currentAgentFrameId
        graph := graph
        checkpointRef := row.checkpointRef
        checkpoint := row.checkpointRef.bind (getCheckpointConn codec db.blobs)
        tokenLedger := mergeTokenLedgerEntries db.tables.usageDeltas }) := by
  have hread : tryLoadSessionHeadMeta codec db.tables = .ok (some row) := by
    rw [loadSessionHeadMeta] at hrow
    split at hrow
    · rename_i found hfound
      rw [hfound, hrow]
    · cases hrow
  rw [loaded, loadSession, hread]
  exact map_map ..

theorem head_saved (lawful : Lawful codec) (head : SessionHead Json) :
    loadSessionHeadMeta codec (saveSessionHead head db).tables = some (sessionHeadMeta head) := by
  have hrow : (saveSessionHead head db).tables.sessionHead = some (sessionHeadMeta head) := rfl
  rw [loadSessionHeadMeta, tryLoadSessionHeadMeta, hrow]
  dsimp only
  rw [lawful.saved]

/-- The copy is faithful if and only if the usage rows of the two stores come to the same and
every blob that the session refers to arrives. -/
theorem copied_faithfully_iff (lawful : Lawful codec) (options : StoreOptions)
    (target : ArtifactStore Json Module) (hhead : loadSessionHead codec source = some head) :
    Faithful codec source (headCopyFromStore codec options source target) ↔
      mergeTokenLedgerEntries target.tables.usageDeltas =
          mergeTokenLedgerEntries source.tables.usageDeltas ∧
        ∀ blobRef, Referred codec source blobRef → Arrives codec source target blobRef := by
  obtain ⟨copied, hcopied, htables, hblobs⟩ :=
    @headCopyFromStore_saves _ _ _ options _ target _ lawful hhead
  have harrives : ∀ blobRef, getBlobConn codec (saveSessionHead head copied).blobs blobRef =
      getBlobConn codec source.blobs blobRef ↔ Arrives codec source target blobRef := by
    intro blobRef
    rw [(saveSessionHead_frame head copied).1, hblobs, Arrives]
    cases getBlobConn codec target.blobs blobRef with
    | some held => exact eq_comm
    | none => rw [none_or]
  obtain ⟨row, hrow, hmade⟩ := map_eq_some_iff.mp hhead
  have hgraph : ∀ scope, (saveSessionHead head copied).tables.scopedGraph scope
      (sessionHeadMeta head) = source.tables.scopedGraph scope row := fun scope =>
    scopedGraph_congr (visibleRows_saved copied hhead) scope (by rw [← hmade]; rfl)
  have husage := (saveSessionHead_frame head copied).2.trans (congrArg (·.usageDeltas) htables)
  rw [hcopied]
  constructor
  · rintro ⟨loads, blobs⟩
    refine ⟨?_, fun blobRef hreferred => (harrives blobRef).mp (blobs blobRef hreferred)⟩
    have hload := loads .fullGraph
    rw [loaded_of_row (head_saved lawful head), loaded_of_row hrow, hgraph] at hload
    simp only [Store.scopedGraph, map_some, some.injEq, Except.ok.injEq,
      PersistedSessionRead.mk.injEq] at hload
    rw [← husage]
    exact hload.2.2.2.2.2.2.2.2
  · rintro ⟨ledger, arrives⟩
    have hblobs' := fun blobRef hreferred => (harrives blobRef).mpr (arrives blobRef hreferred)
    refine ⟨fun scope => ?_, hblobs'⟩
    have hcheckpoint : head.checkpointRef.bind (getCheckpointConn codec
        (saveSessionHead head copied).blobs) =
          head.checkpointRef.bind (getCheckpointConn codec source.blobs) := by
      refine bind_congr fun checkpointRef href => ?_
      exact getCheckpointConn_congr fun blobRef hnamed => hblobs' blobRef
        ⟨checkpointRef, (liveCheckpointRef_of_head hhead).trans href, hnamed⟩
    rw [loaded_of_row (head_saved lawful head), loaded_of_row hrow, hgraph, husage, ledger]
    subst hmade
    dsimp only [sessionHeadMeta] at hcheckpoint ⊢
    rw [hcheckpoint]

/-- Contents that are their own digests, in envelopes that tell whether they are compressed. -/
def sealedCodec : BlobCodec Bytes Bytes :=
  { plainCodec with
    encodeEnvelope := fun envelope =>
      (if envelope.compression = .zlib then 2 else 1) :: envelope.content
    decodeEnvelope := fun
      | 1 :: content => some ⟨⟨.genericBlob, []⟩, .none, content⟩
      | 2 :: content => some ⟨⟨.genericBlob, []⟩, .zlib, content⟩
      | _ => none }

theorem lawful_sealedCodec : Lawful sealedCodec where
  compressed := fun _ => rfl
  enveloped := by
    rintro ⟨descriptor, compression, content⟩
    cases compression <;> exact ⟨_, rfl⟩
  saved := fun _ => rfl

/-- A session whose checkpoint refers to an execution state. -/
def savedStore : ArtifactStore Bytes Bytes :=
  saveSessionHead framedHead
    (putCheckpoint sealedCodec plainOptions (executionCheckpoint [66]) .new).2

theorem copied_faithfully_iff_saved :
    Faithful sealedCodec savedStore (headCopyFromStore sealedCodec plainOptions savedStore .new) ↔
      mergeTokenLedgerEntries ([] : List TokenLedgerEntry) = mergeTokenLedgerEntries [] ∧
        ∀ blobRef, Referred sealedCodec savedStore blobRef →
          Arrives sealedCodec savedStore .new blobRef :=
  copied_faithfully_iff lawful_sealedCodec plainOptions .new rfl

/-- The manifest is copied and the execution state that it names is not. -/
theorem copy_leaves_execution_state :
    ¬ ∀ (Json Module : Type) (codec : BlobCodec Json Module) (options : StoreOptions)
        (source target : ArtifactStore Json Module), Lawful codec →
      Runs.Reachable (step codec options) .new source →
      Runs.Reachable (step codec options) .new target → (loadSessionHead codec source).isSome →
        Faithful codec source (headCopyFromStore codec options source target) := by
  intro h
  have hreached : Runs.Reachable (step sealedCodec plainOptions) .new savedStore :=
    (Runs.Reachable.refl.next (StoreCall.putCheckpoint (executionCheckpoint [66]))).next
      (StoreCall.saveSessionHead framedHead)
  have faithful := h Bytes Bytes sealedCodec plainOptions savedStore .new lawful_sealedCodec
    hreached .refl rfl
  have hnamed : Referred sealedCodec savedStore "B" :=
    ⟨"\x00B", by decide, .inr ⟨[0, 66], _, by decide, rfl,
      ⟨"B", .executionStateSnapshot⟩, by decide, rfl⟩⟩
  have hsource : getBlobConn sealedCodec savedStore.blobs "B" = some [66] := by decide
  have hcopy : getBlobConn sealedCodec
      (headCopyFromStore sealedCodec plainOptions savedStore .new).blobs "B" = none := by
    decide
  have hsame := faithful.blobs "B" hnamed
  rw [hsource, hcopy] at hsame
  cases hsame

end SessionCopies
