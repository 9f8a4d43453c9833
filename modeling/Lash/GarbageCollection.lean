import Lash.BlobStores

/-!
# What a garbage collection keeps

The loads of a session store follow the checkpoint of the head to its manifest and the snapshots
it names, and a named reference to its blob. A collection keeps these blobs and no others, so
no load can tell whether one has run.
-/

namespace GarbageCollection

open StoreTypes RuntimeCommits ClaimTables InMemoryStore SqliteStore BlobStores Worklists
open List Option

variable {Json Module : Type} {codec : BlobCodec Json Module} {db : ArtifactStore Json Module}

/-- What the manifest of the checkpoint names, if it is there and can be read. -/
def NamedByManifest (codec : BlobCodec Json Module) (blobs : BlobTable)
    (checkpointRef blobRef : BlobRef) : Prop :=
  ∃ content manifest, getBlobConn codec blobs checkpointRef = some content ∧
    codec.decodeCheckpoint content = some manifest ∧
    ∃ child ∈ retainedArtifactRefs manifest, child.blobRef = blobRef

/-- The references that loads follow. -/
def Live (codec : BlobCodec Json Module) (db : ArtifactStore Json Module)
    (blobRef : BlobRef) : Prop :=
  (∃ row ∈ db.artifactRefs.rows, row.blobRef = blobRef) ∨
    ∃ checkpointRef, liveCheckpointRef codec db.tables = some checkpointRef ∧
      (blobRef = checkpointRef ∨ NamedByManifest codec db.blobs checkpointRef blobRef)

/-- No named reference points at the manifest of the session head. -/
def ManifestUnshared (codec : BlobCodec Json Module) (db : ArtifactStore Json Module) : Prop :=
  ∀ checkpointRef, liveCheckpointRef codec db.tables = some checkpointRef →
    ∀ row ∈ db.artifactRefs.rows, row.blobRef ≠ checkpointRef

/-! ## Marking -/

theorem weight_retained (checkpoint : SessionCheckpoint Json) :
    ((retainedArtifactRefs checkpoint).map retainWeight).sum < 4 := by
  obtain ⟨turnState, toolStateRef, pluginSnapshotRef, revision, executionStateRef⟩ := checkpoint
  cases toolStateRef <;> cases pluginSnapshotRef <;> cases executionStateRef <;>
    simp [retainedArtifactRefs, retainWeight]

variable {blobs : BlobTable}

theorem retainedBy_leaf {current : RetainedArtifactRef} (h : current.kind ≠ .checkpointManifest) :
    retainedBy codec blobs current = .ok [] := by
  rw [retainedBy, if_pos h]

variable {blobRef : BlobRef}

theorem retainedBy_manifest {found : List RetainedArtifactRef}
    (h : retainedBy codec blobs ⟨blobRef, .checkpointManifest⟩ = .ok found) :
    (getBlobConn codec blobs blobRef = none ∧ found = []) ∨
      ∃ content manifest, getBlobConn codec blobs blobRef = some content ∧
        codec.decodeCheckpoint content = some manifest ∧ found = retainedArtifactRefs manifest := by
  rw [retainedBy, if_neg (not_not.mpr rfl)] at h
  cases hblob : getBlobConn codec blobs blobRef with
  | none =>
    simp only [hblob] at h
    exact .inl ⟨rfl, (Except.ok.inj h).symm⟩
  | some content =>
    cases hmanifest : codec.decodeCheckpoint content with
    | none =>
      simp only [hblob, hmanifest] at h
      cases h
    | some manifest =>
      simp only [hblob, hmanifest] at h
      exact .inr ⟨content, manifest, rfl, hmanifest, (Except.ok.inj h).symm⟩

theorem pays_retainedBy (codec : BlobCodec Json Module) (blobs : BlobTable) :
    Pays (retainedBy codec blobs) retainWeight := by
  rintro ⟨blobRef, kind⟩
  by_cases hkind : kind = .checkpointManifest
  · subst hkind
    have hweight : retainWeight ⟨blobRef, .checkpointManifest⟩ = 4 := if_pos rfl
    rw [hweight]
    refine ⟨by decide, fun found h => ?_⟩
    rcases retainedBy_manifest h with ⟨-, rfl⟩ | ⟨content, manifest, -, -, rfl⟩
    · decide
    · exact weight_retained manifest
  · have hweight : retainWeight ⟨blobRef, kind⟩ = 1 := if_neg hkind
    refine ⟨by rw [hweight]; decide, fun found h => ?_⟩
    have hleaf : retainedBy codec blobs ⟨blobRef, kind⟩ = .ok [] := retainedBy_leaf hkind
    rw [hleaf] at h
    rw [← Except.ok.inj h, hweight]
    decide

/-- The marking ends. -/
theorem retainedRefs_ends (codec : BlobCodec Json Module) (db : ArtifactStore Json Module) :
    ∃ outcome, retainedRefs codec db = some outcome :=
  mark_ends (pays_retainedBy codec db.blobs) [] (Nat.le_refl _)

theorem child_kind {checkpoint : SessionCheckpoint Json} {child : RetainedArtifactRef}
    (h : child ∈ retainedArtifactRefs checkpoint) : child.kind ≠ .checkpointManifest := by
  simp only [retainedArtifactRefs, List.mem_append, List.mem_map, Option.mem_toList] at h
  rcases h with (⟨_, -, rfl⟩ | ⟨_, -, rfl⟩) | ⟨_, -, rfl⟩ <;> exact fun heq => nomatch heq

variable {root : RetainedArtifactRef}

theorem mem_artifactRoots {artifactRefs : ArtifactRefTable} : root ∈ artifactRoots artifactRefs ↔
      ∃ row ∈ artifactRefs.rows, root = ⟨row.blobRef, .lashlangModule⟩ := by
  simp only [artifactRoots, List.mem_map, List.mem_insertionSort]
  constructor
  · rintro ⟨row, hmem, rfl⟩
    exact ⟨row, hmem, rfl⟩
  · rintro ⟨row, hmem, rfl⟩
    exact ⟨row, hmem, rfl⟩

theorem mem_liveCheckpointRoots {tables : Store Json} : root ∈ liveCheckpointRoots codec tables ↔
      ∃ blobRef, liveCheckpointRef codec tables = some blobRef ∧
        root = ⟨blobRef, .checkpointManifest⟩ := by
  simp only [liveCheckpointRoots, List.mem_map, Option.mem_toList]
  constructor
  · rintro ⟨blobRef, href, rfl⟩
    exact ⟨blobRef, href, rfl⟩
  · rintro ⟨blobRef, href, rfl⟩
    exact ⟨blobRef, href, rfl⟩

variable {retained : List BlobRef}

/-- Nothing is retained that is not live. -/
theorem live_of_retained (h : retainedRefs codec db = some (.ok retained))
    (hmem : blobRef ∈ retained) : Live codec db blobRef := by
  have hclosed : ∀ node found,
      (node ∈ gcRoots codec db ∨ node.kind ≠ .checkpointManifest ∧ Live codec db node.blobRef) →
      retainedBy codec db.blobs node = .ok found → ∀ other ∈ found, other ∈ gcRoots codec db ∨
          other.kind ≠ .checkpointManifest ∧ Live codec db other.blobRef := by
    intro node found hnode hfound other hother
    by_cases hkind : node.kind = .checkpointManifest
    · have hroot := hnode.resolve_right fun h => h.1 hkind
      rcases mem_append.mp hroot with hroot | hroot
      · obtain ⟨checkpointRef, href, rfl⟩ := mem_liveCheckpointRoots.mp hroot
        rcases retainedBy_manifest hfound with
          ⟨-, rfl⟩ | ⟨content, manifest, hcontent, hmanifest, rfl⟩
        · cases hother
        · exact .inr ⟨child_kind hother, .inr ⟨checkpointRef, href, .inr
            ⟨content, manifest, hcontent, hmanifest, other, hother, rfl⟩⟩⟩
      · obtain ⟨row, -, rfl⟩ := mem_artifactRoots.mp hroot
        cases hkind
    · rw [retainedBy_leaf hkind] at hfound
      rw [← Except.ok.inj hfound] at hother
      cases hother
  have hroots : ∀ node ∈ (gcRoots codec db).reverse, node ∈ gcRoots codec db ∨
      node.kind ≠ .checkpointManifest ∧ Live codec db node.blobRef := fun node hmem =>
    .inl (mem_reverse.mp hmem)
  rcases mem_closed hclosed h hroots hmem with hnil | ⟨node, hnode, rfl⟩
  · cases hnil
  · rcases hnode with hroot | ⟨-, hlive⟩
    · rcases mem_append.mp hroot with hroot | hroot
      · obtain ⟨checkpointRef, href, rfl⟩ := mem_liveCheckpointRoots.mp hroot
        exact .inr ⟨checkpointRef, href, .inl rfl⟩
      · obtain ⟨row, hrow, rfl⟩ := mem_artifactRoots.mp hroot
        exact .inl ⟨row, hrow, rfl⟩
    · exact hlive

/-- Everything live is retained. -/
theorem retained_of_live (hshared : ManifestUnshared codec db)
    (h : retainedRefs codec db = some (.ok retained)) (hlive : Live codec db blobRef) :
    blobRef ∈ retained := by
  rcases hlive with ⟨row, hrow, rfl⟩ | ⟨checkpointRef, href, hnamed⟩
  · have hroot : (⟨row.blobRef, .lashlangModule⟩ : RetainedArtifactRef) ∈
        (gcRoots codec db).reverse :=
      mem_reverse.mpr (mem_append_right _ (mem_artifactRoots.mpr ⟨row, hrow, rfl⟩))
    exact mem_of_stack h hroot
  · rcases hnamed with rfl | ⟨content, manifest, hcontent, hmanifest, child, hchild, rfl⟩
    · have hroot : (⟨blobRef, .checkpointManifest⟩ : RetainedArtifactRef) ∈
          (gcRoots codec db).reverse :=
        mem_reverse.mpr (mem_append_left _
          (mem_liveCheckpointRoots.mpr ⟨blobRef, href, rfl⟩))
      exact mem_of_stack h hroot
    · have hstack : (gcRoots codec db).reverse =
          (artifactRoots db.artifactRefs).reverse ++ [⟨checkpointRef, .checkpointManifest⟩] := by
        rw [gcRoots, reverse_append, liveCheckpointRoots, href]
        rfl
      have hleaf : ∀ leaf ∈ (artifactRoots db.artifactRefs).reverse,
          retainedBy codec db.blobs leaf = .ok [] := fun leaf hmem => by
        obtain ⟨row, -, rfl⟩ := mem_artifactRoots.mp (mem_reverse.mp hmem)
        exact retainedBy_leaf fun heq => nomatch heq
      have hkeys : ∀ leaf ∈ (artifactRoots db.artifactRefs).reverse,
          leaf.blobRef ≠ checkpointRef := fun leaf hmem => by
        obtain ⟨row, hrow, rfl⟩ := mem_artifactRoots.mp (mem_reverse.mp hmem)
        exact hshared checkpointRef href row hrow
      rw [retainedRefs, hstack] at h
      obtain ⟨found, hfound, hall⟩ := mem_of_next hleaf hkeys h
      rcases retainedBy_manifest hfound with
        ⟨hnone, -⟩ | ⟨content', manifest', hcontent', hmanifest', rfl⟩
      · rw [hcontent] at hnone
        cases hnone
      · obtain rfl := some.inj (hcontent.symm.trans hcontent')
        obtain rfl := some.inj (hmanifest.symm.trans hmanifest')
        exact hall child hchild

/-! ## Sweeping -/

theorem findBlob_delete (blobs : BlobTable) (retained : List BlobRef) (blobRef : BlobRef) :
    findBlob (blobs.delete fun row => !retained.contains row.hash) blobRef =
      if blobRef ∈ retained then findBlob blobs blobRef else none := by
  have hrows : (blobs.rows.filter fun row => !!retained.contains row.hash).find?
      (·.hash == blobRef) = if blobRef ∈ retained then blobs.rows.find? (·.hash == blobRef)
        else none := by
    rw [find?_filter]
    split
    next hmem =>
      congr 1
      funext row
      by_cases hrow : row.hash = blobRef
      · simp [hrow, hmem]
      · simp [hrow]
    next hmem =>
      refine find?_eq_none.mpr fun row _ hboth => ?_
      simp only [Bool.not_not, contains_iff_mem, beq_iff_eq, decide_eq_true_eq] at hboth
      exact hmem (hboth.2 ▸ hboth.1)
  unfold findBlob KeyedTable.delete
  dsimp only
  rw [hrows]
  split <;> rfl

theorem gcUnreachable_frame (codec : BlobCodec Json Module) (db : ArtifactStore Json Module) :
    (gcUnreachable codec db).2.tables = db.tables ∧
      (gcUnreachable codec db).2.artifactRefs = db.artifactRefs ∧
      (gcUnreachable codec db).2.artifactCache = db.artifactCache ∧
      (gcUnreachable codec db).2.commitCount = db.commitCount := by
  unfold gcUnreachable
  split <;> exact ⟨rfl, rfl, rfl, rfl⟩

/-- A live blob is kept as it is. -/
theorem findBlob_gcUnreachable (hshared : ManifestUnshared codec db)
    (hlive : Live codec db blobRef) :
    findBlob (gcUnreachable codec db).2.blobs blobRef = findBlob db.blobs blobRef := by
  unfold gcUnreachable
  split
  next retained h =>
    dsimp only
    rw [findBlob_delete, if_pos (retained_of_live hshared h hlive)]
  next => rfl

/-- A collection that goes through deletes all other blobs. -/
theorem findBlob_collected (h : retainedRefs codec db = some (.ok retained))
    (hdead : ¬ Live codec db blobRef) :
    findBlob (gcUnreachable codec db).2.blobs blobRef = none := by
  unfold gcUnreachable
  rw [h]
  dsimp only
  rw [findBlob_delete, if_neg fun hmem => hdead (live_of_retained h hmem)]

theorem getBlobConn_gcUnreachable (hshared : ManifestUnshared codec db)
    (hlive : Live codec db blobRef) :
    getBlobConn codec (gcUnreachable codec db).2.blobs blobRef =
      getBlobConn codec db.blobs blobRef := by
  rw [getBlobConn, findBlob_gcUnreachable hshared hlive]
  rfl

/-! ## Loads -/

variable {checkpointRef : BlobRef}

/-- A checkpoint reads its manifest and the blobs that the manifest names, no others. -/
theorem getCheckpointConn_congr {blobs' : BlobTable}
    (same : ∀ blobRef, blobRef = checkpointRef ∨ NamedByManifest codec blobs checkpointRef blobRef →
      getBlobConn codec blobs' blobRef = getBlobConn codec blobs blobRef) :
    getCheckpointConn codec blobs' checkpointRef = getCheckpointConn codec blobs checkpointRef := by
  rw [getCheckpointConn, getCheckpointConn, same checkpointRef (.inl rfl)]
  cases hblob : getBlobConn codec blobs checkpointRef with
  | none => rfl
  | some content =>
    cases hrecord : codec.decodeCheckpoint content with
    | none => simp [hrecord]
    | some record =>
      have hchild : ∀ blobRef, blobRef ∈ (retainedArtifactRefs record).map (·.blobRef) →
          getBlobConn codec blobs' blobRef = getBlobConn codec blobs blobRef :=
        fun blobRef hmem => by
          obtain ⟨child, hchild, rfl⟩ := mem_map.mp hmem
          exact same _ (.inr ⟨content, record, hblob, hrecord, child, hchild, rfl⟩)
      obtain ⟨turnState, toolStateRef, pluginSnapshotRef, revision, executionStateRef⟩ := record
      simp only [retainedArtifactRefs, List.map_append, List.map_map, List.mem_append] at hchild
      simp only [bind_some, hrecord, map_some, some.injEq,
        HydratedSessionCheckpoint.mk.injEq, true_and]
      have hbind : ∀ (childRef : Option BlobRef) (decode : Bytes → Option Json),
          (∀ blobRef, childRef = some blobRef →
            getBlobConn codec blobs' blobRef = getBlobConn codec blobs blobRef) →
          (childRef.bind fun blobRef => (getBlobConn codec blobs' blobRef).bind decode) =
            childRef.bind fun blobRef => (getBlobConn codec blobs blobRef).bind decode := by
        rintro (_ | blobRef) decode hsame
        · rfl
        · rw [bind_some, bind_some, hsame blobRef rfl]
      refine ⟨hbind _ _ ?_, hbind _ _ ?_, hbind _ _ ?_⟩ <;>
        exact fun blobRef href => hchild blobRef (by simp [href])

theorem getCheckpointConn_gcUnreachable (hshared : ManifestUnshared codec db)
    (href : liveCheckpointRef codec db.tables = some checkpointRef) :
    getCheckpointConn codec (gcUnreachable codec db).2.blobs checkpointRef =
      getCheckpointConn codec db.blobs checkpointRef :=
  getCheckpointConn_congr fun _ hnamed =>
    getBlobConn_gcUnreachable hshared (.inr ⟨checkpointRef, href, hnamed⟩)

/-- Every load returns of the one store what it returns of the other, and so does every call that
reads the tables only, a replayed commit among them. -/
structure SameLoads (codec : BlobCodec Json Module) (db db' : ArtifactStore Json Module) :
    Prop where
  session : ∀ scope, loadSession codec scope db' = loadSession codec scope db
  sessionHead : loadSessionHead codec db' = loadSessionHead codec db
  node : ∀ nodeId, loadNode nodeId db' = loadNode nodeId db
  headCheckpoint : ∀ checkpointRef, liveCheckpointRef codec db.tables = some checkpointRef →
    getCheckpointConn codec db'.blobs checkpointRef = getCheckpointConn codec db.blobs checkpointRef
  bytes : ∀ artifactRef,
    getArtifactBytes codec artifactRef db' = getArtifactBytes codec artifactRef db
  processEnv : ∀ envRef,
    getProcessExecutionEnv codec envRef db' = getProcessExecutionEnv codec envRef db
  module : ∀ message moduleRef,
    (getModuleArtifact codec message moduleRef db').1 =
        (getModuleArtifact codec message moduleRef db).1 ∧
      (getModuleArtifact codec message moduleRef db').2.artifactCache =
        (getModuleArtifact codec message moduleRef db).2.artifactCache
  headCopy : ∀ options target,
    headCopyFromStore codec options db' target = headCopyFromStore codec options db target
  commit : ∀ options host commit,
    (commitRuntimeState codec options host commit db').1 =
      (commitRuntimeState codec options host commit db).1
  call : ∀ call, SqliteStore.step call db'.tables = SqliteStore.step call db.tables

theorem getArtifactRefBlob_gcUnreachable (hshared : ManifestUnshared codec db)
    (artifactRef missingDiagnostic : String) :
    getArtifactRefBlob codec artifactRef missingDiagnostic (gcUnreachable codec db).2 =
      getArtifactRefBlob codec artifactRef missingDiagnostic db := by
  rw [getArtifactRefBlob, getArtifactRefBlob, (gcUnreachable_frame codec db).2.1]
  cases hrow : db.artifactRefs.rows.find? (·.artifactRef == artifactRef) with
  | none => rfl
  | some row =>
    have hlive : Live codec db row.blobRef := .inl ⟨row, mem_of_find?_eq_some hrow, rfl⟩
    simp only [getBlobConn_gcUnreachable hshared hlive]

theorem liveCheckpointRef_of_head {head : SessionHeadMeta Json}
    (h : tryLoadSessionHeadMeta codec db.tables = .ok (some head)) :
    liveCheckpointRef codec db.tables = head.checkpointRef := by
  rw [liveCheckpointRef, loadSessionHeadMeta, h]
  rfl

theorem loadSession_gcUnreachable (hshared : ManifestUnshared codec db) (scope : SessionReadScope) :
    loadSession codec scope (gcUnreachable codec db).2 = loadSession codec scope db := by
  rw [loadSession, loadSession, (gcUnreachable_frame codec db).1]
  cases hhead : tryLoadSessionHeadMeta codec db.tables with
  | error err => rfl
  | ok found =>
    cases found with
    | none => rfl
    | some head =>
      have hcheckpoint : head.checkpointRef.bind
          (getCheckpointConn codec (gcUnreachable codec db).2.blobs) =
          head.checkpointRef.bind (getCheckpointConn codec db.blobs) := by
        refine bind_congr fun checkpointRef href => ?_
        refine getCheckpointConn_gcUnreachable hshared ?_
        rw [liveCheckpointRef_of_head hhead, href]
      simp only [hcheckpoint]

theorem loadSessionHead_gcUnreachable (codec : BlobCodec Json Module)
    (db : ArtifactStore Json Module) :
    loadSessionHead codec (gcUnreachable codec db).2 = loadSessionHead codec db := by
  rw [loadSessionHead, loadSessionHead, (gcUnreachable_frame codec db).1]

theorem getModuleArtifact_gcUnreachable (hshared : ManifestUnshared codec db)
    (message : StoreError → String) (moduleRef : String) :
    (getModuleArtifact codec message moduleRef (gcUnreachable codec db).2).1 =
        (getModuleArtifact codec message moduleRef db).1 ∧
      (getModuleArtifact codec message moduleRef (gcUnreachable codec db).2).2.artifactCache =
        (getModuleArtifact codec message moduleRef db).2.artifactCache := by
  have hcache := (gcUnreachable_frame codec db).2.2.1
  rw [getModuleArtifact, getModuleArtifact, hcache, getArtifactRefBlob_gcUnreachable hshared]
  cases db.artifactCache moduleRef with
  | some artifact => exact ⟨rfl, hcache⟩
  | none =>
    cases getArtifactRefBlob codec moduleRef s!"lashlang module artifact `{moduleRef}`" db with
    | error err => exact ⟨rfl, hcache⟩
    | ok found =>
      cases found with
      | none => exact ⟨rfl, hcache⟩
      | some bytes =>
        dsimp only
        cases codec.fromStoreBytes bytes with
        | error err => exact ⟨rfl, hcache⟩
        | ok artifact => exact ⟨rfl, rfl⟩

theorem copyBlob_gcUnreachable (hshared : ManifestUnshared codec db) (hlive : Live codec db blobRef)
    (options : StoreOptions) (descriptor : BlobArtifactDescriptor)
    (target : ArtifactStore Json Module) :
    copyBlob codec options (gcUnreachable codec db).2 descriptor blobRef target =
      copyBlob codec options db descriptor blobRef target := by
  rw [copyBlob, copyBlob, getBlobConn_gcUnreachable hshared hlive]

theorem headCopyFromStore_gcUnreachable (hshared : ManifestUnshared codec db)
    (options : StoreOptions) (target : ArtifactStore Json Module) :
    headCopyFromStore codec options (gcUnreachable codec db).2 target =
      headCopyFromStore codec options db target := by
  rw [headCopyFromStore, headCopyFromStore, loadSessionHead_gcUnreachable]
  cases hhead : loadSessionHead codec db with
  | none => rfl
  | some head =>
    dsimp only
    have hlive : ∀ checkpointRef, head.checkpointRef = some checkpointRef →
        liveCheckpointRef codec db.tables = some checkpointRef := fun checkpointRef href => by
      obtain ⟨headMeta, hmeta, rfl⟩ := map_eq_some_iff.mp hhead
      rw [liveCheckpointRef, hmeta]
      exact href
    cases hcheckpoint : head.checkpointRef with
    | none => rfl
    | some checkpointRef =>
      have href := hlive checkpointRef hcheckpoint
      have hmanifest : Live codec db checkpointRef := .inr ⟨checkpointRef, href, .inl rfl⟩
      rw [bind_some, bind_some, getBlobConn_gcUnreachable hshared hmanifest]
      cases hblob : getBlobConn codec db.blobs checkpointRef with
      | none => rfl
      | some content =>
        cases hrecord : codec.decodeCheckpoint content with
        | none =>
          rw [bind_some, hrecord]
          rfl
        | some record =>
          rw [bind_some, hrecord, map_some]
          dsimp only
          rw [copyBlob_gcUnreachable hshared hmanifest]
          congr 2
          refine foldl_ext _ _ _ fun db' blobRef hmem => ?_
          refine copyBlob_gcUnreachable hshared ?_ _ _ _
          refine .inr ⟨checkpointRef, href, .inr ⟨content, record, hblob, hrecord, ?_⟩⟩
          rcases mem_append.mp hmem with hmem | hmem
          · exact ⟨⟨blobRef, .toolState⟩, mem_append_left _ (mem_append_left _
              (mem_map.mpr ⟨blobRef, hmem, rfl⟩)), rfl⟩
          · exact ⟨⟨blobRef, .pluginSessionSnapshot⟩, mem_append_left _
              (mem_append_right _ (mem_map.mpr ⟨blobRef, hmem, rfl⟩)), rfl⟩

/-- What a commit answers is a matter of the tables. -/
theorem commitRuntimeState_answer (codec : BlobCodec Json Module) (options : StoreOptions)
    (host : SqliteHost Json) (commit : RuntimeCommit Json) (db : ArtifactStore Json Module) :
    (commitRuntimeState codec options host commit db).1 =
      (db.tables.commitRuntimeState (codec.host host) commit).1 := by
  rw [commitRuntimeState]
  rcases db.tables.commitRuntimeState (codec.host host) commit with ⟨answer, tables⟩
  cases answer <;> rfl

theorem sameLoads_gcUnreachable (hshared : ManifestUnshared codec db) :
    SameLoads codec db (gcUnreachable codec db).2 := by
  have htables := (gcUnreachable_frame codec db).1
  refine ⟨loadSession_gcUnreachable hshared, loadSessionHead_gcUnreachable codec db,
    fun nodeId => ?_, fun checkpointRef href => getCheckpointConn_gcUnreachable hshared href,
    fun artifactRef => getArtifactRefBlob_gcUnreachable hshared _ _,
    fun envRef => getArtifactRefBlob_gcUnreachable hshared _ _,
    getModuleArtifact_gcUnreachable hshared, headCopyFromStore_gcUnreachable hshared,
    fun options host commit => ?_, fun call => ?_⟩
  · rw [loadNode, htables]
    rfl
  · rw [commitRuntimeState_answer, commitRuntimeState_answer, htables]
  · rw [htables]

/-- Garbage collection is safe: it keeps every blob that loads follow, deletes all others if it
goes through, and no load can tell that it ran. -/
theorem gcUnreachable_safe (codec : BlobCodec Json Module) (db : ArtifactStore Json Module)
    (hshared : ManifestUnshared codec db) :
    (∀ blobRef, Live codec db blobRef →
        findBlob (gcUnreachable codec db).2.blobs blobRef = findBlob db.blobs blobRef) ∧
      ((gcUnreachable codec db).2 = db ∨ ∀ blobRef, ¬ Live codec db blobRef →
        findBlob (gcUnreachable codec db).2.blobs blobRef = none) ∧
      SameLoads codec db (gcUnreachable codec db).2 := by
  refine ⟨fun blobRef hlive => findBlob_gcUnreachable hshared hlive, ?_,
    sameLoads_gcUnreachable hshared⟩
  obtain ⟨outcome, houtcome⟩ := retainedRefs_ends codec db
  cases outcome with
  | error err =>
    refine .inl ?_
    rw [gcUnreachable, houtcome]
  | ok retained => exact .inr fun blobRef hdead => findBlob_collected houtcome hdead

/-- What one collection keeps, the next one keeps: it retains as much, deletes nothing and leaves
the database as it is. -/
theorem gcUnreachable_again (codec : BlobCodec Json Module) (db : ArtifactStore Json Module) :
    gcUnreachable codec (gcUnreachable codec db).2 =
      ({ (gcUnreachable codec db).1 with deletedBlobCount := 0 }, (gcUnreachable codec db).2) := by
  obtain ⟨outcome, h⟩ := retainedRefs_ends codec db
  cases outcome with
  | error err =>
    have hsame : gcUnreachable codec db = (.default, db) := by rw [gcUnreachable, h]
    rw [hsame, hsame]
    rfl
  | ok retained =>
    obtain ⟨blobs, hblobs⟩ : ∃ blobs, blobs = db.blobs.delete fun row =>
        !retained.contains row.hash := ⟨_, rfl⟩
    obtain ⟨deleted, hgc⟩ : ∃ deleted, gcUnreachable codec db =
        (⟨(gcRoots codec db).length, retained.length, deleted⟩, { db with blobs }) :=
      ⟨_, by rw [gcUnreachable, h, hblobs]⟩
    have hagain : retainedRefs codec { db with blobs } = some (.ok retained) := by
      refine mark_congr h fun node hmem => ?_
      simp only [hblobs, retainedBy, getBlobConn, findBlob_delete, if_pos hmem]
    have hrows : ∀ row ∈ blobs.rows, (!retained.contains row.hash) = false := by
      intro row hrow
      rw [hblobs] at hrow
      simpa [KeyedTable.delete] using (mem_filter.mp hrow).2
    have hkept : blobs.delete (fun row => !retained.contains row.hash) = blobs := by
      cases blobs
      simp only [KeyedTable.delete, KeyedTable.mk.injEq]
      exact filter_eq_self.mpr fun row hrow => by rw [hrows row hrow]; rfl
    have hnone : blobs.rows.countP (fun row => !retained.contains row.hash) = 0 :=
      countP_eq_zero.mpr fun row hrow => by rw [hrows row hrow]; exact Bool.false_ne_true
    rw [hgc, gcUnreachable, hagain]
    simp only [hkept, hnone]
    rfl

/-! ## References that no load follows -/

/-- What else of the database names blobs: the frames of the head and the stored results of turn
commits. -/
def NamedElsewhere (codec : BlobCodec Json Module) (db : ArtifactStore Json Module)
    (blobRef : BlobRef) : Prop :=
  (∃ head, loadSessionHeadMeta codec db.tables = some head ∧
      ∃ frame ∈ head.agentFrames, codec.executionStateRef frame = some blobRef) ∨
    ∃ key hash result, db.tables.runtimeTurnCommits key = some (hash, result) ∧
      (blobRef = result.checkpointRef ∨
        ∃ child ∈ retainedArtifactRefs result.manifest, child.blobRef = blobRef)

/-- Contents that are their own digests, a byte a character; a manifest holds no more than the
reference to an execution state, and a frame is the execution state it refers to. -/
def plainCodec : BlobCodec Bytes Bytes where
  sha256Hex := fun content => String.ofList (content.map fun byte => Char.ofNat byte.toNat)
  compressBlob := id
  decompressBlob := some
  encodeEnvelope := fun envelope => 1 :: envelope.content
  decodeEnvelope
    | 1 :: content => some ⟨⟨.genericBlob, []⟩, .none, content⟩
    | _ => none
  encodeCheckpoint := fun manifest =>
    0 :: (manifest.executionStateRef.getD "").toList.map fun c => c.toNat.toUInt8
  decodeCheckpoint
    | 0 :: blobRef => some ⟨[], none, none, none,
        some (String.ofList (blobRef.map fun byte => Char.ofNat byte.toNat))⟩
    | _ => none
  encodeSnapshot := id
  decodeToolState := some
  decodePluginSnapshot := some
  decodeExecutionState := some
  decodeHead := .ok
  moduleRef := fun _ => "module"
  toStoreBytes := .ok
  fromStoreBytes := .ok
  executionStateRef := fun frame =>
    some (String.ofList (frame.map fun byte => Char.ofNat byte.toNat))

def plainOptions : StoreOptions := ⟨.lowLatency, none⟩

def executionCheckpoint (executionState : Bytes) : HydratedSessionCheckpoint Bytes :=
  ⟨[], none, none, none, none, none, none, some executionState⟩

/-- Two frames one after the other; the checkpoint is that of the second. -/
def framedHead : SessionHead Bytes where
  sessionId := "s"
  headRevision := 0
  agentFrames := [[65], [66]]
  currentAgentFrameId := "second"
  graph := .default
  config := []
  checkpointRef := some "\x00B"
  tokenLedger := []

def framedStore : ArtifactStore Bytes Bytes :=
  saveSessionHead framedHead
    (putCheckpoint plainCodec plainOptions (executionCheckpoint [66])
      (putCheckpoint plainCodec plainOptions (executionCheckpoint [65]) .new).2).2

def namedStore : ArtifactStore Bytes Bytes :=
  putArtifactBytes plainCodec plainOptions "env" "process_execution_env" [67] framedStore

theorem gcUnreachable_safe_named : (∀ blobRef, Live plainCodec namedStore blobRef →
        findBlob (gcUnreachable plainCodec namedStore).2.blobs blobRef =
          findBlob namedStore.blobs blobRef) ∧
      ((gcUnreachable plainCodec namedStore).2 = namedStore ∨
        ∀ blobRef, ¬ Live plainCodec namedStore blobRef →
          findBlob (gcUnreachable plainCodec namedStore).2.blobs blobRef = none) ∧
      SameLoads plainCodec namedStore (gcUnreachable plainCodec namedStore).2 := by
  refine gcUnreachable_safe plainCodec namedStore fun checkpointRef href row hrow => ?_
  have hlive : liveCheckpointRef plainCodec namedStore.tables = some "\x00B" := by decide
  have hrows : namedStore.artifactRefs.rows = [⟨"env", "C"⟩] := by decide
  rw [hrows, mem_singleton] at hrow
  rw [hlive, some.injEq] at href
  rw [hrow, ← href]
  decide

-- a reference by name to the manifest itself keeps the collection from looking into it
example : findBlob (gcUnreachable plainCodec
    (putArtifactBytes plainCodec plainOptions "copy" "" [0, 66] framedStore)).2.blobs "B" =
      none := by
  decide

/-- The execution state of a frame that is not the current one is deleted. -/
theorem gcUnreachable_drops_frame :
    ¬ ∀ (Json Module : Type) (codec : BlobCodec Json Module) (options : StoreOptions)
        (db : ArtifactStore Json Module), Runs.Reachable (step codec options) .new db →
      ∀ blobRef, Live codec db blobRef ∨ NamedElsewhere codec db blobRef →
        findBlob (gcUnreachable codec db).2.blobs blobRef = findBlob db.blobs blobRef := by
  intro h
  have hreached : Runs.Reachable (step plainCodec plainOptions) .new framedStore :=
    ((Runs.Reachable.refl.next (StoreCall.putCheckpoint (executionCheckpoint [65]))).next
      (StoreCall.putCheckpoint (executionCheckpoint [66]))).next
        (StoreCall.saveSessionHead framedHead)
  have hnamed : NamedElsewhere plainCodec framedStore "A" :=
    .inl ⟨_, rfl, [65], mem_cons_self, by decide⟩
  have hkept := h Bytes Bytes plainCodec plainOptions framedStore hreached "A" (.inr hnamed)
  have hbefore : findBlob framedStore.blobs "A" = some [1, 65] := by decide
  have hafter : findBlob (gcUnreachable plainCodec framedStore).2.blobs "A" = none := by
    decide
  rw [hbefore, hafter] at hkept
  cases hkept

end GarbageCollection
