import Lash.InMemoryStore

/-!
# The SQLite session store

The tables of one session database and the calls that write them. A call runs
in one transaction: on an error the database is the one before the call. Rows
are the decoded rows, a batch together with its items. Integer columns hold
signed 64-bit values, so comparisons made in SQL compare the signed readings of
their operands; comparisons made in the host language do not. Of the failures
of the database itself only violated unique constraints are modelled.
-/

namespace SqliteStore

open StoreTypes SessionGraphs QueuedWork TurnInputs RuntimeCommits ClaimTables InMemoryStore

variable {Json : Type}

structure GraphNodeRow (Json : Type) where
  node : SessionNodeRecord Json
  tombstoned : Bool
  deriving DecidableEq

/-- What a database call takes from its surroundings: digests and texts, the
number that keeps batch ids of one millisecond apart, and the references under
which blobs are stored. -/
structure SqliteHost (Json : Type) extends Host where
  sha256Hex : String → String
  debugText : Option String → String
  nonce : Nat
  putBlob : Json → BlobRef
  putManifest : SessionCheckpoint Json → BlobRef

/-- A host at this time whose digests are the texts and whose blobs have one reference. -/
def SqliteHost.quiet {Json : Type} (now : Nat) : SqliteHost Json where
  toHost := .quiet now
  sha256Hex text := text
  debugText text := text.getD ""
  nonce := 0
  putBlob _ := "blob"
  putManifest _ := "manifest"

abbrev GraphNodeTable (Json : Type) :=
  KeyedTable (GraphNodeRow Json) String (·.node.nodeId)

abbrev QueuedBatchTable (Json : Type) :=
  KeyedTable (InMemoryQueuedBatch Json) String (·.batch.batchId)

abbrev TurnInputTable (Json : Type) :=
  KeyedTable (InMemoryPendingTurnInput Json) String (·.input.inputId)

structure Store (Json : Type) where
  sessionHead : Option (SessionHeadMeta Json)
  graphNodes : GraphNodeTable Json
  usageDeltas : List TokenLedgerEntry
  sessionMeta : Option (SessionMeta Json)
  checkpoints : BlobRef → Option (HydratedSessionCheckpoint Json)
  runtimeTurnCommits : TurnCommitLedger Json
  sessionExecutionLeases : String → Option InMemorySessionExecutionLease
  queuedWorkBatches : QueuedBatchTable Json
  pendingTurnInputs : TurnInputTable Json

def Store.new : Store Json where
  sessionHead := none
  graphNodes := .empty
  usageDeltas := []
  sessionMeta := none
  checkpoints := fun _ => none
  runtimeTurnCommits := fun _ => none
  sessionExecutionLeases := fun _ => none
  queuedWorkBatches := .empty
  pendingTurnInputs := .empty

abbrev Answer (Json A : Type) := Except StoreError A × Store Json

section Leases

def Store.setLease (db : Store Json) (sessionId : String)
    (lease : InMemorySessionExecutionLease) : Store Json :=
  { db with
    sessionExecutionLeases := Function.update db.sessionExecutionLeases sessionId (some lease) }

def Store.ensureSessionExecutionLease (host : Host) (sessionId : String)
    (fence : SessionExecutionLeaseFence) (db : Store Json) : Except StoreError Unit :=
  if fence.sessionId ≠ sessionId then .error (.sessionExecutionLeaseExpired sessionId)
  else
    match db.sessionExecutionLeases sessionId with
    | none => .error (.sessionExecutionLeaseExpired sessionId)
    | some current =>
      if current.carries fence && decide (host.timestampMs < current.expiresAtEpochMs) then
        .ok ()
      else .error (.sessionExecutionLeaseExpired sessionId)

def Store.releaseSessionExecutionLeaseConn (completion : SessionExecutionLeaseCompletion)
    (db : Store Json) : Store Json :=
  match db.sessionExecutionLeases completion.sessionId with
  | none => db
  | some current =>
    if current.carries completion then db.setLease completion.sessionId current.released
    else db

def Store.acquireSessionExecutionLeaseConn (sessionId : String) (owner : LeaseOwnerIdentity)
    (current : InMemorySessionExecutionLease) (now leaseTtlMs : Nat) (db : Store Json) :
    SessionExecutionLease × Store Json :=
  let acquired := current.acquired sessionId owner now leaseTtlMs
  (inMemorySessionExecutionLease sessionId acquired rfl, db.setLease sessionId acquired)

def Store.tryClaimSessionExecutionLease (host : Host) (sessionId : String)
    (owner : LeaseOwnerIdentity) (leaseTtlMs : Nat) (db : Store Json) :
    Answer Json SessionExecutionLeaseClaimOutcome :=
  let now := host.timestampMs
  let current := (db.sessionExecutionLeases sessionId).getD .default
  if live : current.isLive now then
    have held := InMemorySessionExecutionLease.isSome_of_isLive live
    if current.owner.any (·.sameIncarnation owner) then
      let renewed := { current with expiresAtEpochMs := saturatingAdd now leaseTtlMs }
      (.ok (.acquired
        { inMemorySessionExecutionLease sessionId renewed held with owner := owner }),
        db.setLease sessionId renewed)
    else (.ok (.busy (inMemorySessionExecutionLease sessionId current held)), db)
  else
    let (lease, db) :=
      db.acquireSessionExecutionLeaseConn sessionId owner current now leaseTtlMs
    (.ok (.acquired lease), db)

def Store.reclaimSessionExecutionLease (host : Host) (sessionId : String)
    (owner : LeaseOwnerIdentity) (observedHolder : SessionExecutionLeaseFence)
    (leaseTtlMs : Nat) (db : Store Json) : Answer Json SessionExecutionLeaseClaimOutcome :=
  let now := host.timestampMs
  let current := (db.sessionExecutionLeases sessionId).getD .default
  if live : current.isLive now then
    let holder := inMemorySessionExecutionLease sessionId current
      (InMemorySessionExecutionLease.isSome_of_isLive live)
    if observedHolder.sessionId = sessionId ∧
        holder.owner.sameIncarnation observedHolder.owner ∧
        holder.leaseToken = observedHolder.leaseToken ∧
        holder.fencingToken = observedHolder.fencingToken ∧
        holder.owner.isDefinitelyDeadForClaimant host owner then
      let (lease, db) :=
        db.acquireSessionExecutionLeaseConn sessionId owner current now leaseTtlMs
      (.ok (.acquired lease), db)
    else (.ok (.busy holder), db)
  else
    let (lease, db) :=
      db.acquireSessionExecutionLeaseConn sessionId owner current now leaseTtlMs
    (.ok (.acquired lease), db)

def Store.renewSessionExecutionLease (host : Host) (fence : SessionExecutionLeaseFence)
    (leaseTtlMs : Nat) (db : Store Json) : Answer Json SessionExecutionLease :=
  let now := host.timestampMs
  match db.sessionExecutionLeases fence.sessionId with
  | none => (.error (.sessionExecutionLeaseExpired fence.sessionId), db)
  | some current =>
    if current.carries fence && decide (now < current.expiresAtEpochMs) then
      let renewed := { current with expiresAtEpochMs := saturatingAdd now leaseTtlMs }
      (.ok
        { sessionId := fence.sessionId
          owner := fence.owner
          leaseToken := fence.leaseToken
          fencingToken := fence.fencingToken
          claimedAtEpochMs := renewed.claimedAtEpochMs
          expiresAtEpochMs := renewed.expiresAtEpochMs },
        db.setLease fence.sessionId renewed)
    else (.error (.sessionExecutionLeaseExpired fence.sessionId), db)

end Leases

section Scans

/-- `LIMIT n`; a negative limit is no limit. -/
def limitRows {R : Type} (n : Int) (rows : List R) : List R :=
  if n < 0 then rows else rows.take n.toNat

/-- `a <= b` on two integer columns or parameters. -/
def sqlLe (a b : Nat) : Bool := decide (asI64 a ≤ asI64 b)

variable (now : Nat)

/-- The guard of the claiming `UPDATE`: the row is free, expired, or still held
by the holder that the scan saw. -/
def rowStillClaimable (seen stamp : ClaimStamp) : Bool :=
  stamp.claimToken.isNone || sqlLe stamp.claimExpiresAtMs now ||
    (stamp.claimToken.isSome && stamp.claimToken == seen.claimToken &&
      stamp.claimOwner.any fun holder => seen.claimOwner.any fun owner =>
        holder.ownerId == owner.ownerId && holder.incarnationId == owner.incarnationId)

/-- The claim columns that the claiming `UPDATE` writes. -/
def sqlClaimed (stamp : ClaimStamp) (claimId leaseToken : String)
    (owner : LeaseOwnerIdentity) (expiresAt : Nat) : ClaimStamp :=
  { stamp.claimed claimId leaseToken owner expiresAt with
    claimFencingToken := stamp.claimFencingToken + 1 }

def Store.queuedWorkRows (db : Store Json) : List (InMemoryQueuedBatch Json) :=
  db.queuedWorkBatches.rows.insertionSort enqueueOrder

def Store.turnInputRows (db : Store Json) : List (InMemoryPendingTurnInput Json) :=
  db.pendingTurnInputs.rows.insertionSort turnInputOrder

/-- The rows the claim reads: ready batches of the session in enqueue order, as
many as the scan limit admits, and of these the ones it may take. -/
def Store.queuedWorkCandidates (host : Host) (sessionId : String)
    (owner : LeaseOwnerIdentity) (maxBatches : Nat) (db : Store Json) :
    List (InMemoryQueuedBatch Json) :=
  let candidateRows := limitRows (claimScanLimit maxBatches)
    (db.queuedWorkRows.filter fun row =>
      row.batch.sessionId == sessionId && sqlLe row.batch.availableAtMs host.timestampMs)
  candidateRows.filter fun row => row.toClaimStamp.available host owner

variable (claim : QueuedWorkClaim Json)

def stampSelected (row : InMemoryQueuedBatch Json) : InMemoryQueuedBatch Json :=
  { row with
    toClaimStamp := sqlClaimed row.toClaimStamp claim.claimId claim.leaseToken claim.owner
      claim.expiresAtEpochMs }

variable (host : SqliteHost Json)

variable (sessionId : String)

variable (owner : LeaseOwnerIdentity)

/-- The claim over the selected rows, the first of which is `head`. -/
def derivedQueuedWorkClaim (leaseTtlMs : Nat) (head : ClaimCandidate)
    (selected : List (InMemoryQueuedBatch Json)) : QueuedWorkClaim Json :=
  let lease := QueuedWorkClaimLease.derive host.sha256Hex head sessionId owner
    host.timestampMs leaseTtlMs
  { sessionId := sessionId
    claimId := lease.claimId
    owner := owner
    leaseToken := lease.leaseToken
    fencingToken := lease.fencingToken
    claimedAtEpochMs := lease.claimedAtEpochMs
    expiresAtEpochMs := lease.expiresAtEpochMs
    batches := selected.map (·.batch) }

/-- Stamp the selected rows, or leave them all if one of them was taken. -/
def Store.stampQueuedWork (selected : List (InMemoryQueuedBatch Json)) (db : Store Json) :
    Answer Json (Option (QueuedWorkClaim Json)) :=
  if selected.all fun row => rowStillClaimable now row.toClaimStamp row.toClaimStamp then
    (.ok (some claim),
      { db with
        queuedWorkBatches := db.queuedWorkBatches.update
          (fun row => selected.any (·.batch.batchId == row.batch.batchId))
          (stampSelected claim) fun _ => rfl })
  else (.ok none, db)

/-- Claim the rows that the selection takes from the front of `candidateRows`. -/
def Store.claimFromRows (leaseTtlMs : Nat) (kind : QueuedWorkClaimKind)
    (candidateRows : List (InMemoryQueuedBatch Json)) (db : Store Json) :
    Answer Json (Option (QueuedWorkClaim Json)) :=
  match candidateRows.mapM claimCandidate with
  | .error e => (.error e, db)
  | .ok [] => (.ok none, db)
  | .ok (head :: rest) =>
    if kind.select (head :: rest) = 0 then (.ok none, db)
    else
      let selected := candidateRows.take (kind.select (head :: rest))
      db.stampQueuedWork host.timestampMs
        (derivedQueuedWorkClaim host sessionId owner leaseTtlMs head selected) selected

variable (sessionExecutionLease : SessionExecutionLeaseFence)

/-- The leading session command asks for one batch, the turn-work claim for as
many as its caller does. -/
def Store.claimQueuedWork (owner : LeaseOwnerIdentity) (leaseTtlMs : Nat)
    (kind : QueuedWorkClaimKind) (db : Store Json) : Answer Json (Option (QueuedWorkClaim Json)) :=
  if kind.maxBatches = 0 then (.ok none, db)
  else
    match db.ensureSessionExecutionLease host.toHost sessionId sessionExecutionLease with
    | .error e => (.error e, db)
    | .ok () =>
      db.claimFromRows host sessionId owner leaseTtlMs kind
        (db.queuedWorkCandidates host.toHost sessionId owner kind.maxBatches)

def Store.claimLeadingReadySessionCommand (owner : LeaseOwnerIdentity) (leaseTtlMs : Nat)
    (db : Store Json) : Answer Json (Option (QueuedWorkClaim Json)) :=
  db.claimQueuedWork host sessionId sessionExecutionLease owner leaseTtlMs
    .leadingSessionCommand

def Store.claimReadyQueuedWork (owner : LeaseOwnerIdentity) (boundary : QueuedWorkClaimBoundary)
    (leaseTtlMs maxBatches : Nat) (db : Store Json) : Answer Json (Option (QueuedWorkClaim Json)) :=
  db.claimQueuedWork host sessionId sessionExecutionLease owner leaseTtlMs
    (.turnWork boundary maxBatches)

/-- The state whose rows a claim in this mode scans. -/
def wantedState : TurnInputClaimMode → TurnInputState
  | .activeTurn _ _ => .pendingActive
  | .nextTurn => .deferredNextTurn

def stateAfterClaim : TurnInputClaimMode → TurnInputState
  | .activeTurn _ _ => .accepted
  | .nextTurn => .deferredNextTurn

def matchesMode (mode : TurnInputClaimMode) (input : PendingTurnInput Json) : Bool :=
  match mode with
  | .activeTurn turnId checkpoint =>
    input.ingress.activeTurnId == some turnId && input.ingress.admitsCheckpoint checkpoint
  | .nextTurn => input.state.isNextTurnPending

def turnInputScanLimit (maxInputs : Nat) : Int := min (asI64 maxInputs + 32) i64Max

/-- The scan reads the rows of the wanted state up to its limit; the turn and
the checkpoint are compared afterwards. -/
def Store.turnInputCandidates (host : Host) (sessionId : String)
    (owner : LeaseOwnerIdentity) (maxInputs : Nat) (mode : TurnInputClaimMode)
    (db : Store Json) : List (InMemoryPendingTurnInput Json) :=
  let candidateRows := limitRows (turnInputScanLimit maxInputs)
    (db.turnInputRows.filter fun row =>
      row.input.sessionId == sessionId && row.input.state == wantedState mode)
  (candidateRows.filter fun row =>
    row.toClaimStamp.available host owner && matchesMode mode row.input).take maxInputs

def stampTurnInput (claimId leaseToken : String) (owner : LeaseOwnerIdentity)
    (expiresAt : Nat) (mode : TurnInputClaimMode) (row : InMemoryPendingTurnInput Json) :
    InMemoryPendingTurnInput Json where
  toClaimStamp := sqlClaimed row.toClaimStamp claimId leaseToken owner expiresAt
  input := { row.input with state := stateAfterClaim mode }

/-- The claim over the selected inputs, the first of which is `head`. -/
def derivedTurnInputClaim (leaseTtlMs : Nat) (mode : TurnInputClaimMode)
    (head : InMemoryPendingTurnInput Json) (selected : List (InMemoryPendingTurnInput Json)) :
    TurnInputClaim Json :=
  let now := host.timestampMs
  let fencingToken := saturatingAdd head.claimFencingToken 1
  let claimId := s!"tic:{head.input.enqueueSeq}:{fencingToken}"
  { sessionId := sessionId
    claimId := claimId
    owner := owner
    leaseToken := host.sha256Hex
      s!"{sessionId}:{owner.ownerId}:{owner.incarnationId}:{claimId}:{now}"
    fencingToken := fencingToken
    claimedAtEpochMs := now
    expiresAtEpochMs := saturatingAdd now leaseTtlMs
    mode := mode
    inputs := selected.map fun row => { row.input with state := stateAfterClaim mode } }

/-- Stamp the selected inputs, or leave them all if one of them was taken. -/
def Store.stampTurnInputs (claim : TurnInputClaim Json)
    (selected : List (InMemoryPendingTurnInput Json)) (db : Store Json) :
    Answer Json (Option (TurnInputClaim Json)) :=
  if selected.all fun row => rowStillClaimable now row.toClaimStamp row.toClaimStamp then
    (.ok (some claim),
      { db with
        pendingTurnInputs := db.pendingTurnInputs.update
          (fun row => selected.any (·.input.inputId == row.input.inputId))
          (stampTurnInput claim.claimId claim.leaseToken claim.owner claim.expiresAtEpochMs
            claim.mode) fun _ => rfl })
  else (.ok none, db)

def Store.claimPendingTurnInputsSqlite (owner : LeaseOwnerIdentity) (leaseTtlMs maxInputs : Nat)
    (mode : TurnInputClaimMode) (db : Store Json) : Answer Json (Option (TurnInputClaim Json)) :=
  if maxInputs = 0 then (.ok none, db)
  else
    match db.ensureSessionExecutionLease host.toHost sessionId sessionExecutionLease with
    | .error e => (.error e, db)
    | .ok () =>
      match db.turnInputCandidates host.toHost sessionId owner maxInputs mode with
      | [] => (.ok none, db)
      | head :: rest =>
        db.stampTurnInputs host.timestampMs
          (derivedTurnInputClaim host sessionId owner leaseTtlMs mode head (head :: rest))
          (head :: rest)

def Store.claimActiveTurnInputs (owner : LeaseOwnerIdentity) (turnId : String)
    (checkpoint : CheckpointKind) (leaseTtlMs maxInputs : Nat) (db : Store Json) :
    Answer Json (Option (TurnInputClaim Json)) :=
  db.claimPendingTurnInputsSqlite host sessionId sessionExecutionLease owner leaseTtlMs
    maxInputs (.activeTurn turnId checkpoint)

def Store.claimNextTurnInputs (owner : LeaseOwnerIdentity) (leaseTtlMs maxInputs : Nat)
    (db : Store Json) : Answer Json (Option (TurnInputClaim Json)) :=
  db.claimPendingTurnInputsSqlite host sessionId sessionExecutionLease owner leaseTtlMs
    maxInputs .nextTurn

end Scans

section Rows

def uniqueConstraintFailed (column : String) : StoreError :=
  .backend s!"UNIQUE constraint failed: {column}"

/-- The id of a new batch; `nonce` tells batches of one millisecond apart. -/
def deriveBatchId (host : SqliteHost Json) (sessionId : String) (sourceKey : Option String) :
    String :=
  let seed := s!"{sessionId}:{host.debugText sourceKey}:{host.timestampMs}:{host.nonce}"
  s!"qwb:{host.sha256Hex seed}"

def derivePendingTurnInputId (host : SqliteHost Json) (sessionId : String)
    (sourceKey : Option String) : String :=
  let seed := s!"{sessionId}:{host.debugText sourceKey}:{host.timestampMs}:{host.nonce}"
  s!"ti:{host.sha256Hex seed}"

/-- The row id that an insert takes when none is given. -/
def nextRowId (used : List Nat) : Nat := used.foldl max 0 + 1

def Store.enqueueQueuedWork (host : SqliteHost Json) (draft : QueuedWorkBatchDraft Json)
    (db : Store Json) : Answer Json (QueuedWorkBatch Json) :=
  match db.queuedWorkBatches.rows.find? fun row => draft.sameSource row.batch with
  | some existing => (.ok existing.batch, db)
  | none =>
    let stored := draft.stored (deriveBatchId host draft.sessionId draft.sourceKey)
      (nextRowId (db.queuedWorkBatches.rows.map (·.batch.enqueueSeq))) host.timestampMs
    match db.queuedWorkBatches.insert (.fresh stored) with
    | none => (.error (uniqueConstraintFailed "queued_work_batches.batch_id"), db)
    | some table => (.ok stored, { db with queuedWorkBatches := table })

/-- The new expiry is written before the count is compared, and stays written. -/
def Store.renewQueuedWorkClaim (host : Host) (claim : QueuedWorkClaim Json)
    (leaseTtlMs : Nat) (db : Store Json) : Answer Json (QueuedWorkClaim Json) :=
  let expiresAt := saturatingAdd host.timestampMs leaseTtlMs
  let claimed := InMemoryQueuedBatch.claimedBy claim.sessionId claim.claimId claim.leaseToken
  (renewedClaim claim (db.queuedWorkBatches.rows.countP claimed) expiresAt,
    { db with
      queuedWorkBatches := db.queuedWorkBatches.update claimed
        (fun row => { row with toClaimStamp := row.toClaimStamp.renewed expiresAt })
        fun _ => rfl })

def Store.abandonQueuedWorkClaim (claim : QueuedWorkClaim Json) (db : Store Json) :
    Answer Json Unit :=
  let claimed := InMemoryQueuedBatch.claimedBy claim.sessionId claim.claimId claim.leaseToken
  (.ok (), { db with
    queuedWorkBatches := db.queuedWorkBatches.update claimed
      (fun row => { row with toClaimStamp := row.toClaimStamp.cleared }) fun _ => rfl })

def sqlFreeAt (now : Nat) (stamp : ClaimStamp) : Bool :=
  stamp.claimToken.isNone || sqlLe stamp.claimExpiresAtMs now

def Store.cancelQueuedWorkBatch (host : Host) (sessionId batchId : String)
    (db : Store Json) : Answer Json (Option (QueuedWorkBatch Json)) :=
  let named := fun row : InMemoryQueuedBatch Json =>
    row.batch.sessionId == sessionId && row.batch.batchId == batchId &&
      sqlFreeAt host.timestampMs row.toClaimStamp
  match db.queuedWorkBatches.rows.find? named with
  | none => (.ok none, db)
  | some row =>
    (.ok (some row.batch), { db with
      queuedWorkBatches := db.queuedWorkBatches.delete named })

def Store.enqueuePendingTurnInput (host : SqliteHost Json)
    (draft : PendingTurnInputDraft Json) (db : Store Json) :
    Answer Json (PendingTurnInput Json) :=
  let existing := db.pendingTurnInputs.rows.find? fun row =>
    draft.sourceKey.isSome && row.input.sessionId == draft.sessionId &&
      row.input.sourceKey == draft.sourceKey
  match existing with
  | some existing => (.ok existing.input, db)
  | none =>
    let stored := draft.stored
      (draft.inputId.getD (derivePendingTurnInputId host draft.sessionId draft.sourceKey))
      (nextRowId (db.pendingTurnInputs.rows.map (·.input.enqueueSeq))) host.timestampMs
    match db.pendingTurnInputs.insert (.fresh stored) with
    | none => (.error (uniqueConstraintFailed "pending_turn_inputs.input_id"), db)
    | some table => (.ok stored, { db with pendingTurnInputs := table })

def Store.cancelPendingTurnInput (host : Host) (sessionId inputId : String)
    (db : Store Json) : Answer Json (Option (PendingTurnInput Json)) :=
  let named := fun row : InMemoryPendingTurnInput Json =>
    row.input.sessionId == sessionId && row.input.inputId == inputId &&
      sqlFreeAt host.timestampMs row.toClaimStamp
  match db.pendingTurnInputs.rows.find? named with
  | none => (.ok none, db)
  | some row =>
    (.ok (some row.input), { db with
      pendingTurnInputs := db.pendingTurnInputs.delete named })

def Store.abandonTurnInputClaim (claim : TurnInputClaim Json) (db : Store Json) :
    Answer Json Unit :=
  let claimed :=
    InMemoryPendingTurnInput.claimedBy claim.sessionId claim.claimId claim.leaseToken
  (.ok (), { db with
    pendingTurnInputs :=
      db.pendingTurnInputs.update claimed (·.abandon claim.mode) fun _ => rfl })

end Rows

section Commits

/-- The rows that a completion's claim holds. -/
def ownedQueueRows (completed : QueuedWorkCompletion)
    (rows : List (InMemoryQueuedBatch Json)) : Nat :=
  rows.countP (·.claimedBy completed.sessionId completed.claimId completed.leaseToken)

variable (completed : TurnInputCompletion)

def ownedTurnInputRows (rows : List (InMemoryPendingTurnInput Json)) : Nat :=
  rows.countP (·.claimedBy completed.sessionId completed.claimId completed.leaseToken)

def ensureQueuedWorkCompletion (sessionId : String)
    (rows : List (InMemoryQueuedBatch Json)) (completed : QueuedWorkCompletion) :
    Except StoreError Unit :=
  if completed.sessionId ≠ sessionId then .error (QueuedWorkCompletion.expired completed)
  else ensureCompletionOwnsAllBatches completed (ownedQueueRows completed rows)

def ensureTurnInputCompletionOwnsAllInputs (ownedRows : Nat) : Except StoreError Unit :=
  if ownedRows ≠ completed.inputIds.length then
    .error (TurnInputCompletion.expired completed)
  else .ok ()

def ensureTurnInputCompletion (sessionId : String)
    (rows : List (InMemoryPendingTurnInput Json)) (completed : TurnInputCompletion) :
    Except StoreError Unit :=
  if completed.sessionId ≠ sessionId then .error (TurnInputCompletion.expired completed)
  else
    ensureTurnInputCompletionOwnsAllInputs completed (ownedTurnInputRows completed rows)

def firstError {C : Type} (check : C → Except StoreError Unit) : List C → Except StoreError Unit
  | [] => .ok ()
  | completed :: rest =>
    match check completed with
    | .error e => .error e
    | .ok () => firstError check rest

/-- The references under which the parts of a checkpoint are stored. -/
def SqliteHost.checkpointManifest (host : SqliteHost Json)
    (checkpoint : HydratedSessionCheckpoint Json) : SessionCheckpoint Json where
  turnState := checkpoint.turnState
  toolStateRef :=
    match checkpoint.toolState with
    | some snapshot => some (host.putBlob snapshot)
    | none => checkpoint.toolStateRef
  pluginSnapshotRef :=
    match checkpoint.pluginSnapshot with
    | some snapshot => some (host.putBlob snapshot)
    | none => checkpoint.pluginSnapshotRef
  pluginSnapshotRevision := checkpoint.pluginSnapshotRevision
  executionStateRef :=
    match checkpoint.executionState with
    | some snapshot => some (host.putBlob snapshot)
    | none => checkpoint.executionStateRef

def nodeRow (node : SessionNodeRecord Json) : GraphNodeRow Json where
  node := node
  tombstoned := false

/-- The graph rows after a delta; `none` if an inserted id is taken. -/
def writeGraph (delta : GraphCommitDelta Json) (graphNodes : GraphNodeTable Json) :
    Option (GraphNodeTable Json) :=
  match delta with
  | .unchanged _ => some graphNodes
  | .append nodes _ => graphNodes.insertAll (nodes.map nodeRow)
  | .replaceFull graph => KeyedTable.empty.insertAll (graph.nodes.map nodeRow)

def visibleRows (graphNodes : GraphNodeTable Json) : List (GraphNodeRow Json) :=
  graphNodes.rows.filter fun row => !row.tombstoned

def deleteCompletedBatches (claims : List QueuedWorkCompletion)
    (table : QueuedBatchTable Json) : QueuedBatchTable Json :=
  table.delete fun row => claims.any fun completed => queueScheme.owns completed row

def deleteCompletedInputs (claims : List TurnInputCompletion) (table : TurnInputTable Json) :
    TurnInputTable Json :=
  table.delete fun row => claims.any fun completed => turnInputScheme.owns completed row

variable (commit : RuntimeCommit Json)

variable (row : InMemoryPendingTurnInput Json)

def interruptedRow : Bool :=
  commit.interruptedTurnInputTurnId.any fun turnId =>
    row.input.sessionId == commit.sessionId && row.input.state == .pendingActive &&
      row.input.ingress.activeTurnId == some turnId

def deferredRow : InMemoryPendingTurnInput Json where
  toClaimStamp := row.toClaimStamp.cleared
  input := { row.input with state := .deferredNextTurn, ingress := .nextTurn }

def Store.headRevision (db : Store Json) : Nat := headRevisionOf db.sessionHead

def Store.releaseAfterCommit (db : Store Json) : Store Json :=
  match commit.releaseSessionExecutionLease with
  | none => db
  | some completion => db.releaseSessionExecutionLeaseConn completion

def Store.checkLease (host : Host) (commit : RuntimeCommit Json) (db : Store Json) :
    Except StoreError Unit :=
  match commit.sessionExecutionLease with
  | none => .error (.sessionExecutionLeaseExpired commit.sessionId)
  | some fence => db.ensureSessionExecutionLease host commit.sessionId fence

def Store.commitResult (host : SqliteHost Json) (commit : RuntimeCommit Json)
    (db : Store Json) : RuntimeCommitResult Json :=
  let manifest := host.checkpointManifest commit.checkpoint
  { headRevision := db.headRevision + 1
    checkpointRef := host.putManifest manifest
    manifest := manifest }

/-- Everything a commit writes once its checks have passed. -/
def Store.writeCommit (host : SqliteHost Json) (commit : RuntimeCommit Json)
    (graphNodes : GraphNodeTable Json) (db : Store Json) : Store Json :=
  let result := db.commitResult host commit
  { db with
    graphNodes := graphNodes
    usageDeltas := db.usageDeltas ++ commit.usageDeltas
    checkpoints :=
      Function.update db.checkpoints result.checkpointRef (some commit.checkpoint)
    sessionHead := some
      { sessionId := commit.sessionId
        headRevision := result.headRevision
        config := commit.config
        agentFrames := commit.agentFrames
        currentAgentFrameId := commit.currentAgentFrameId
        checkpointRef := some result.checkpointRef
        leafNodeId := commit.graph.leafNodeId
        graphNodeCount := (visibleRows graphNodes).length
        tokenLedger := [] }
    queuedWorkBatches :=
      deleteCompletedBatches commit.completedQueueClaims db.queuedWorkBatches
    pendingTurnInputs :=
      (deleteCompletedInputs commit.completedTurnInputClaims db.pendingTurnInputs).update
        (interruptedRow commit) deferredRow fun _ => rfl
    runtimeTurnCommits := commit.recordTurn result db.runtimeTurnCommits }

def Store.commitRuntimeState (host : SqliteHost Json) (commit : RuntimeCommit Json)
    (db : Store Json) : Answer Json (RuntimeCommitResult Json) :=
  match commit.checkBinding db.sessionHead with
  | .error e => (.error e, db)
  | .ok () =>
  match commit.findReplay db.runtimeTurnCommits with
  | .error e => (.error e, db)
  | .ok (some result) => (.ok result, db.releaseAfterCommit commit)
  | .ok none =>
  match db.checkLease host.toHost commit with
  | .error e => (.error e, db)
  | .ok () =>
  match commit.checkHeadRevision db.headRevision with
  | .error e => (.error e, db)
  | .ok () =>
  match firstError (ensureQueuedWorkCompletion commit.sessionId db.queuedWorkBatches.rows)
      commit.completedQueueClaims with
  | .error e => (.error e, db)
  | .ok () =>
  match firstError (ensureTurnInputCompletion commit.sessionId db.pendingTurnInputs.rows)
      commit.completedTurnInputClaims with
  | .error e => (.error e, db)
  | .ok () =>
  match writeGraph commit.graph db.graphNodes with
  | none => (.error (uniqueConstraintFailed "graph_nodes.node_id"), db)
  | some graphNodes =>
    (.ok (db.commitResult host commit),
      (db.writeCommit host commit graphNodes).releaseAfterCommit commit)

end Commits

section Graphs

def Store.tombstoneNodes (ids : List String) (db : Store Json) : Answer Json Unit :=
  (.ok (), { db with
    graphNodes := db.graphNodes.update (fun row => decide (row.node.nodeId ∈ ids))
      (fun row => { row with tombstoned := true }) fun _ => rfl })

def Store.vacuum (db : Store Json) : Answer Json Nat :=
  (.ok (db.graphNodes.rows.countP (·.tombstoned)),
    { db with graphNodes := db.graphNodes.delete (·.tombstoned) })

def Store.saveSessionMeta (record : SessionMeta Json) (db : Store Json) : Answer Json Unit :=
  (.ok (), { db with sessionMeta := some record })

variable (graphNodes : GraphNodeTable Json)

/-- The visible node of this id; ids are unique. -/
def findVisible (nodeId : String) : Option (SessionNodeRecord Json) :=
  ((visibleRows graphNodes).find? (·.node.nodeId == nodeId)).map (·.node)

/-- The recursive query joins each row with its visible parent. -/
def activePath (leafNodeId : String) : Option (List (SessionNodeRecord Json)) :=
  (ParentWalks.walk
      (fun node : SessionNodeRecord Json => node.parentNodeId.bind (findVisible graphNodes))
      (visibleRows graphNodes).length (findVisible graphNodes leafNodeId)).map List.reverse

variable (scope : SessionReadScope)

/-- The graph of a read; `none` if the recursive query does not end. -/
def Store.scopedGraph (head : SessionHeadMeta Json) (db : Store Json) :
    Option (SessionGraph Json) :=
  match scope with
  | .fullGraph =>
    some (.fromNodes ((visibleRows db.graphNodes).map (·.node)) head.leafNodeId)
  | .activePath leafNodeId =>
    match leafNodeId <|> head.leafNodeId with
    | none => some SessionGraph.default
    | some leaf => (activePath db.graphNodes leaf).map fun path => .fromNodes path (some leaf)

/-- Load the session: `none` if the read does not return, `some none` before
the first commit. -/
def Store.loadSession (db : Store Json) : Option (Option (PersistedSessionRead Json)) :=
  match db.sessionHead with
  | none => some none
  | some head =>
    (db.scopedGraph scope head).map fun graph => some
      { sessionId := head.sessionId
        headRevision := head.headRevision
        config := head.config
        agentFrames := head.agentFrames
        currentAgentFrameId := head.currentAgentFrameId
        graph := graph
        checkpointRef := head.checkpointRef
        checkpoint := head.checkpointRef.bind db.checkpoints
        tokenLedger := mergeTokenLedgerEntries db.usageDeltas }

end Graphs

section Steps

/-- One call on the database. -/
def step (call : SqliteHost Json × Op Json) (db : Store Json) : Reply Json × Store Json :=
  let host := call.1
  match call.2 with
  | .commitRuntimeState commit => (db.commitRuntimeState host commit).map .commit id
  | .tryClaimSessionExecutionLease sessionId owner leaseTtlMs =>
    (db.tryClaimSessionExecutionLease host.toHost sessionId owner leaseTtlMs).map
      .leaseClaim id
  | .reclaimSessionExecutionLease sessionId owner observedHolder leaseTtlMs =>
    (db.reclaimSessionExecutionLease host.toHost sessionId owner observedHolder
      leaseTtlMs).map .leaseClaim id
  | .renewSessionExecutionLease fence leaseTtlMs =>
    (db.renewSessionExecutionLease host.toHost fence leaseTtlMs).map .lease id
  | .releaseSessionExecutionLease completion =>
    (.done (.ok ()), db.releaseSessionExecutionLeaseConn completion)
  | .enqueuePendingTurnInput draft => (db.enqueuePendingTurnInput host draft).map .turnInput id
  | .cancelPendingTurnInput sessionId inputId =>
    (db.cancelPendingTurnInput host.toHost sessionId inputId).map .cancelledTurnInput id
  | .claimActiveTurnInputs sessionId fence owner turnId checkpoint leaseTtlMs maxInputs =>
    (db.claimActiveTurnInputs host sessionId fence owner turnId checkpoint leaseTtlMs
      maxInputs).map .turnInputClaim id
  | .claimNextTurnInputs sessionId fence owner leaseTtlMs maxInputs =>
    (db.claimNextTurnInputs host sessionId fence owner leaseTtlMs maxInputs).map
      .turnInputClaim id
  | .abandonTurnInputClaim claim => (db.abandonTurnInputClaim claim).map .done id
  | .enqueueQueuedWork draft => (db.enqueueQueuedWork host draft).map .batch id
  | .claimLeadingReadySessionCommand sessionId fence owner leaseTtlMs =>
    (db.claimLeadingReadySessionCommand host sessionId fence owner leaseTtlMs).map
      .queueClaim id
  | .claimReadyQueuedWork sessionId fence owner boundary leaseTtlMs maxBatches =>
    (db.claimReadyQueuedWork host sessionId fence owner boundary leaseTtlMs
      maxBatches).map .queueClaim id
  | .renewQueuedWorkClaim claim leaseTtlMs =>
    (db.renewQueuedWorkClaim host.toHost claim leaseTtlMs).map .renewedQueueClaim id
  | .abandonQueuedWorkClaim claim => (db.abandonQueuedWorkClaim claim).map .done id
  | .cancelQueuedWorkBatch sessionId batchId =>
    (db.cancelQueuedWorkBatch host.toHost sessionId batchId).map .cancelledBatch id
  | .saveSessionMeta record => (db.saveSessionMeta record).map .done id
  | .tombstoneNodes ids => (db.tombstoneNodes ids).map .done id
  | .vacuum => db.vacuum.map .vacuumed id

abbrev SqliteEntry (Json : Type) :=
  Runs.Entry (SqliteHost Json × Op Json) (Store Json) (Reply Json)

/-- Histories of calls on a new database. -/
abbrev SqliteRun (history : List (SqliteEntry Json)) (db : Store Json) : Prop :=
  Runs.Run step Store.new history db

end Steps

end SqliteStore
