import Lash.SqliteStore
import Lash.StoreSteps

/-!
# What each call does to the database

The head, the turn-commit ledger and the graph rows change in few calls only,
and a commit ends in one of three ways.
-/

namespace SqliteSteps

open StoreTypes QueuedWork TurnInputs RuntimeCommits InMemoryStore SqliteStore Store

variable {Json : Type} {db : Store Json} {host : SqliteHost Json}

section Commits

/-- The checks of a commit up to the writing of the graph. -/
structure Accepts (host : SqliteHost Json) (commit : RuntimeCommit Json) (db : Store Json) :
    Prop where
  binding : commit.checkBinding db.sessionHead = .ok ()
  unreplayed : commit.findReplay db.runtimeTurnCommits = .ok none
  lease : db.checkLease host.toHost commit = .ok ()
  revision : commit.checkHeadRevision db.headRevision = .ok ()
  queue : firstError (ensureQueuedWorkCompletion commit.sessionId db.queuedWorkBatches.rows)
    commit.completedQueueClaims = .ok ()
  inputs : firstError (ensureTurnInputCompletion commit.sessionId db.pendingTurnInputs.rows)
    commit.completedTurnInputClaims = .ok ()

/-- The three ways in which a commit ends. -/
inductive CommitOutcome (host : SqliteHost Json) (commit : RuntimeCommit Json)
    (db : Store Json) : Answer Json (RuntimeCommitResult Json) → Prop
  | rejected (e : StoreError)
      (fails : ¬ (Accepts host commit db ∧ (writeGraph commit.graph db.graphNodes).isSome)) :
      CommitOutcome host commit db (.error e, db)
  | replayed (result : RuntimeCommitResult Json)
      (bound : commit.checkBinding db.sessionHead = .ok ())
      (stored : commit.findReplay db.runtimeTurnCommits = .ok (some result)) :
      CommitOutcome host commit db (.ok result, db.releaseAfterCommit commit)
  | applied (graphNodes : GraphNodeTable Json) (accepts : Accepts host commit db)
      (written : writeGraph commit.graph db.graphNodes = some graphNodes) :
      CommitOutcome host commit db (.ok (db.commitResult host commit),
        (db.writeCommit host commit graphNodes).releaseAfterCommit commit)

theorem commitRuntimeState_outcome (host : SqliteHost Json) (db : Store Json)
    (commit : RuntimeCommit Json) :
    CommitOutcome host commit db (db.commitRuntimeState host commit) := by
  unfold commitRuntimeState
  cases hbind : commit.checkBinding db.sessionHead with
  | error e => exact .rejected e fun h => by simpa [hbind] using h.1.binding
  | ok _ =>
  cases hreplay : commit.findReplay db.runtimeTurnCommits with
  | error e => exact .rejected e fun h => by simpa [hreplay] using h.1.unreplayed
  | ok stored =>
  cases stored with
  | some result => exact .replayed result hbind hreplay
  | none =>
  cases hlease : db.checkLease host.toHost commit with
  | error e => exact .rejected e fun h => by simpa [hlease] using h.1.lease
  | ok _ =>
  cases hrev : commit.checkHeadRevision db.headRevision with
  | error e => exact .rejected e fun h => by simpa [hrev] using h.1.revision
  | ok _ =>
  cases hqueue : firstError
      (ensureQueuedWorkCompletion commit.sessionId db.queuedWorkBatches.rows)
      commit.completedQueueClaims with
  | error e => exact .rejected e fun h => by simpa [hqueue] using h.1.queue
  | ok _ =>
  cases hinputs : firstError
      (ensureTurnInputCompletion commit.sessionId db.pendingTurnInputs.rows)
      commit.completedTurnInputClaims with
  | error e => exact .rejected e fun h => by simpa [hinputs] using h.1.inputs
  | ok _ =>
  cases hgraph : writeGraph commit.graph db.graphNodes with
  | none => exact .rejected _ fun h => by simpa [hgraph] using h.2
  | some graphNodes =>
    exact .applied graphNodes ⟨hbind, hreplay, hlease, hrev, hqueue, hinputs⟩ hgraph

end Commits

section Frames

theorem releaseSessionExecutionLeaseConn_frame (completion : SessionExecutionLeaseCompletion) :
    ∃ leases, db.releaseSessionExecutionLeaseConn completion =
      { db with sessionExecutionLeases := leases } := by
  unfold releaseSessionExecutionLeaseConn
  split
  · exact ⟨_, rfl⟩
  · split
    · exact ⟨_, rfl⟩
    · exact ⟨_, rfl⟩

theorem releaseAfterCommit_frame (db : Store Json) (commit : RuntimeCommit Json) :
    ∃ leases, db.releaseAfterCommit commit = { db with sessionExecutionLeases := leases } := by
  unfold releaseAfterCommit
  split
  · exact ⟨_, rfl⟩
  · exact releaseSessionExecutionLeaseConn_frame _

theorem releaseAfterCommit_eq (db : Store Json) (commit : RuntimeCommit Json) :
    db.releaseAfterCommit commit = { db with
      sessionExecutionLeases := (db.releaseAfterCommit commit).sessionExecutionLeases } := by
  obtain ⟨leases, hleases⟩ := releaseAfterCommit_frame db commit
  rw [hleases]

/-- A commit leaves the database as it is, but for leases, or writes. -/
theorem step_commit (host : SqliteHost Json) (commit : RuntimeCommit Json) (db : Store Json) :
    (∃ leases, (SqliteStore.step (host, .commitRuntimeState commit) db).2 =
      { db with sessionExecutionLeases := leases }) ∨
    ∃ graphNodes leases, writeGraph commit.graph db.graphNodes = some graphNodes ∧
      (SqliteStore.step (host, .commitRuntimeState commit) db).2 =
        { db.writeCommit host commit graphNodes with sessionExecutionLeases := leases } := by
  have houtcome := commitRuntimeState_outcome host db commit
  change (∃ leases, (db.commitRuntimeState host commit).2 = _) ∨
    ∃ graphNodes leases, _ ∧ (db.commitRuntimeState host commit).2 = _
  generalize db.commitRuntimeState host commit = out at houtcome
  cases houtcome with
  | rejected e fails => exact .inl ⟨_, rfl⟩
  | replayed result bound stored => exact .inl (releaseAfterCommit_frame db commit)
  | applied graphNodes accepts written =>
    exact .inr ⟨graphNodes, _, written, releaseAfterCommit_eq _ commit⟩

variable (sessionId : String)

variable (owner : LeaseOwnerIdentity)

theorem tryClaimSessionExecutionLease_frame (leaseTtlMs : Nat) :
    ∃ leases, (db.tryClaimSessionExecutionLease host.toHost sessionId owner leaseTtlMs).2 =
      { db with sessionExecutionLeases := leases } := by
  unfold tryClaimSessionExecutionLease
  dsimp only
  split
  · split
    · exact ⟨_, rfl⟩
    · exact ⟨_, rfl⟩
  · exact ⟨_, rfl⟩

theorem reclaimSessionExecutionLease_frame (observed : SessionExecutionLeaseFence)
    (leaseTtlMs : Nat) :
    ∃ leases, (db.reclaimSessionExecutionLease host.toHost sessionId owner observed
      leaseTtlMs).2 = { db with sessionExecutionLeases := leases } := by
  unfold reclaimSessionExecutionLease
  dsimp only
  split
  · split
    · exact ⟨_, rfl⟩
    · exact ⟨_, rfl⟩
  · exact ⟨_, rfl⟩

variable (fence : SessionExecutionLeaseFence)

theorem renewSessionExecutionLease_frame (leaseTtlMs : Nat) :
    ∃ leases, (db.renewSessionExecutionLease host.toHost fence leaseTtlMs).2 =
      { db with sessionExecutionLeases := leases } := by
  unfold renewSessionExecutionLease
  dsimp only
  split
  · exact ⟨_, rfl⟩
  · split
    · exact ⟨_, rfl⟩
    · exact ⟨_, rfl⟩

theorem stampQueuedWork_frame (now : Nat) (claim : QueuedWorkClaim Json)
    (selected : List (InMemoryQueuedBatch Json)) :
    ∃ table, (db.stampQueuedWork now claim selected).2 =
      { db with queuedWorkBatches := table } := by
  unfold stampQueuedWork
  split
  · exact ⟨_, rfl⟩
  · exact ⟨_, rfl⟩

theorem claimFromRows_frame (leaseTtlMs : Nat) (kind : QueuedWorkClaimKind)
    (candidateRows : List (InMemoryQueuedBatch Json)) :
    ∃ table, (db.claimFromRows host sessionId owner leaseTtlMs kind candidateRows).2 =
      { db with queuedWorkBatches := table } := by
  unfold claimFromRows
  split
  · exact ⟨_, rfl⟩
  · exact ⟨_, rfl⟩
  · split
    · exact ⟨_, rfl⟩
    · exact stampQueuedWork_frame _ _ _

theorem claimQueuedWork_frame (owner : LeaseOwnerIdentity) (leaseTtlMs : Nat)
    (kind : QueuedWorkClaimKind) :
    ∃ table, (db.claimQueuedWork host sessionId fence owner leaseTtlMs kind).2 =
      { db with queuedWorkBatches := table } := by
  unfold claimQueuedWork
  split
  · exact ⟨_, rfl⟩
  · split
    · exact ⟨_, rfl⟩
    · exact claimFromRows_frame _ _ _ _ _

theorem stampTurnInputs_frame (now : Nat) (claim : TurnInputClaim Json)
    (selected : List (InMemoryPendingTurnInput Json)) :
    ∃ table, (db.stampTurnInputs now claim selected).2 =
      { db with pendingTurnInputs := table } := by
  unfold stampTurnInputs
  split
  · exact ⟨_, rfl⟩
  · exact ⟨_, rfl⟩

theorem claimPendingTurnInputsSqlite_frame (owner : LeaseOwnerIdentity) (leaseTtlMs maxInputs : Nat)
    (mode : TurnInputClaimMode) :
    ∃ table, (db.claimPendingTurnInputsSqlite host sessionId fence owner leaseTtlMs
      maxInputs mode).2 = { db with pendingTurnInputs := table } := by
  unfold claimPendingTurnInputsSqlite
  split
  · exact ⟨_, rfl⟩
  · split
    · exact ⟨_, rfl⟩
    · split
      · exact ⟨_, rfl⟩
      · exact stampTurnInputs_frame _ _ _

theorem enqueueQueuedWork_frame (draft : QueuedWorkBatchDraft Json) :
    ∃ table, (db.enqueueQueuedWork host draft).2 = { db with queuedWorkBatches := table } := by
  unfold enqueueQueuedWork
  dsimp only
  split
  · exact ⟨_, rfl⟩
  · split
    · exact ⟨_, rfl⟩
    · exact ⟨_, rfl⟩

theorem cancelQueuedWorkBatch_frame (batchId : String) :
    ∃ table, (db.cancelQueuedWorkBatch host.toHost sessionId batchId).2 =
      { db with queuedWorkBatches := table } := by
  unfold cancelQueuedWorkBatch
  dsimp only
  split
  · exact ⟨_, rfl⟩
  · exact ⟨_, rfl⟩

theorem enqueuePendingTurnInput_frame (draft : PendingTurnInputDraft Json) :
    ∃ table, (db.enqueuePendingTurnInput host draft).2 =
      { db with pendingTurnInputs := table } := by
  unfold enqueuePendingTurnInput
  dsimp only
  split
  · exact ⟨_, rfl⟩
  · split
    · exact ⟨_, rfl⟩
    · exact ⟨_, rfl⟩

theorem cancelPendingTurnInput_frame (inputId : String) :
    ∃ table, (db.cancelPendingTurnInput host.toHost sessionId inputId).2 =
      { db with pendingTurnInputs := table } := by
  unfold cancelPendingTurnInput
  dsimp only
  split
  · exact ⟨_, rfl⟩
  · exact ⟨_, rfl⟩

end Frames

section Areas

open StoreSteps

/-- The databases that differ from `db` in one area at most. -/
def WithinArea (db : Store Json) : Area → Store Json → Prop
  | .commits, _ => True
  | .leases, after => ∃ leases, after = { db with sessionExecutionLeases := leases }
  | .turnInputs, after => ∃ table, after = { db with pendingTurnInputs := table }
  | .queue, after => ∃ table, after = { db with queuedWorkBatches := table }
  | .graph, after => ∃ record graphNodes, after =
      { db with sessionMeta := record, graphNodes := graphNodes }

theorem step_withinArea (call : SqliteHost Json × Op Json) (db : Store Json) :
    WithinArea db (areaOf call.2) (step call db).2 := by
  obtain ⟨host, op⟩ := call
  cases op with
  | commitRuntimeState commit => trivial
  | tryClaimSessionExecutionLease sessionId owner leaseTtlMs =>
    exact tryClaimSessionExecutionLease_frame sessionId owner leaseTtlMs
  | reclaimSessionExecutionLease sessionId owner observed leaseTtlMs =>
    exact reclaimSessionExecutionLease_frame sessionId owner observed leaseTtlMs
  | renewSessionExecutionLease fence leaseTtlMs =>
    exact renewSessionExecutionLease_frame fence leaseTtlMs
  | releaseSessionExecutionLease completion =>
    exact releaseSessionExecutionLeaseConn_frame completion
  | enqueuePendingTurnInput draft => exact enqueuePendingTurnInput_frame draft
  | cancelPendingTurnInput sessionId inputId =>
    exact cancelPendingTurnInput_frame sessionId inputId
  | claimActiveTurnInputs sessionId fence owner turnId checkpoint leaseTtlMs maxInputs
  | claimNextTurnInputs sessionId fence owner leaseTtlMs maxInputs =>
    exact claimPendingTurnInputsSqlite_frame sessionId fence owner leaseTtlMs maxInputs _
  | abandonTurnInputClaim claim | renewQueuedWorkClaim claim leaseTtlMs
  | abandonQueuedWorkClaim claim => exact ⟨_, rfl⟩
  | enqueueQueuedWork draft => exact enqueueQueuedWork_frame draft
  | claimLeadingReadySessionCommand sessionId fence owner leaseTtlMs =>
    exact claimQueuedWork_frame sessionId fence owner leaseTtlMs .leadingSessionCommand
  | claimReadyQueuedWork sessionId fence owner boundary leaseTtlMs maxBatches =>
    exact claimQueuedWork_frame sessionId fence owner leaseTtlMs
      (.turnWork boundary maxBatches)
  | cancelQueuedWorkBatch sessionId batchId =>
    exact cancelQueuedWorkBatch_frame sessionId batchId
  | saveSessionMeta record | tombstoneNodes ids | vacuum => exact ⟨_, _, rfl⟩

variable {call : SqliteHost Json × Op Json}

/-- What a call of an area leaves alone. The head, the turn-commit ledger and the usage belong
to commits alone. -/
structure Keeps (area : Area) (db after : Store Json) : Prop where
  head : after.sessionHead = db.sessionHead ∧ after.runtimeTurnCommits = db.runtimeTurnCommits
  usageDeltas : after.usageDeltas = db.usageDeltas
  graphNodes (other : area ≠ .graph) : after.graphNodes = db.graphNodes

theorem step_keeps (other : areaOf call.2 ≠ .commits) :
    Keeps (areaOf call.2) db (step call db).2 := by
  have hwithin := step_withinArea call db
  cases harea : areaOf call.2 with
  | commits => exact absurd harea other
  | leases | turnInputs | queue =>
    rw [harea] at hwithin
    obtain ⟨_, h⟩ := hwithin
    rw [h]
    exact ⟨⟨rfl, rfl⟩, rfl, fun _ => rfl⟩
  | graph =>
    rw [harea] at hwithin
    obtain ⟨_, _, h⟩ := hwithin
    rw [h]
    exact ⟨⟨rfl, rfl⟩, rfl, absurd rfl⟩

end Areas

end SqliteSteps
