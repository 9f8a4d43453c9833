import Lash.InMemoryStore

/-!
# What each call does to the in-memory store

For every operation, the part of the store it may touch, and for claims and
commits the few ways in which they can end. The invariants of the later modules
are derived from these facts and not from the bodies of the operations.
-/

namespace StoreSteps

open StoreTypes QueuedWork TurnInputs RuntimeCommits ClaimTables InMemoryStore
open InMemorySessionStore

variable {Json : Type} {store : InMemorySessionStore Json} {host : Host}

section Queue

variable (store) (host)

theorem claimReadyQueuedWorkInMemory_frame (sessionId : String)
    (fence : SessionExecutionLeaseFence) (owner : LeaseOwnerIdentity) (leaseTtlMs : Nat)
    (kind : QueuedWorkClaimKind) :
    ∃ queued, (store.claimReadyQueuedWorkInMemory host sessionId fence owner leaseTtlMs
      kind).2 = { store with queuedWork := queued } := by
  unfold claimReadyQueuedWorkInMemory
  split
  · exact ⟨_, rfl⟩
  · split
    · exact ⟨_, rfl⟩
    · dsimp only
      split
      · exact ⟨_, rfl⟩
      · split
        · exact ⟨_, rfl⟩
        · split
          · exact ⟨_, rfl⟩
          · exact ⟨_, rfl⟩

theorem enqueueQueuedWork_frame (draft : QueuedWorkBatchDraft Json) :
    ∃ queued nextSeq, (store.enqueueQueuedWork host draft).2 =
      { store with queuedWork := queued, queuedWorkNextSeq := nextSeq } := by
  unfold enqueueQueuedWork
  dsimp only
  split
  · exact ⟨_, _, rfl⟩
  · exact ⟨_, _, rfl⟩

theorem renewQueuedWorkClaim_frame (claim : QueuedWorkClaim Json) (leaseTtlMs : Nat) :
    ∃ queued, (store.renewQueuedWorkClaim host claim leaseTtlMs).2 =
      { store with queuedWork := queued } := by
  unfold renewQueuedWorkClaim
  dsimp only
  split
  · exact ⟨_, rfl⟩
  · exact ⟨_, rfl⟩

theorem cancelQueuedWorkBatch_frame (sessionId batchId : String) :
    ∃ queued, (store.cancelQueuedWorkBatch host sessionId batchId).2 =
      { store with queuedWork := queued } := by
  unfold cancelQueuedWorkBatch
  dsimp only
  split
  · exact ⟨_, rfl⟩
  · split
    · exact ⟨_, rfl⟩
    · exact ⟨_, rfl⟩

end Queue

section Pending

variable (store) (host)

theorem claimPendingTurnInputsInMemory_frame (sessionId : String)
    (fence : SessionExecutionLeaseFence) (owner : LeaseOwnerIdentity)
    (leaseTtlMs maxInputs : Nat) (mode : TurnInputClaimMode) :
    ∃ pending, (store.claimPendingTurnInputsInMemory host sessionId fence owner leaseTtlMs
      maxInputs mode).2 = { store with pendingTurnInputs := pending } := by
  unfold claimPendingTurnInputsInMemory
  split
  · exact ⟨_, rfl⟩
  · split
    · exact ⟨_, rfl⟩
    · dsimp only
      split
      · exact ⟨_, rfl⟩
      · exact ⟨_, rfl⟩

theorem enqueuePendingTurnInput_frame (draft : PendingTurnInputDraft Json) :
    ∃ pending nextSeq, (store.enqueuePendingTurnInput host draft).2 =
      { store with pendingTurnInputs := pending, pendingTurnInputNextSeq := nextSeq } := by
  unfold enqueuePendingTurnInput
  dsimp only
  split
  · exact ⟨_, _, rfl⟩
  · exact ⟨_, _, rfl⟩

theorem cancelPendingTurnInput_frame (sessionId inputId : String) :
    ∃ pending, (store.cancelPendingTurnInput host sessionId inputId).2 =
      { store with pendingTurnInputs := pending } := by
  unfold cancelPendingTurnInput
  dsimp only
  split
  · exact ⟨_, rfl⟩
  · split
    · exact ⟨_, rfl⟩
    · exact ⟨_, rfl⟩

end Pending

section Leases

variable (store) (host)

theorem releaseSessionExecutionLeaseInMemory_frame
    (completion : SessionExecutionLeaseCompletion) :
    ∃ leases, store.releaseSessionExecutionLeaseInMemory completion =
      { store with sessionExecutionLeases := leases } := by
  unfold releaseSessionExecutionLeaseInMemory
  split
  · exact ⟨_, rfl⟩
  · split
    · exact ⟨_, rfl⟩
    · exact ⟨_, rfl⟩

variable (commit : RuntimeCommit Json)

theorem releaseAfterCommit_frame :
    ∃ leases, store.releaseAfterCommit commit =
      { store with sessionExecutionLeases := leases } := by
  unfold releaseAfterCommit
  split
  · exact ⟨_, rfl⟩
  · exact releaseSessionExecutionLeaseInMemory_frame store _

theorem releaseAfterCommit_eq :
    store.releaseAfterCommit commit = { store with
      sessionExecutionLeases := (store.releaseAfterCommit commit).sessionExecutionLeases } := by
  obtain ⟨leases, hleases⟩ := releaseAfterCommit_frame store commit
  rw [hleases]

theorem tryClaimSessionExecutionLease_frame (sessionId : String)
    (owner : LeaseOwnerIdentity) (leaseTtlMs : Nat) :
    ∃ leases, (store.tryClaimSessionExecutionLease host sessionId owner leaseTtlMs).2 =
      { store with sessionExecutionLeases := leases } := by
  unfold tryClaimSessionExecutionLease
  dsimp only
  split
  · split
    · exact ⟨_, rfl⟩
    · exact ⟨_, rfl⟩
  · exact ⟨_, rfl⟩

theorem reclaimSessionExecutionLease_frame (sessionId : String)
    (owner : LeaseOwnerIdentity) (observed : SessionExecutionLeaseFence) (leaseTtlMs : Nat) :
    ∃ leases, (store.reclaimSessionExecutionLease host sessionId owner observed
      leaseTtlMs).2 = { store with sessionExecutionLeases := leases } := by
  unfold reclaimSessionExecutionLease
  dsimp only
  split
  · split
    · exact ⟨_, rfl⟩
    · exact ⟨_, rfl⟩
  · exact ⟨_, rfl⟩

theorem renewSessionExecutionLease_frame (fence : SessionExecutionLeaseFence) (leaseTtlMs : Nat) :
    ∃ leases, (store.renewSessionExecutionLease host fence leaseTtlMs).2 =
      { store with sessionExecutionLeases := leases } := by
  unfold renewSessionExecutionLease
  dsimp only
  split
  · exact ⟨_, rfl⟩
  · split
    · exact ⟨_, rfl⟩
    · exact ⟨_, rfl⟩

end Leases

section Commits

/-- The checks a commit makes before it touches a completion. -/
def PassesFront (host : Host) (commit : RuntimeCommit Json)
    (store : InMemorySessionStore Json) : Prop :=
  commit.checkBinding store.sessionHeadMeta = .ok () ∧
    commit.findReplay store.runtimeTurnCommits = .ok none ∧
    store.checkLease host commit = .ok () ∧
    commit.checkHeadRevision store.headRevision = .ok ()

instance (host : Host) (commit : RuntimeCommit Json) (store : InMemorySessionStore Json)
    [DecidableEq Json] : Decidable (PassesFront host commit store) :=
  inferInstanceAs (Decidable (_ ∧ _ ∧ _ ∧ _))

/-- The five ways in which a commit ends. -/
inductive CommitOutcome (host : Host) (commit : RuntimeCommit Json)
    (store : InMemorySessionStore Json) : Outcome Json (RuntimeCommitResult Json) → Prop
  | rejected (e : StoreError) (front : ¬ PassesFront host commit store) :
      CommitOutcome host commit store (.error e, store)
  | replayed (result : RuntimeCommitResult Json)
      (bound : commit.checkBinding store.sessionHeadMeta = .ok ())
      (stored : commit.findReplay store.runtimeTurnCommits = .ok (some result)) :
      CommitOutcome host commit store (.ok result, store.releaseAfterCommit commit)
  | queueExpired (e : StoreError) (front : PassesFront host commit store)
      (fails : ¬ queueScheme.Settles commit.completedQueueClaims store.queuedWork) :
      CommitOutcome host commit store (.error e,
        { store with
          queuedWork := (completeQueueClaims commit.completedQueueClaims store.queuedWork).2 })
  | inputsExpired (e : StoreError) (front : PassesFront host commit store)
      (queue : queueScheme.Settles commit.completedQueueClaims store.queuedWork)
      (fails : ¬ turnInputScheme.Settles commit.completedTurnInputClaims
        store.pendingTurnInputs) :
      CommitOutcome host commit store (.error e,
        { store with
          queuedWork := queueScheme.remaining commit.completedQueueClaims store.queuedWork
          pendingTurnInputs := (completeTurnInputClaims commit.completedTurnInputClaims
            store.pendingTurnInputs).2 })
  | applied (front : PassesFront host commit store)
      (queue : queueScheme.Settles commit.completedQueueClaims store.queuedWork)
      (inputs : turnInputScheme.Settles commit.completedTurnInputClaims
        store.pendingTurnInputs) :
      CommitOutcome host commit store (.ok (store.commitResult commit),
        (store.writeCommit commit
          (queueScheme.remaining commit.completedQueueClaims store.queuedWork)
          (turnInputScheme.remaining commit.completedTurnInputClaims
            store.pendingTurnInputs)).releaseAfterCommit commit)

theorem commitRuntimeState_outcome (host : Host) (store : InMemorySessionStore Json)
    (commit : RuntimeCommit Json) :
    CommitOutcome host commit store (store.commitRuntimeState host commit) := by
  unfold commitRuntimeState
  cases hbind : commit.checkBinding store.sessionHeadMeta with
  | error e => exact .rejected e fun front => by simp [PassesFront, hbind] at front
  | ok _ =>
    cases hreplay : commit.findReplay store.runtimeTurnCommits with
    | error e => exact .rejected e fun front => by simp [PassesFront, hreplay] at front
    | ok stored =>
      cases stored with
      | some result => exact .replayed result hbind hreplay
      | none =>
        cases hlease : store.checkLease host commit with
        | error e =>
          exact .rejected e fun front => by simp [PassesFront, hlease] at front
        | ok _ =>
          cases hrev : commit.checkHeadRevision store.headRevision with
          | error e =>
            exact .rejected e fun front => by simp [PassesFront, hrev] at front
          | ok _ =>
            have front : PassesFront host commit store := ⟨hbind, hreplay, hlease, hrev⟩
            dsimp only
            by_cases queue : queueScheme.Settles commit.completedQueueClaims
              store.queuedWork
            · rw [completeQueueClaims, ClaimScheme.settle_of_settles queue]
              dsimp only
              by_cases inputs : turnInputScheme.Settles
                commit.completedTurnInputClaims store.pendingTurnInputs
              · rw [completeTurnInputClaims, ClaimScheme.settle_of_settles inputs]
                exact .applied front queue inputs
              · obtain ⟨_, c, _, _, _, _, hrun⟩ := ClaimScheme.settle_error
                  TurnInputCompletion.expired inputs
                have hend := CommitOutcome.inputsExpired
                  (TurnInputCompletion.expired c) front queue inputs
                rw [completeTurnInputClaims, hrun] at hend ⊢
                exact hend
            · obtain ⟨_, c, _, _, _, _, hrun⟩ := ClaimScheme.settle_error
                QueuedWorkCompletion.expired queue
              have hend := CommitOutcome.queueExpired
                (QueuedWorkCompletion.expired c) front queue
              rw [completeQueueClaims, hrun] at hend ⊢
              exact hend

end Commits

section Areas

/-- The part of the store that a call is about. -/
inductive Area where
  | commits | leases | turnInputs | queue | graph
  deriving DecidableEq

def areaOf : Op Json → Area
  | .commitRuntimeState _ => .commits
  | .tryClaimSessionExecutionLease _ _ _ => .leases
  | .reclaimSessionExecutionLease _ _ _ _ => .leases
  | .renewSessionExecutionLease _ _ => .leases
  | .releaseSessionExecutionLease _ => .leases
  | .enqueuePendingTurnInput _ => .turnInputs
  | .cancelPendingTurnInput _ _ => .turnInputs
  | .claimActiveTurnInputs _ _ _ _ _ _ _ => .turnInputs
  | .claimNextTurnInputs _ _ _ _ _ => .turnInputs
  | .abandonTurnInputClaim _ => .turnInputs
  | .enqueueQueuedWork _ => .queue
  | .claimLeadingReadySessionCommand _ _ _ _ => .queue
  | .claimReadyQueuedWork _ _ _ _ _ _ => .queue
  | .renewQueuedWorkClaim _ _ => .queue
  | .abandonQueuedWorkClaim _ => .queue
  | .cancelQueuedWorkBatch _ _ => .queue
  | .saveSessionMeta _ => .graph
  | .tombstoneNodes _ => .graph
  | .vacuum => .graph

/-- The stores that differ from `store` in one area at most. -/
def WithinArea (store : InMemorySessionStore Json) : Area → InMemorySessionStore Json → Prop
  | .commits, _ => True
  | .leases, after => ∃ leases, after = { store with sessionExecutionLeases := leases }
  | .turnInputs, after => ∃ pending nextSeq, after =
      { store with pendingTurnInputs := pending, pendingTurnInputNextSeq := nextSeq }
  | .queue, after => ∃ queued nextSeq, after =
      { store with queuedWork := queued, queuedWorkNextSeq := nextSeq }
  | .graph, after => ∃ record tombstoned graph, after =
      { store with
        sessionMeta := record
        tombstonedNodeIds := tombstoned
        sessionGraph := graph }

/-- No call reaches outside its area; only commits cross areas. -/
theorem step_withinArea (call : Host × Op Json) (store : InMemorySessionStore Json) :
    WithinArea store (areaOf call.2) (step call store).2 := by
  obtain ⟨host, op⟩ := call
  cases op with
  | commitRuntimeState commit => trivial
  | tryClaimSessionExecutionLease sessionId owner leaseTtlMs =>
    exact tryClaimSessionExecutionLease_frame store host sessionId owner leaseTtlMs
  | reclaimSessionExecutionLease sessionId owner observed leaseTtlMs =>
    exact reclaimSessionExecutionLease_frame store host sessionId owner observed leaseTtlMs
  | renewSessionExecutionLease fence leaseTtlMs =>
    exact renewSessionExecutionLease_frame store host fence leaseTtlMs
  | releaseSessionExecutionLease completion =>
    exact releaseSessionExecutionLeaseInMemory_frame store completion
  | enqueuePendingTurnInput draft => exact enqueuePendingTurnInput_frame store host draft
  | cancelPendingTurnInput sessionId inputId =>
    obtain ⟨pending, h⟩ := cancelPendingTurnInput_frame store host sessionId inputId
    exact ⟨pending, _, h⟩
  | claimActiveTurnInputs sessionId fence owner turnId checkpoint leaseTtlMs maxInputs =>
    obtain ⟨pending, h⟩ := claimPendingTurnInputsInMemory_frame store host
      sessionId fence owner leaseTtlMs maxInputs
      (.activeTurn turnId checkpoint)
    exact ⟨pending, _, h⟩
  | claimNextTurnInputs sessionId fence owner leaseTtlMs maxInputs =>
    obtain ⟨pending, h⟩ := claimPendingTurnInputsInMemory_frame store host
      sessionId fence owner leaseTtlMs maxInputs .nextTurn
    exact ⟨pending, _, h⟩
  | abandonTurnInputClaim claim | abandonQueuedWorkClaim claim => exact ⟨_, _, rfl⟩
  | enqueueQueuedWork draft => exact enqueueQueuedWork_frame store host draft
  | claimLeadingReadySessionCommand sessionId fence owner leaseTtlMs =>
    obtain ⟨queued, h⟩ := claimReadyQueuedWorkInMemory_frame store host
      sessionId fence owner leaseTtlMs .leadingSessionCommand
    exact ⟨queued, _, h⟩
  | claimReadyQueuedWork sessionId fence owner boundary leaseTtlMs maxBatches =>
    obtain ⟨queued, h⟩ := claimReadyQueuedWorkInMemory_frame store host
      sessionId fence owner leaseTtlMs (.turnWork boundary maxBatches)
    exact ⟨queued, _, h⟩
  | renewQueuedWorkClaim claim leaseTtlMs =>
    obtain ⟨queued, h⟩ := renewQueuedWorkClaim_frame store host claim leaseTtlMs
    exact ⟨queued, _, h⟩
  | cancelQueuedWorkBatch sessionId batchId =>
    obtain ⟨queued, h⟩ := cancelQueuedWorkBatch_frame store host sessionId batchId
    exact ⟨queued, _, h⟩
  | saveSessionMeta record | tombstoneNodes ids => exact ⟨_, _, _, rfl⟩
  | vacuum =>
    simp only [areaOf, WithinArea, step, Prod.map_snd, id_eq, vacuum]
    split
    · exact ⟨_, _, _, rfl⟩
    · exact ⟨_, _, _, rfl⟩

variable {call : Host × Op Json}

/-- What a call of an area leaves alone. The head and the turn-commit ledger belong to commits
alone. -/
structure Keeps (area : Area) (store after : InMemorySessionStore Json) : Prop where
  head : after.sessionHeadMeta = store.sessionHeadMeta ∧
    after.runtimeTurnCommits = store.runtimeTurnCommits
  leases (other : area ≠ .leases) : after.sessionExecutionLeases = store.sessionExecutionLeases
  queue (other : area ≠ .queue) : after.queuedWork = store.queuedWork ∧
    after.queuedWorkNextSeq = store.queuedWorkNextSeq
  turnInputs (other : area ≠ .turnInputs) : after.pendingTurnInputs = store.pendingTurnInputs ∧
    after.pendingTurnInputNextSeq = store.pendingTurnInputNextSeq

theorem step_keeps (other : areaOf call.2 ≠ .commits) :
    Keeps (areaOf call.2) store (step call store).2 := by
  have hwithin := step_withinArea call store
  cases harea : areaOf call.2 with
  | commits => exact absurd harea other
  | leases =>
    rw [harea] at hwithin
    obtain ⟨_, h⟩ := hwithin
    rw [h]
    exact ⟨⟨rfl, rfl⟩, absurd rfl, fun _ => ⟨rfl, rfl⟩, fun _ => ⟨rfl, rfl⟩⟩
  | turnInputs =>
    rw [harea] at hwithin
    obtain ⟨_, _, h⟩ := hwithin
    rw [h]
    exact ⟨⟨rfl, rfl⟩, fun _ => rfl, fun _ => ⟨rfl, rfl⟩, absurd rfl⟩
  | queue =>
    rw [harea] at hwithin
    obtain ⟨_, _, h⟩ := hwithin
    rw [h]
    exact ⟨⟨rfl, rfl⟩, fun _ => rfl, absurd rfl, fun _ => ⟨rfl, rfl⟩⟩
  | graph =>
    rw [harea] at hwithin
    obtain ⟨_, _, _, h⟩ := hwithin
    rw [h]
    exact ⟨⟨rfl, rfl⟩, fun _ => rfl, fun _ => ⟨rfl, rfl⟩, fun _ => ⟨rfl, rfl⟩⟩

theorem areaOf_eq_commits {op : Op Json} (h : areaOf op = .commits) :
    ∃ commit, op = .commitRuntimeState commit := by
  cases op with
  | commitRuntimeState commit => exact ⟨commit, rfl⟩
  | _ => simp [areaOf] at h

end Areas

end StoreSteps
