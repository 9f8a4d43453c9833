import Lash.ClaimTables
import Lash.RuntimeCommits
import Lash.Runs

/-!
# The in-memory session store

Each operation takes the host's view at the time of the call and the store, and
returns the answer of the call together with the store it leaves behind, also
when the answer is an error. Maps are functions to `Option`, the tombstones a
finite set. A call reads the clock once.
-/

namespace InMemoryStore

open StoreTypes SessionGraphs QueuedWork TurnInputs RuntimeCommits ClaimTables

variable {Json : Type}

structure InMemoryQueuedBatch (Json : Type) extends ClaimStamp where
  batch : QueuedWorkBatch Json

structure InMemoryPendingTurnInput (Json : Type) extends ClaimStamp where
  input : PendingTurnInput Json

/-- The row of a batch that was just enqueued. -/
def InMemoryQueuedBatch.fresh (batch : QueuedWorkBatch Json) : InMemoryQueuedBatch Json where
  toClaimStamp := .unclaimed
  batch := batch

def InMemoryPendingTurnInput.fresh (input : PendingTurnInput Json) :
    InMemoryPendingTurnInput Json where
  toClaimStamp := .unclaimed
  input := input

/-- The lease row of one session. A lease token is only stored with an owner. -/
structure InMemorySessionExecutionLease where
  owner : Option LeaseOwnerIdentity
  leaseToken : Option String
  fencingToken : Nat
  claimedAtEpochMs : Nat
  expiresAtEpochMs : Nat
  owned : leaseToken.isSome → owner.isSome

def InMemorySessionExecutionLease.default : InMemorySessionExecutionLease where
  owner := none
  leaseToken := none
  fencingToken := 0
  claimedAtEpochMs := 0
  expiresAtEpochMs := 0
  owned := id

structure InMemorySessionStore (Json : Type) where
  sessionHeadMeta : Option (SessionHeadMeta Json)
  sessionMeta : Option (SessionMeta Json)
  sessionGraph : SessionGraph Json
  tombstonedNodeIds : Finset String
  checkpoint : Option (HydratedSessionCheckpoint Json)
  usageDeltas : List TokenLedgerEntry
  runtimeCommitCount : Nat
  runtimeTurnCommits : TurnCommitLedger Json
  sessionExecutionLeases : String → Option InMemorySessionExecutionLease
  queuedWork : List (InMemoryQueuedBatch Json)
  queuedWorkNextSeq : Nat
  pendingTurnInputs : List (InMemoryPendingTurnInput Json)
  pendingTurnInputNextSeq : Nat

def InMemorySessionStore.new : InMemorySessionStore Json where
  sessionHeadMeta := none
  sessionMeta := none
  sessionGraph := SessionGraph.default
  tombstonedNodeIds := ∅
  checkpoint := none
  usageDeltas := []
  runtimeCommitCount := 0
  runtimeTurnCommits := fun _ => none
  sessionExecutionLeases := fun _ => none
  queuedWork := []
  queuedWorkNextSeq := 0
  pendingTurnInputs := []
  pendingTurnInputNextSeq := 0

/-- What an operation answers, and the store after it. -/
abbrev Outcome (Json A : Type) := Except StoreError A × InMemorySessionStore Json

section Leases

def InMemorySessionExecutionLease.isLive (lease : InMemorySessionExecutionLease)
    (now : Nat) : Bool :=
  lease.leaseToken.isSome && decide (now < lease.expiresAtEpochMs)

variable (current : InMemorySessionExecutionLease)

/-- The row's owner, lease token and fencing token are the fence's. -/
def InMemorySessionExecutionLease.carries (fence : SessionExecutionLeaseFence) : Bool :=
  current.owner.any (·.sameIncarnation fence.owner) &&
    current.leaseToken == some fence.leaseToken &&
    current.fencingToken == fence.fencingToken

def InMemorySessionStore.verifySessionExecutionLease (host : Host) (sessionId : String)
    (fence : SessionExecutionLeaseFence) (store : InMemorySessionStore Json) :
    Except StoreError Unit :=
  if fence.sessionId ≠ sessionId then .error (.sessionExecutionLeaseExpired sessionId)
  else
    match store.sessionExecutionLeases fence.sessionId with
    | none => .error (.sessionExecutionLeaseExpired fence.sessionId)
    | some current =>
      if current.carries fence && decide (host.timestampMs < current.expiresAtEpochMs) then
        .ok ()
      else .error (.sessionExecutionLeaseExpired fence.sessionId)

def InMemorySessionExecutionLease.released : InMemorySessionExecutionLease where
  owner := none
  leaseToken := none
  fencingToken := current.fencingToken
  claimedAtEpochMs := 0
  expiresAtEpochMs := 0
  owned := id

def InMemorySessionStore.setLease (store : InMemorySessionStore Json) (sessionId : String)
    (lease : InMemorySessionExecutionLease) : InMemorySessionStore Json :=
  { store with
    sessionExecutionLeases :=
      Function.update store.sessionExecutionLeases sessionId (some lease) }

variable (completion : SessionExecutionLeaseCompletion)

def InMemorySessionStore.releaseSessionExecutionLeaseInMemory (store : InMemorySessionStore Json) :
    InMemorySessionStore Json :=
  match store.sessionExecutionLeases completion.sessionId with
  | none => store
  | some current =>
    if current.carries completion then
      store.setLease completion.sessionId current.released
    else store

def inMemorySessionExecutionLease (sessionId : String)
    (current : InMemorySessionExecutionLease) (held : current.leaseToken.isSome) :
    SessionExecutionLease where
  sessionId := sessionId
  owner := current.owner.get (current.owned held)
  leaseToken := current.leaseToken.get held
  fencingToken := current.fencingToken
  claimedAtEpochMs := current.claimedAtEpochMs
  expiresAtEpochMs := current.expiresAtEpochMs

def sessionLeaseToken (sessionId : String) (owner : LeaseOwnerIdentity)
    (now fencingToken : Nat) : String :=
  s!"{sessionId}:{owner.ownerId}:{owner.incarnationId}:{now}:{fencingToken}"

/-- The row after a fresh acquisition: the next fencing token, a new owner. -/
def InMemorySessionExecutionLease.acquired (sessionId : String) (owner : LeaseOwnerIdentity)
    (now leaseTtlMs : Nat) : InMemorySessionExecutionLease :=
  let fencingToken := saturatingAdd current.fencingToken 1
  { owner := some owner
    leaseToken := some (sessionLeaseToken sessionId owner now fencingToken)
    fencingToken := fencingToken
    claimedAtEpochMs := now
    expiresAtEpochMs := saturatingAdd now leaseTtlMs
    owned := fun _ => rfl }

def InMemorySessionStore.acquireSessionExecutionLeaseInMemory (sessionId : String)
    (owner : LeaseOwnerIdentity) (current : InMemorySessionExecutionLease)
    (now leaseTtlMs : Nat) (store : InMemorySessionStore Json) :
    SessionExecutionLease × InMemorySessionStore Json :=
  let acquired := current.acquired sessionId owner now leaseTtlMs
  (inMemorySessionExecutionLease sessionId acquired (by
      simp [acquired, InMemorySessionExecutionLease.acquired]),
    store.setLease sessionId acquired)

/-- The row of a session, created empty on first use. -/
def InMemorySessionStore.leaseEntry (store : InMemorySessionStore Json)
    (sessionId : String) : InMemorySessionExecutionLease :=
  (store.sessionExecutionLeases sessionId).getD .default

theorem InMemorySessionExecutionLease.isSome_of_isLive
    {lease : InMemorySessionExecutionLease} {now : Nat} (live : lease.isLive now = true) :
    lease.leaseToken.isSome := by
  simp only [InMemorySessionExecutionLease.isLive, Bool.and_eq_true] at live
  exact live.1

def InMemorySessionStore.tryClaimSessionExecutionLease (host : Host) (sessionId : String)
    (owner : LeaseOwnerIdentity) (leaseTtlMs : Nat) (store : InMemorySessionStore Json) :
    Outcome Json SessionExecutionLeaseClaimOutcome :=
  let now := host.timestampMs
  let current := store.leaseEntry sessionId
  if live : current.isLive now then
    have held := InMemorySessionExecutionLease.isSome_of_isLive live
    if current.owner.any (·.sameIncarnation owner) then
      let renewed := { current with expiresAtEpochMs := saturatingAdd now leaseTtlMs }
      (.ok (.acquired (inMemorySessionExecutionLease sessionId renewed held)),
        store.setLease sessionId renewed)
    else
      (.ok (.busy (inMemorySessionExecutionLease sessionId current held)), store)
  else
    let (lease, store) :=
      store.acquireSessionExecutionLeaseInMemory sessionId owner current now leaseTtlMs
    (.ok (.acquired lease), store)

def InMemorySessionStore.reclaimSessionExecutionLease (host : Host) (sessionId : String)
    (owner : LeaseOwnerIdentity) (observedHolder : SessionExecutionLeaseFence)
    (leaseTtlMs : Nat) (store : InMemorySessionStore Json) :
    Outcome Json SessionExecutionLeaseClaimOutcome :=
  let now := host.timestampMs
  let current := store.leaseEntry sessionId
  if live : current.isLive now then
    let holder := inMemorySessionExecutionLease sessionId current
      (InMemorySessionExecutionLease.isSome_of_isLive live)
    if observedHolder.sessionId = sessionId ∧
        holder.owner.sameIncarnation observedHolder.owner ∧
        holder.leaseToken = observedHolder.leaseToken ∧
        holder.fencingToken = observedHolder.fencingToken ∧
        holder.owner.isDefinitelyDeadForClaimant host owner then
      let (lease, store) :=
        store.acquireSessionExecutionLeaseInMemory sessionId owner current now leaseTtlMs
      (.ok (.acquired lease), store)
    else (.ok (.busy holder), store)
  else
    let (lease, store) :=
      store.acquireSessionExecutionLeaseInMemory sessionId owner current now leaseTtlMs
    (.ok (.acquired lease), store)

def InMemorySessionStore.renewSessionExecutionLease (host : Host)
    (fence : SessionExecutionLeaseFence) (leaseTtlMs : Nat)
    (store : InMemorySessionStore Json) : Outcome Json SessionExecutionLease :=
  let now := host.timestampMs
  match store.sessionExecutionLeases fence.sessionId with
  | none => (.error (.sessionExecutionLeaseExpired fence.sessionId), store)
  | some current =>
    if current.carries fence && decide (now < current.expiresAtEpochMs) then
      let renewed := { current with expiresAtEpochMs := saturatingAdd now leaseTtlMs }
      (.ok
        { sessionId := fence.sessionId
          owner := fence.owner
          leaseToken := fence.leaseToken
          fencingToken := fence.fencingToken
          claimedAtEpochMs := renewed.claimedAtEpochMs
          expiresAtEpochMs := renewed.expiresAtEpochMs },
        store.setLease fence.sessionId renewed)
    else (.error (.sessionExecutionLeaseExpired fence.sessionId), store)

def InMemorySessionStore.releaseSessionExecutionLease (store : InMemorySessionStore Json) :
    Outcome Json Unit :=
  (.ok (), store.releaseSessionExecutionLeaseInMemory completion)

end Leases

section Claims

def enqueueOrder (a b : InMemoryQueuedBatch Json) : Prop :=
  a.batch.enqueueSeq ≤ b.batch.enqueueSeq

instance : DecidableRel (@enqueueOrder Json) :=
  fun _ _ => inferInstanceAs (Decidable (_ ≤ _))

def turnInputOrder (a b : InMemoryPendingTurnInput Json) : Prop :=
  a.input.enqueueSeq ≤ b.input.enqueueSeq

instance : DecidableRel (@turnInputOrder Json) :=
  fun _ _ => inferInstanceAs (Decidable (_ ≤ _))

def queuedBatchWorkClass (batch : QueuedWorkBatch Json) :
    Except StoreError QueuedWorkClass :=
  match batch.workClass with
  | some workClass => .ok workClass
  | none =>
    .error (.backend
      s!"queued-work batch `{batch.batchId}` has mixed or empty payload classes")

def claimCandidate (entry : InMemoryQueuedBatch Json) : Except StoreError ClaimCandidate :=
  (queuedBatchWorkClass entry.batch).map fun workClass =>
    { enqueueSeq := entry.batch.enqueueSeq
      claimFencingToken := entry.claimFencingToken
      workClass := workClass
      deliveryPolicy := entry.batch.deliveryPolicy
      slotPolicy := entry.batch.slotPolicy
      mergeKey := entry.batch.mergeKey }

variable (host : Host)

variable (sessionId : String)

variable (owner : LeaseOwnerIdentity)

/-- Whether a claim for this session and owner may take the batch now. -/
def InMemoryQueuedBatch.claimable (entry : InMemoryQueuedBatch Json) : Bool :=
  entry.batch.sessionId == sessionId &&
    decide (entry.batch.availableAtMs ≤ host.timestampMs) &&
    entry.toClaimStamp.available host owner

def claimLeaseToken (claimId : String) (now : Nat) : String :=
  s!"{sessionId}:{owner.ownerId}:{owner.incarnationId}:{claimId}:{now}"

def queuedWorkClaimId (enqueueSeq fencingToken : Nat) : String :=
  s!"recording-qwc:{enqueueSeq}:{fencingToken}"

def turnInputClaimId (enqueueSeq fencingToken : Nat) : String :=
  s!"recording-tic:{enqueueSeq}:{fencingToken}"

def InMemoryQueuedBatch.stamp (claim : QueuedWorkClaim Json)
    (entry : InMemoryQueuedBatch Json) : InMemoryQueuedBatch Json :=
  { entry with
    toClaimStamp := entry.toClaimStamp.claimed claim.claimId claim.leaseToken claim.owner
      claim.expiresAtEpochMs }

/-- The claim over the selected batches, the first of which is `head`. -/
def newQueuedWorkClaim (leaseTtlMs : Nat) (head : InMemoryQueuedBatch Json)
    (selected : List (InMemoryQueuedBatch Json)) : QueuedWorkClaim Json :=
  let now := host.timestampMs
  let fencingToken := saturatingAdd head.claimFencingToken 1
  let claimId := queuedWorkClaimId head.batch.enqueueSeq fencingToken
  { sessionId := sessionId
    claimId := claimId
    owner := owner
    leaseToken := claimLeaseToken sessionId owner claimId now
    fencingToken := fencingToken
    claimedAtEpochMs := now
    expiresAtEpochMs := saturatingAdd now leaseTtlMs
    batches := selected.map (·.batch) }

variable (sessionExecutionLease : SessionExecutionLeaseFence)

def InMemorySessionStore.claimReadyQueuedWorkInMemory (owner : LeaseOwnerIdentity)
    (leaseTtlMs : Nat) (kind : QueuedWorkClaimKind) (store : InMemorySessionStore Json) :
    Outcome Json (Option (QueuedWorkClaim Json)) :=
  if kind.maxBatches = 0 then (.ok none, store)
  else
    match store.verifySessionExecutionLease host sessionId sessionExecutionLease with
    | .error e => (.error e, store)
    | .ok () =>
      let queued := store.queuedWork.insertionSort enqueueOrder
      let store := { store with queuedWork := queued }
      let claimable := InMemoryQueuedBatch.claimable host sessionId owner
      match queued.filter claimable with
      | [] => (.ok none, store)
      | head :: rest =>
        match (head :: rest).mapM claimCandidate with
        | .error e => (.error e, store)
        | .ok candidates =>
          let selectedLen := kind.select candidates
          if selectedLen = 0 then (.ok none, store)
          else
            let claim := newQueuedWorkClaim host sessionId owner leaseTtlMs head
              ((head :: rest).take selectedLen)
            (.ok (some claim),
              { store with
                queuedWork := updateFirst claimable (.stamp claim) selectedLen queued })

def InMemorySessionStore.claimLeadingReadySessionCommand (owner : LeaseOwnerIdentity)
    (leaseTtlMs : Nat) (store : InMemorySessionStore Json) :
    Outcome Json (Option (QueuedWorkClaim Json)) :=
  store.claimReadyQueuedWorkInMemory host sessionId sessionExecutionLease owner leaseTtlMs
    .leadingSessionCommand

def InMemorySessionStore.claimReadyQueuedWork (owner : LeaseOwnerIdentity)
    (boundary : QueuedWorkClaimBoundary) (leaseTtlMs maxBatches : Nat)
    (store : InMemorySessionStore Json) : Outcome Json (Option (QueuedWorkClaim Json)) :=
  store.claimReadyQueuedWorkInMemory host sessionId sessionExecutionLease owner leaseTtlMs
    (.turnWork boundary maxBatches)

def InMemoryPendingTurnInput.claimable (mode : TurnInputClaimMode)
    (entry : InMemoryPendingTurnInput Json) : Bool :=
  entry.input.sessionId == sessionId && entry.toClaimStamp.available host owner &&
    mode.wants entry.input

def InMemoryPendingTurnInput.stamp (claimId leaseToken : String)
    (owner : LeaseOwnerIdentity) (expiresAt : Nat) (mode : TurnInputClaimMode)
    (entry : InMemoryPendingTurnInput Json) : InMemoryPendingTurnInput Json where
  toClaimStamp := entry.toClaimStamp.claimed claimId leaseToken owner expiresAt
  input := { entry.input with state := mode.claimedState entry.input.state }

def InMemorySessionStore.claimPendingTurnInputsInMemory (owner : LeaseOwnerIdentity)
    (leaseTtlMs maxInputs : Nat) (mode : TurnInputClaimMode) (store : InMemorySessionStore Json) :
    Outcome Json (Option (TurnInputClaim Json)) :=
  if maxInputs = 0 then (.ok none, store)
  else
    match store.verifySessionExecutionLease host sessionId sessionExecutionLease with
    | .error e => (.error e, store)
    | .ok () =>
      let now := host.timestampMs
      let pending := store.pendingTurnInputs.insertionSort turnInputOrder
      let store := { store with pendingTurnInputs := pending }
      let claimable := InMemoryPendingTurnInput.claimable host sessionId owner mode
      match (pending.filter claimable).take maxInputs with
      | [] => (.ok none, store)
      | first :: rest =>
        let fencingToken := saturatingAdd first.claimFencingToken 1
        let claimId := turnInputClaimId first.input.enqueueSeq fencingToken
        let leaseToken := claimLeaseToken sessionId owner claimId now
        let expiresAt := saturatingAdd now leaseTtlMs
        let stamp := InMemoryPendingTurnInput.stamp claimId leaseToken owner expiresAt mode
        (.ok (some
          { sessionId := sessionId
            claimId := claimId
            owner := owner
            leaseToken := leaseToken
            fencingToken := fencingToken
            claimedAtEpochMs := now
            expiresAtEpochMs := expiresAt
            mode := mode
            inputs := (first :: rest).map fun entry => (stamp entry).input }),
          { store with
            pendingTurnInputs := updateFirst claimable stamp maxInputs pending })

def InMemorySessionStore.claimActiveTurnInputs (owner : LeaseOwnerIdentity) (turnId : String)
    (checkpoint : CheckpointKind) (leaseTtlMs maxInputs : Nat) (store : InMemorySessionStore Json) :
    Outcome Json (Option (TurnInputClaim Json)) :=
  store.claimPendingTurnInputsInMemory host sessionId sessionExecutionLease owner leaseTtlMs
    maxInputs (.activeTurn turnId checkpoint)

def InMemorySessionStore.claimNextTurnInputs (owner : LeaseOwnerIdentity)
    (leaseTtlMs maxInputs : Nat) (store : InMemorySessionStore Json) :
    Outcome Json (Option (TurnInputClaim Json)) :=
  store.claimPendingTurnInputsInMemory host sessionId sessionExecutionLease owner leaseTtlMs
    maxInputs .nextTurn

end Claims

section QueuedWorkOperations

def queuedWorkBatchId (enqueueSeq : Nat) : String := s!"recording-qwb-{enqueueSeq}"

/-- A draft whose source key is still queued is answered with that batch. -/
def InMemorySessionStore.enqueueQueuedWork (host : Host) (draft : QueuedWorkBatchDraft Json)
    (store : InMemorySessionStore Json) : Outcome Json (QueuedWorkBatch Json) :=
  match store.queuedWork.find? fun entry => draft.sameSource entry.batch with
  | some existing => (.ok existing.batch, store)
  | none =>
    let nextSeq := saturatingAdd store.queuedWorkNextSeq 1
    let stored := draft.stored (queuedWorkBatchId nextSeq) nextSeq host.timestampMs
    (.ok stored,
      { store with
        queuedWorkNextSeq := nextSeq
        queuedWork :=
          (store.queuedWork ++ [InMemoryQueuedBatch.fresh stored]).insertionSort enqueueOrder })

/-- The row belongs to the claim's session and carries its id and token. -/
def InMemoryQueuedBatch.claimedBy (sessionId claimId leaseToken : String)
    (entry : InMemoryQueuedBatch Json) : Bool :=
  entry.batch.sessionId == sessionId && entry.toClaimStamp.heldBy claimId leaseToken

/-- The new expiry is written row by row, and the rows are counted after. -/
def InMemorySessionStore.renewQueuedWorkClaim (host : Host) (claim : QueuedWorkClaim Json)
    (leaseTtlMs : Nat) (store : InMemorySessionStore Json) :
    Outcome Json (QueuedWorkClaim Json) :=
  let expiresAt := saturatingAdd host.timestampMs leaseTtlMs
  let claimed := InMemoryQueuedBatch.claimedBy claim.sessionId claim.claimId claim.leaseToken
  let changed := store.queuedWork.countP claimed
  let store := { store with
    queuedWork := store.queuedWork.map fun entry =>
      if claimed entry then { entry with toClaimStamp := entry.toClaimStamp.renewed expiresAt }
      else entry }
  if changed ≠ claim.batches.length then
    (.error (.queuedWorkClaimExpired claim.sessionId claim.claimId), store)
  else (.ok { claim with expiresAtEpochMs := expiresAt }, store)

def InMemorySessionStore.abandonQueuedWorkClaim (claim : QueuedWorkClaim Json)
    (store : InMemorySessionStore Json) : Outcome Json Unit :=
  let claimed := InMemoryQueuedBatch.claimedBy claim.sessionId claim.claimId claim.leaseToken
  (.ok (), { store with
    queuedWork := store.queuedWork.map fun entry =>
      if claimed entry then { entry with toClaimStamp := entry.toClaimStamp.cleared }
      else entry })

def InMemorySessionStore.cancelQueuedWorkBatch (host : Host) (sessionId batchId : String)
    (store : InMemorySessionStore Json) : Outcome Json (Option (QueuedWorkBatch Json)) :=
  let named := fun entry : InMemoryQueuedBatch Json =>
    entry.batch.sessionId == sessionId && entry.batch.batchId == batchId
  match store.queuedWork.find? named with
  | none => (.ok none, store)
  | some entry =>
    if entry.toClaimStamp.liveAt host.timestampMs then (.ok none, store)
    else
      (.ok (some entry.batch), { store with queuedWork := store.queuedWork.eraseP named })

end QueuedWorkOperations

section TurnInputOperations

def InMemorySessionStore.enqueuePendingTurnInput (host : Host)
    (draft : PendingTurnInputDraft Json) (store : InMemorySessionStore Json) :
    Outcome Json (PendingTurnInput Json) :=
  let existing := store.pendingTurnInputs.find? fun entry =>
    draft.sourceKey.isSome && entry.input.sessionId == draft.sessionId &&
      entry.input.sourceKey == draft.sourceKey &&
      !(entry.input.state == .cancelled || entry.input.state == .completed)
  match existing with
  | some existing => (.ok existing.input, store)
  | none =>
    let nextSeq := saturatingAdd store.pendingTurnInputNextSeq 1
    let stored := draft.stored (draft.inputId.getD s!"recording-ti-{nextSeq}") nextSeq
      host.timestampMs
    (.ok stored,
      { store with
        pendingTurnInputNextSeq := nextSeq
        pendingTurnInputs :=
          (store.pendingTurnInputs ++ [InMemoryPendingTurnInput.fresh stored]).insertionSort
            turnInputOrder })

def InMemorySessionStore.cancelPendingTurnInput (host : Host) (sessionId inputId : String)
    (store : InMemorySessionStore Json) : Outcome Json (Option (PendingTurnInput Json)) :=
  let named := fun entry : InMemoryPendingTurnInput Json =>
    entry.input.sessionId == sessionId && entry.input.inputId == inputId
  match store.pendingTurnInputs.find? named with
  | none => (.ok none, store)
  | some entry =>
    if entry.toClaimStamp.liveAt host.timestampMs then (.ok none, store)
    else
      (.ok (some entry.input),
        { store with pendingTurnInputs := store.pendingTurnInputs.eraseP named })

def InMemoryPendingTurnInput.claimedBy (sessionId claimId leaseToken : String)
    (entry : InMemoryPendingTurnInput Json) : Bool :=
  entry.input.sessionId == sessionId && entry.toClaimStamp.heldBy claimId leaseToken

def InMemoryPendingTurnInput.abandon (mode : TurnInputClaimMode)
    (entry : InMemoryPendingTurnInput Json) : InMemoryPendingTurnInput Json where
  toClaimStamp := entry.toClaimStamp.cleared
  input := { entry.input with state := mode.abandonedState entry.input.state }

def InMemorySessionStore.abandonTurnInputClaim (claim : TurnInputClaim Json)
    (store : InMemorySessionStore Json) : Outcome Json Unit :=
  let claimed :=
    InMemoryPendingTurnInput.claimedBy claim.sessionId claim.claimId claim.leaseToken
  (.ok (), { store with
    pendingTurnInputs := store.pendingTurnInputs.map fun entry =>
      if claimed entry then entry.abandon claim.mode else entry })

end TurnInputOperations

section Commits

/-- Completions of queued-work claims over the queue's rows. -/
def queueScheme : ClaimScheme (InMemoryQueuedBatch Json) QueuedWorkCompletion String where
  key entry := entry.batch.batchId
  holds completed entry :=
    entry.claimedBy completed.sessionId completed.claimId completed.leaseToken
  names := QueuedWorkCompletion.batchIds

/-- Completions of turn-input claims over the pending inputs. -/
def turnInputScheme : ClaimScheme (InMemoryPendingTurnInput Json) TurnInputCompletion String where
  key entry := entry.input.inputId
  holds completed entry :=
    entry.claimedBy completed.sessionId completed.claimId completed.leaseToken
  names := TurnInputCompletion.inputIds

def QueuedWorkCompletion.expired (completed : QueuedWorkCompletion) : StoreError :=
  .queuedWorkClaimExpired completed.sessionId completed.claimId

def TurnInputCompletion.expired (completed : TurnInputCompletion) : StoreError :=
  .turnInputClaimExpired completed.sessionId completed.claimId

def completeQueueClaims (claims : List QueuedWorkCompletion)
    (queued : List (InMemoryQueuedBatch Json)) :
    Except StoreError Unit × List (InMemoryQueuedBatch Json) :=
  queueScheme.settle QueuedWorkCompletion.expired claims queued

def completeTurnInputClaims (claims : List TurnInputCompletion)
    (pending : List (InMemoryPendingTurnInput Json)) :
    Except StoreError Unit × List (InMemoryPendingTurnInput Json) :=
  turnInputScheme.settle TurnInputCompletion.expired claims pending

/-- An input that was still waiting for the interrupted turn waits for the next
turn instead. -/
def InMemoryPendingTurnInput.deferInterrupted (sessionId turnId : String)
    (entry : InMemoryPendingTurnInput Json) : InMemoryPendingTurnInput Json :=
  if entry.input.sessionId == sessionId && entry.input.state == .pendingActive &&
      entry.input.ingress.activeTurnId == some turnId then
    { toClaimStamp := entry.toClaimStamp.cleared
      input := { entry.input with state := .deferredNextTurn, ingress := .nextTurn } }
  else entry

variable (commit : RuntimeCommit Json)

def deferInterruptedTurnInputs (pending : List (InMemoryPendingTurnInput Json)) :
    List (InMemoryPendingTurnInput Json) :=
  match commit.interruptedTurnInputTurnId with
  | none => pending
  | some turnId => pending.map (·.deferInterrupted commit.sessionId turnId)

/-- The stored graph and the ids of the nodes that the delta writes. -/
def applyGraphDelta (delta : GraphCommitDelta Json) (graph : SessionGraph Json) :
    SessionGraph Json × List String :=
  match delta with
  | .unchanged _ => (graph, [])
  | .append nodes _ => (graph.extendNodeRecords nodes, nodes.map (·.nodeId))
  | .replaceFull next => (next, next.nodes.map (·.nodeId))

variable (store : InMemorySessionStore Json)

def InMemorySessionStore.headRevision : Nat :=
  headRevisionOf store.sessionHeadMeta

def InMemorySessionStore.commitResult : RuntimeCommitResult Json where
  headRevision := store.headRevision + 1
  checkpointRef := s!"recording-checkpoint-{store.headRevision + 1}"
  manifest := commit.checkpoint.manifest

def InMemorySessionStore.releaseAfterCommit : InMemorySessionStore Json :=
  match commit.releaseSessionExecutionLease with
  | none => store
  | some completion => store.releaseSessionExecutionLeaseInMemory completion

def InMemorySessionStore.checkLease (host : Host) (commit : RuntimeCommit Json)
    (store : InMemorySessionStore Json) : Except StoreError Unit :=
  match commit.sessionExecutionLease with
  | none => .error (.sessionExecutionLeaseExpired commit.sessionId)
  | some fence => store.verifySessionExecutionLease host commit.sessionId fence

/-- Everything a commit writes once its checks and completions have passed. -/
def InMemorySessionStore.writeCommit (queued : List (InMemoryQueuedBatch Json))
    (pending : List (InMemoryPendingTurnInput Json)) (store : InMemorySessionStore Json) :
    InMemorySessionStore Json :=
  let (graph, committedNodeIds) := applyGraphDelta commit.graph store.sessionGraph
  let result := store.commitResult commit
  { store with
    queuedWork := queued
    pendingTurnInputs := deferInterruptedTurnInputs commit pending
    sessionGraph := graph
    tombstonedNodeIds := store.tombstonedNodeIds \ committedNodeIds.toFinset
    usageDeltas := store.usageDeltas ++ commit.usageDeltas
    checkpoint := some commit.checkpoint
    sessionHeadMeta := some
      { sessionId := commit.sessionId
        headRevision := result.headRevision
        config := commit.config
        agentFrames := commit.agentFrames
        currentAgentFrameId := commit.currentAgentFrameId
        checkpointRef := some result.checkpointRef
        leafNodeId := commit.graph.leafNodeId
        graphNodeCount := graph.nodes.length
        tokenLedger := [] }
    runtimeCommitCount := store.runtimeCommitCount + 1
    runtimeTurnCommits := commit.recordTurn result store.runtimeTurnCommits }

def InMemorySessionStore.commitRuntimeState (host : Host) (commit : RuntimeCommit Json)
    (store : InMemorySessionStore Json) : Outcome Json (RuntimeCommitResult Json) :=
  match commit.checkBinding store.sessionHeadMeta with
  | .error e => (.error e, store)
  | .ok () =>
  match commit.findReplay store.runtimeTurnCommits with
  | .error e => (.error e, store)
  | .ok (some result) => (.ok result, store.releaseAfterCommit commit)
  | .ok none =>
  match store.checkLease host commit with
  | .error e => (.error e, store)
  | .ok () =>
  match commit.checkHeadRevision store.headRevision with
  | .error e => (.error e, store)
  | .ok () =>
  match completeQueueClaims commit.completedQueueClaims store.queuedWork with
  | (.error e, queued) => (.error e, { store with queuedWork := queued })
  | (.ok (), queued) =>
  match completeTurnInputClaims commit.completedTurnInputClaims store.pendingTurnInputs with
  | (.error e, pending) =>
    (.error e, { store with queuedWork := queued, pendingTurnInputs := pending })
  | (.ok (), pending) =>
    (.ok (store.commitResult commit),
      (store.writeCommit commit queued pending).releaseAfterCommit commit)

end Commits

section Graphs

def InMemorySessionStore.saveSessionMeta (record : SessionMeta Json)
    (store : InMemorySessionStore Json) : Outcome Json Unit :=
  (.ok (), { store with sessionMeta := some record })

def InMemorySessionStore.tombstoneNodes (ids : List String)
    (store : InMemorySessionStore Json) : Outcome Json Unit :=
  (.ok (), { store with tombstonedNodeIds := store.tombstonedNodeIds ∪ ids.toFinset })

/-- The graph without the nodes of these ids; a leaf among them is forgotten. -/
def withoutNodes (ids : Finset String) (graph : SessionGraph Json) : SessionGraph Json :=
  .fromNodes (graph.nodes.filter fun node => decide (node.nodeId ∉ ids))
    (graph.leafNodeId.filter fun leaf => decide (leaf ∉ ids))

/-- The answer is the number of nodes removed. -/
def InMemorySessionStore.vacuum (store : InMemorySessionStore Json) : Outcome Json Nat :=
  if store.tombstonedNodeIds = ∅ then (.ok 0, store)
  else
    let graph := withoutNodes store.tombstonedNodeIds store.sessionGraph
    (.ok (store.sessionGraph.nodes.length - graph.nodes.length),
      { store with tombstonedNodeIds := ∅, sessionGraph := graph })

variable (scope : SessionReadScope)

/-- The graph a read of this scope is built from, before tombstones are taken
out; `none` if the active path never ends. -/
def InMemorySessionStore.scopedGraph (head : SessionHeadMeta Json)
    (store : InMemorySessionStore Json) : Option (SessionGraph Json) :=
  match scope with
  | .fullGraph => some store.sessionGraph
  | .activePath leafNodeId =>
    let graph :=
      match leafNodeId <|> head.leafNodeId with
      | some leafNodeId => store.sessionGraph.setLeafNodeId (some leafNodeId)
      | none => store.sessionGraph
    graph.forkCurrentPath.map Prod.fst

/-- Load the session: `none` if the read does not return, `some none` before
the first commit. -/
def InMemorySessionStore.loadSession (store : InMemorySessionStore Json) :
    Option (Option (PersistedSessionRead Json)) :=
  match store.sessionHeadMeta with
  | none => some none
  | some head =>
    (store.scopedGraph scope head).map fun graph =>
      let graph :=
        if store.tombstonedNodeIds = ∅ then graph
        else withoutNodes store.tombstonedNodeIds graph
      some
        { sessionId := head.sessionId
          headRevision := head.headRevision
          config := head.config
          agentFrames := head.agentFrames
          currentAgentFrameId := head.currentAgentFrameId
          graph := graph
          checkpointRef := head.checkpointRef
          checkpoint := store.checkpoint
          tokenLedger := mergeUsageDeltaEntries store.usageDeltas }

end Graphs

section Steps

/-- The calls that may change the store. -/
inductive Op (Json : Type) where
  | commitRuntimeState (commit : RuntimeCommit Json)
  | tryClaimSessionExecutionLease (sessionId : String) (owner : LeaseOwnerIdentity)
      (leaseTtlMs : Nat)
  | reclaimSessionExecutionLease (sessionId : String) (owner : LeaseOwnerIdentity)
      (observedHolder : SessionExecutionLeaseFence) (leaseTtlMs : Nat)
  | renewSessionExecutionLease (fence : SessionExecutionLeaseFence) (leaseTtlMs : Nat)
  | releaseSessionExecutionLease (completion : SessionExecutionLeaseCompletion)
  | enqueuePendingTurnInput (draft : PendingTurnInputDraft Json)
  | cancelPendingTurnInput (sessionId inputId : String)
  | claimActiveTurnInputs (sessionId : String)
      (sessionExecutionLease : SessionExecutionLeaseFence) (owner : LeaseOwnerIdentity)
      (turnId : String) (checkpoint : CheckpointKind) (leaseTtlMs maxInputs : Nat)
  | claimNextTurnInputs (sessionId : String)
      (sessionExecutionLease : SessionExecutionLeaseFence) (owner : LeaseOwnerIdentity)
      (leaseTtlMs maxInputs : Nat)
  | abandonTurnInputClaim (claim : TurnInputClaim Json)
  | enqueueQueuedWork (draft : QueuedWorkBatchDraft Json)
  | claimLeadingReadySessionCommand (sessionId : String)
      (sessionExecutionLease : SessionExecutionLeaseFence) (owner : LeaseOwnerIdentity)
      (leaseTtlMs : Nat)
  | claimReadyQueuedWork (sessionId : String)
      (sessionExecutionLease : SessionExecutionLeaseFence) (owner : LeaseOwnerIdentity)
      (boundary : QueuedWorkClaimBoundary) (leaseTtlMs maxBatches : Nat)
  | renewQueuedWorkClaim (claim : QueuedWorkClaim Json) (leaseTtlMs : Nat)
  | abandonQueuedWorkClaim (claim : QueuedWorkClaim Json)
  | cancelQueuedWorkBatch (sessionId batchId : String)
  | saveSessionMeta (record : SessionMeta Json)
  | tombstoneNodes (ids : List String)
  | vacuum

/-- The answers of the calls, by the type of what they return. -/
inductive Reply (Json : Type) where
  | commit (answer : Except StoreError (RuntimeCommitResult Json))
  | leaseClaim (answer : Except StoreError SessionExecutionLeaseClaimOutcome)
  | lease (answer : Except StoreError SessionExecutionLease)
  | turnInput (answer : Except StoreError (PendingTurnInput Json))
  | cancelledTurnInput (answer : Except StoreError (Option (PendingTurnInput Json)))
  | turnInputClaim (answer : Except StoreError (Option (TurnInputClaim Json)))
  | batch (answer : Except StoreError (QueuedWorkBatch Json))
  | cancelledBatch (answer : Except StoreError (Option (QueuedWorkBatch Json)))
  | queueClaim (answer : Except StoreError (Option (QueuedWorkClaim Json)))
  | renewedQueueClaim (answer : Except StoreError (QueuedWorkClaim Json))
  | done (answer : Except StoreError Unit)
  | vacuumed (answer : Except StoreError Nat)

/-- The call returned an error. -/
def Reply.isError : Reply Json → Bool
  | .commit (.error _) => true
  | .leaseClaim (.error _) => true
  | .lease (.error _) => true
  | .turnInput (.error _) => true
  | .cancelledTurnInput (.error _) => true
  | .turnInputClaim (.error _) => true
  | .batch (.error _) => true
  | .cancelledBatch (.error _) => true
  | .queueClaim (.error _) => true
  | .renewedQueueClaim (.error _) => true
  | .done (.error _) => true
  | .vacuumed (.error _) => true
  | _ => false

/-- One call, made by any owner at any time. -/
def step (call : Host × Op Json) (store : InMemorySessionStore Json) :
    Reply Json × InMemorySessionStore Json :=
  let host := call.1
  match call.2 with
  | .commitRuntimeState commit => (store.commitRuntimeState host commit).map .commit id
  | .tryClaimSessionExecutionLease sessionId owner leaseTtlMs =>
    (store.tryClaimSessionExecutionLease host sessionId owner leaseTtlMs).map .leaseClaim id
  | .reclaimSessionExecutionLease sessionId owner observedHolder leaseTtlMs =>
    (store.reclaimSessionExecutionLease host sessionId owner observedHolder leaseTtlMs).map
      .leaseClaim id
  | .renewSessionExecutionLease fence leaseTtlMs =>
    (store.renewSessionExecutionLease host fence leaseTtlMs).map .lease id
  | .releaseSessionExecutionLease completion =>
    (store.releaseSessionExecutionLease completion).map .done id
  | .enqueuePendingTurnInput draft => (store.enqueuePendingTurnInput host draft).map .turnInput id
  | .cancelPendingTurnInput sessionId inputId =>
    (store.cancelPendingTurnInput host sessionId inputId).map .cancelledTurnInput id
  | .claimActiveTurnInputs sessionId fence owner turnId checkpoint leaseTtlMs maxInputs =>
    (store.claimActiveTurnInputs host sessionId fence owner turnId checkpoint leaseTtlMs
      maxInputs).map .turnInputClaim id
  | .claimNextTurnInputs sessionId fence owner leaseTtlMs maxInputs =>
    (store.claimNextTurnInputs host sessionId fence owner leaseTtlMs maxInputs).map
      .turnInputClaim id
  | .abandonTurnInputClaim claim => (store.abandonTurnInputClaim claim).map .done id
  | .enqueueQueuedWork draft => (store.enqueueQueuedWork host draft).map .batch id
  | .claimLeadingReadySessionCommand sessionId fence owner leaseTtlMs =>
    (store.claimLeadingReadySessionCommand host sessionId fence owner leaseTtlMs).map
      .queueClaim id
  | .claimReadyQueuedWork sessionId fence owner boundary leaseTtlMs maxBatches =>
    (store.claimReadyQueuedWork host sessionId fence owner boundary leaseTtlMs
      maxBatches).map .queueClaim id
  | .renewQueuedWorkClaim claim leaseTtlMs =>
    (store.renewQueuedWorkClaim host claim leaseTtlMs).map .renewedQueueClaim id
  | .abandonQueuedWorkClaim claim => (store.abandonQueuedWorkClaim claim).map .done id
  | .cancelQueuedWorkBatch sessionId batchId =>
    (store.cancelQueuedWorkBatch host sessionId batchId).map .cancelledBatch id
  | .saveSessionMeta record => (store.saveSessionMeta record).map .done id
  | .tombstoneNodes ids => (store.tombstoneNodes ids).map .done id
  | .vacuum => store.vacuum.map .vacuumed id

/-- Histories of calls on a new store. -/
abbrev StoreRun (history : List (Runs.Entry (Host × Op Json) (InMemorySessionStore Json)
    (Reply Json))) (store : InMemorySessionStore Json) : Prop :=
  Runs.Run step InMemorySessionStore.new history store

abbrev StoreEntry (Json : Type) :=
  Runs.Entry (Host × Op Json) (InMemorySessionStore Json) (Reply Json)

end Steps

section Example

def worker : LeaseOwnerIdentity := .ofOpaque "a" "a:1"

/-- The fence of the worker's lease if it is the first of the session, taken at
time 0. -/
def workerFence : SessionExecutionLeaseFence where
  sessionId := "s"
  owner := worker
  leaseToken := sessionLeaseToken "s" worker 0 1
  fencingToken := 1

end Example

end InMemoryStore
