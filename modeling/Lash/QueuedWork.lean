import Lash.StoreTypes

/-!
# Queued work and the shared claim selection

Batches, claims and completions of the queued-work ingress, and the selection
that every store applies to its claimable batches in enqueue order.
-/

namespace QueuedWork

open StoreTypes

inductive SessionCommand where
  | refreshToolCatalog (reason : String)
  | resetSession (reason : String)
  deriving DecidableEq

def SessionCommand.kind : SessionCommand → String
  | .refreshToolCatalog _ => "refresh_tool_catalog"
  | .resetSession _ => "reset_session"

def SessionCommand.sourceKey (command : SessionCommand) (idempotencyKey : String) : String :=
  s!"command:{command.kind}:{idempotencyKey}"

inductive DeliveryPolicy where
  | earliestSafeBoundary | afterCurrentTurnCommit
  deriving DecidableEq

inductive SlotPolicy where
  | join | exclusive
  deriving DecidableEq

inductive MergeKey where
  | never
  | payloadDefault
  | group (name : String)
  deriving DecidableEq

structure ProcessWakeDelivery (Json : Type) where
  targetSessionId : String
  processId : String
  sequence : Nat
  delivery : Json
  deriving DecidableEq

inductive QueuedWorkPayload (Json : Type) where
  | processWake (wake : ProcessWakeDelivery Json)
  | sessionCommand (command : SessionCommand)
  deriving DecidableEq

inductive QueuedWorkClass where
  | sessionCommand | turnWork
  deriving DecidableEq

inductive QueuedWorkClaimBoundary where
  | activeTurnCheckpoint | idle
  deriving DecidableEq

structure QueuedWorkItem (Json : Type) where
  itemId : String
  payload : QueuedWorkPayload Json
  deriving DecidableEq

structure QueuedWorkBatch (Json : Type) where
  batchId : String
  sessionId : String
  enqueueSeq : Nat
  sourceKey : Option String
  deliveryPolicy : DeliveryPolicy
  slotPolicy : SlotPolicy
  mergeKey : MergeKey
  availableAtMs : Nat
  enqueuedAtMs : Nat
  items : List (QueuedWorkItem Json)
  deriving DecidableEq

structure QueuedWorkBatchDraft (Json : Type) where
  sessionId : String
  sourceKey : Option String
  deliveryPolicy : DeliveryPolicy
  slotPolicy : SlotPolicy
  mergeKey : MergeKey
  availableAtMs : Nat
  payloads : List (QueuedWorkPayload Json)
  deriving DecidableEq

structure QueuedWorkCompletion where
  sessionId : String
  claimId : String
  leaseToken : String
  batchIds : List String
  deriving DecidableEq

structure QueuedWorkClaim (Json : Type) where
  sessionId : String
  claimId : String
  owner : LeaseOwnerIdentity
  leaseToken : String
  fencingToken : Nat
  claimedAtEpochMs : Nat
  expiresAtEpochMs : Nat
  batches : List (QueuedWorkBatch Json)
  deriving DecidableEq

variable {Json : Type}

def QueuedWorkPayload.workClass : QueuedWorkPayload Json → QueuedWorkClass
  | .sessionCommand _ => .sessionCommand
  | .processWake _ => .turnWork

/-- The class all payloads share; none if there is no payload or they differ. -/
def workClassForPayloads : List (QueuedWorkPayload Json) → Option QueuedWorkClass
  | [] => none
  | first :: payloads =>
    if payloads.all fun payload => payload.workClass == first.workClass then
      some first.workClass
    else none

def QueuedWorkBatch.workClass (batch : QueuedWorkBatch Json) : Option QueuedWorkClass :=
  workClassForPayloads (batch.items.map (·.payload))

def QueuedWorkClaim.completion (claim : QueuedWorkClaim Json) : QueuedWorkCompletion where
  sessionId := claim.sessionId
  claimId := claim.claimId
  leaseToken := claim.leaseToken
  batchIds := claim.batches.map (·.batchId)

variable (wake : ProcessWakeDelivery Json)

/-- The source key under which the wake of a process event is enqueued. -/
def wakeSourceKey : String :=
  s!"process:{wake.processId}:event:{wake.sequence}:wake"

def processWakeBatchDraft : QueuedWorkBatchDraft Json where
  sessionId := wake.targetSessionId
  sourceKey := some (wakeSourceKey wake)
  deliveryPolicy := .earliestSafeBoundary
  slotPolicy := .exclusive
  mergeKey := .never
  availableAtMs := 0
  payloads := [.processWake wake]

variable (draft : QueuedWorkBatchDraft Json)

/-- The batch a store keeps of a draft. -/
def QueuedWorkBatchDraft.stored (batchId : String) (enqueueSeq enqueuedAtMs : Nat) :
    QueuedWorkBatch Json where
  batchId := batchId
  sessionId := draft.sessionId
  enqueueSeq := enqueueSeq
  sourceKey := draft.sourceKey
  deliveryPolicy := draft.deliveryPolicy
  slotPolicy := draft.slotPolicy
  mergeKey := draft.mergeKey
  availableAtMs := draft.availableAtMs
  enqueuedAtMs := enqueuedAtMs
  items := draft.payloads.mapIdx fun index payload =>
    { itemId := s!"{batchId}:item:{index}", payload := payload }

/-- The batch was enqueued for the draft's session under the draft's source key. -/
def QueuedWorkBatchDraft.sameSource (batch : QueuedWorkBatch Json) : Bool :=
  draft.sourceKey.isSome && batch.sessionId == draft.sessionId &&
    batch.sourceKey == draft.sourceKey

section Selection

structure ClaimCandidate where
  enqueueSeq : Nat
  claimFencingToken : Nat
  workClass : QueuedWorkClass
  deliveryPolicy : DeliveryPolicy
  slotPolicy : SlotPolicy
  mergeKey : MergeKey
  deriving DecidableEq

/-- The signed 64-bit integer with the same low bits. -/
def asI64 (n : Nat) : Int := Int.bmod n (2 ^ 64)

def i64Max : Int := 2 ^ 63 - 1

def claimScanLimit (maxBatches : Nat) : Int := min (asI64 maxBatches + 32) i64Max

variable (candidates : List ClaimCandidate)

def selectLeadingSessionCommand : Nat :=
  if candidates.head?.any (·.workClass == .sessionCommand) then 1 else 0

/-- Extend a join group past the `selected` candidates it already has. -/
def extendJoinGroup (first : ClaimCandidate) (maxBatches : Nat) :
    Nat → List ClaimCandidate → Nat
  | selected, [] => selected
  | selected, candidate :: candidates =>
    if maxBatches ≤ selected ∨ candidate.workClass ≠ .turnWork ∨
        candidate.slotPolicy ≠ .join ∨
        candidate.deliveryPolicy ≠ first.deliveryPolicy ∨
        candidate.mergeKey ≠ first.mergeKey then selected
    else extendJoinGroup first maxBatches (selected + 1) candidates

variable (boundary : QueuedWorkClaimBoundary)

def selectTurnWorkClaimPrefix (maxBatches : Nat) : Nat :=
  if maxBatches = 0 then 0
  else
    match candidates with
    | [] => 0
    | first :: rest =>
      if first.workClass ≠ .turnWork then 0
      else if boundary = .activeTurnCheckpoint ∧
          first.deliveryPolicy ≠ .earliestSafeBoundary then 0
      else if first.slotPolicy ≠ .join then 1
      else extendJoinGroup first maxBatches 1 rest

/-- The two claims over queued work, a single leading session command or a
group of turn work. -/
inductive QueuedWorkClaimKind where
  | leadingSessionCommand
  | turnWork (boundary : QueuedWorkClaimBoundary) (maxBatches : Nat)
  deriving DecidableEq

def QueuedWorkClaimKind.maxBatches : QueuedWorkClaimKind → Nat
  | .leadingSessionCommand => 1
  | .turnWork _ maxBatches => maxBatches

def QueuedWorkClaimKind.select (kind : QueuedWorkClaimKind)
    (candidates : List ClaimCandidate) : Nat :=
  match kind with
  | .leadingSessionCommand => selectLeadingSessionCommand candidates
  | .turnWork boundary maxBatches =>
    selectTurnWorkClaimPrefix candidates boundary maxBatches

structure QueuedWorkClaimLease where
  claimId : String
  leaseToken : String
  fencingToken : Nat
  claimedAtEpochMs : Nat
  expiresAtEpochMs : Nat
  deriving DecidableEq

/-- The lease a durable store derives for a selected group; `sha256Hex` is the
digest of a text in hexadecimal. -/
def QueuedWorkClaimLease.derive (sha256Hex : String → String) (head : ClaimCandidate)
    (sessionId : String) (owner : LeaseOwnerIdentity) (nowEpochMs leaseTtlMs : Nat) :
    QueuedWorkClaimLease :=
  let fencingToken := saturatingAdd head.claimFencingToken 1
  let claimId := s!"qwc:{head.enqueueSeq}:{fencingToken}"
  { claimId := claimId
    leaseToken := sha256Hex
      s!"{sessionId}:{owner.ownerId}:{owner.incarnationId}:{claimId}:{nowEpochMs}"
    fencingToken := fencingToken
    claimedAtEpochMs := nowEpochMs
    expiresAtEpochMs := saturatingAdd nowEpochMs leaseTtlMs }

def renewedClaim (claim : QueuedWorkClaim Json) (renewedRows expiresAtEpochMs : Nat) :
    Except StoreError (QueuedWorkClaim Json) :=
  if renewedRows ≠ claim.batches.length then
    .error (.queuedWorkClaimExpired claim.sessionId claim.claimId)
  else .ok { claim with expiresAtEpochMs := expiresAtEpochMs }

def ensureCompletionOwnsAllBatches (completed : QueuedWorkCompletion) (ownedRows : Nat) :
    Except StoreError Unit :=
  if ownedRows ≠ completed.batchIds.length then
    .error (.queuedWorkClaimExpired completed.sessionId completed.claimId)
  else .ok ()

theorem selectLeadingSessionCommand_le : selectLeadingSessionCommand candidates ≤ 1 := by
  unfold selectLeadingSessionCommand
  split <;> omega

variable (first : ClaimCandidate)

theorem selected_le_extendJoinGroup (maxBatches selected : Nat) (candidates : List ClaimCandidate) :
    selected ≤ extendJoinGroup first maxBatches selected candidates := by
  induction candidates generalizing selected with
  | nil => exact Nat.le_refl _
  | cons candidate candidates ih =>
    simp only [extendJoinGroup]
    split
    · exact Nat.le_refl _
    · exact Nat.le_trans (Nat.le_succ _) (ih (selected + 1))

theorem extendJoinGroup_le (maxBatches selected : Nat) (candidates : List ClaimCandidate)
    (h : selected ≤ maxBatches) :
    extendJoinGroup first maxBatches selected candidates ≤ maxBatches ∧
      extendJoinGroup first maxBatches selected candidates ≤ selected + candidates.length := by
  induction candidates generalizing selected with
  | nil => simpa [extendJoinGroup] using h
  | cons candidate candidates ih =>
    simp only [extendJoinGroup, List.length_cons]
    split
    · omega
    · rename_i hgo
      have := ih (selected + 1) (by simp only [not_or, Nat.not_le] at hgo; omega)
      omega

/-- A claim never selects more than it was asked for, nor more than there is. -/
theorem selectTurnWorkClaimPrefix_le (maxBatches : Nat) :
    selectTurnWorkClaimPrefix candidates boundary maxBatches ≤ maxBatches ∧
      selectTurnWorkClaimPrefix candidates boundary maxBatches ≤ candidates.length := by
  unfold selectTurnWorkClaimPrefix
  split
  · omega
  · cases candidates with
    | nil => simp
    | cons first rest =>
      simp only [List.length_cons]
      have hjoin := extendJoinGroup_le first maxBatches 1 rest (by omega)
      split
      · omega
      · split
        · omega
        · split <;> omega

theorem QueuedWorkClaimKind.select_le (kind : QueuedWorkClaimKind)
    (candidates : List ClaimCandidate) :
    kind.select candidates ≤ kind.maxBatches ∧ kind.select candidates ≤ candidates.length := by
  cases kind with
  | leadingSessionCommand =>
    refine ⟨selectLeadingSessionCommand_le candidates, ?_⟩
    cases candidates with
    | nil => simp [QueuedWorkClaimKind.select, selectLeadingSessionCommand]
    | cons first rest =>
      have := selectLeadingSessionCommand_le (first :: rest)
      simp only [QueuedWorkClaimKind.select, List.length_cons]
      omega
  | turnWork boundary maxBatches =>
    exact selectTurnWorkClaimPrefix_le candidates boundary maxBatches

end Selection

end QueuedWork
