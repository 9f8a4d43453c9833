import Lash.StoreTypes

/-!
# Pending turn input

The lifecycle of user input that waits for a turn: where it may be taken in,
which state it is in, and the claims and completions over it.
-/

namespace TurnInputs

open StoreTypes

inductive CheckpointKind where
  | afterWork | beforeCompletion
  deriving DecidableEq

inductive TurnInputCheckpointBoundary where
  | afterWork | beforeCompletion
  deriving DecidableEq

inductive TurnInputIngress where
  | activeTurn (turnId : String) (minBoundary : TurnInputCheckpointBoundary)
  | nextTurn
  deriving DecidableEq

inductive TurnInputState where
  | pendingActive | deferredNextTurn | accepted | cancelled | completed
  deriving DecidableEq

variable (boundary : TurnInputCheckpointBoundary)

def TurnInputCheckpointBoundary.admits (checkpoint : CheckpointKind) : Bool :=
  match boundary with
  | .afterWork => true
  | .beforeCompletion => checkpoint == .beforeCompletion

def TurnInputIngress.activeTurnId : TurnInputIngress → Option String
  | .activeTurn turnId _ => some turnId
  | .nextTurn => none

def TurnInputIngress.admitsCheckpoint (ingress : TurnInputIngress)
    (checkpoint : CheckpointKind) : Bool :=
  match ingress with
  | .activeTurn _ minBoundary => minBoundary.admits checkpoint
  | .nextTurn => false

def TurnInputState.isNextTurnPending : TurnInputState → Bool
  | .deferredNextTurn => true
  | _ => false

/-- The state in which an input of this ingress starts. -/
def TurnInputIngress.initialState : TurnInputIngress → TurnInputState
  | .activeTurn _ _ => .pendingActive
  | .nextTurn => .deferredNextTurn

structure PendingTurnInputDraft (Json : Type) where
  sessionId : String
  inputId : Option String
  sourceKey : Option String
  ingress : TurnInputIngress
  input : Json
  deriving DecidableEq

structure PendingTurnInput (Json : Type) where
  inputId : String
  sessionId : String
  enqueueSeq : Nat
  sourceKey : Option String
  ingress : TurnInputIngress
  state : TurnInputState
  enqueuedAtMs : Nat
  input : Json
  deriving DecidableEq

/-- The input a store keeps of a draft. -/
def PendingTurnInputDraft.stored {Json : Type} (draft : PendingTurnInputDraft Json)
    (inputId : String) (enqueueSeq enqueuedAtMs : Nat) : PendingTurnInput Json where
  inputId := inputId
  sessionId := draft.sessionId
  enqueueSeq := enqueueSeq
  sourceKey := draft.sourceKey
  ingress := draft.ingress
  state := draft.ingress.initialState
  enqueuedAtMs := enqueuedAtMs
  input := draft.input

inductive TurnInputClaimMode where
  | activeTurn (turnId : String) (checkpoint : CheckpointKind)
  | nextTurn
  deriving DecidableEq

structure TurnInputCompletion where
  sessionId : String
  claimId : String
  leaseToken : String
  inputIds : List String
  deriving DecidableEq

structure TurnInputClaim (Json : Type) where
  sessionId : String
  claimId : String
  owner : LeaseOwnerIdentity
  leaseToken : String
  fencingToken : Nat
  claimedAtEpochMs : Nat
  expiresAtEpochMs : Nat
  mode : TurnInputClaimMode
  inputs : List (PendingTurnInput Json)
  deriving DecidableEq

variable {Json : Type}

def TurnInputClaim.completion (claim : TurnInputClaim Json) : TurnInputCompletion where
  sessionId := claim.sessionId
  claimId := claim.claimId
  leaseToken := claim.leaseToken
  inputIds := claim.inputs.map (·.inputId)

variable (mode : TurnInputClaimMode)

/-- Which stored inputs a claim in this mode is for. -/
def TurnInputClaimMode.wants (input : PendingTurnInput Json) : Bool :=
  match mode with
  | .activeTurn turnId checkpoint =>
    input.state == .pendingActive && input.ingress.activeTurnId == some turnId &&
      input.ingress.admitsCheckpoint checkpoint
  | .nextTurn => input.state.isNextTurnPending

variable (state : TurnInputState)

/-- The state an input takes when a claim in this mode takes it. -/
def TurnInputClaimMode.claimedState : TurnInputState :=
  match mode with
  | .activeTurn _ _ => .accepted
  | .nextTurn => state

/-- The state an accepted input returns to when a claim in this mode is
abandoned; other states stay. -/
def TurnInputClaimMode.abandonedState : TurnInputState :=
  match state, mode with
  | .accepted, .activeTurn _ _ => .pendingActive
  | .accepted, .nextTurn => .deferredNextTurn
  | state, _ => state

/-- The last checkpoint of a turn admits every input of that turn. -/
@[simp] theorem TurnInputCheckpointBoundary.admits_beforeCompletion :
    boundary.admits .beforeCompletion = true := by
  cases boundary <;> rfl

theorem TurnInputIngress.admitsCheckpoint_beforeCompletion {ingress : TurnInputIngress} :
    ingress.admitsCheckpoint .beforeCompletion = ingress.activeTurnId.isSome := by
  cases ingress with
  | activeTurn turnId minBoundary =>
    simp [TurnInputIngress.admitsCheckpoint, TurnInputIngress.activeTurnId]
  | nextTurn => rfl

end TurnInputs
