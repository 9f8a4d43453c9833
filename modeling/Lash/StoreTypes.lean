import Mathlib.Algebra.Group.Int.Defs
import Mathlib.Algebra.GroupWithZero.Nat
import Mathlib.Order.Lattice

/-!
# Lease, claim and error types of the runtime store

The data that session leases, queued-work claims and turn-input claims share.
Timestamps, revisions and fencing tokens are natural numbers; where the source
saturates at the largest `u64` the model does too. What a host contributes to
one call, its clock reading and its view of the process table, is a `Host`.
-/

namespace StoreTypes

def u64Max : Nat := 2 ^ 64 - 1

def saturatingAdd (a b : Nat) : Nat := min (a + b) u64Max

@[simp] theorem saturatingAdd_le (a b : Nat) : saturatingAdd a b ≤ u64Max := Nat.min_le_right _ _

theorem le_saturatingAdd {a b : Nat} (h : a ≤ u64Max) : a ≤ saturatingAdd a b := by
  unfold saturatingAdd
  omega

theorem lt_saturatingAdd_one {a : Nat} (h : a < u64Max) : a < saturatingAdd a 1 := by
  unfold saturatingAdd
  omega

theorem saturatingAdd_one_of_lt {a : Nat} (h : a < u64Max) : saturatingAdd a 1 = a + 1 := by
  unfold saturatingAdd
  omega

structure Host where
  timestampMs : Nat
  linuxProcessIsLive : Nat → String → Option Bool

/-- A host at this time that can say nothing about processes. -/
def Host.quiet (now : Nat) : Host where
  timestampMs := now
  linuxProcessIsLive _ _ := none

inductive LeaseOwnerLiveness where
  | localProcess (hostId bootId : String) (pid : Nat) (processStart : String)
  | opaqueOwner
  deriving DecidableEq

structure LeaseOwnerIdentity where
  ownerId : String
  incarnationId : String
  liveness : LeaseOwnerLiveness
  deriving DecidableEq

def LeaseOwnerIdentity.ofOpaque (ownerId incarnationId : String) :
    LeaseOwnerIdentity where
  ownerId := ownerId
  incarnationId := incarnationId
  liveness := .opaqueOwner

def LeaseOwnerLiveness.isDefinitelyDeadForClaimant (host : Host) :
    LeaseOwnerLiveness → LeaseOwnerLiveness → Bool
  | .localProcess hostId bootId pid processStart,
      .localProcess claimantHostId claimantBootId _ _ =>
    if hostId ≠ claimantHostId ∨ bootId ≠ claimantBootId then false
    else host.linuxProcessIsLive pid processStart == some false
  | _, _ => false

def LeaseOwnerIdentity.sameIncarnation (self other : LeaseOwnerIdentity) : Bool :=
  self.ownerId == other.ownerId && self.incarnationId == other.incarnationId

def LeaseOwnerIdentity.isDefinitelyDeadForClaimant (host : Host)
    (self claimant : LeaseOwnerIdentity) : Bool :=
  self.liveness.isDefinitelyDeadForClaimant host claimant.liveness

theorem LeaseOwnerIdentity.sameIncarnation_iff {self other : LeaseOwnerIdentity} :
    self.sameIncarnation other = true ↔
      self.ownerId = other.ownerId ∧ self.incarnationId = other.incarnationId := by
  simp [LeaseOwnerIdentity.sameIncarnation]

structure SessionExecutionLease where
  sessionId : String
  owner : LeaseOwnerIdentity
  leaseToken : String
  fencingToken : Nat
  claimedAtEpochMs : Nat
  expiresAtEpochMs : Nat
  deriving DecidableEq

structure SessionExecutionLeaseFence where
  sessionId : String
  owner : LeaseOwnerIdentity
  leaseToken : String
  fencingToken : Nat
  deriving DecidableEq

/-- A completion carries the same four fields as a fence. -/
abbrev SessionExecutionLeaseCompletion := SessionExecutionLeaseFence

variable (lease : SessionExecutionLease)

def SessionExecutionLease.fence : SessionExecutionLeaseFence where
  sessionId := lease.sessionId
  owner := lease.owner
  leaseToken := lease.leaseToken
  fencingToken := lease.fencingToken

def SessionExecutionLease.completion :
    SessionExecutionLeaseCompletion := lease.fence

inductive SessionExecutionLeaseClaimOutcome where
  | acquired (lease : SessionExecutionLease)
  | busy (holder : SessionExecutionLease)
  deriving DecidableEq

inductive StoreError where
  | sessionBindingMismatch (boundSessionId attemptedSessionId : String)
  | headRevisionConflict (expected : Option Nat) (actual : Nat)
  | runtimeTurnCommitConflict (sessionId turnId : String)
  | queuedWorkClaimExpired (sessionId claimId : String)
  | turnInputClaimExpired (sessionId claimId : String)
  | sessionExecutionLeaseExpired (sessionId : String)
  | backend (message : String)
  deriving DecidableEq

/-- The claim columns that queued batches and pending turn inputs share. A
claim token is only ever stored together with its owner. -/
structure ClaimStamp where
  claimId : Option String
  claimToken : Option String
  claimOwner : Option LeaseOwnerIdentity
  claimFencingToken : Nat
  claimExpiresAtMs : Nat
  owned : claimToken.isSome → claimOwner.isSome

instance : DecidableEq ClaimStamp := fun a b =>
  decidable_of_iff
    (a.claimId = b.claimId ∧ a.claimToken = b.claimToken ∧
      a.claimOwner = b.claimOwner ∧ a.claimFencingToken = b.claimFencingToken ∧
      a.claimExpiresAtMs = b.claimExpiresAtMs)
    (by cases a; cases b; simp)

/-- The stamp of a row that was just enqueued. -/
def ClaimStamp.unclaimed : ClaimStamp where
  claimId := none
  claimToken := none
  claimOwner := none
  claimFencingToken := 0
  claimExpiresAtMs := 0
  owned := by simp

variable (stamp : ClaimStamp)

def ClaimStamp.cleared : ClaimStamp where
  claimId := none
  claimToken := none
  claimOwner := none
  claimFencingToken := stamp.claimFencingToken
  claimExpiresAtMs := 0
  owned := by simp

def ClaimStamp.claimed (claimId leaseToken : String) (owner : LeaseOwnerIdentity)
    (expiresAt : Nat) :
    ClaimStamp where
  claimId := some claimId
  claimToken := some leaseToken
  claimOwner := some owner
  claimFencingToken := saturatingAdd stamp.claimFencingToken 1
  claimExpiresAtMs := expiresAt
  owned := by simp

def ClaimStamp.renewed (expiresAt : Nat) : ClaimStamp :=
  { stamp with claimExpiresAtMs := expiresAt }

/-- The row carries this claim id and this lease token. -/
def ClaimStamp.heldBy (claimId leaseToken : String) : Bool :=
  stamp.claimId == some claimId && stamp.claimToken == some leaseToken

def ClaimStamp.available (host : Host) (claimant : LeaseOwnerIdentity)
    (stamp : ClaimStamp) : Bool :=
  stamp.claimToken.isNone || decide (stamp.claimExpiresAtMs ≤ host.timestampMs) ||
    stamp.claimOwner.any fun holder => holder.isDefinitelyDeadForClaimant host claimant

/-- The row is under a claim that has not expired at `now`. -/
def ClaimStamp.liveAt (now : Nat) : Bool :=
  stamp.claimToken.isSome && decide (now < stamp.claimExpiresAtMs)

theorem ClaimStamp.heldBy_iff {stamp : ClaimStamp} {claimId leaseToken : String} :
    stamp.heldBy claimId leaseToken = true ↔
      stamp.claimId = some claimId ∧ stamp.claimToken = some leaseToken := by
  simp [ClaimStamp.heldBy]

end StoreTypes
