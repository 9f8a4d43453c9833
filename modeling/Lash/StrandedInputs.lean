import Lash.StoreSteps

/-!
# Turn inputs whose claim has run out

Every stored input descends from a stored one or from a draft by one of five
changes. Three kinds of inputs are ever stored: those that wait for their turn,
those that wait for the next turn, and those that a turn has accepted. The first
two can be claimed whenever no claim on them is live. No claim asks for the
third.
-/

namespace StrandedInputs

open StoreTypes TurnInputs RuntimeCommits ClaimTables InMemoryStore StoreSteps Runs List
  InMemoryPendingTurnInput TurnInputClaimMode ClaimScheme TurnInputIngress

variable {Json : Type} {store : InMemorySessionStore Json} {host : Host}
  {row row' : InMemoryPendingTurnInput Json}

section Descent

/-- Where a row of the store after a call comes from. -/
inductive Descends (store : InMemorySessionStore Json) : InMemoryPendingTurnInput Json → Prop
  | kept (row : InMemoryPendingTurnInput Json) (old : row ∈ store.pendingTurnInputs) :
      Descends store row
  | enqueued (draft : PendingTurnInputDraft Json) (inputId : String) (seq now : Nat) :
      Descends store (.fresh (draft.stored inputId seq now))
  | claimed (row : InMemoryPendingTurnInput Json) (old : row ∈ store.pendingTurnInputs)
      (mode : TurnInputClaimMode) (wanted : mode.wants row.input = true)
      (claimId leaseToken : String) (owner : LeaseOwnerIdentity) (expiresAt : Nat) :
      Descends store (row.stamp claimId leaseToken owner expiresAt mode)
  | abandoned (row : InMemoryPendingTurnInput Json) (old : row ∈ store.pendingTurnInputs)
      (mode : TurnInputClaimMode) : Descends store (row.abandon mode)
  | deferred (row : InMemoryPendingTurnInput Json) (old : row ∈ store.pendingTurnInputs)
      (sessionId turnId : String) : Descends store (row.deferInterrupted sessionId turnId)

theorem completeTurnInputClaims_sublist (claims : List TurnInputCompletion)
    (rows : List (InMemoryPendingTurnInput Json)) :
    (completeTurnInputClaims claims rows).2.Sublist rows := by
  by_cases hsettles : turnInputScheme.Settles claims rows
  · rw [completeTurnInputClaims, settle_of_settles hsettles]
    exact remaining_sublist
  · obtain ⟨done, _, _, _, _, _, hrun⟩ := settle_error TurnInputCompletion.expired hsettles
    rw [completeTurnInputClaims, hrun]
    exact remaining_sublist

theorem commit_descends (host : Host) (commit : RuntimeCommit Json)
    (h : row ∈ (store.commitRuntimeState host commit).2.pendingTurnInputs) :
    Descends store row := by
  have houtcome := commitRuntimeState_outcome host store commit
  generalize store.commitRuntimeState host commit = out at houtcome h
  cases houtcome with
  | rejected e front | queueExpired e front fails => exact .kept row h
  | replayed result bound stored =>
    rw [releaseAfterCommit_eq] at h
    exact .kept row h
  | inputsExpired e front queue fails =>
    exact .kept row ((completeTurnInputClaims_sublist _ _).subset h)
  | applied front queue inputs =>
    rw [releaseAfterCommit_eq] at h
    have hrow : row ∈ deferInterruptedTurnInputs commit
        (turnInputScheme.remaining commit.completedTurnInputClaims store.pendingTurnInputs) := h
    rw [deferInterruptedTurnInputs] at hrow
    cases hturn : commit.interruptedTurnInputTurnId with
    | none =>
      rw [hturn] at hrow
      exact .kept row (remaining_sublist.subset hrow)
    | some turnId =>
      rw [hturn] at hrow
      obtain ⟨old, hold, hsame⟩ := mem_map.mp hrow
      rw [← hsame]
      exact .deferred old (remaining_sublist.subset hold) _ _

theorem claim_descends (host : Host) (sessionId : String) (fence : SessionExecutionLeaseFence)
    (owner : LeaseOwnerIdentity) (leaseTtlMs maxInputs : Nat) (mode : TurnInputClaimMode)
    (h : row ∈ (store.claimPendingTurnInputsInMemory host sessionId fence owner leaseTtlMs
      maxInputs mode).2.pendingTurnInputs) : Descends store row := by
  rw [InMemorySessionStore.claimPendingTurnInputsInMemory] at h
  split at h
  · exact .kept row h
  · split at h
    · exact .kept row h
    · dsimp only at h
      split at h
      · exact .kept row ((mem_insertionSort _).mp h)
      · obtain ⟨old, hold, hsame | ⟨hclaimable, _, hstamp⟩⟩ := mem_updateFirst h
        · rw [hsame]
          exact .kept old ((mem_insertionSort _).mp hold)
        · rw [claimable, Bool.and_eq_true] at hclaimable
          rw [hstamp]
          exact .claimed old ((mem_insertionSort _).mp hold) mode hclaimable.2 _ _ _ _

theorem enqueue_descends (host : Host) (draft : PendingTurnInputDraft Json)
    (h : row ∈ (store.enqueuePendingTurnInput host draft).2.pendingTurnInputs) :
    Descends store row := by
  rw [InMemorySessionStore.enqueuePendingTurnInput] at h
  split at h
  · exact .kept row h
  · rw [mem_insertionSort, mem_append, mem_singleton] at h
    rcases h with hold | hfresh
    · exact .kept row hold
    · rw [hfresh]
      exact .enqueued draft _ _ _

theorem cancel_descends (host : Host) (sessionId inputId : String)
    (h : row ∈ (store.cancelPendingTurnInput host sessionId inputId).2.pendingTurnInputs) :
    Descends store row := by
  rw [InMemorySessionStore.cancelPendingTurnInput] at h
  split at h
  · exact .kept row h
  · split at h
    · exact .kept row h
    · exact .kept row (mem_of_mem_eraseP h)

theorem abandon_descends (claim : TurnInputClaim Json)
    (h : row ∈ (store.abandonTurnInputClaim claim).2.pendingTurnInputs) :
    Descends store row := by
  obtain ⟨old, hold, hsame⟩ := mem_map.mp h
  split at hsame
  · rw [← hsame]
    exact .abandoned old hold claim.mode
  · rw [← hsame]
    exact .kept old hold

theorem step_descends (call : Host × Op Json)
    (h : row ∈ (step call store).2.pendingTurnInputs) : Descends store row := by
  have hother : areaOf call.2 ≠ .commits ∧ areaOf call.2 ≠ .turnInputs → Descends store row := by
    intro harea
    rw [((step_keeps harea.1).turnInputs harea.2).1] at h
    exact .kept row h
  obtain ⟨host, op⟩ := call
  cases op with
  | commitRuntimeState commit => exact commit_descends host commit h
  | enqueuePendingTurnInput draft => exact enqueue_descends host draft h
  | cancelPendingTurnInput sessionId inputId => exact cancel_descends host sessionId inputId h
  | claimActiveTurnInputs sessionId fence owner turnId checkpoint leaseTtlMs maxInputs =>
    exact claim_descends host sessionId fence owner leaseTtlMs maxInputs
      (.activeTurn turnId checkpoint) h
  | claimNextTurnInputs sessionId fence owner leaseTtlMs maxInputs =>
    exact claim_descends host sessionId fence owner leaseTtlMs maxInputs .nextTurn h
  | abandonTurnInputClaim claim => exact abandon_descends claim h
  | _ => exact hother (by simp [areaOf])

end Descent

section States

/-- The inputs that are ever stored. -/
inductive Waits (input : PendingTurnInput Json) : Prop
  | forTurn (turnId : String) (pending : input.state = .pendingActive)
      (named : input.ingress.activeTurnId = some turnId)
  | forNextTurn (pending : input.state = .deferredNextTurn)
  | accepted (turnId : String) (taken : input.state = .accepted)
      (named : input.ingress.activeTurnId = some turnId)

theorem Waits.initial (draft : PendingTurnInputDraft Json) (inputId : String) (seq now : Nat) :
    Waits (draft.stored inputId seq now) := by
  cases hingress : draft.ingress with
  | activeTurn turnId minBoundary =>
    refine .forTurn turnId ?_ ?_
    · simp [PendingTurnInputDraft.stored, hingress, initialState]
    · simp [PendingTurnInputDraft.stored, hingress, activeTurnId]
  | nextTurn =>
    refine .forNextTurn ?_
    simp [PendingTurnInputDraft.stored, hingress, initialState]

theorem Waits.claimed {mode : TurnInputClaimMode} (wanted : mode.wants row.input = true)
    (waits : Waits row.input) (claimId leaseToken : String) (owner : LeaseOwnerIdentity)
    (expiresAt : Nat) : Waits (row.stamp claimId leaseToken owner expiresAt mode).input := by
  cases mode with
  | activeTurn turnId checkpoint =>
    simp only [wants, Bool.and_eq_true, beq_iff_eq] at wanted
    exact .accepted turnId rfl wanted.1.2
  | nextTurn =>
    cases waits with
    | forTurn turnId pending named => exact .forTurn turnId pending named
    | forNextTurn pending => exact .forNextTurn pending
    | accepted turnId taken named => exact .accepted turnId taken named

theorem Waits.abandoned (waits : Waits row.input) (mode : TurnInputClaimMode) :
    Waits (row.abandon mode).input := by
  cases waits with
  | forTurn turnId pending named =>
    refine .forTurn turnId ?_ named
    simp [abandon, pending, abandonedState]
  | forNextTurn pending =>
    refine .forNextTurn ?_
    simp [abandon, pending, abandonedState]
  | accepted turnId taken named =>
    cases mode with
    | activeTurn _ _ =>
      refine .forTurn turnId ?_ named
      simp [abandon, taken, abandonedState]
    | nextTurn =>
      refine .forNextTurn ?_
      simp [abandon, taken, abandonedState]

theorem Waits.deferred (waits : Waits row.input) (sessionId turnId : String) :
    Waits (row.deferInterrupted sessionId turnId).input := by
  rw [deferInterrupted]
  split
  · exact .forNextTurn rfl
  · exact waits

theorem Descends.waits (descends : Descends store row)
    (old : ∀ row ∈ store.pendingTurnInputs, Waits row.input) : Waits row.input := by
  cases descends with
  | kept row hrow => exact old row hrow
  | enqueued draft inputId seq now => exact Waits.initial draft inputId seq now
  | claimed row hrow mode wanted claimId leaseToken owner expiresAt =>
    exact (old row hrow).claimed wanted claimId leaseToken owner expiresAt
  | abandoned row hrow mode => exact (old row hrow).abandoned mode
  | deferred row hrow sessionId turnId => exact (old row hrow).deferred sessionId turnId

theorem waits_of_reachable (reached : Reachable step .new store) :
    ∀ row ∈ store.pendingTurnInputs, Waits row.input := by
  refine reached.invariant (P := fun s => ∀ row ∈ s.pendingTurnInputs, Waits row.input) ?_ ?_
  · simp [InMemorySessionStore.new]
  · intro s call hold row hrow
    exact (step_descends call hrow).waits hold

end States

/-- A claim for the next turn, whoever makes it, may take the input now. -/
def ClaimableNext (host : Host) (row : InMemoryPendingTurnInput Json) : Prop :=
  ∀ owner, row.claimable host row.input.sessionId owner .nextTurn = true

/-- A claim of the turn that the input names, whoever makes it, may take the
input at some checkpoint of the turn. -/
def ClaimableActive (host : Host) (row : InMemoryPendingTurnInput Json) : Prop :=
  ∃ turnId checkpoint, row.input.ingress.activeTurnId = some turnId ∧
    ∀ owner, row.claimable host row.input.sessionId owner (.activeTurn turnId checkpoint) = true

/-- The input is under a live claim or can be claimed. -/
def Safe (host : Host) (row : InMemoryPendingTurnInput Json) : Prop :=
  row.liveAt host.timestampMs = true ∨ ClaimableNext host row ∨ ClaimableActive host row

theorem available_of_not_live (dead : row.liveAt host.timestampMs = false)
    (owner : LeaseOwnerIdentity) : row.available host owner = true := by
  simp only [ClaimStamp.liveAt, Bool.and_eq_false_iff, decide_eq_false_iff_not, Nat.not_lt] at dead
  rcases dead with hnone | hexpired
  · rw [Option.isSome_eq_false_iff] at hnone
    simp [ClaimStamp.available, hnone]
  · simp [ClaimStamp.available, hexpired]

theorem claimableNext_of_deferred (dead : row.liveAt host.timestampMs = false)
    (pending : row.input.state = .deferredNextTurn) : ClaimableNext host row := by
  intro owner
  simp [claimable, available_of_not_live dead owner,
    wants, pending, TurnInputState.isNextTurnPending]

/-- The last checkpoint of the turn admits the input. -/
theorem claimableActive_of_pending (dead : row.liveAt host.timestampMs = false)
    {turnId : String} (pending : row.input.state = .pendingActive)
    (named : row.input.ingress.activeTurnId = some turnId) : ClaimableActive host row := by
  refine ⟨turnId, .beforeCompletion, named, fun owner => ?_⟩
  simp [claimable, available_of_not_live dead owner,
    wants, pending, named, admitsCheckpoint_beforeCompletion]

/-- No claim asks for an accepted input. -/
theorem live_of_safe_accepted (safe : Safe host row) (taken : row.input.state = .accepted) :
    row.liveAt host.timestampMs = true := by
  rcases safe with hlive | hnext | ⟨turnId, checkpoint, _, hactive⟩
  · exact hlive
  · have hwants := hnext (.ofOpaque "" "")
    simp [claimable, wants, taken, TurnInputState.isNextTurnPending] at hwants
  · have hwants := hactive (.ofOpaque "" "")
    simp [claimable, wants, taken] at hwants

/-- In every reachable state and at every time, each stored input that is neither
completed nor cancelled is under a live claim or can be claimed, exactly when no
accepted input is under a claim that has run out. -/
theorem no_stranded_input_iff (reached : Reachable step .new store) (host : Host) :
    (∀ row ∈ store.pendingTurnInputs, row.input.state ≠ .completed →
        row.input.state ≠ .cancelled → Safe host row) ↔
      ∀ row ∈ store.pendingTurnInputs, row.input.state = .accepted →
        row.liveAt host.timestampMs = true := by
  constructor
  · intro hsafe row hrow htaken
    refine live_of_safe_accepted (hsafe row hrow ?_ ?_) htaken
    · simp [htaken]
    · simp [htaken]
  · intro hlive row hrow _ _
    cases hnow : row.liveAt host.timestampMs with
    | true => exact Or.inl hnow
    | false =>
      cases waits_of_reachable reached row hrow with
      | forTurn turnId pending named =>
        exact Or.inr (Or.inr (claimableActive_of_pending hnow pending named))
      | forNextTurn pending => exact Or.inr (Or.inl (claimableNext_of_deferred hnow pending))
      | accepted turnId taken named =>
        rw [hlive row hrow taken] at hnow
        exact absurd hnow (by simp)

section Example

/-- An input for a running turn is taken by that turn until time 12. -/
def acceptOneInput : List (Host × Op Unit) :=
  [(.quiet 0, .tryClaimSessionExecutionLease "s" worker 100),
    (.quiet 1, .enqueuePendingTurnInput
      ⟨"s", some "input", none, .activeTurn "turn" .afterWork, ()⟩),
    (.quiet 2, .claimActiveTurnInputs "s" workerFence worker "turn" .afterWork 10 1)]

def acceptedStore : InMemorySessionStore Unit := (perform step acceptOneInput ([], .new)).2

theorem acceptedStore_reachable : Reachable step .new acceptedStore :=
  (Run.nil.perform acceptOneInput).reachable

/-- While the claim lives the input is safe. -/
theorem no_stranded_input_while_live : acceptedStore.pendingTurnInputs ≠ [] ∧
      ∀ row ∈ acceptedStore.pendingTurnInputs, row.input.state ≠ .completed →
        row.input.state ≠ .cancelled → Safe (.quiet 11) row :=
  ⟨by decide, (no_stranded_input_iff acceptedStore_reachable (.quiet 11)).mpr (by decide)⟩

/-- Once the claim has run out, the input is accepted, under no live claim, and
no claim may take it. -/
theorem accepted_input_stranded : Reachable step .new acceptedStore ∧
      ∃ row ∈ acceptedStore.pendingTurnInputs, row.input.inputId = "input" ∧
        row.input.state = .accepted ∧ ¬ Safe (.quiet 12) row := by
  refine ⟨acceptedStore_reachable, ?_⟩
  have hrow : ∃ row ∈ acceptedStore.pendingTurnInputs, row.input.inputId = "input" ∧
      row.input.state = .accepted ∧ row.liveAt 12 = false := by decide
  obtain ⟨row, hmem, hid, htaken, hdead⟩ := hrow
  refine ⟨row, hmem, hid, htaken, fun hsafe => ?_⟩
  have hlive := live_of_safe_accepted hsafe htaken
  simp [Host.quiet, hdead] at hlive

end Example

end StrandedInputs
