import Lash.QueueSteps

/-!
# Calls that fail

A call that returns an error should leave the store as it was. Two do not: a
commit writes the completions it has checked before it reaches one that does not
stand, and the renewal of a claim writes the new expiry before it counts the rows
of the claim. Here is exactly when.
-/

namespace FailedCalls

open StoreTypes QueuedWork TurnInputs RuntimeCommits ClaimTables InMemoryStore StoreSteps QueueSteps
  Runs List InMemorySessionStore

variable {Json : Type} {store : InMemorySessionStore Json}

/-- Before the first completion of the commit that does not stand, there is one
that names a batch or an input. -/
def Tears (commit : RuntimeCommit Json) (store : InMemorySessionStore Json) : Prop :=
  LosesBatches commit store ∨
    queueScheme.Settles commit.completedQueueClaims store.queuedWork ∧
      turnInputScheme.Torn commit.completedTurnInputClaims store.pendingTurnInputs

/-- The claim holds another number of rows than it lists batches, and one of the
rows would be given a new expiry. -/
def RenewsAndFails (host : Host) (claim : QueuedWorkClaim Json) (leaseTtlMs : Nat)
    (store : InMemorySessionStore Json) : Prop :=
  store.queuedWork.countP (·.claimedBy claim.sessionId claim.claimId claim.leaseToken) ≠
      claim.batches.length ∧
    ∃ row ∈ store.queuedWork,
      row.claimedBy claim.sessionId claim.claimId claim.leaseToken = true ∧
        row.claimExpiresAtMs ≠ saturatingAdd host.timestampMs leaseTtlMs

/-- The condition under which a failing call changes nothing. -/
def FailsCleanly (call : Host × Op Json) (store : InMemorySessionStore Json) : Prop :=
  match call.2 with
  | .commitRuntimeState commit => PassesFront call.1 commit store → ¬ Tears commit store
  | .renewQueuedWorkClaim claim leaseTtlMs => ¬ RenewsAndFails call.1 claim leaseTtlMs store
  | _ => True

section Commits

variable {queued : List (InMemoryQueuedBatch Json)}

theorem with_queuedWork_eq_iff :
    ({ store with queuedWork := queued } : InMemorySessionStore Json) = store ↔
      queued = store.queuedWork := by
  constructor
  · intro h
    exact congrArg queuedWork h
  · rintro rfl
    rfl

theorem with_claims_eq_iff {pending : List (InMemoryPendingTurnInput Json)} :
    ({ store with queuedWork := queued, pendingTurnInputs := pending } :
        InMemorySessionStore Json) = store ↔
      queued = store.queuedWork ∧ pending = store.pendingTurnInputs := by
  constructor
  · intro h
    exact ⟨congrArg queuedWork h, congrArg pendingTurnInputs h⟩
  · rintro ⟨rfl, rfl⟩
    rfl

variable {commit : RuntimeCommit Json}

theorem not_tears_of_settles
    (queue : queueScheme.Settles commit.completedQueueClaims store.queuedWork)
    (inputs : turnInputScheme.Settles commit.completedTurnInputClaims store.pendingTurnInputs) :
    ¬ Tears commit store := by
  rintro ((htorn | ⟨-, -, hfails⟩) | ⟨-, htorn⟩)
  · exact htorn.not_settles queue
  · exact hfails inputs
  · exact htorn.not_settles inputs

theorem tears_iff_of_queue_fails
    (fails : ¬ queueScheme.Settles commit.completedQueueClaims store.queuedWork) :
    Tears commit store ↔ queueScheme.Torn commit.completedQueueClaims store.queuedWork := by
  constructor
  · rintro ((htorn | ⟨hsettles, -⟩) | ⟨hsettles, -⟩)
    · exact htorn
    · exact absurd hsettles fails
    · exact absurd hsettles fails
  · exact fun htorn => Or.inl (Or.inl htorn)

theorem not_tears_iff_of_inputs_fail
    (queue : queueScheme.Settles commit.completedQueueClaims store.queuedWork)
    (fails : ¬ turnInputScheme.Settles commit.completedTurnInputClaims
      store.pendingTurnInputs) :
    ¬ Tears commit store ↔ (∀ c ∈ commit.completedQueueClaims, c.batchIds = []) ∧
      ¬ turnInputScheme.Torn commit.completedTurnInputClaims store.pendingTurnInputs := by
  constructor
  · intro hwhole
    refine ⟨?_, fun htorn => hwhole (Or.inr ⟨queue, htorn⟩)⟩
    intro c hc
    by_contra hnames
    exact hwhole (Or.inl (Or.inr ⟨queue, ⟨c, hc, hnames⟩, fails⟩))
  · rintro ⟨hempty, hinputs⟩ ((htorn | ⟨-, ⟨c, hc, hnames⟩, -⟩) | ⟨-, htorn⟩)
    · exact htorn.not_settles queue
    · exact hnames (hempty c hc)
    · exact hinputs htorn

theorem commit_unchanged_iff (host : Host) (commit : RuntimeCommit Json) :
    ((step (host, .commitRuntimeState commit) store).1.isError = true →
        (step (host, .commitRuntimeState commit) store).2 = store) ↔
      FailsCleanly (host, .commitRuntimeState commit) store := by
  have houtcome := commitRuntimeState_outcome host store commit
  simp only [step, FailsCleanly, Prod.map_fst, Prod.map_snd, id_eq]
  generalize store.commitRuntimeState host commit = out at houtcome
  cases houtcome with
  | rejected e front => simp [front]
  | replayed result bound stored =>
    have hfront : ¬ PassesFront host commit store := by
      rintro ⟨-, hunknown, -⟩
      simp [hunknown] at stored
    simp [Reply.isError, hfront]
  | queueExpired e front fails =>
    rw [with_queuedWork_eq_iff, completeQueueClaims, ClaimScheme.settle_rows_eq_iff fails,
      tears_iff_of_queue_fails fails]
    simp [Reply.isError, front]
  | inputsExpired e front queue fails =>
    rw [with_claims_eq_iff, ClaimScheme.remaining_eq_iff queue, completeTurnInputClaims,
      ClaimScheme.settle_rows_eq_iff fails, not_tears_iff_of_inputs_fail queue fails]
    simp [Reply.isError, front, queueScheme]
  | applied front queue inputs =>
    simp [Reply.isError, not_tears_of_settles queue inputs]

end Commits

section Claims

theorem claim_error_unchanged (host : Host) (sessionId : String)
    (fence : SessionExecutionLeaseFence) (owner : LeaseOwnerIdentity) (leaseTtlMs : Nat)
    (kind : QueuedWorkClaimKind) (e : StoreError)
    (sorted : store.queuedWork.Pairwise enqueueOrder) :
    (store.claimReadyQueuedWorkInMemory host sessionId fence owner leaseTtlMs kind).1 = .error e →
      (store.claimReadyQueuedWorkInMemory host sessionId fence owner leaseTtlMs kind).2 =
        store := by
  rw [claimReadyQueuedWorkInMemory]
  split
  · exact fun _ => rfl
  · split
    · exact fun _ => rfl
    · dsimp only
      -- the rows are put in order before they are classified
      have hsame : ({ store with queuedWork := store.queuedWork.insertionSort enqueueOrder } :
          InMemorySessionStore Json) = store := by
        rw [with_queuedWork_eq_iff]
        exact sorted.insertionSort_eq
      split
      · exact fun _ => hsame
      · split
        · exact fun _ => hsame
        · split
          · exact fun _ => hsame
          · simp

theorem turnInputClaim_error_unchanged (host : Host) (sessionId : String)
    (fence : SessionExecutionLeaseFence) (owner : LeaseOwnerIdentity)
    (leaseTtlMs maxInputs : Nat) (mode : TurnInputClaimMode) (e : StoreError) :
    (store.claimPendingTurnInputsInMemory host sessionId fence owner leaseTtlMs maxInputs
        mode).1 = .error e →
      (store.claimPendingTurnInputsInMemory host sessionId fence owner leaseTtlMs maxInputs
        mode).2 = store := by
  rw [claimPendingTurnInputsInMemory]
  split
  · exact fun _ => rfl
  · split
    · exact fun _ => rfl
    · dsimp only
      split
      · simp
      · simp

theorem renewRows_eq_iff {claim : QueuedWorkClaim Json} {expiresAt : Nat}
    {rows : List (InMemoryQueuedBatch Json)} :
    renewRows claim expiresAt rows = rows ↔
      ∀ row ∈ rows, row.claimedBy claim.sessionId claim.claimId claim.leaseToken = true →
        row.claimExpiresAtMs = expiresAt := by
  rw [renewRows]
  induction rows with
  | nil => simp
  | cons row rows ih =>
    rw [map_cons, cons.injEq, ih, forall_mem_cons]
    refine and_congr_left fun _ => ?_
    by_cases hclaimed : row.claimedBy claim.sessionId claim.claimId claim.leaseToken = true
    · rw [if_pos hclaimed]
      constructor
      · intro hrow _
        rw [← hrow]
        rfl
      · intro hexpires
        rw [← hexpires hclaimed]
        rfl
    · rw [if_neg hclaimed]
      simp [hclaimed]

theorem renew_unchanged_iff (host : Host) (claim : QueuedWorkClaim Json) (leaseTtlMs : Nat) :
    ((step (host, .renewQueuedWorkClaim claim leaseTtlMs) store).1.isError = true →
        (step (host, .renewQueuedWorkClaim claim leaseTtlMs) store).2 = store) ↔
      FailsCleanly (host, .renewQueuedWorkClaim claim leaseTtlMs) store := by
  have hrows : ({ store with
        queuedWork := renewRows claim (saturatingAdd host.timestampMs leaseTtlMs)
          store.queuedWork } : InMemorySessionStore Json) = store ↔
      ∀ row ∈ store.queuedWork,
        row.claimedBy claim.sessionId claim.claimId claim.leaseToken = true →
          row.claimExpiresAtMs = saturatingAdd host.timestampMs leaseTtlMs :=
    with_queuedWork_eq_iff.trans renewRows_eq_iff
  have hcond : FailsCleanly (host, .renewQueuedWorkClaim claim leaseTtlMs) store ↔
      (store.queuedWork.countP (·.claimedBy claim.sessionId claim.claimId claim.leaseToken) ≠
        claim.batches.length → ∀ row ∈ store.queuedWork,
          row.claimedBy claim.sessionId claim.claimId claim.leaseToken = true →
            row.claimExpiresAtMs = saturatingAdd host.timestampMs leaseTtlMs) := by
    simp only [FailsCleanly, RenewsAndFails, not_and, not_exists, not_not]
  rw [hcond, ← hrows]
  simp only [step, renewQueuedWorkClaim]
  split
  · rename_i hcount
    simp only [Prod.map_fst, Prod.map_snd, id_eq, Reply.isError, true_implies]
    exact ⟨fun hsame _ => hsame, fun hsame => hsame hcount⟩
  · rename_i hcount
    rw [not_not] at hcount
    simp [Reply.isError, hcount]

end Claims

section Infallible

variable (store)

variable (host : Host)

variable (sessionId : String)

variable (owner : LeaseOwnerIdentity)

theorem tryClaimSessionExecutionLease_ok (leaseTtlMs : Nat) :
    ∃ a, (store.tryClaimSessionExecutionLease host sessionId owner leaseTtlMs).1 = .ok a := by
  rw [tryClaimSessionExecutionLease]
  dsimp only
  split
  · split
    · exact ⟨_, rfl⟩
    · exact ⟨_, rfl⟩
  · exact ⟨_, rfl⟩

theorem reclaimSessionExecutionLease_ok (observed : SessionExecutionLeaseFence) (leaseTtlMs : Nat) :
    ∃ a, (store.reclaimSessionExecutionLease host sessionId owner observed leaseTtlMs).1 =
      .ok a := by
  rw [reclaimSessionExecutionLease]
  dsimp only
  split
  · split
    · exact ⟨_, rfl⟩
    · exact ⟨_, rfl⟩
  · exact ⟨_, rfl⟩

theorem enqueuePendingTurnInput_ok (draft : PendingTurnInputDraft Json) :
    ∃ a, (store.enqueuePendingTurnInput host draft).1 = .ok a := by
  rw [enqueuePendingTurnInput]
  split
  · exact ⟨_, rfl⟩
  · exact ⟨_, rfl⟩

theorem cancelPendingTurnInput_ok (inputId : String) :
    ∃ a, (store.cancelPendingTurnInput host sessionId inputId).1 = .ok a := by
  rw [cancelPendingTurnInput]
  split
  · exact ⟨_, rfl⟩
  · split
    · exact ⟨_, rfl⟩
    · exact ⟨_, rfl⟩

theorem enqueueQueuedWork_ok (draft : QueuedWorkBatchDraft Json) :
    ∃ a, (store.enqueueQueuedWork host draft).1 = .ok a := by
  rw [enqueueQueuedWork]
  split
  · exact ⟨_, rfl⟩
  · exact ⟨_, rfl⟩

theorem cancelQueuedWorkBatch_ok (batchId : String) :
    ∃ a, (store.cancelQueuedWorkBatch host sessionId batchId).1 = .ok a := by
  rw [cancelQueuedWorkBatch]
  split
  · exact ⟨_, rfl⟩
  · split
    · exact ⟨_, rfl⟩
    · exact ⟨_, rfl⟩

theorem vacuum_ok : ∃ a, store.vacuum.1 = .ok a := by
  rw [vacuum]
  split
  · exact ⟨_, rfl⟩
  · exact ⟨_, rfl⟩

end Infallible

/-- In every reachable state, a call that returns an error leaves the store as it
was, unless it is a commit that tears or a renewal that fails after writing. -/
theorem failed_call_unchanged_iff (reached : Reachable step .new store) (call : Host × Op Json) :
    ((step call store).1.isError = true → (step call store).2 = store) ↔
      FailsCleanly call store := by
  have hsorted := (ordered_of_reachable reached).sorted
  obtain ⟨host, op⟩ := call
  cases op with
  | commitRuntimeState commit => exact commit_unchanged_iff host commit
  | renewQueuedWorkClaim claim leaseTtlMs => exact renew_unchanged_iff host claim leaseTtlMs
  | renewSessionExecutionLease fence leaseTtlMs =>
    refine iff_of_true ?_ trivial
    simp only [step, renewSessionExecutionLease]
    split
    · exact fun _ => rfl
    · split
      · simp [Reply.isError]
      · exact fun _ => rfl
  | claimLeadingReadySessionCommand sessionId fence owner leaseTtlMs =>
    refine iff_of_true ?_ trivial
    intro hfailed
    cases hanswer : (store.claimLeadingReadySessionCommand host sessionId fence owner
      leaseTtlMs).1 with
    | error e => exact claim_error_unchanged host _ _ _ _ _ e hsorted hanswer
    | ok _ => simp [step, hanswer, Reply.isError] at hfailed
  | claimReadyQueuedWork sessionId fence owner boundary leaseTtlMs maxBatches =>
    refine iff_of_true ?_ trivial
    intro hfailed
    cases hanswer : (store.claimReadyQueuedWork host sessionId fence owner boundary
      leaseTtlMs maxBatches).1 with
    | error e => exact claim_error_unchanged host _ _ _ _ _ e hsorted hanswer
    | ok _ => simp [step, hanswer, Reply.isError] at hfailed
  | claimActiveTurnInputs sessionId fence owner turnId checkpoint leaseTtlMs maxInputs =>
    refine iff_of_true ?_ trivial
    intro hfailed
    cases hanswer : (store.claimActiveTurnInputs host sessionId fence owner turnId
      checkpoint leaseTtlMs maxInputs).1 with
    | error e => exact turnInputClaim_error_unchanged host _ _ _ _ _ _ e hanswer
    | ok _ => simp [step, hanswer, Reply.isError] at hfailed
  | claimNextTurnInputs sessionId fence owner leaseTtlMs maxInputs =>
    refine iff_of_true ?_ trivial
    intro hfailed
    cases hanswer : (store.claimNextTurnInputs host sessionId fence owner leaseTtlMs
      maxInputs).1 with
    | error e => exact turnInputClaim_error_unchanged host _ _ _ _ _ _ e hanswer
    | ok _ => simp [step, hanswer, Reply.isError] at hfailed
  | tryClaimSessionExecutionLease sessionId owner leaseTtlMs =>
    obtain ⟨a, hok⟩ := tryClaimSessionExecutionLease_ok store host sessionId owner leaseTtlMs
    exact iff_of_true (by simp [step, hok, Reply.isError]) trivial
  | reclaimSessionExecutionLease sessionId owner observed leaseTtlMs =>
    obtain ⟨a, hok⟩ := reclaimSessionExecutionLease_ok store host sessionId owner observed
      leaseTtlMs
    exact iff_of_true (by simp [step, hok, Reply.isError]) trivial
  | enqueuePendingTurnInput draft =>
    obtain ⟨a, hok⟩ := enqueuePendingTurnInput_ok store host draft
    exact iff_of_true (by simp [step, hok, Reply.isError]) trivial
  | cancelPendingTurnInput sessionId inputId =>
    obtain ⟨a, hok⟩ := cancelPendingTurnInput_ok store host sessionId inputId
    exact iff_of_true (by simp [step, hok, Reply.isError]) trivial
  | enqueueQueuedWork draft =>
    obtain ⟨a, hok⟩ := enqueueQueuedWork_ok store host draft
    exact iff_of_true (by simp [step, hok, Reply.isError]) trivial
  | cancelQueuedWorkBatch sessionId batchId =>
    obtain ⟨a, hok⟩ := cancelQueuedWorkBatch_ok store host sessionId batchId
    exact iff_of_true (by simp [step, hok, Reply.isError]) trivial
  | vacuum =>
    obtain ⟨a, hok⟩ := vacuum_ok store
    exact iff_of_true (by simp [step, hok, Reply.isError]) trivial
  | releaseSessionExecutionLease | abandonTurnInputClaim | abandonQueuedWorkClaim
  | saveSessionMeta | tombstoneNodes =>
    exact iff_of_true (fun hfailed => absurd hfailed Bool.false_ne_true) trivial

section Example

def wakeDraft : QueuedWorkBatchDraft Unit := processWakeBatchDraft ⟨"s", "p", 1, ()⟩

/-- The worker takes the session's lease, a batch is enqueued, and the worker
claims it. -/
def claimOneBatch : List (Host × Op Unit) :=
  [(.quiet 0, .tryClaimSessionExecutionLease "s" worker 100),
    (.quiet 1, .enqueueQueuedWork wakeDraft),
    (.quiet 2, .claimReadyQueuedWork "s" workerFence worker .idle 50 1)]

def claimedStore : InMemorySessionStore Unit := (perform step claimOneBatch ([], .new)).2

theorem claimedStore_reachable : Reachable step .new claimedStore :=
  (Run.nil.perform claimOneBatch).reachable

/-- The worker's completion of its batch. -/
def batchCompletion : QueuedWorkCompletion where
  sessionId := "s"
  claimId := queuedWorkClaimId 1 1
  leaseToken := claimLeaseToken "s" worker (queuedWorkClaimId 1 1) 2
  batchIds := [queuedWorkBatchId 1]

/-- A completion of an input that was never claimed. -/
def strayCompletion : TurnInputCompletion where
  sessionId := "s"
  claimId := "stray"
  leaseToken := "stray"
  inputIds := ["input"]

def strayCommit : RuntimeCommit Unit :=
  { RuntimeCommit.bare "s" workerFence with completedTurnInputClaims := [strayCompletion] }

def tearingCommit : RuntimeCommit Unit :=
  { strayCommit with completedQueueClaims := [batchCompletion] }

/-- A claim with the id and the token of the worker's, but without its batch. -/
def emptiedClaim : QueuedWorkClaim Unit where
  sessionId := "s"
  claimId := queuedWorkClaimId 1 1
  owner := worker
  leaseToken := claimLeaseToken "s" worker (queuedWorkClaimId 1 1) 2
  fencingToken := 1
  claimedAtEpochMs := 2
  expiresAtEpochMs := 52
  batches := []

/-- The stray completion alone fails and changes nothing. -/
theorem failed_call_unchanged_stray :
    (step (.quiet 3, .commitRuntimeState strayCommit) claimedStore).1.isError = true ∧
      (step (.quiet 3, .commitRuntimeState strayCommit) claimedStore).2 = claimedStore := by
  have hfailed : (step (.quiet 3, .commitRuntimeState strayCommit) claimedStore).1.isError =
      true := by decide
  refine ⟨hfailed, (failed_call_unchanged_iff claimedStore_reachable
    (.quiet 3, .commitRuntimeState strayCommit)).mpr ?_ hfailed⟩
  rintro - ((⟨done, c, rest, hshape, -⟩ | ⟨-, ⟨c, hc, -⟩, -⟩) |
    ⟨-, done, c, rest, hshape, -, -, d, hd, -⟩)
  · simp [strayCommit, RuntimeCommit.bare] at hshape
  · simp [strayCommit, RuntimeCommit.bare] at hc
  · have hlength := congrArg length hshape
    simp only [strayCommit, length_append, length_cons, length_nil] at hlength
    have hpos := length_pos_of_mem hd
    omega

/-- Together with the completion of the batch it fails too, and the batch is gone.
The renewal of the emptied claim fails, and the batch has a later expiry. -/
theorem failed_call_changes_queue :
    let torn := step (.quiet 3, .commitRuntimeState tearingCommit) claimedStore
    let renewed := step (.quiet 40, .renewQueuedWorkClaim emptiedClaim 50) claimedStore
    Reachable step .new claimedStore ∧ (torn.1.isError = true ∧ claimedStore.queuedWork.length = 1 ∧
        torn.2.queuedWork.length = 0 ∧ torn.2 ≠ claimedStore) ∧
      (renewed.1.isError = true ∧ claimedStore.queuedWork.map (·.claimExpiresAtMs) = [52] ∧
        renewed.2.queuedWork.map (·.claimExpiresAtMs) = [90] ∧ renewed.2 ≠ claimedStore) := by
  intro torn renewed
  refine ⟨claimedStore_reachable, ?_, ?_⟩
  · have hbefore : claimedStore.queuedWork.length = 1 := by decide
    have hafter : torn.2.queuedWork.length = 0 := by decide
    refine ⟨by decide, hbefore, hafter, ?_⟩
    intro hsame
    rw [hsame, hbefore] at hafter
    exact absurd hafter (by decide)
  · have hbefore : claimedStore.queuedWork.map (·.claimExpiresAtMs) = [52] := by decide
    have hafter : renewed.2.queuedWork.map (·.claimExpiresAtMs) = [90] := by decide
    refine ⟨by decide, hbefore, hafter, ?_⟩
    intro hsame
    rw [hsame, hbefore] at hafter
    exact absurd hafter (by decide)

end Example

end FailedCalls
