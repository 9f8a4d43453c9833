import Lash.StoreSteps

/-!
# What each call does to the queue

The ways in which a call can change the rows of queued work, with what the
caller learns from it. Everything later modules know about the queue over whole
histories is derived from these moves.
-/

namespace QueueSteps

open StoreTypes QueuedWork RuntimeCommits ClaimTables InMemoryStore StoreSteps Runs List
  InMemorySessionStore ClaimScheme

variable {Json : Type}

section Replies

/-- The claim over queued work that a call hands out. -/
def granted : Reply Json → Option (QueuedWorkClaim Json)
  | .queueClaim (.ok claim) => claim
  | _ => none

/-- The batch that a call takes out of the queue at its producer's wish. -/
def cancelledBatch : Reply Json → Option (QueuedWorkBatch Json)
  | .cancelledBatch (.ok batch) => batch
  | _ => none

/-- The batch that a producer is told to have in the queue. -/
def queuedBatch : Reply Json → Option (QueuedWorkBatch Json)
  | .batch (.ok batch) => some batch
  | _ => none

/-- The completions that a call carries out: those of a commit that is accepted
without being known to the ledger. -/
def carriedOut (store : InMemorySessionStore Json) (op : Op Json) (reply : Reply Json) :
    List QueuedWorkCompletion :=
  match op, reply with
  | .commitRuntimeState commit, .commit (.ok _) =>
    match commit.findReplay store.runtimeTurnCommits with
    | .ok none => commit.completedQueueClaims
    | _ => []
  | _, _ => []

/-- The caller learns of no claim and no completion, and of no batch that was
not queued before. -/
structure Quiet (store : InMemorySessionStore Json) (op : Op Json) (reply : Reply Json) :
    Prop where
  granted : granted reply = none
  cancelled : cancelledBatch reply = none
  carriedOut : carriedOut store op reply = []
  queued : ∀ batch ∈ queuedBatch reply, ∃ row ∈ store.queuedWork, row.batch = batch

end Replies

variable (claim : QueuedWorkClaim Json)

/-- Write a new expiry into the rows of a claim. -/
def renewRows (expiresAt : Nat) (rows : List (InMemoryQueuedBatch Json)) :
    List (InMemoryQueuedBatch Json) :=
  rows.map fun row =>
    if row.claimedBy claim.sessionId claim.claimId claim.leaseToken then
      { row with toClaimStamp := row.toClaimStamp.renewed expiresAt }
    else row

/-- Clear the stamp of the rows of a claim. -/
def clearRows (rows : List (InMemoryQueuedBatch Json)) : List (InMemoryQueuedBatch Json) :=
  rows.map fun row =>
    if row.claimedBy claim.sessionId claim.claimId claim.leaseToken then
      { row with toClaimStamp := row.toClaimStamp.cleared }
    else row

def sortedRows (store : InMemorySessionStore Json) : List (InMemoryQueuedBatch Json) :=
  store.queuedWork.insertionSort enqueueOrder

def isBatch (sessionId batchId : String) (row : InMemoryQueuedBatch Json) : Bool :=
  row.batch.sessionId == sessionId && row.batch.batchId == batchId

/-- The batch that an enqueue of this draft stores if its source is not queued. -/
def nextBatch (host : Host) (draft : QueuedWorkBatchDraft Json)
    (store : InMemorySessionStore Json) : QueuedWorkBatch Json :=
  draft.stored (queuedWorkBatchId (saturatingAdd store.queuedWorkNextSeq 1))
    (saturatingAdd store.queuedWorkNextSeq 1) host.timestampMs

/-- The moves of the queue: the operation, its answer, the rows and the counter
after it. -/
inductive QueueMove (host : Host) (store : InMemorySessionStore Json) :
    Op Json → Reply Json → List (InMemoryQueuedBatch Json) → Nat → Prop
  | idle {op : Op Json} {reply : Reply Json} {rows : List (InMemoryQueuedBatch Json)}
      (quiet : Quiet store op reply)
      (same : rows = store.queuedWork ∨ rows = sortedRows store) :
      QueueMove host store op reply rows store.queuedWorkNextSeq
  | enqueued (draft : QueuedWorkBatchDraft Json)
      (absent : ∀ row ∈ store.queuedWork, draft.sameSource row.batch = false) :
      QueueMove host store (.enqueueQueuedWork draft) (.batch (.ok (nextBatch host draft store)))
        ((store.queuedWork ++
          [InMemoryQueuedBatch.fresh (nextBatch host draft store)]).insertionSort
          enqueueOrder)
        (saturatingAdd store.queuedWorkNextSeq 1)
  | claimed {op : Op Json} (sessionId : String) (owner : LeaseOwnerIdentity) (leaseTtlMs n : Nat)
      (head : InMemoryQueuedBatch Json) (rest : List (InMemoryQueuedBatch Json))
      (ready : (sortedRows store).filter (InMemoryQueuedBatch.claimable host sessionId owner) =
        head :: rest) :
      QueueMove host store op
        (.queueClaim (.ok (some (newQueuedWorkClaim host sessionId owner leaseTtlMs head
          (head :: rest.take n)))))
        (updateFirst (InMemoryQueuedBatch.claimable host sessionId owner)
          (.stamp (newQueuedWorkClaim host sessionId owner leaseTtlMs head
            (head :: rest.take n))) (n + 1) (sortedRows store))
        store.queuedWorkNextSeq
  | renewed (claim : QueuedWorkClaim Json) (leaseTtlMs : Nat)
      (answer : Except StoreError (QueuedWorkClaim Json)) :
      QueueMove host store (.renewQueuedWorkClaim claim leaseTtlMs) (.renewedQueueClaim answer)
        (renewRows claim (saturatingAdd host.timestampMs leaseTtlMs) store.queuedWork)
        store.queuedWorkNextSeq
  | abandoned (claim : QueuedWorkClaim Json) :
      QueueMove host store (.abandonQueuedWorkClaim claim) (.done (.ok ()))
        (clearRows claim store.queuedWork) store.queuedWorkNextSeq
  | cancelled (sessionId batchId : String) (row : InMemoryQueuedBatch Json)
      (found : store.queuedWork.find? (isBatch sessionId batchId) = some row) :
      QueueMove host store (.cancelQueuedWorkBatch sessionId batchId)
        (.cancelledBatch (.ok (some row.batch)))
        (store.queuedWork.eraseP (isBatch sessionId batchId)) store.queuedWorkNextSeq
  | torn (commit : RuntimeCommit Json) (e : StoreError)
      (front : PassesFront host commit store)
      (fails : ¬ queueScheme.Settles commit.completedQueueClaims store.queuedWork) :
      QueueMove host store (.commitRuntimeState commit) (.commit (.error e))
        (completeQueueClaims commit.completedQueueClaims store.queuedWork).2
        store.queuedWorkNextSeq
  | stranded (commit : RuntimeCommit Json) (e : StoreError)
      (front : PassesFront host commit store)
      (queue : queueScheme.Settles commit.completedQueueClaims store.queuedWork)
      (fails : ¬ turnInputScheme.Settles commit.completedTurnInputClaims
        store.pendingTurnInputs) :
      QueueMove host store (.commitRuntimeState commit) (.commit (.error e))
        (queueScheme.remaining commit.completedQueueClaims store.queuedWork)
        store.queuedWorkNextSeq
  | completed (commit : RuntimeCommit Json) (result : RuntimeCommitResult Json)
      (front : PassesFront host commit store)
      (queue : queueScheme.Settles commit.completedQueueClaims store.queuedWork) :
      QueueMove host store (.commitRuntimeState commit) (.commit (.ok result))
        (queueScheme.remaining commit.completedQueueClaims store.queuedWork)
        store.queuedWorkNextSeq

section Moves

theorem commit_queueMove (host : Host) (commit : RuntimeCommit Json)
    (store : InMemorySessionStore Json) :
    QueueMove host store (.commitRuntimeState commit)
      (.commit (store.commitRuntimeState host commit).1)
      (store.commitRuntimeState host commit).2.queuedWork
      (store.commitRuntimeState host commit).2.queuedWorkNextSeq := by
  have houtcome := commitRuntimeState_outcome host store commit
  generalize store.commitRuntimeState host commit = out at houtcome
  cases houtcome with
  | rejected e front => exact .idle ⟨rfl, rfl, rfl, by simp [queuedBatch]⟩ (Or.inl rfl)
  | replayed result bound stored =>
    rw [releaseAfterCommit_eq]
    refine .idle ⟨rfl, rfl, ?_, by simp [queuedBatch]⟩ (Or.inl rfl)
    simp only [carriedOut, stored]
  | queueExpired e front fails => exact .torn commit e front fails
  | inputsExpired e front queue fails => exact .stranded commit e front queue fails
  | applied front queue inputs =>
    rw [releaseAfterCommit_eq]
    exact .completed commit _ front queue

theorem enqueue_queueMove (host : Host) (draft : QueuedWorkBatchDraft Json)
    (store : InMemorySessionStore Json) :
    QueueMove host store (.enqueueQueuedWork draft)
      (.batch (store.enqueueQueuedWork host draft).1)
      (store.enqueueQueuedWork host draft).2.queuedWork
      (store.enqueueQueuedWork host draft).2.queuedWorkNextSeq := by
  rw [enqueueQueuedWork]
  cases hfound : store.queuedWork.find? (fun entry => draft.sameSource entry.batch) with
  | some row =>
    have hrow : row ∈ store.queuedWork := mem_of_find?_eq_some hfound
    refine .idle ⟨rfl, rfl, rfl, ?_⟩ (Or.inl rfl)
    intro batch hbatch
    simp only [queuedBatch, Option.mem_def, Option.some.injEq] at hbatch
    exact ⟨row, hrow, hbatch⟩
  | none =>
    rw [find?_eq_none] at hfound
    exact .enqueued draft fun row hrow => by simpa using hfound row hrow

theorem claim_queueMove (host : Host) (sessionId : String) (fence : SessionExecutionLeaseFence)
    (owner : LeaseOwnerIdentity) (leaseTtlMs : Nat) (kind : QueuedWorkClaimKind)
    (store : InMemorySessionStore Json) (op : Op Json)
    (hop : ∀ commit, op ≠ .commitRuntimeState commit) :
    QueueMove host store op
      (.queueClaim (store.claimReadyQueuedWorkInMemory host sessionId fence owner leaseTtlMs
        kind).1)
      (store.claimReadyQueuedWorkInMemory host sessionId fence owner leaseTtlMs
        kind).2.queuedWork
      (store.claimReadyQueuedWorkInMemory host sessionId fence owner leaseTtlMs
        kind).2.queuedWorkNextSeq := by
  have hcarried : ∀ reply, carriedOut store op reply = [] := by
    intro reply
    cases op with
    | commitRuntimeState commit => exact absurd rfl (hop commit)
    | _ => rfl
  have hquiet : ∀ answer : Except StoreError (Option (QueuedWorkClaim Json)),
      granted (.queueClaim answer : Reply Json) = none → Quiet store op (.queueClaim answer) :=
    fun answer hnone => ⟨hnone, rfl, hcarried _, by simp [queuedBatch]⟩
  rw [claimReadyQueuedWorkInMemory]
  split
  · exact .idle (hquiet _ rfl) (Or.inl rfl)
  · split
    · exact .idle (hquiet _ rfl) (Or.inl rfl)
    · dsimp only
      split
      · exact .idle (hquiet _ rfl) (Or.inr rfl)
      · rename_i head rest hready
        split
        · exact .idle (hquiet _ rfl) (Or.inr rfl)
        · split
          · exact .idle (hquiet _ rfl) (Or.inr rfl)
          · rename_i candidates _ hsome
            obtain ⟨n, hn⟩ := Nat.exists_eq_succ_of_ne_zero hsome
            rw [hn, take_succ_cons]
            exact .claimed sessionId owner leaseTtlMs n head rest hready

theorem cancel_queueMove (host : Host) (sessionId batchId : String)
    (store : InMemorySessionStore Json) :
    QueueMove host store (.cancelQueuedWorkBatch sessionId batchId)
      (.cancelledBatch (store.cancelQueuedWorkBatch host sessionId batchId).1)
      (store.cancelQueuedWorkBatch host sessionId batchId).2.queuedWork
      (store.cancelQueuedWorkBatch host sessionId batchId).2.queuedWorkNextSeq := by
  rw [cancelQueuedWorkBatch]
  cases hfound : store.queuedWork.find? (isBatch sessionId batchId) with
  | none =>
    have hfound' : (store.queuedWork.find? fun entry => entry.batch.sessionId == sessionId &&
        entry.batch.batchId == batchId) = none := hfound
    simp only [hfound']
    exact .idle ⟨rfl, rfl, rfl, by simp [queuedBatch]⟩ (Or.inl rfl)
  | some row =>
    have hfound' : (store.queuedWork.find? fun entry => entry.batch.sessionId == sessionId &&
        entry.batch.batchId == batchId) = some row := hfound
    simp only [hfound']
    split
    · exact .idle ⟨rfl, rfl, rfl, by simp [queuedBatch]⟩ (Or.inl rfl)
    · exact .cancelled sessionId batchId row hfound

theorem renew_queueMove (host : Host) (claim : QueuedWorkClaim Json) (leaseTtlMs : Nat)
    (store : InMemorySessionStore Json) :
    QueueMove host store (.renewQueuedWorkClaim claim leaseTtlMs)
      (.renewedQueueClaim (store.renewQueuedWorkClaim host claim leaseTtlMs).1)
      (store.renewQueuedWorkClaim host claim leaseTtlMs).2.queuedWork
      (store.renewQueuedWorkClaim host claim leaseTtlMs).2.queuedWorkNextSeq := by
  rw [renewQueuedWorkClaim]
  dsimp only
  split
  · exact .renewed claim leaseTtlMs _
  · exact .renewed claim leaseTtlMs _

/-- Every call makes one of the moves. -/
theorem step_queueMove (call : Host × Op Json) (store : InMemorySessionStore Json) :
    QueueMove call.1 store call.2 (step call store).1 (step call store).2.queuedWork
      (step call store).2.queuedWorkNextSeq := by
  have hidle : areaOf call.2 ≠ .commits ∧ areaOf call.2 ≠ .queue →
      Quiet store call.2 (step call store).1 →
      QueueMove call.1 store call.2 (step call store).1 (step call store).2.queuedWork
        (step call store).2.queuedWorkNextSeq := by
    intro hother hquiet
    obtain ⟨hrows, hseq⟩ := (step_keeps hother.1).queue hother.2
    rw [hseq]
    exact .idle hquiet (Or.inl hrows)
  obtain ⟨host, op⟩ := call
  cases op with
  | commitRuntimeState commit => exact commit_queueMove host commit store
  | enqueueQueuedWork draft => exact enqueue_queueMove host draft store
  | claimLeadingReadySessionCommand sessionId fence owner leaseTtlMs =>
    exact claim_queueMove host sessionId fence owner leaseTtlMs .leadingSessionCommand store _
      (by simp)
  | claimReadyQueuedWork sessionId fence owner boundary leaseTtlMs maxBatches =>
    exact claim_queueMove host sessionId fence owner leaseTtlMs
      (.turnWork boundary maxBatches) store _ (by simp)
  | renewQueuedWorkClaim claim leaseTtlMs => exact renew_queueMove host claim leaseTtlMs store
  | abandonQueuedWorkClaim claim => exact .abandoned claim
  | cancelQueuedWorkBatch sessionId batchId =>
    exact cancel_queueMove host sessionId batchId store
  | _ => exact hidle (by simp [areaOf]) ⟨rfl, rfl, rfl, by simp [step, queuedBatch]⟩

end Moves

/-- A commit that fails although one of its completions has already taken a batch
out of the queue. -/
def LosesBatches (commit : RuntimeCommit Json) (store : InMemorySessionStore Json) : Prop :=
  queueScheme.Torn commit.completedQueueClaims store.queuedWork ∨
    queueScheme.Settles commit.completedQueueClaims store.queuedWork ∧
      (∃ c ∈ commit.completedQueueClaims, c.batchIds ≠ []) ∧
      ¬ turnInputScheme.Settles commit.completedTurnInputClaims store.pendingTurnInputs

section Order

variable {host : Host} {store : InMemorySessionStore Json} {op : Op Json}
  {reply : Reply Json} {rows : List (InMemoryQueuedBatch Json)} {nextSeq : Nat}

instance : Std.Total (@enqueueOrder Json) :=
  ⟨fun a b => Nat.le_total a.batch.enqueueSeq b.batch.enqueueSeq⟩

instance : IsTrans (InMemoryQueuedBatch Json) enqueueOrder :=
  ⟨fun _ _ _ => Nat.le_trans⟩

theorem pairwise_enqueueOrder : rows.Pairwise enqueueOrder ↔
      (rows.map (·.batch)).Pairwise fun a b => a.enqueueSeq ≤ b.enqueueSeq := by
  rw [pairwise_map]
  rfl

theorem map_batch_renewRows (claim : QueuedWorkClaim Json) (expiresAt : Nat) :
    (renewRows claim expiresAt rows).map (·.batch) = rows.map (·.batch) := by
  rw [renewRows, map_map]
  refine map_congr_left fun row _ => ?_
  simp only [Function.comp_apply]
  split <;> rfl

theorem map_batch_clearRows (claim : QueuedWorkClaim Json) :
    (clearRows claim rows).map (·.batch) = rows.map (·.batch) := by
  rw [clearRows, map_map]
  refine map_congr_left fun row _ => ?_
  simp only [Function.comp_apply]
  split <;> rfl

theorem map_batch_stampRows (claimable : InMemoryQueuedBatch Json → Bool)
    (claim : QueuedWorkClaim Json) (n : Nat) :
    (updateFirst claimable (.stamp claim) n rows).map (·.batch) = rows.map (·.batch) :=
  map_updateFirst fun _ => rfl

theorem completeQueueClaims_sublist (claims : List QueuedWorkCompletion) :
    (completeQueueClaims claims rows).2.Sublist rows := by
  by_cases hsettles : queueScheme.Settles claims rows
  · rw [completeQueueClaims, settle_of_settles hsettles]
    exact remaining_sublist
  · obtain ⟨done, _, _, _, _, _, hrun⟩ := settle_error QueuedWorkCompletion.expired hsettles
    rw [completeQueueClaims, hrun]
    exact remaining_sublist

/-- Only an enqueue adds a batch, and no call changes one. -/
theorem QueueMove.batches (sorted : store.queuedWork.Pairwise enqueueOrder)
    (move : QueueMove host store op reply rows nextSeq) :
    (nextSeq = store.queuedWorkNextSeq ∧
      (rows.map (·.batch)).Sublist (store.queuedWork.map (·.batch))) ∨
    ∃ draft, op = .enqueueQueuedWork draft ∧ reply = .batch (.ok (nextBatch host draft store)) ∧
      (∀ row ∈ store.queuedWork, draft.sameSource row.batch = false) ∧
      nextSeq = saturatingAdd store.queuedWorkNextSeq 1 ∧ rows = (store.queuedWork ++
        [InMemoryQueuedBatch.fresh (nextBatch host draft store)]).insertionSort enqueueOrder := by
  have hsorted : sortedRows store = store.queuedWork := sorted.insertionSort_eq
  cases move with
  | idle quiet same =>
    rw [hsorted, or_self] at same
    rw [same]
    exact Or.inl ⟨rfl, List.Sublist.refl _⟩
  | enqueued draft absent => exact Or.inr ⟨draft, rfl, rfl, absent, rfl, rfl⟩
  | claimed sessionId owner leaseTtlMs n head rest ready =>
    rw [map_batch_stampRows, hsorted]
    exact Or.inl ⟨rfl, List.Sublist.refl _⟩
  | renewed claim leaseTtlMs answer =>
    rw [map_batch_renewRows]
    exact Or.inl ⟨rfl, List.Sublist.refl _⟩
  | abandoned claim =>
    rw [map_batch_clearRows]
    exact Or.inl ⟨rfl, List.Sublist.refl _⟩
  | cancelled sessionId batchId row found =>
    exact Or.inl ⟨rfl, eraseP_sublist.map _⟩
  | torn commit e front fails =>
    exact Or.inl ⟨rfl, (completeQueueClaims_sublist _).map _⟩
  | stranded commit e front queue fails | completed commit result front queue =>
    exact Or.inl ⟨rfl, remaining_sublist.map _⟩

/-- The rows stand in the order in which they were enqueued, none after the
counter. -/
structure Ordered (rows : List (InMemoryQueuedBatch Json)) (nextSeq : Nat) : Prop where
  sorted : rows.Pairwise enqueueOrder
  below : ∀ row ∈ rows, row.batch.enqueueSeq ≤ nextSeq
  bounded : nextSeq ≤ u64Max

theorem Ordered.append_fresh (ordered : Ordered store.queuedWork store.queuedWorkNextSeq)
    (draft : QueuedWorkBatchDraft Json) :
    (store.queuedWork ++ [InMemoryQueuedBatch.fresh (nextBatch host draft store)]).Pairwise
      enqueueOrder := by
  rw [pairwise_append]
  refine ⟨ordered.sorted, pairwise_singleton _ _, ?_⟩
  intro row hrow fresh hfresh
  rw [mem_singleton] at hfresh
  rw [hfresh]
  exact Nat.le_trans (ordered.below row hrow) (le_saturatingAdd ordered.bounded)

theorem QueueMove.ordered (move : QueueMove host store op reply rows nextSeq)
    (ordered : Ordered store.queuedWork store.queuedWorkNextSeq) : Ordered rows nextSeq := by
  rcases move.batches ordered.sorted with ⟨hseq, hsub⟩ | ⟨draft, _, _, _, hseq, hrows⟩
  · refine ⟨?_, ?_, hseq ▸ ordered.bounded⟩
    · rw [pairwise_enqueueOrder]
      exact (pairwise_enqueueOrder.mp ordered.sorted).sublist hsub
    · intro row hrow
      obtain ⟨old, hold, hbatch⟩ := mem_map.mp (hsub.subset (mem_map_of_mem hrow))
      have hbelow := ordered.below old hold
      rw [hbatch] at hbelow
      rw [hseq]
      exact hbelow
  · have hsorted : (store.queuedWork ++
        [InMemoryQueuedBatch.fresh (nextBatch host draft store)]).Pairwise enqueueOrder :=
      ordered.append_fresh draft
    rw [hrows, hseq, hsorted.insertionSort_eq]
    refine ⟨hsorted, ?_, saturatingAdd_le _ _⟩
    intro row hrow
    rcases mem_append.mp hrow with hold | hfresh
    · exact Nat.le_trans (ordered.below row hold) (le_saturatingAdd ordered.bounded)
    · rw [mem_singleton] at hfresh
      rw [hfresh]
      exact Nat.le_refl _

theorem ordered_of_reachable (reached : Reachable step .new store) :
    Ordered store.queuedWork store.queuedWorkNextSeq := by
  refine reached.invariant (P := fun s => Ordered s.queuedWork s.queuedWorkNextSeq) ?_ ?_
  · exact ⟨List.Pairwise.nil, by simp [InMemorySessionStore.new], Nat.zero_le _⟩
  · intro s call hordered
    exact (step_queueMove call s).ordered hordered

end Order

end QueueSteps
