import Lash.FailedCalls

/-!
# Source keys over the life of a store

An enqueue is answered with the batch that is queued under its source key, if
there is one. The rows are all that the store remembers of a key, so once the
batch is completed the key is free again. Here is what holds of a producer that
does not come back with it.
-/

namespace SourceKeys

open StoreTypes QueuedWork RuntimeCommits ClaimTables InMemoryStore QueueSteps Runs FailedCalls List

variable {Json : Type} {host : Host} {store : InMemorySessionStore Json} {op : Op Json}
  {reply : Reply Json} {rows : List (InMemoryQueuedBatch Json)} {nextSeq : Nat}
  {history : List (StoreEntry Json)}

/-- The batch was enqueued for this session under this key. -/
def under (sessionId sourceKey : String) (batch : QueuedWorkBatch Json) : Bool :=
  batch.sessionId == sessionId && batch.sourceKey == some sourceKey

/-- The batches that the completions own. -/
def ownedBatches (claims : List QueuedWorkCompletion) (rows : List (InMemoryQueuedBatch Json)) :
    List (QueuedWorkBatch Json) :=
  (rows.filter fun row => claims.any fun c => queueScheme.owns c row).map (·.batch)

/-- The batches that the call completes. -/
def completedBatches (e : StoreEntry Json) : List (QueuedWorkBatch Json) :=
  ownedBatches (carriedOut e.before e.input.2 e.output) e.before.queuedWork

/-- How many batches of the key the history has completed. -/
def completedUnder (sessionId sourceKey : String) (history : List (StoreEntry Json)) : Nat :=
  (history.map fun e => (completedBatches e).countP (under sessionId sourceKey)).sum

/-- How many batches of the key are queued. -/
def queuedUnder (sessionId sourceKey : String) (rows : List (InMemoryQueuedBatch Json)) : Nat :=
  (rows.map (·.batch)).countP (under sessionId sourceKey)

/-- The call enqueues a draft from the source of one of these batches. -/
def replays (op : Op Json) (batches : List (QueuedWorkBatch Json)) : Bool :=
  match op with
  | .enqueueQueuedWork draft => batches.any draft.sameSource
  | _ => false

/-- No call of the history enqueues a draft from the source of a batch that an
earlier call has completed. -/
def NeverReplayed (history : List (StoreEntry Json)) : Prop :=
  history.Pairwise fun later earlier => replays later.input.2 (completedBatches earlier) = false

instance (history : List (StoreEntry Json)) : Decidable (NeverReplayed history) :=
  inferInstanceAs (Decidable (List.Pairwise _ _))

section Moves

variable {sessionId sourceKey : String}

theorem ownedBatches_nil : ownedBatches [] rows = [] := by
  simp [ownedBatches]

/-- A row is owned by a completion or remains. -/
theorem queuedUnder_remaining (claims : List QueuedWorkCompletion) :
    queuedUnder sessionId sourceKey (queueScheme.remaining claims rows) +
        (ownedBatches claims rows).countP (under sessionId sourceKey) =
      queuedUnder sessionId sourceKey rows := by
  have hperm := filter_append_perm
    (fun row => claims.any fun c => queueScheme.owns c row) rows
  have hleft : rows.filter (fun row => !claims.any fun c => queueScheme.owns c row) =
      queueScheme.remaining claims rows := by
    refine filter_congr fun row _ => ?_
    rw [not_any_eq_all_not]
  have hcount := (hperm.map (·.batch)).countP_eq (under sessionId sourceKey)
  rw [map_append, countP_append, hleft] at hcount
  rw [queuedUnder, queuedUnder, ownedBatches]
  omega

/-- The move adds no batch of the key, or it is the enqueue of a draft of the key,
none of which is queued. -/
inductive Accounted (store : InMemorySessionStore Json) (op : Op Json) (reply : Reply Json)
    (sessionId sourceKey : String) (rows : List (InMemoryQueuedBatch Json)) : Prop
  | kept (le : queuedUnder sessionId sourceKey rows +
        (ownedBatches (carriedOut store op reply) store.queuedWork).countP
          (under sessionId sourceKey) ≤ queuedUnder sessionId sourceKey store.queuedWork)
  | added (draft : QueuedWorkBatchDraft Json) (enqueue : op = .enqueueQueuedWork draft)
      (source : ∀ batch, under sessionId sourceKey batch = true → draft.sameSource batch = true)
      (one : queuedUnder sessionId sourceKey rows = 1)
      (nothing : carriedOut store op reply = [])

theorem Accounted.of_batches (nothing : carriedOut store op reply = [])
    (same : (rows.map (·.batch)).Subperm (store.queuedWork.map (·.batch))) :
    Accounted store op reply sessionId sourceKey rows := by
  refine .kept ?_
  rw [nothing, ownedBatches_nil, countP_nil, Nat.add_zero]
  exact same.countP_le _

theorem sortedRows_subperm :
    ((sortedRows store).map (·.batch)).Subperm (store.queuedWork.map (·.batch)) :=
  ((List.perm_insertionSort _ _).map _).subperm

theorem enqueue_accounted (draft : QueuedWorkBatchDraft Json)
    (absent : ∀ row ∈ store.queuedWork, draft.sameSource row.batch = false) :
    Accounted store (.enqueueQueuedWork draft) (.batch (.ok (nextBatch host draft store)))
      sessionId sourceKey
      ((store.queuedWork ++ [InMemoryQueuedBatch.fresh (nextBatch host draft store)]).insertionSort
        enqueueOrder) := by
  have hcount : queuedUnder sessionId sourceKey
      ((store.queuedWork ++ [InMemoryQueuedBatch.fresh (nextBatch host draft store)]).insertionSort
        enqueueOrder) =
      queuedUnder sessionId sourceKey store.queuedWork +
        if under sessionId sourceKey (nextBatch host draft store) = true then 1 else 0 := by
    have hperm := (perm_insertionSort enqueueOrder
      (store.queuedWork ++ [InMemoryQueuedBatch.fresh (nextBatch host draft store)])).map (·.batch)
    rw [queuedUnder, hperm.countP_eq, map_append, countP_append, queuedUnder]
    congr 1
    exact countP_singleton
  by_cases hunder : under sessionId sourceKey (nextBatch host draft store) = true
  · have hsource : ∀ batch, under sessionId sourceKey batch = true →
        draft.sameSource batch = true := by
      intro batch hbatch
      simp only [under, nextBatch, QueuedWorkBatchDraft.stored, Bool.and_eq_true, beq_iff_eq]
        at hunder hbatch
      simp [QueuedWorkBatchDraft.sameSource, hunder, hbatch]
    have hnone : queuedUnder sessionId sourceKey store.queuedWork = 0 := by
      rw [queuedUnder, countP_eq_zero]
      intro batch hbatch hsame
      obtain ⟨row, hrow, rfl⟩ := mem_map.mp hbatch
      have habsent := absent row hrow
      rw [hsource _ hsame] at habsent
      exact absurd habsent (by simp)
    refine .added draft rfl hsource ?_ rfl
    rw [hcount, hnone, if_pos hunder]
  · refine .kept (Nat.le_of_eq ?_)
    have hnothing : carriedOut store (.enqueueQueuedWork draft)
        (.batch (.ok (nextBatch host draft store))) = [] := rfl
    rw [hcount, if_neg hunder, hnothing, ownedBatches_nil]
    rfl

theorem accounted (sessionId sourceKey : String)
    (move : QueueMove host store op reply rows nextSeq) :
    Accounted store op reply sessionId sourceKey rows := by
  cases move with
  | idle quiet same =>
    rcases same with rfl | rfl
    · exact .of_batches quiet.carriedOut (List.Subperm.refl _)
    · exact .of_batches quiet.carriedOut sortedRows_subperm
  | enqueued draft absent => exact enqueue_accounted draft absent
  | claimed claimSession owner leaseTtlMs n head rest ready =>
    refine .of_batches ?_ ?_
    · cases op with
      | commitRuntimeState commit => rfl
      | _ => rfl
    · rw [map_batch_stampRows]
      exact sortedRows_subperm
  | renewed claim leaseTtlMs answer =>
    refine .of_batches rfl ?_
    rw [map_batch_renewRows]
  | abandoned claim =>
    refine .of_batches rfl ?_
    rw [map_batch_clearRows]
  | cancelled claimSession batchId row found =>
    exact .of_batches rfl (eraseP_sublist.map _).subperm
  | torn commit e front fails =>
    exact .of_batches rfl ((completeQueueClaims_sublist _).map _).subperm
  | stranded commit e front queue fails =>
    exact .of_batches rfl (ClaimScheme.remaining_sublist.map _).subperm
  | completed commit result front queue =>
    refine .kept (Nat.le_of_eq ?_)
    have hcarried : carriedOut store (.commitRuntimeState commit) (.commit (.ok result)) =
        commit.completedQueueClaims := by
      simp only [carriedOut, front.2.1]
    rw [hcarried]
    exact queuedUnder_remaining _

end Moves

/-- At most one batch of a key is queued or was completed. -/
theorem completed_add_queued_le_one (run : StoreRun history store)
    (fresh : NeverReplayed history) (sessionId sourceKey : String) :
    completedUnder sessionId sourceKey history +
      queuedUnder sessionId sourceKey store.queuedWork ≤ 1 := by
  refine run.invariant (P := fun history s => NeverReplayed history →
    completedUnder sessionId sourceKey history +
      queuedUnder sessionId sourceKey s.queuedWork ≤ 1) ?_ ?_ fresh
  · intro _
    exact Nat.zero_le 1
  · intro history s call _ hold hfresh
    obtain ⟨hnew, hearlier⟩ := pairwise_cons.mp hfresh
    have hle := hold hearlier
    have hsum : completedUnder sessionId sourceKey (entryAt step call s :: history) =
        (ownedBatches (carriedOut s call.2 (step call s).1) s.queuedWork).countP
            (under sessionId sourceKey) + completedUnder sessionId sourceKey history := by
      simp [completedUnder, completedBatches, entryAt]
    rw [hsum]
    cases accounted sessionId sourceKey (step_queueMove call s) with
    | kept hkept => omega
    | added draft enqueue source one nothing =>
      -- what was completed under the key would be a source of the draft
      have hnone : completedUnder sessionId sourceKey history = 0 := by
        refine sum_eq_zero fun n hn => ?_
        obtain ⟨d, hd, rfl⟩ := mem_map.mp hn
        rw [countP_eq_zero]
        intro batch hbatch hunder
        have hother := hnew d hd
        simp only [entryAt, enqueue, replays, any_eq_false] at hother
        exact hother batch hbatch (source batch hunder)
      rw [nothing, ownedBatches_nil, countP_nil, hnone, one]

/-- In every run in which no producer comes back with a source key once a batch
was completed under it, at most one batch of each key is ever completed. -/
theorem source_key_completed_once (run : StoreRun history store)
    (fresh : NeverReplayed history) (sessionId sourceKey : String) :
    completedUnder sessionId sourceKey history ≤ 1 := by
  have hle := completed_add_queued_le_one run fresh sessionId sourceKey
  omega

section Example

/-- The wake is completed, and the producer goes on with the next event. -/
def wakeOnce : List (Host × Op Unit) :=
  claimOneBatch ++ [(.quiet 3, .commitRuntimeState
      { RuntimeCommit.bare "s" workerFence with completedQueueClaims := [batchCompletion] }),
    (.quiet 4, .enqueueQueuedWork (processWakeBatchDraft ⟨"s", "p", 2, ()⟩))]

/-- The worker's completion of the second batch of the queue. -/
def secondCompletion : QueuedWorkCompletion where
  sessionId := "s"
  claimId := queuedWorkClaimId 2 1
  leaseToken := claimLeaseToken "s" worker (queuedWorkClaimId 2 1) 5
  batchIds := [queuedWorkBatchId 2]

/-- The wake is completed, enqueued again by a producer that has crashed, and
completed again. -/
def wakeTwice : List (Host × Op Unit) :=
  claimOneBatch ++ [(.quiet 3, .commitRuntimeState
      { RuntimeCommit.bare "s" workerFence with completedQueueClaims := [batchCompletion] }),
    (.quiet 4, .enqueueQueuedWork wakeDraft),
    (.quiet 5, .claimReadyQueuedWork "s" workerFence worker .idle 50 1),
    (.quiet 6, .commitRuntimeState
      { RuntimeCommit.bare "s" workerFence with completedQueueClaims := [secondCompletion] })]

theorem source_key_completed_once_wake :
    completedUnder "s" (wakeSourceKey (⟨"s", "p", 1, ()⟩ : ProcessWakeDelivery Unit))
      (perform step wakeOnce ([], .new)).1 ≤ 1 :=
  source_key_completed_once (Run.nil.perform wakeOnce) (by decide) _ _

theorem source_key_completed_twice :
    StoreRun (perform step wakeTwice ([], .new)).1 (perform step wakeTwice ([], .new)).2 ∧
      completedUnder "s" (wakeSourceKey (⟨"s", "p", 1, ()⟩ : ProcessWakeDelivery Unit))
        (perform step wakeTwice ([], .new)).1 = 2 := by
  refine ⟨Run.nil.perform wakeTwice, ?_⟩
  decide

end Example

end SourceKeys
