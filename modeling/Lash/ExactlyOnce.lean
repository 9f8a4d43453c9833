import Lash.DecimalNames
import Lash.FailedCalls

/-!
# Queued work is completed exactly once

A run is orderly while no failing commit takes batches with it and no counter has
reached its limit. In an orderly run every stamp on a row comes from a claim
whose id was new when it was handed out, so a claim that has lost one of its
batches can neither be renewed nor completed, and each enqueued batch is in the
queue, cancelled, or completed, and only one of these.
-/

namespace ExactlyOnce

open StoreTypes QueuedWork RuntimeCommits ClaimTables InMemoryStore StoreSteps QueueSteps Runs
  DecimalNames FailedCalls List InMemoryQueuedBatch ClaimScheme

variable {Json : Type} {store : InMemorySessionStore Json} {host : Host} {op : Op Json}
  {reply : Reply Json} {rows : List (InMemoryQueuedBatch Json)} {nextSeq : Nat}
  {claim : QueuedWorkClaim Json} {id : String}

section Names

theorem queuedWorkBatchId_injective {m n : Nat}
    (h : queuedWorkBatchId m = queuedWorkBatchId n) : m = n :=
  tagged_injective h

theorem queuedWorkClaimId_injective {a b c d : Nat}
    (h : queuedWorkClaimId a b = queuedWorkClaimId c d) : a = c ∧ b = d :=
  tagged_pair_injective h

/-- A claim of this id may have been handed out before: the row it is named after
is gone or has counted as far. -/
def Used (rows : List (InMemoryQueuedBatch Json)) (nextSeq : Nat) (id : String) : Prop :=
  ∃ seq fencingToken, id = queuedWorkClaimId seq fencingToken ∧ seq ≤ nextSeq ∧
    ∀ row ∈ rows, row.batch.enqueueSeq = seq → fencingToken ≤ row.claimFencingToken

/-- The rows are numbered in the order of the queue and named by their numbers,
and every claim id on them has been used. -/
structure WellFormed (rows : List (InMemoryQueuedBatch Json)) (nextSeq : Nat) : Prop where
  strict : rows.Pairwise fun a b => a.batch.enqueueSeq < b.batch.enqueueSeq
  below : ∀ row ∈ rows, row.batch.enqueueSeq ≤ nextSeq
  named : ∀ row ∈ rows, row.batch.batchId = queuedWorkBatchId row.batch.enqueueSeq
  used : ∀ row ∈ rows, ∀ id, row.claimId = some id → Used rows nextSeq id

theorem WellFormed.sorted (wf : WellFormed rows nextSeq) : rows.Pairwise enqueueOrder :=
  wf.strict.imp fun hlt => Nat.le_of_lt hlt

theorem nodup_of_numbered
    (strict : rows.Pairwise fun a b => a.batch.enqueueSeq < b.batch.enqueueSeq)
    (named : ∀ row ∈ rows, row.batch.batchId = queuedWorkBatchId row.batch.enqueueSeq) :
    (rows.map (·.batch.batchId)).Nodup := by
  rw [List.Nodup, pairwise_map]
  refine strict.imp_of_mem fun {a b} ha hb hlt hsame => ?_
  rw [named a ha, named b hb] at hsame
  have := queuedWorkBatchId_injective hsame
  omega

theorem WellFormed.distinct (wf : WellFormed rows nextSeq) : (rows.map (·.batch.batchId)).Nodup :=
  nodup_of_numbered wf.strict wf.named

theorem WellFormed.eq_of_batchId (wf : WellFormed rows nextSeq) {a b : InMemoryQueuedBatch Json}
    (ha : a ∈ rows) (hb : b ∈ rows) (h : a.batch.batchId = b.batch.batchId) : a = b :=
  List.inj_on_of_nodup_map wf.distinct ha hb h

end Names

section Moves

/-- The call meets the conditions under which the queue keeps its books: no
failing commit takes batches along, and no counter is at its limit. -/
structure Orderly (host : Host) (op : Op Json) (store : InMemorySessionStore Json) : Prop where
  whole : ∀ commit, op = .commitRuntimeState commit → PassesFront host commit store →
    ¬ LosesBatches commit store
  room : store.queuedWorkNextSeq < u64Max
  fresh : ∀ row ∈ store.queuedWork, row.claimFencingToken < u64Max

/-- The row is as before, or has lost its stamp or got another expiry. -/
structure Restamped (row row' : InMemoryQueuedBatch Json) : Prop where
  batch : row'.batch = row.batch
  counter : row'.claimFencingToken = row.claimFencingToken
  claimId : row'.claimId = row.claimId ∨ row'.claimId = none

theorem Restamped.refl (row : InMemoryQueuedBatch Json) : Restamped row row :=
  ⟨rfl, rfl, Or.inl rfl⟩

theorem Restamped.stamped_before {row row' : InMemoryQueuedBatch Json}
    (same : Restamped row row') (h : row'.claimId = some id) : row.claimId = some id := by
  rcases same.claimId with hsame | hnone
  · rwa [← hsame]
  · rw [hnone] at h
    simp at h

/-- The rows after a claim: those of its batches carry its stamp. -/
def stampRows (claim : QueuedWorkClaim Json) (rows : List (InMemoryQueuedBatch Json)) :
    List (InMemoryQueuedBatch Json) :=
  rows.map fun row =>
    if row.batch.batchId ∈ claim.batches.map (·.batchId) then row.stamp claim else row

/-- The moves that are left to an orderly call. -/
inductive OrderlyMove (store : InMemorySessionStore Json) :
    Op Json → Reply Json → List (InMemoryQueuedBatch Json) → Nat → Prop
  | kept {op : Op Json} {reply : Reply Json} (quiet : Quiet store op reply)
      (g : InMemoryQueuedBatch Json → InMemoryQueuedBatch Json)
      (same : ∀ row, Restamped row (g row)) :
      OrderlyMove store op reply (store.queuedWork.map g) store.queuedWorkNextSeq
  | enqueued {op : Op Json} (batch : QueuedWorkBatch Json)
      (seq : batch.enqueueSeq = store.queuedWorkNextSeq + 1)
      (name : batch.batchId = queuedWorkBatchId batch.enqueueSeq)
      (nothing : carriedOut store op (.batch (.ok batch)) = []) :
      OrderlyMove store op (.batch (.ok batch)) (store.queuedWork ++ [.fresh batch])
        (store.queuedWorkNextSeq + 1)
  | claimed {op : Op Json} (claim : QueuedWorkClaim Json) (head : InMemoryQueuedBatch Json)
      (first : head ∈ store.queuedWork)
      (leads : claim.batches.head? = some head.batch)
      (token : claim.fencingToken = head.claimFencingToken + 1)
      (name : claim.claimId = queuedWorkClaimId head.batch.enqueueSeq claim.fencingToken)
      (queued : ∀ batch ∈ claim.batches, ∃ row ∈ store.queuedWork, row.batch = batch)
      (fresh : ∀ row ∈ store.queuedWork, row.claimFencingToken < u64Max)
      (nothing : carriedOut store op (.queueClaim (.ok (some claim))) = []) :
      OrderlyMove store op (.queueClaim (.ok (some claim))) (stampRows claim store.queuedWork)
        store.queuedWorkNextSeq
  | cancelled {op : Op Json} (p : InMemoryQueuedBatch Json → Bool)
      (row : InMemoryQueuedBatch Json) (found : store.queuedWork.find? p = some row)
      (nothing : carriedOut store op (.cancelledBatch (.ok (some row.batch))) = []) :
      OrderlyMove store op (.cancelledBatch (.ok (some row.batch)))
        (store.queuedWork.eraseP p) store.queuedWorkNextSeq
  | completed {op : Op Json} (claims : List QueuedWorkCompletion)
      (result : RuntimeCommitResult Json)
      (carried : carriedOut store op (.commit (.ok result)) = claims)
      (settles : queueScheme.Settles claims store.queuedWork) :
      OrderlyMove store op (.commit (.ok result))
        (queueScheme.remaining claims store.queuedWork) store.queuedWorkNextSeq

theorem updateFirst_stamp (wf : WellFormed store.queuedWork store.queuedWorkNextSeq)
    (p : InMemoryQueuedBatch Json → Bool) (n : Nat)
    (selected : claim.batches = ((store.queuedWork.filter p).take n).map (·.batch)) :
    updateFirst p (.stamp claim) n store.queuedWork = stampRows claim store.queuedWork := by
  rw [updateFirst_eq_map wf.distinct, stampRows, selected, map_map]
  rfl

theorem restamped_of_ite (c : Bool) (row row' : InMemoryQueuedBatch Json)
    (h : Restamped row row') : Restamped row (if c then row' else row) := by
  cases c with
  | true => exact h
  | false => exact .refl row

/-- An orderly call on a well-formed queue makes an orderly move. -/
theorem orderlyMove (orderly : Orderly host op store)
    (wf : WellFormed store.queuedWork store.queuedWorkNextSeq)
    (move : QueueMove host store op reply rows nextSeq) :
    OrderlyMove store op reply rows nextSeq := by
  have hsorted : sortedRows store = store.queuedWork := wf.sorted.insertionSort_eq
  have hwhole : ∀ {op reply}, Quiet store op reply → rows = store.queuedWork →
      OrderlyMove store op reply rows store.queuedWorkNextSeq := by
    intro op reply hquiet hsame
    have hkept := OrderlyMove.kept hquiet (fun row => row) Restamped.refl
    rw [map_id'] at hkept
    rw [hsame]
    exact hkept
  cases move with
  | idle quiet same =>
    rw [hsorted, or_self] at same
    exact hwhole quiet same
  | enqueued draft absent =>
    have hroom := saturatingAdd_one_of_lt orderly.room
    have happend : (store.queuedWork ++
        [fresh (nextBatch host draft store)]).Pairwise enqueueOrder :=
      Ordered.append_fresh ⟨wf.sorted, wf.below, Nat.le_of_lt orderly.room⟩ draft
    rw [happend.insertionSort_eq, hroom]
    exact .enqueued _ hroom rfl rfl
  | claimed sessionId owner leaseTtlMs n head rest ready =>
    rw [hsorted] at ready ⊢
    have hmem : ∀ row ∈ head :: rest, row ∈ store.queuedWork := by
      intro row hrow
      rw [← ready] at hrow
      exact mem_of_mem_filter hrow
    have hhead := hmem head mem_cons_self
    have htake : head :: rest.take n = (head :: rest).take (n + 1) := rfl
    rw [updateFirst_stamp wf _ _ (by rw [ready, ← htake]; rfl)]
    refine .claimed _ head hhead rfl ?_ rfl ?_ orderly.fresh ?_
    · exact saturatingAdd_one_of_lt (orderly.fresh head hhead)
    · intro batch hbatch
      obtain ⟨row, hrow, hsame⟩ := mem_map.mp hbatch
      rw [htake] at hrow
      exact ⟨row, hmem row (mem_of_mem_take hrow), hsame⟩
    · cases op with
      | commitRuntimeState commit => rfl
      | _ => rfl
  | renewed claim leaseTtlMs answer =>
    refine .kept ⟨rfl, rfl, rfl, by simp [queuedBatch]⟩ _ fun row => ?_
    exact restamped_of_ite _ _ _ ⟨rfl, rfl, Or.inl rfl⟩
  | abandoned claim =>
    refine .kept ⟨rfl, rfl, rfl, by simp [queuedBatch]⟩ _ fun row => ?_
    exact restamped_of_ite _ _ _ ⟨rfl, rfl, Or.inr rfl⟩
  | cancelled sessionId batchId row found => exact .cancelled _ row found rfl
  | torn commit e front fails =>
    refine hwhole ⟨rfl, rfl, rfl, by simp [queuedBatch]⟩ ?_
    have hnot := orderly.whole commit rfl front
    rw [completeQueueClaims, settle_rows_eq_iff fails]
    exact fun htorn => hnot (Or.inl htorn)
  | stranded commit e front queue fails =>
    refine hwhole ⟨rfl, rfl, rfl, by simp [queuedBatch]⟩ ?_
    have hnot := orderly.whole commit rfl front
    rw [remaining_eq_iff queue]
    intro c hc
    by_contra hnames
    exact hnot (Or.inr ⟨queue, ⟨c, hc, hnames⟩, fails⟩)
  | completed commit result front queue =>
    refine .completed commit.completedQueueClaims result ?_ queue
    simp only [carriedOut, front.2.1]

end Moves

section Steps

/-- Where a row after an orderly move comes from. -/
inductive Origin (store : InMemorySessionStore Json) (reply : Reply Json) (nextSeq : Nat) :
    InMemoryQueuedBatch Json → Prop
  | old (row row' : InMemoryQueuedBatch Json) (mem : row ∈ store.queuedWork)
      (same : Restamped row row')
      (spared : ∀ claim, granted reply = some claim →
        row.batch.batchId ∉ claim.batches.map (·.batchId)) :
      Origin store reply nextSeq row'
  | stamped (row : InMemoryQueuedBatch Json) (claim : QueuedWorkClaim Json)
      (mem : row ∈ store.queuedWork) (handed : granted reply = some claim)
      (taken : row.batch.batchId ∈ claim.batches.map (·.batchId))
      (room : row.claimFencingToken < u64Max) : Origin store reply nextSeq (row.stamp claim)
  | fresh (batch : QueuedWorkBatch Json) (seq : batch.enqueueSeq = nextSeq)
      (new : nextSeq = store.queuedWorkNextSeq + 1)
      (name : batch.batchId = queuedWorkBatchId batch.enqueueSeq) :
      Origin store reply nextSeq (.fresh batch)

section

variable (move : OrderlyMove store op reply rows nextSeq)
include move

theorem OrderlyMove.origin {row' : InMemoryQueuedBatch Json} (h : row' ∈ rows) :
    Origin store reply nextSeq row' := by
  cases move with
  | kept quiet g same =>
    obtain ⟨row, hrow, hsame⟩ := mem_map.mp h
    rw [← hsame]
    exact .old row _ hrow (same row) (by simp [quiet.granted])
  | enqueued batch seq name nothing =>
    rcases mem_append.mp h with hold | hfresh
    · exact .old row' row' hold (.refl _) (by simp [granted])
    · rw [mem_singleton] at hfresh
      rw [hfresh]
      exact .fresh batch seq rfl name
  | claimed claim head first leads token name queued fresh nothing =>
    obtain ⟨row, hrow, hsame⟩ := mem_map.mp h
    split at hsame
    · rename_i htaken
      rw [← hsame]
      exact .stamped row claim hrow rfl htaken (fresh row hrow)
    · rename_i hspared
      rw [← hsame]
      refine .old row row hrow (.refl _) ?_
      intro other hother
      simp only [granted, Option.some.injEq] at hother
      rwa [← hother]
  | cancelled p row found nothing =>
    exact .old row' row' (mem_of_mem_eraseP h) (.refl _) (by simp [granted])
  | completed claims result carried settles =>
    exact .old row' row' (remaining_sublist.subset h) (.refl _) (by simp [granted])

theorem OrderlyMove.nextSeq_le : store.queuedWorkNextSeq ≤ nextSeq := by
  cases move <;> omega

theorem OrderlyMove.nextSeq_le_succ : nextSeq ≤ store.queuedWorkNextSeq + 1 := by
  cases move <;> omega

/-- A used id stays used. -/
theorem OrderlyMove.used (h : Used store.queuedWork store.queuedWorkNextSeq id) :
    Used rows nextSeq id := by
  obtain ⟨seq, fencingToken, hid, hle, hcount⟩ := h
  refine ⟨seq, fencingToken, hid, Nat.le_trans hle move.nextSeq_le, ?_⟩
  intro row' hrow' hseq
  cases move.origin hrow' with
  | old row row' mem same spared =>
    rw [same.batch] at hseq
    rw [same.counter]
    exact hcount row mem hseq
  | stamped row claim mem handed taken room =>
    have hold : fencingToken ≤ row.claimFencingToken := hcount row mem hseq
    have hnew : row.claimFencingToken < saturatingAdd row.claimFencingToken 1 :=
      lt_saturatingAdd_one room
    exact Nat.le_trans hold (Nat.le_of_lt hnew)
  | fresh batch hfresh new name =>
    have hsame : batch.enqueueSeq = seq := hseq
    omega

section

variable (wf : WellFormed store.queuedWork store.queuedWorkNextSeq)
include wf

/-- The id of a claim is new when it is handed out, and used from then on. -/
theorem OrderlyMove.handed (handed : granted reply = some claim) :
    ¬ Used store.queuedWork store.queuedWorkNextSeq claim.claimId ∧
      Used rows nextSeq claim.claimId := by
  cases move with
  | kept quiet g same => simp [quiet.granted] at handed
  | enqueued batch seq name nothing | cancelled p row found nothing
  | completed claims result carried settles => simp [granted] at handed
  | claimed claim' head first leads token name queued fresh nothing =>
    simp only [granted, Option.some.injEq] at handed
    subst handed
    constructor
    · rintro ⟨seq, fencingToken, hid, -, hcount⟩
      rw [name] at hid
      obtain ⟨hseq, htoken⟩ := queuedWorkClaimId_injective hid
      have hle := hcount head first hseq
      omega
    · refine ⟨head.batch.enqueueSeq, claim'.fencingToken, name, wf.below head first, ?_⟩
      intro row' hrow' hseq
      obtain ⟨row, hrow, hsame⟩ := mem_map.mp hrow'
      have hbatch : row'.batch = row.batch := by
        rw [← hsame]
        split <;> rfl
      have hhead : row = head := by
        refine wf.eq_of_batchId hrow first ?_
        rw [wf.named row hrow, wf.named head first, ← hbatch, hseq]
      have htaken : head.batch.batchId ∈ claim'.batches.map (·.batchId) := by
        obtain ⟨tail, htail⟩ := head?_eq_some_iff.mp leads
        rw [htail]
        exact mem_cons_self
      rw [hhead, if_pos htaken] at hsame
      rw [← hsame, token]
      exact Nat.le_of_eq (saturatingAdd_one_of_lt (fresh head first)).symm

theorem OrderlyMove.strict : rows.Pairwise fun a b => a.batch.enqueueSeq < b.batch.enqueueSeq := by
  cases move with
  | kept quiet g same =>
    rw [pairwise_map]
    refine wf.strict.imp fun {a b} hlt => ?_
    rw [(same a).batch, (same b).batch]
    exact hlt
  | enqueued batch seq name nothing =>
    rw [pairwise_append]
    refine ⟨wf.strict, pairwise_singleton _ _, ?_⟩
    intro row hrow fresh hfresh
    rw [mem_singleton] at hfresh
    have hbelow := wf.below row hrow
    have hseq : fresh.batch.enqueueSeq = store.queuedWorkNextSeq + 1 := by
      rw [hfresh]
      exact seq
    omega
  | claimed claim head first leads token name queued fresh nothing =>
    rw [stampRows, pairwise_map]
    refine wf.strict.imp fun {a b} hlt => ?_
    have hsame : ∀ row : InMemoryQueuedBatch Json,
        (if row.batch.batchId ∈ claim.batches.map (·.batchId) then row.stamp claim
          else row).batch = row.batch := by
      intro row
      split <;> rfl
    rw [hsame, hsame]
    exact hlt
  | cancelled p row found nothing => exact wf.strict.sublist eraseP_sublist
  | completed claims result carried settles =>
    exact wf.strict.sublist remaining_sublist

theorem OrderlyMove.wellFormed :
    WellFormed rows nextSeq where
  strict := move.strict wf
  below := by
    intro row' hrow'
    have hnext := move.nextSeq_le
    cases move.origin hrow' with
    | old row row' mem same spared =>
      rw [same.batch]
      exact Nat.le_trans (wf.below row mem) hnext
    | stamped row claim mem handed taken room => exact Nat.le_trans (wf.below row mem) hnext
    | fresh batch hfresh new name => exact Nat.le_of_eq hfresh
  named := by
    intro row' hrow'
    cases move.origin hrow' with
    | old row row' mem same spared =>
      rw [same.batch]
      exact wf.named row mem
    | stamped row claim mem handed taken room => exact wf.named row mem
    | fresh batch hfresh new name => exact name
  used := by
    intro row' hrow' id hid
    cases move.origin hrow' with
    | old row row' mem same spared =>
      exact move.used (wf.used row mem id (same.stamped_before hid))
    | stamped row claim mem handed taken room =>
      have hclaim : claim.claimId = id := Option.some.inj hid
      rw [← hclaim]
      exact (move.handed wf handed).2
    | fresh batch hfresh name => simp [fresh, ClaimStamp.unclaimed] at hid

end

/-- A batch that is no longer in the queue was cancelled, or completed under the
stamp it had. -/
theorem OrderlyMove.leaves {row : InMemoryQueuedBatch Json} (h : row ∈ store.queuedWork) :
    (∃ row' ∈ rows, row'.batch = row.batch) ∨ cancelledBatch reply = some row.batch ∨
      ∃ c ∈ carriedOut store op reply, row.claimedBy c.sessionId c.claimId c.leaseToken = true ∧
          row.batch.batchId ∈ c.batchIds := by
  cases move with
  | kept quiet g same =>
    exact Or.inl ⟨g row, mem_map_of_mem h, (same row).batch⟩
  | enqueued batch seq name nothing =>
    exact Or.inl ⟨row, mem_append_left _ h, rfl⟩
  | claimed claim head first leads token name queued fresh nothing =>
    refine Or.inl ⟨_, mem_map_of_mem h, ?_⟩
    split <;> rfl
  | cancelled p found' found nothing =>
    rcases mem_cons.mp ((perm_cons_eraseP found).subset h) with hfound | hleft
    · rw [hfound]
      exact Or.inr (Or.inl rfl)
    · exact Or.inl ⟨row, hleft, rfl⟩
  | completed claims result carried settles =>
    by_cases hleft : row ∈ queueScheme.remaining claims store.queuedWork
    · exact Or.inl ⟨row, hleft, rfl⟩
    · rw [mem_remaining] at hleft
      push Not at hleft
      obtain ⟨c, hc, howns⟩ := hleft h
      rw [ne_eq, Bool.not_eq_false, owns_iff] at howns
      rw [carried]
      exact Or.inr (Or.inr ⟨c, hc, howns⟩)

end

end Steps

section Claims

/-- The call takes the batch of this id away from every claim made before: it
claims it anew, cancels it or completes it. -/
def TakesAway (store : InMemorySessionStore Json) (op : Op Json) (reply : Reply Json)
    (batchId : String) : Prop :=
  (∃ claim, granted reply = some claim ∧ batchId ∈ claim.batches.map (·.batchId)) ∨
    (∃ batch, cancelledBatch reply = some batch ∧ batch.batchId = batchId) ∨
    ∃ c ∈ carriedOut store op reply, batchId ∈ c.batchIds

/-- A row that carries an id used before the move has carried it before the move,
and its batch was not taken away. -/
theorem OrderlyMove.carried (move : OrderlyMove store op reply rows nextSeq)
    (wf : WellFormed store.queuedWork store.queuedWorkNextSeq)
    (used : Used store.queuedWork store.queuedWorkNextSeq id)
    {row' : InMemoryQueuedBatch Json} (h : row' ∈ rows) (hid : row'.claimId = some id) :
    (∃ row ∈ store.queuedWork, row.claimId = some id ∧ row.batch = row'.batch) ∧
      ¬ TakesAway store op reply row'.batch.batchId := by
  cases move.origin h with
  | old row row' mem same spared =>
    refine ⟨⟨row, mem, same.stamped_before hid, same.batch.symm⟩, ?_⟩
    rintro (⟨claim, handed, htaken⟩ | ⟨batch, hcancelled, hbatch⟩ | ⟨c, hc, hnamed⟩)
    · rw [same.batch] at htaken
      exact spared claim handed htaken
    · cases move with
      | kept quiet g same => simp [quiet.cancelled] at hcancelled
      | enqueued batch seq name nothing
      | claimed claim head first leads token name queued fresh nothing
      | completed claims result carried settles => simp [cancelledBatch] at hcancelled
      | cancelled p found' found nothing =>
        simp only [cancelledBatch, Option.some.injEq] at hcancelled
        subst hcancelled
        exact key_ne_of_mem_eraseP wf.distinct found h hbatch.symm
    · cases move with
      | kept quiet g same => simp [quiet.carriedOut] at hc
      | enqueued batch seq name nothing
      | claimed claim head first leads token name queued fresh nothing
      | cancelled p found' found nothing => simp [nothing] at hc
      | completed claims result carried settles =>
        rw [carried] at hc
        exact key_gone settles wf.distinct hc hnamed h rfl
  | stamped row claim mem handed taken room =>
    -- the stamp is of this call, so its id was not in use before
    have hclaim : claim.claimId = id := Option.some.inj hid
    rw [← hclaim] at used
    exact absurd used (move.handed wf handed).1
  | fresh batch seq new name => simp [fresh, ClaimStamp.unclaimed] at hid

/-- The rows that carry the claim's id hold batches of these ids only. -/
structure Marks (id : String) (marked : String → Prop) (rows : List (InMemoryQueuedBatch Json))
    (nextSeq : Nat) : Prop where
  wellFormed : WellFormed rows nextSeq
  used : Used rows nextSeq id
  marked : ∀ row ∈ rows, row.claimId = some id → marked row.batch.batchId

variable {marked : String → Prop}

/-- A move keeps the marks of a claim handed out before, and clears the batch it
takes away. -/
theorem Marks.next (marks : Marks id marked store.queuedWork store.queuedWorkNextSeq)
    (move : OrderlyMove store op reply rows nextSeq) :
    Marks id (fun batchId => marked batchId ∧ ¬ TakesAway store op reply batchId)
      rows nextSeq where
  wellFormed := move.wellFormed marks.wellFormed
  used := move.used marks.used
  marked := by
    intro row' hrow' hid
    obtain ⟨⟨row, hrow, hsame, hbatch⟩, hspared⟩ :=
      move.carried marks.wellFormed marks.used hrow' hid
    refine ⟨?_, hspared⟩
    rw [← hbatch]
    exact marks.marked row hrow hsame

theorem Marks.weaken {marked' : String → Prop} (marks : Marks id marked rows nextSeq)
    (h : ∀ batchId, marked batchId → marked' batchId) : Marks id marked' rows nextSeq :=
  ⟨marks.wellFormed, marks.used, fun row hrow hid => h _ (marks.marked row hrow hid)⟩

/-- A claim that was just handed out is stamped on its own batches only. -/
theorem Marks.handed (wf : WellFormed store.queuedWork store.queuedWorkNextSeq)
    (move : OrderlyMove store op reply rows nextSeq) (handed : granted reply = some claim) :
    Marks claim.claimId (fun batchId => batchId ∈ claim.batches.map (·.batchId)) rows nextSeq where
  wellFormed := move.wellFormed wf
  used := (move.handed wf handed).2
  marked := by
    intro row' hrow' hid
    cases move.origin hrow' with
    | old row row' mem same spared =>
      have hrow := wf.used row mem _ (same.stamped_before hid)
      exact absurd hrow (move.handed wf handed).1
    | stamped row other mem hother taken room =>
      rw [hother, Option.some.injEq] at handed
      rw [← handed]
      exact taken
    | fresh batch seq new name => simp [fresh, ClaimStamp.unclaimed] at hid

/-- The claim's renewal fails while one of its batches is not marked. -/
theorem Marks.renewal_fails {batchId : String}
    (marks : Marks id marked store.queuedWork store.queuedWorkNextSeq)
    (named : claim.claimId = id) (lost : ¬ marked batchId)
    (within : ∀ batchId, marked batchId → batchId ∈ claim.batches.map (·.batchId))
    (member : batchId ∈ claim.batches.map (·.batchId)) (host : Host) (leaseTtlMs : Nat) :
    (step (host, .renewQueuedWorkClaim claim leaseTtlMs) store).1.isError = true := by
  have hfew : store.queuedWork.countP
      (·.claimedBy claim.sessionId claim.claimId claim.leaseToken) < claim.batches.length := by
    have hkeys : ((store.queuedWork.filter
        (·.claimedBy claim.sessionId claim.claimId claim.leaseToken)).map
          (·.batch.batchId)).Nodup :=
      (filter_sublist.map _).nodup marks.wellFormed.distinct
    have hsub : ((store.queuedWork.filter
        (·.claimedBy claim.sessionId claim.claimId claim.leaseToken)).map
          (·.batch.batchId)) ⊆ (claim.batches.map (·.batchId)).erase batchId := by
      intro key hkey
      obtain ⟨row, hrow, rfl⟩ := mem_map.mp hkey
      obtain ⟨hmem, hclaimed⟩ := mem_filter.mp hrow
      rw [claimedBy, Bool.and_eq_true, ClaimStamp.heldBy_iff, named]
        at hclaimed
      have hmarked := marks.marked row hmem hclaimed.2.1
      refine (mem_erase_of_ne fun hsame => lost ?_).mpr (within _ hmarked)
      rwa [← hsame]
    have hlength := (hkeys.subperm hsub).length_le
    have hpos := length_pos_of_mem member
    rw [length_map, ← countP_eq_length_filter, length_erase_of_mem member, length_map] at hlength
    rw [length_map] at hpos
    omega
  simp only [step, InMemorySessionStore.renewQueuedWorkClaim]
  rw [if_pos (Nat.ne_of_lt hfew)]
  rfl

/-- Carried-out completions stand on the rows they are carried out on. -/
theorem settles_of_carriedOut (move : QueueMove host store op reply rows nextSeq)
    {c : QueuedWorkCompletion} (hc : c ∈ carriedOut store op reply) :
    queueScheme.Settles (carriedOut store op reply) store.queuedWork := by
  cases move with
  | idle quiet same => simp [quiet.carriedOut] at hc
  | completed commit result front queue => simpa only [carriedOut, front.2.1] using queue
  | claimed sessionId owner leaseTtlMs n head rest ready =>
    cases op with
    | commitRuntimeState commit => simp [carriedOut] at hc
    | _ => simp [carriedOut] at hc
  | _ => simp [carriedOut] at hc

/-- No commit carries out a completion under the claim's id that names a batch
that is not marked. -/
theorem Marks.completion_fails (marks : Marks id marked store.queuedWork store.queuedWorkNextSeq)
    (call : Host × Op Json) {c : QueuedWorkCompletion}
    (hc : c ∈ carriedOut store call.2 (step call store).1) (named : c.claimId = id)
    {batchId : String} (lost : ¬ marked batchId) : batchId ∉ c.batchIds := by
  intro hnamed
  have hsettles := settles_of_carriedOut (step_queueMove call store) hc
  obtain ⟨done, rest, hshape⟩ := append_of_mem hc
  rw [hshape] at hsettles
  obtain ⟨_, hstands, _⟩ := settles_append.mp hsettles
  have hsub : (queueScheme.remaining done store.queuedWork).Sublist store.queuedWork :=
    remaining_sublist
  obtain ⟨row, hrow, hkey, hheld⟩ := ((stands_iff
    ((hsub.map _).nodup marks.wellFormed.distinct)).mp hstands).2 batchId hnamed
  have hclaimed : row.claimedBy c.sessionId c.claimId c.leaseToken = true := hheld
  rw [claimedBy, Bool.and_eq_true, ClaimStamp.heldBy_iff, named] at hclaimed
  have hbatch : row.batch.batchId = batchId := hkey
  refine lost ?_
  rw [← hbatch]
  exact marks.marked row (hsub.subset hrow) hclaimed.2.1

end Claims

section Books

variable (batchId : String)

/-- How often the batch of this id is in the queue. -/
def queuedTimes (rows : List (InMemoryQueuedBatch Json)) : Nat :=
  rows.countP fun row => decide (row.batch.batchId = batchId)

/-- How often the history has cancelled the batch of this id. -/
def cancelledTimes (history : List (StoreEntry Json)) : Nat :=
  history.countP fun e => (cancelledBatch e.output).any fun batch => batch.batchId == batchId

/-- How many completions carried out by the history name the batch of this id. -/
def completedTimes (history : List (StoreEntry Json)) : Nat :=
  (history.map fun e => (carriedOut e.before e.input.2 e.output).countP fun c =>
    decide (batchId ∈ c.batchIds)).sum

/-- What a move takes out of the queue is cancelled or completed, and what it puts
in carries the next number. -/
theorem OrderlyMove.balance (move : OrderlyMove store op reply rows nextSeq)
    (wf : WellFormed store.queuedWork store.queuedWorkNextSeq) (seq : Nat) :
    queuedTimes (queuedWorkBatchId seq) rows +
        (if (cancelledBatch reply).any (fun batch => batch.batchId == queuedWorkBatchId seq) then 1
          else 0) +
        (carriedOut store op reply).countP (fun c => decide (queuedWorkBatchId seq ∈ c.batchIds)) =
      queuedTimes (queuedWorkBatchId seq) store.queuedWork +
        (if store.queuedWorkNextSeq < nextSeq ∧ seq = nextSeq then 1 else 0) := by
  cases move with
  | kept quiet g same =>
    have hrows : queuedTimes (queuedWorkBatchId seq) (store.queuedWork.map g) =
        queuedTimes (queuedWorkBatchId seq) store.queuedWork := by
      rw [queuedTimes, queuedTimes, countP_map]
      refine countP_congr fun row _ => ?_
      simp only [Function.comp_apply, (same row).batch]
    simp [hrows, quiet.cancelled, quiet.carriedOut]
  | enqueued batch number name nothing =>
    have hname : batch.batchId = queuedWorkBatchId seq ↔ seq = store.queuedWorkNextSeq + 1 := by
      rw [name, number]
      exact ⟨fun h => (queuedWorkBatchId_injective h).symm, fun h => congrArg _ h.symm⟩
    simp [queuedTimes, nothing, fresh, hname, cancelledBatch]
  | claimed claim head first leads token name queued fresh nothing =>
    have hrows : queuedTimes (queuedWorkBatchId seq) (stampRows claim store.queuedWork) =
        queuedTimes (queuedWorkBatchId seq) store.queuedWork := by
      rw [queuedTimes, queuedTimes, stampRows, countP_map]
      refine countP_congr fun row _ => ?_
      simp only [Function.comp_apply]
      split <;> rfl
    simp [hrows, nothing, cancelledBatch]
  | cancelled p row found nothing =>
    have hrows := (perm_cons_eraseP found).countP_eq
      fun row => decide (row.batch.batchId = queuedWorkBatchId seq)
    rw [countP_cons] at hrows
    simp [queuedTimes, hrows, nothing, cancelledBatch]
  | completed claims result carried settles =>
    have hrows := count_remaining settles wf.distinct (queuedWorkBatchId seq)
    simp only [queuedTimes, carried, cancelledBatch, Option.any_none, Bool.false_eq_true,
      if_false, Nat.add_zero, Nat.lt_irrefl, false_and]
    exact hrows.symm

/-- A producer is told of a batch that is in the queue after the call. -/
theorem OrderlyMove.answered (move : OrderlyMove store op reply rows nextSeq)
    {batch : QueuedWorkBatch Json} (h : queuedBatch reply = some batch) :
    ∃ row ∈ rows, row.batch = batch := by
  cases move with
  | kept quiet g same =>
    obtain ⟨row, hrow, hbatch⟩ := quiet.queued batch h
    exact ⟨g row, mem_map_of_mem hrow, (same row).batch.trans hbatch⟩
  | enqueued batch' number name nothing =>
    simp only [queuedBatch, Option.some.injEq] at h
    exact ⟨.fresh batch', mem_append_right _ (mem_singleton.mpr rfl), h⟩
  | _ => simp [queuedBatch] at h

variable {history : List (StoreEntry Json)}

/-- Every number given out so far is the number of exactly one batch, queued,
cancelled or completed, and later numbers are free. -/
structure Balanced (history : List (StoreEntry Json)) (store : InMemorySessionStore Json) :
    Prop where
  wellFormed : WellFormed store.queuedWork store.queuedWorkNextSeq
  balance : ∀ seq, queuedTimes (queuedWorkBatchId seq) store.queuedWork +
      cancelledTimes (queuedWorkBatchId seq) history +
      completedTimes (queuedWorkBatchId seq) history =
    if 0 < seq ∧ seq ≤ store.queuedWorkNextSeq then 1 else 0

theorem Balanced.initial : Balanced ([] : List (StoreEntry Json)) .new where
  wellFormed := ⟨List.Pairwise.nil, by simp [InMemorySessionStore.new],
    by simp [InMemorySessionStore.new], by simp [InMemorySessionStore.new]⟩
  balance := by
    intro seq
    have hfree : ¬ (0 < seq ∧ seq ≤ 0) := by omega
    have hnone : (InMemorySessionStore.new : InMemorySessionStore Json).queuedWorkNextSeq = 0 := rfl
    rw [hnone, if_neg hfree]
    rfl

/-- A batch in the queue has a number that was given out. -/
theorem Balanced.number (books : Balanced history store) {row : InMemoryQueuedBatch Json}
    (h : row ∈ store.queuedWork) :
    0 < row.batch.enqueueSeq ∧ row.batch.enqueueSeq ≤ store.queuedWorkNextSeq := by
  have hbalance := books.balance row.batch.enqueueSeq
  have hpos : 0 < queuedTimes (queuedWorkBatchId row.batch.enqueueSeq) store.queuedWork := by
    refine countP_pos_iff.mpr ⟨row, h, ?_⟩
    simpa using books.wellFormed.named row h
  by_contra hfree
  rw [if_neg hfree] at hbalance
  omega

theorem Balanced.next (books : Balanced history store) (call : Host × Op Json)
    (move : OrderlyMove store call.2 (step call store).1 (step call store).2.queuedWork
      (step call store).2.queuedWorkNextSeq) :
    Balanced (entryAt step call store :: history) (step call store).2 where
  wellFormed := move.wellFormed books.wellFormed
  balance := by
    intro seq
    have hold := books.balance seq
    have hmove := move.balance books.wellFormed seq
    have hnext := move.nextSeq_le
    have hone := move.nextSeq_le_succ
    have hgiven : (if 0 < seq ∧ seq ≤ (step call store).2.queuedWorkNextSeq then 1 else 0) =
        (if 0 < seq ∧ seq ≤ store.queuedWorkNextSeq then 1 else 0) +
          (if store.queuedWorkNextSeq < (step call store).2.queuedWorkNextSeq ∧
            seq = (step call store).2.queuedWorkNextSeq then 1 else 0) := by
      split <;> split <;> split <;> omega
    simp only [cancelledTimes, completedTimes, countP_cons, map_cons, sum_cons, entryAt] at hold ⊢
    rw [hgiven]
    omega

/-- The books of a history: the balance, every batch a producer was told of, and
every claim handed out. -/
structure Books (history : List (StoreEntry Json)) (store : InMemorySessionStore Json) : Prop
    extends Balanced history store where
  answered : ∀ e ∈ history, ∀ batch, queuedBatch e.output = some batch →
    ∃ seq, 0 < seq ∧ seq ≤ store.queuedWorkNextSeq ∧ batch.batchId = queuedWorkBatchId seq
  used : ∀ e ∈ history, ∀ claim, granted e.output = some claim →
    Used store.queuedWork store.queuedWorkNextSeq claim.claimId

theorem Books.next (books : Books history store) (call : Host × Op Json)
    (orderly : Orderly call.1 call.2 store) :
    Books (entryAt step call store :: history) (step call store).2 := by
  have move := orderlyMove orderly books.wellFormed (step_queueMove call store)
  have hbalanced := books.toBalanced.next call move
  refine ⟨hbalanced, ?_, ?_⟩
  · intro e he batch hbatch
    rcases mem_cons.mp he with hnew | hearlier
    · rw [hnew] at hbatch
      obtain ⟨row, hrow, hsame⟩ := move.answered hbatch
      rw [← hsame]
      obtain ⟨hpos, hle⟩ := hbalanced.number hrow
      exact ⟨_, hpos, hle, hbalanced.wellFormed.named row hrow⟩
    · obtain ⟨seq, hpos, hle, hname⟩ := books.answered e hearlier batch hbatch
      exact ⟨seq, hpos, Nat.le_trans hle move.nextSeq_le, hname⟩
  · intro e he claim handed
    rcases mem_cons.mp he with hnew | hearlier
    · rw [hnew] at handed
      exact (move.handed books.wellFormed handed).2
    · exact move.used (books.used e hearlier claim handed)

theorem books_of_run (run : StoreRun history store)
    (orderly : ∀ e ∈ history, Orderly e.input.1 e.input.2 e.before) : Books history store := by
  refine run.invariant_of (P := Books) ⟨Balanced.initial, by simp, by simp⟩ ?_ orderly
  intro history store call _ horderly hbooks
  exact hbooks.next call horderly

end Books

/-- What holds of the queue over a whole history. -/
structure QueueLaw (history : List (StoreEntry Json)) (store : InMemorySessionStore Json) :
    Prop where
  /-- No claim id is handed out twice, and a claim led by the same batch as an
  earlier one has a larger fencing token. -/
  handedOnce : ∀ d e, Precedes history d e → ∀ earlier later,
    granted d.output = some earlier → granted e.output = some later →
      later.claimId ≠ earlier.claimId ∧
        (later.batches.head? = earlier.batches.head? → earlier.fencingToken < later.fencingToken)
  /-- A batch leaves the queue by being cancelled, or by a completion that is
  carried out and names the claim on the batch. -/
  leaves : ∀ e ∈ history, ∀ row ∈ e.before.queuedWork,
    (∃ row' ∈ e.after.queuedWork, row'.batch = row.batch) ∨
      cancelledBatch e.output = some row.batch ∨
      ∃ c ∈ carriedOut e.before e.input.2 e.output,
        row.claimedBy c.sessionId c.claimId c.leaseToken = true ∧ row.batch.batchId ∈ c.batchIds
  /-- Once a batch of the claim is claimed anew, cancelled or completed, the claim
  is not renewed and no completion under its id that names the batch is carried out. -/
  dead : ∀ d e, Precedes history d e → ∀ claim, granted d.output = some claim →
    ∀ batch ∈ claim.batches, TakesAway e.before e.input.2 e.output batch.batchId →
      (∀ renewed : QueuedWorkClaim Json, renewed.claimId = claim.claimId →
        renewed.batches = claim.batches → ∀ host leaseTtlMs,
          (step (host, .renewQueuedWorkClaim renewed leaseTtlMs) store).1.isError = true) ∧
      ∀ call, ∀ c ∈ carriedOut store call.2 (step call store).1, c.claimId = claim.claimId →
        batch.batchId ∉ c.batchIds
  /-- Every batch that a producer was told of is in the queue, cancelled or
  completed, and only one of these, once. -/
  accounted : ∀ e ∈ history, ∀ batch, queuedBatch e.output = some batch →
    queuedTimes batch.batchId store.queuedWork + cancelledTimes batch.batchId history +
      completedTimes batch.batchId history = 1

section Law

variable {history : List (StoreEntry Json)} {e : StoreEntry Json}

/-- An entry of an orderly run is an orderly move on well-formed rows. -/
theorem move_of_entry (run : StoreRun history store)
    (orderly : ∀ e ∈ history, Orderly e.input.1 e.input.2 e.before) (he : e ∈ history) :
    WellFormed e.before.queuedWork e.before.queuedWorkNextSeq ∧
      OrderlyMove e.before e.input.2 e.output e.after.queuedWork e.after.queuedWorkNextSeq := by
  obtain ⟨newer, older, shape⟩ := append_of_mem he
  obtain ⟨hbefore, hentry, -⟩ := run.split shape
  have hbooks := books_of_run hbefore fun d hd => orderly d (by simp [shape, hd])
  have horderly := orderly e he
  refine ⟨hbooks.wellFormed, ?_⟩
  rw [hentry] at horderly ⊢
  exact orderlyMove horderly hbooks.wellFormed (step_queueMove e.input e.before)

/-- A claim is named after its first batch and its fencing token. -/
theorem OrderlyMove.leader (move : OrderlyMove store op reply rows nextSeq)
    (handed : granted reply = some claim) :
    ∃ head, claim.batches.head? = some head ∧
      claim.claimId = queuedWorkClaimId head.enqueueSeq claim.fencingToken := by
  cases move with
  | kept quiet g same => simp [quiet.granted] at handed
  | claimed claim' head first leads token name queued fresh nothing =>
    simp only [granted, Option.some.injEq] at handed
    rw [← handed]
    exact ⟨head.batch, leads, name⟩
  | _ => simp [granted] at handed

theorem Used.of_le {seq m n : Nat} (used : Used rows nextSeq (queuedWorkClaimId seq n))
    (h : m ≤ n) : Used rows nextSeq (queuedWorkClaimId seq m) := by
  obtain ⟨seq', n', hid, hle, hcount⟩ := used
  obtain ⟨rfl, rfl⟩ := queuedWorkClaimId_injective hid
  exact ⟨seq, m, rfl, hle, fun row hrow hseq => Nat.le_trans h (hcount row hrow hseq)⟩

theorem marks_after (run : StoreRun history store)
    (orderly : ∀ e ∈ history, Orderly e.input.1 e.input.2 e.before)
    {marked : String → Prop} {newer older : List (StoreEntry Json)}
    (shape : history = newer ++ e :: older)
    (marks : Marks id marked e.after.queuedWork e.after.queuedWorkNextSeq) :
    Marks id marked store.queuedWork store.queuedWorkNextSeq := by
  refine run.later_of (P := fun s => Marks id marked s.queuedWork s.queuedWorkNextSeq)
    (Q := fun e => Orderly e.input.1 e.input.2 e.before) shape marks ?_ ?_
  · exact fun d hd => orderly d (by simp [shape, hd])
  · intro s call _ horderly hmarks
    have hmove := orderlyMove horderly hmarks.wellFormed (step_queueMove call s)
    exact (hmarks.next hmove).weaken fun _ h => h.1

/-- In every run whose calls are orderly, queued work is completed exactly once. -/
theorem queued_work_exactly_once (run : StoreRun history store)
    (orderly : ∀ e ∈ history, Orderly e.input.1 e.input.2 e.before) :
    QueueLaw history store where
  handedOnce := by
    rintro d e ⟨newer, older, shape, hd⟩ earlier later hearlier hlater
    have he : e ∈ history := by simp [shape]
    have hd' : d ∈ history := by simp [shape, hd]
    obtain ⟨hwf, hmove⟩ := move_of_entry run orderly he
    obtain ⟨-, hmove'⟩ := move_of_entry run orderly hd'
    obtain ⟨hbefore, -, -⟩ := run.split shape
    have hbooks := books_of_run hbefore fun d hd => orderly d (by simp [shape, hd])
    have hused := hbooks.used d hd earlier hearlier
    obtain ⟨hnew, -⟩ := hmove.handed hwf hlater
    refine ⟨fun hsame => hnew (hsame ▸ hused), fun hleader => ?_⟩
    obtain ⟨head, hhead, hname⟩ := hmove.leader hlater
    obtain ⟨head', hhead', hname'⟩ := hmove'.leader hearlier
    rw [hhead, hhead', Option.some.injEq] at hleader
    rw [hname, hleader] at hnew
    rw [hname'] at hused
    by_contra hle
    exact hnew (hused.of_le (Nat.le_of_not_lt hle))
  leaves := by
    intro e he row hrow
    exact (move_of_entry run orderly he).2.leaves hrow
  dead := by
    rintro d e ⟨newer, older, shape, hd⟩ claim handed batch hbatch htaken
    obtain ⟨newer', older', shape'⟩ := append_of_mem hd
    obtain ⟨hbefore, -, -⟩ := run.split shape
    obtain ⟨-, hmove⟩ := move_of_entry run orderly (e := e) (by simp [shape])
    obtain ⟨hwf', hmove'⟩ := move_of_entry run orderly (e := d) (by simp [shape, hd])
    -- stamped on its own batches when handed out, and without this one from `e` on
    have hhanded := Marks.handed hwf' hmove' handed
    have hkept := marks_after hbefore (fun d hd => orderly d (by simp [shape, hd])) shape' hhanded
    have hmarks := marks_after run orderly shape (hkept.next hmove)
    have hlost : ¬ (batch.batchId ∈ claim.batches.map (·.batchId) ∧
        ¬ TakesAway e.before e.input.2 e.output batch.batchId) := fun h => h.2 htaken
    have hmember : batch.batchId ∈ claim.batches.map (·.batchId) := mem_map_of_mem hbatch
    constructor
    · intro renewed hid hbatches host leaseTtlMs
      rw [← hbatches] at hmember hmarks hlost
      exact hmarks.renewal_fails hid hlost (fun _ h => h.1) hmember host leaseTtlMs
    · intro call c hc hid
      exact hmarks.completion_fails call hc hid hlost
  accounted := by
    intro e he batch hbatch
    have hbooks := books_of_run run orderly
    obtain ⟨seq, hpos, hle, hname⟩ := hbooks.answered e he batch hbatch
    rw [hname, hbooks.balance seq, if_pos ⟨hpos, hle⟩]

end Law

section Example

/-- The worker commits the completion of its batch. -/
def completeOneBatch : List (Host × Op Unit) :=
  claimOneBatch ++ [(.quiet 3, .commitRuntimeState
    { RuntimeCommit.bare "s" workerFence with completedQueueClaims := [batchCompletion] })]

theorem Orderly.of_settles {commit : RuntimeCommit Json}
    (queue : queueScheme.Settles commit.completedQueueClaims store.queuedWork)
    (inputs : turnInputScheme.Settles commit.completedTurnInputClaims store.pendingTurnInputs)
    (room : store.queuedWorkNextSeq < u64Max)
    (fresh : ∀ row ∈ store.queuedWork, row.claimFencingToken < u64Max) :
    Orderly host (.commitRuntimeState commit) store := by
  refine ⟨?_, room, fresh⟩
  rintro _ ⟨⟩ - (htorn | ⟨-, -, hfails⟩)
  · exact htorn.not_settles queue
  · exact hfails inputs

theorem queued_work_exactly_once_completed : QueueLaw (perform step completeOneBatch ([], .new)).1
      (perform step completeOneBatch ([], .new)).2 := by
  refine queued_work_exactly_once (Run.nil.perform completeOneBatch) ?_
  refine forall_mem_cons.mpr ⟨.of_settles ?_ ?_ ?_ ?_, forall_mem_cons.mpr ⟨⟨?_, ?_, ?_⟩,
    forall_mem_cons.mpr ⟨⟨?_, ?_, ?_⟩, forall_mem_cons.mpr ⟨⟨?_, ?_, ?_⟩, by simp⟩⟩⟩⟩
  all_goals first | decide | (intro commit hop; injection hop)

/-- The worker's commit fails, and its batch is neither queued nor cancelled nor
completed. -/
theorem queued_work_lost :
    let history := (perform step (claimOneBatch ++ [(.quiet 3, .commitRuntimeState tearingCommit)])
      ([], .new)).1
    let store := (perform step (claimOneBatch ++ [(.quiet 3, .commitRuntimeState tearingCommit)])
      ([], .new)).2
    StoreRun history store ∧
      (∃ e ∈ history, (queuedBatch e.output).map (·.batchId) = some (queuedWorkBatchId 1)) ∧
      queuedTimes (queuedWorkBatchId 1) store.queuedWork = 0 ∧
      cancelledTimes (queuedWorkBatchId 1) history = 0 ∧
      completedTimes (queuedWorkBatchId 1) history = 0 := by
  intro history store
  refine ⟨Run.nil.perform _, ?_, ?_, ?_, ?_⟩
  all_goals decide

end Example

end ExactlyOnce
