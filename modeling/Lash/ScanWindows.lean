import Lash.ExactlyOnce
import Lash.SqliteSteps

/-!
# Claims that look at a window of the queue

The in-memory store filters the whole queue for what a claim may take. The
database first reads the earliest ready rows, up to a bound, and filters these;
rows under live claims count against the bound. Here is exactly when both stores
claim the same batches, and the same for pending turn inputs.
-/

namespace ScanWindows

open StoreTypes QueuedWork TurnInputs InMemoryStore SqliteStore Runs ExactlyOnce List Option
open InMemorySessionStore InMemoryPendingTurnInput Store

section Prefixes

/-- The rows within a limit come first. -/
theorem limitRows_initial {R : Type} (n : Int) (rows : List R) : limitRows n rows <+: rows := by
  rw [limitRows]
  split
  · exact prefix_refl _
  · exact take_prefix _ _

theorem extendJoinGroup_take (first : ClaimCandidate) (maxBatches : Nat)
    (candidates : List ClaimCandidate) (selected w : Nat) :
    extendJoinGroup first maxBatches selected (candidates.take w) =
      min (extendJoinGroup first maxBatches selected candidates) (selected + w) := by
  induction candidates generalizing selected w with
  | nil => simp [extendJoinGroup]
  | cons candidate candidates ih =>
    cases w with
    | zero =>
      have hle := selected_le_extendJoinGroup first maxBatches selected
        (candidate :: candidates)
      rw [take_zero, extendJoinGroup]
      omega
    | succ w =>
      rw [take_succ_cons, extendJoinGroup, extendJoinGroup]
      split
      · omega
      · rw [ih]
        omega

theorem selectTurnWorkClaimPrefix_take (candidates : List ClaimCandidate)
    (boundary : QueuedWorkClaimBoundary) (maxBatches w : Nat) :
    selectTurnWorkClaimPrefix (candidates.take w) boundary maxBatches =
      min (selectTurnWorkClaimPrefix candidates boundary maxBatches) w := by
  unfold selectTurnWorkClaimPrefix
  split
  · omega
  · cases candidates with
    | nil => simp
    | cons first rest =>
      cases w with
      | zero => simp
      | succ w =>
        simp only [take_succ_cons]
        split
        · omega
        · split
          · omega
          · split
            · omega
            · rw [extendJoinGroup_take]
              omega

/-- Of a window the selection takes what it takes of the queue, as far as the window
goes. -/
theorem select_take (kind : QueuedWorkClaimKind) (candidates : List ClaimCandidate) (w : Nat) :
    kind.select (candidates.take w) = min (kind.select candidates) w := by
  cases kind with
  | turnWork boundary maxBatches => exact selectTurnWorkClaimPrefix_take _ _ _ _
  | leadingSessionCommand =>
    cases candidates with
    | nil => simp [QueuedWorkClaimKind.select, selectLeadingSessionCommand]
    | cons first rest =>
      cases w with
      | zero => simp [QueuedWorkClaimKind.select, selectLeadingSessionCommand]
      | succ w =>
        have hle := selectLeadingSessionCommand_le (first :: rest)
        simp only [QueuedWorkClaimKind.select, take_succ_cons,
          selectLeadingSessionCommand, head?_cons, any_some] at hle ⊢
        exact (Nat.min_eq_left (Nat.le_trans hle (Nat.le_add_left 1 w))).symm

section Traversals

variable {E : Type} {A B : Type} {f : A → Except E B} {rows : List A} {out : List B}

theorem mapM_ok_iff : rows.mapM f = .ok out ↔ Forall₂ (fun row b => f row = .ok b) rows out := by
  induction rows generalizing out with
  | nil => simp [pure, Except.pure, eq_comm]
  | cons row rows ih =>
    rw [mapM_cons]
    constructor
    · intro h
      cases hrow : f row with
      | error e => simp [hrow, bind, Except.bind] at h
      | ok b =>
        cases hrest : rows.mapM f with
        | error e => simp [hrow, hrest, bind, Except.bind] at h
        | ok bs =>
          simp only [hrow, hrest, bind, Except.bind, pure, Except.pure, Except.ok.injEq] at h
          subst h
          exact .cons hrow (ih.mp hrest)
    · rintro (_ | ⟨hrow, hrest⟩)
      simp only [hrow, ih.mpr hrest, bind, Except.bind, pure, Except.pure]

theorem mapM_take (h : rows.mapM f = .ok out) (w : Nat) :
    (rows.take w).mapM f = .ok (out.take w) :=
  mapM_ok_iff.mpr (forall₂_take w (mapM_ok_iff.mp h))

/-- A traversal that fails has a first row at which it does. -/
theorem mapM_error {e : E} (h : rows.mapM f = .error e) :
    ∃ done row rest, rows = done ++ row :: rest ∧ (∃ out, done.mapM f = .ok out) ∧
      f row = .error e := by
  induction rows with
  | nil => simp [pure, Except.pure] at h
  | cons row rows ih =>
    rw [mapM_cons] at h
    cases hrow : f row with
    | error e' =>
      simp only [hrow, bind, Except.bind, Except.error.injEq] at h
      exact ⟨[], row, rows, rfl, ⟨[], rfl⟩, by rw [hrow, h]⟩
    | ok b =>
      cases hrest : rows.mapM f with
      | ok bs => simp [hrow, hrest, bind, Except.bind, pure, Except.pure] at h
      | error e' =>
        simp only [hrow, hrest, bind, Except.bind, Except.error.injEq] at h
        obtain ⟨done, bad, rest, hshape, ⟨out, hdone⟩, hbad⟩ := ih (h ▸ hrest)
        refine ⟨row :: done, bad, rest, by rw [hshape]; rfl, ⟨b :: out, ?_⟩, hbad⟩
        simp [mapM_cons, hrow, hdone, bind, Except.bind, pure, Except.pure]

theorem mapM_error_of {done rest : List A} {row : A} {e : E} (hdone : done.mapM f = .ok out)
    (hrow : f row = .error e) : (done ++ row :: rest).mapM f = .error e := by
  simp [mapM_append, hdone, hrow, mapM_cons, bind, Except.bind]

end Traversals

end Prefixes

variable {Json : Type} {host : SqliteHost Json} {memory : InMemorySessionStore Json}
  {db : Store Json} {sessionId : String} {fence : SessionExecutionLeaseFence}
  {owner : LeaseOwnerIdentity} {leaseTtlMs : Nat}

section Queue

variable {kind : QueuedWorkClaimKind} {rows : List (InMemoryQueuedBatch Json)}

/-- The batches of the claim that a call answers with. -/
def claimedBatches (answer : Except StoreError (Option (QueuedWorkClaim Json))) :
    Except StoreError (Option (List (QueuedWorkBatch Json))) :=
  answer.map fun claim => claim.map (·.batches)

/-- The ready batches of the session in enqueue order. -/
def readyRows (host : Host) (sessionId : String) (rows : List (InMemoryQueuedBatch Json)) :
    List (InMemoryQueuedBatch Json) :=
  (rows.insertionSort enqueueOrder).filter fun row =>
    row.batch.sessionId == sessionId && decide (row.batch.availableAtMs ≤ host.timestampMs)

/-- The ready batches that are under no live claim. -/
def eligibleRows (host : Host) (sessionId : String) (owner : LeaseOwnerIdentity)
    (rows : List (InMemoryQueuedBatch Json)) : List (InMemoryQueuedBatch Json) :=
  (readyRows host sessionId rows).filter (·.toClaimStamp.available host owner)

/-- How many eligible batches are among the ready ones that the scan reads. -/
def eligibleInWindow (host : Host) (sessionId : String) (owner : LeaseOwnerIdentity)
    (maxBatches : Nat) (rows : List (InMemoryQueuedBatch Json)) : Nat :=
  (limitRows (claimScanLimit maxBatches) (readyRows host sessionId rows)).countP
    (·.toClaimStamp.available host owner)

/-- What a claim answers that finds these eligible rows. -/
def answerOf (kind : QueuedWorkClaimKind) (rows : List (InMemoryQueuedBatch Json)) :
    Except StoreError (Option (List (QueuedWorkBatch Json))) :=
  (rows.mapM claimCandidate).map fun candidates =>
    if kind.select candidates = 0 then none
    else some ((rows.take (kind.select candidates)).map (·.batch))

/-- How many of the eligible rows decide the claim: those it takes, or if there is a
batch of mixed or no payload classes, those up to the first such. -/
def decisiveRows (kind : QueuedWorkClaimKind) (rows : List (InMemoryQueuedBatch Json)) : Nat :=
  match rows.mapM claimCandidate with
  | .error _ => rows.findIdx (·.batch.workClass.isNone) + 1
  | .ok candidates => kind.select candidates

variable {row : InMemoryQueuedBatch Json}

theorem claimCandidate_ok {candidate : ClaimCandidate} (h : claimCandidate row = .ok candidate) :
    row.batch.workClass.isNone = false := by
  cases hclass : row.batch.workClass with
  | some workClass => rfl
  | none => simp [claimCandidate, queuedBatchWorkClass, hclass, Except.map] at h

theorem claimCandidate_error {e : StoreError} (h : claimCandidate row = .error e) :
    row.batch.workClass.isNone = true := by
  cases hclass : row.batch.workClass with
  | some workClass => simp [claimCandidate, queuedBatchWorkClass, hclass, Except.map] at h
  | none => rfl

theorem workClass_of_mapM_ok {candidates : List ClaimCandidate}
    (h : rows.mapM claimCandidate = .ok candidates) :
    ∀ row ∈ rows, row.batch.workClass.isNone = false := by
  intro row hrow
  cases hcandidate : claimCandidate row with
  | ok candidate => exact claimCandidate_ok hcandidate
  | error e =>
    obtain ⟨done, rest, rfl⟩ := append_of_mem hrow
    have hdone := mapM_take h done.length
    rw [take_left] at hdone
    rw [mapM_error_of hdone hcandidate] at h
    simp at h

/-- The first rows of the queue give the answer of the whole queue exactly when they
contain the decisive ones. -/
theorem answerOf_take_iff {w : Nat} :
    answerOf kind (rows.take w) = answerOf kind rows ↔ decisiveRows kind rows ≤ w := by
  cases hrows : rows.mapM claimCandidate with
  | ok candidates =>
    have hwindow := mapM_take hrows w
    have hle : kind.select candidates ≤ rows.length := by
      rw [(mapM_ok_iff.mp hrows).length_eq]
      exact (kind.select_le candidates).2
    simp only [answerOf, decisiveRows, hrows, hwindow, Except.map, select_take, Except.ok.injEq]
    by_cases hzero : kind.select candidates = 0
    · simp [hzero]
    · rw [if_neg hzero]
      constructor
      · intro hsame
        split at hsame
        · simp at hsame
        · have hlength := congrArg length (some.inj hsame)
          simp only [length_map, length_take] at hlength
          omega
      · intro hle'
        rw [Nat.min_eq_left hle', if_neg hzero, take_take, Nat.min_eq_left hle']
  | error e =>
    obtain ⟨done, row, rest, hshape, ⟨out, hdone⟩, hrow⟩ := mapM_error hrows
    have hindex : rows.findIdx (·.batch.workClass.isNone) = done.length := by
      have hclassed := workClass_of_mapM_ok hdone
      rw [hshape, findIdx_append, if_neg, findIdx_cons, claimCandidate_error hrow]
      · simp
      · rw [findIdx_lt_length]
        rintro ⟨bad, hbad, hnone⟩
        simp [hclassed bad hbad] at hnone
    simp only [answerOf, decisiveRows, hrows, Except.map, hindex]
    constructor
    · intro hsame
      by_contra hbefore
      have hshort : rows.take w = done.take w := by
        rw [hshape, take_append_of_le_length (by omega)]
      rw [hshort, mapM_take hdone w] at hsame
      simp at hsame
    · intro hpast
      obtain ⟨m, rfl⟩ := Nat.exists_eq_add_of_le hpast
      have hlong : rows.take (done.length + 1 + m) = done ++ row :: rest.take m := by
        rw [hshape, Nat.add_assoc, take_length_add_append, Nat.add_comm 1 m, take_succ_cons]
      rw [hlong, mapM_error_of hdone hrow]

/-- The two stores hold the same queue, the same pending inputs and the same leases. -/
structure SameState (memory : InMemorySessionStore Json) (db : Store Json) : Prop where
  queue : memory.queuedWork = db.queuedWorkBatches.rows
  inputs : memory.pendingTurnInputs = db.pendingTurnInputs.rows
  leases : memory.sessionExecutionLeases = db.sessionExecutionLeases

/-- The rows that the scan reads, with the signed comparison of the database. -/
def scannedRows (host : Host) (sessionId : String) (maxBatches : Nat) (db : Store Json) :
    List (InMemoryQueuedBatch Json) :=
  limitRows (claimScanLimit maxBatches) (db.queuedWorkRows.filter fun row =>
    row.batch.sessionId == sessionId && sqlLe row.batch.availableAtMs host.timestampMs)

/-- A claim that gets to read the queue reads the rows that it would read with an unsigned
comparison of the times. -/
def TimesAgree (host : Host) (sessionId : String) (fence : SessionExecutionLeaseFence)
    (kind : QueuedWorkClaimKind) (db : Store Json) : Prop :=
  kind.maxBatches ≠ 0 → db.ensureSessionExecutionLease host sessionId fence = .ok () →
    scannedRows host sessionId kind.maxBatches db =
      limitRows (claimScanLimit kind.maxBatches)
        (readyRows host sessionId db.queuedWorkBatches.rows)

/-- A claim that gets to read the queue reads as many eligible rows as decide it. -/
def WindowReaches (host : Host) (sessionId : String) (fence : SessionExecutionLeaseFence)
    (owner : LeaseOwnerIdentity) (kind : QueuedWorkClaimKind) (db : Store Json) : Prop :=
  kind.maxBatches ≠ 0 → db.ensureSessionExecutionLease host sessionId fence = .ok () →
    decisiveRows kind (eligibleRows host sessionId owner db.queuedWorkBatches.rows) ≤
      eligibleInWindow host sessionId owner kind.maxBatches db.queuedWorkBatches.rows

theorem asI64_of_lt {n : Nat} (h : n < 2 ^ 63) : asI64 n = n := by
  unfold asI64
  have hle : -((2 ^ 64 : Nat) : Int) ≤ (n : Int) * 2 := by omega
  have hlt : (n : Int) * 2 < ((2 ^ 64 : Nat) : Int) := by omega
  exact Int.bmod_eq_of_le_mul_two hle hlt

/-- Below 2^63 milliseconds the comparisons agree. -/
theorem timesAgree_of_lt {host : Host} (now : host.timestampMs < 2 ^ 63)
    (times : ∀ row ∈ db.queuedWorkBatches.rows, row.batch.availableAtMs < 2 ^ 63) :
    TimesAgree host sessionId fence kind db := by
  intro _ _
  refine congrArg (limitRows _) (filter_congr fun row hrow => congrArg _ ?_)
  have hmem := (perm_insertionSort _ _).subset hrow
  rw [sqlLe, asI64_of_lt now, asI64_of_lt (times row hmem), decide_eq_decide]
  exact Int.ofNat_le

theorem verify_eq_ensure (same : SameState memory db) (host : Host) (sessionId : String)
    (fence : SessionExecutionLeaseFence) :
    memory.verifySessionExecutionLease host sessionId fence =
      db.ensureSessionExecutionLease host sessionId fence := by
  rw [verifySessionExecutionLease, ensureSessionExecutionLease, same.leases]
  split
  · rfl
  · rename_i hsession
    rw [not_not] at hsession
    subst hsession
    cases db.sessionExecutionLeases fence.sessionId with
    | none | some current => rfl

theorem filter_claimable (host : Host) (rows : List (InMemoryQueuedBatch Json)) :
    (rows.insertionSort enqueueOrder).filter
        (InMemoryQueuedBatch.claimable host sessionId owner) =
      eligibleRows host sessionId owner rows := by
  rw [eligibleRows, readyRows, List.filter_filter]
  refine filter_congr fun row _ => ?_
  rw [InMemoryQueuedBatch.claimable, Bool.and_comm]

/-- The in-memory store answers for the whole queue. -/
theorem memory_claimedBatches {host : Host} (asked : kind.maxBatches ≠ 0)
    (leased : memory.verifySessionExecutionLease host sessionId fence = .ok ()) :
    claimedBatches (memory.claimReadyQueuedWorkInMemory host sessionId fence owner leaseTtlMs
        kind).1 =
      answerOf kind (eligibleRows host sessionId owner memory.queuedWork) := by
  rw [claimReadyQueuedWorkInMemory, if_neg asked, leased]
  dsimp only
  rw [filter_claimable]
  cases heligible : eligibleRows host sessionId owner memory.queuedWork with
  | nil =>
    have hnone : kind.select [] = 0 := Nat.le_zero.mp (kind.select_le []).2
    simp [claimedBatches, answerOf, Except.map, pure, Except.pure, hnone]
  | cons head rest =>
    cases hcandidates : (head :: rest).mapM claimCandidate with
    | error e => simp [claimedBatches, answerOf, hcandidates, Except.map]
    | ok candidates =>
      simp only [answerOf, hcandidates, Except.map]
      split
      · rfl
      · rfl

/-- A stamped row has an owner, so the update that claims it always finds it. -/
theorem rowStillClaimable_self (now : Nat) (stamp : ClaimStamp) :
    rowStillClaimable now stamp stamp = true := by
  cases htoken : stamp.claimToken with
  | none => simp [rowStillClaimable, htoken]
  | some token =>
    obtain ⟨holder, howner⟩ := isSome_iff_exists.mp (stamp.owned (by simp [htoken]))
    simp [rowStillClaimable, htoken, howner]

theorem claimedBatches_claimFromRows (rows : List (InMemoryQueuedBatch Json)) :
    claimedBatches (db.claimFromRows host sessionId owner leaseTtlMs kind rows).1 =
      answerOf kind rows := by
  rw [claimFromRows]
  cases hcandidates : rows.mapM claimCandidate with
  | error e => simp [claimedBatches, answerOf, hcandidates, Except.map]
  | ok candidates =>
    cases candidates with
    | nil =>
      have hnone : kind.select [] = 0 := Nat.le_zero.mp (kind.select_le []).2
      simp [claimedBatches, answerOf, hcandidates, Except.map, hnone]
    | cons head rest =>
      simp only [answerOf, hcandidates, Except.map]
      split
      · rfl
      · have hguard : ∀ selected : List (InMemoryQueuedBatch Json),
            (selected.all fun row => rowStillClaimable host.timestampMs row.toClaimStamp
              row.toClaimStamp) = true := fun selected =>
          all_eq_true.mpr fun row _ => rowStillClaimable_self _ _
        rw [stampQueuedWork, if_pos (hguard _)]
        rfl

/-- The database answers for the rows of its scan. -/
theorem sqlite_claimedBatches (asked : kind.maxBatches ≠ 0)
    (leased : db.ensureSessionExecutionLease host.toHost sessionId fence = .ok ()) :
    claimedBatches (db.claimQueuedWork host sessionId fence owner leaseTtlMs kind).1 =
      answerOf kind (db.queuedWorkCandidates host.toHost sessionId owner kind.maxBatches) := by
  unfold claimQueuedWork
  rw [if_neg asked]
  split
  · rename_i e hfails
    rw [leased] at hfails
    simp at hfails
  · exact claimedBatches_claimFromRows _

theorem claimQueuedWork_unleased {e : StoreError} (asked : kind.maxBatches ≠ 0)
    (unleased : db.ensureSessionExecutionLease host.toHost sessionId fence = .error e) :
    (db.claimQueuedWork host sessionId fence owner leaseTtlMs kind).1 = .error e := by
  unfold claimQueuedWork
  rw [if_neg asked]
  split
  · rename_i e' hfails
    rw [unleased] at hfails
    rw [Except.error.inj hfails]
  · rename_i hok
    rw [unleased] at hok
    simp at hok

/-- The scan offers the first eligible rows of the queue. -/
theorem queuedWorkCandidates_eq_take {host : Host} {maxBatches : Nat}
    (times : scannedRows host sessionId maxBatches db = limitRows (claimScanLimit maxBatches)
      (readyRows host sessionId db.queuedWorkBatches.rows)) :
    db.queuedWorkCandidates host sessionId owner maxBatches =
      (eligibleRows host sessionId owner db.queuedWorkBatches.rows).take
        (eligibleInWindow host sessionId owner maxBatches db.queuedWorkBatches.rows) := by
  have hprefix := (limitRows_initial (claimScanLimit maxBatches)
    (readyRows host sessionId db.queuedWorkBatches.rows)).filter
      (·.toClaimStamp.available host owner)
  have hcandidates : db.queuedWorkCandidates host sessionId owner maxBatches =
      (scannedRows host sessionId maxBatches db).filter (·.toClaimStamp.available host owner) := rfl
  rw [hcandidates, times, eligibleInWindow, countP_eq_length_filter]
  exact prefix_iff_eq_take.mp hprefix

/-- Both stores claim the same batches, or fail alike, exactly when the window
reaches as far as the claim. -/
theorem batches_agree_iff (same : SameState memory db)
    (times : TimesAgree host.toHost sessionId fence kind db) :
    claimedBatches (db.claimQueuedWork host sessionId fence owner leaseTtlMs kind).1 =
        claimedBatches (memory.claimReadyQueuedWorkInMemory host.toHost sessionId fence owner
          leaseTtlMs kind).1 ↔
      WindowReaches host.toHost sessionId fence owner kind db := by
  have hlease := verify_eq_ensure same host.toHost sessionId fence
  rw [WindowReaches]
  by_cases hzero : kind.maxBatches = 0
  · have hnone : (memory.claimReadyQueuedWorkInMemory host.toHost sessionId fence owner leaseTtlMs
        kind).1 = .ok none := by
      rw [claimReadyQueuedWorkInMemory, if_pos hzero]
    have hnone' : (db.claimQueuedWork host sessionId fence owner leaseTtlMs kind).1 = .ok none := by
      rw [claimQueuedWork, if_pos hzero]
    rw [hnone, hnone']
    exact iff_of_true rfl fun h => absurd hzero h
  · cases hensure : db.ensureSessionExecutionLease host.toHost sessionId fence with
    | error e =>
      rw [hensure] at hlease
      have hmemory : (memory.claimReadyQueuedWorkInMemory host.toHost sessionId fence owner
          leaseTtlMs kind).1 = .error e := by
        rw [claimReadyQueuedWorkInMemory, if_neg hzero, hlease]
      rw [hmemory, claimQueuedWork_unleased hzero hensure]
      exact iff_of_true rfl fun _ h => by cases h
    | ok _ =>
      rw [hensure] at hlease
      rw [sqlite_claimedBatches hzero hensure, memory_claimedBatches hzero hlease, same.queue,
        queuedWorkCandidates_eq_take (times hzero hensure), answerOf_take_iff]
      simp [hzero]

end Queue

section Inputs

variable {mode : TurnInputClaimMode} {maxInputs : Nat}
  {rows : List (InMemoryPendingTurnInput Json)}

/-- The inputs of the claim that a call answers with. -/
def claimedInputs (answer : Except StoreError (Option (TurnInputClaim Json))) :
    Except StoreError (Option (List (PendingTurnInput Json))) :=
  answer.map fun claim => claim.map (·.inputs)

/-- The inputs of the session in the state that the mode asks for. -/
def waitingInputs (sessionId : String) (mode : TurnInputClaimMode)
    (rows : List (InMemoryPendingTurnInput Json)) : List (InMemoryPendingTurnInput Json) :=
  (rows.insertionSort turnInputOrder).filter fun row =>
    row.input.sessionId == sessionId && row.input.state == wantedState mode

/-- Of these, the ones under no live claim that are for the turn and the checkpoint. -/
def eligibleInputs (host : Host) (sessionId : String) (owner : LeaseOwnerIdentity)
    (mode : TurnInputClaimMode) (rows : List (InMemoryPendingTurnInput Json)) :
    List (InMemoryPendingTurnInput Json) :=
  (waitingInputs sessionId mode rows).filter fun row =>
    row.toClaimStamp.available host owner && matchesMode mode row.input

def eligibleInputsInWindow (host : Host) (sessionId : String) (owner : LeaseOwnerIdentity)
    (mode : TurnInputClaimMode) (maxInputs : Nat)
    (rows : List (InMemoryPendingTurnInput Json)) : Nat :=
  (limitRows (turnInputScanLimit maxInputs) (waitingInputs sessionId mode rows)).countP fun row =>
    row.toClaimStamp.available host owner && matchesMode mode row.input

/-- The inputs as a claim of these rows hands them out, if there are any. -/
def handedInputs (mode : TurnInputClaimMode) :
    List (InMemoryPendingTurnInput Json) → Option (List (PendingTurnInput Json))
  | [] => none
  | first :: rest => some ((first :: rest).map fun row =>
    { row.input with state := stateAfterClaim mode })

/-- A claim that gets to read the inputs reads as many eligible ones as it can take. -/
def InputWindowReaches (host : Host) (sessionId : String) (fence : SessionExecutionLeaseFence)
    (owner : LeaseOwnerIdentity) (mode : TurnInputClaimMode) (maxInputs : Nat)
    (db : Store Json) : Prop :=
  maxInputs ≠ 0 → db.ensureSessionExecutionLease host sessionId fence = .ok () →
    min maxInputs (eligibleInputs host sessionId owner mode db.pendingTurnInputs.rows).length ≤
      eligibleInputsInWindow host sessionId owner mode maxInputs db.pendingTurnInputs.rows

theorem length_handedInputs {inputs : List (PendingTurnInput Json)}
    (h : handedInputs mode rows = some inputs) : inputs.length = rows.length := by
  cases rows with
  | nil => simp [handedInputs] at h
  | cons first rest =>
    simp only [handedInputs, some.injEq] at h
    rw [← h, length_map]

theorem handedInputs_take_iff {m n : Nat} :
    handedInputs mode (rows.take m) = handedInputs mode (rows.take n) ↔
      min m rows.length = min n rows.length := by
  constructor
  · intro hsame
    cases hm : handedInputs mode (rows.take m) with
    | some inputs =>
      have hn := length_handedInputs (hsame ▸ hm)
      have hm := length_handedInputs hm
      rw [length_take] at hm hn
      omega
    | none =>
      rw [hm] at hsame
      have hempty : ∀ {l : List (InMemoryPendingTurnInput Json)},
          handedInputs mode l = none → l.length = 0 := by
        intro l hl
        cases l with
        | nil => rfl
        | cons first rest => simp [handedInputs] at hl
      have hm := hempty hm
      have hn := hempty hsame.symm
      rw [length_take] at hm hn
      omega
  · intro hsame
    rw [take_eq_take_iff.mpr hsame]

theorem filter_claimable_inputs (host : Host) (rows : List (InMemoryPendingTurnInput Json)) :
    (rows.insertionSort turnInputOrder).filter
        (claimable host sessionId owner mode) =
      eligibleInputs host sessionId owner mode rows := by
  rw [eligibleInputs, waitingInputs, List.filter_filter]
  refine filter_congr fun row _ => ?_
  rw [Bool.eq_iff_iff]
  cases mode with
  | activeTurn turnId checkpoint =>
    simp only [claimable, TurnInputClaimMode.wants, matchesMode, wantedState, Bool.and_eq_true]
    tauto
  | nextTurn =>
    cases hstate : row.input.state <;>
      simp [claimable, TurnInputClaimMode.wants, matchesMode,
        wantedState, TurnInputState.isNextTurnPending, hstate, and_comm]

/-- An eligible input leaves both claims in the same state. -/
theorem claimedState_of_eligible {host : Host} {row : InMemoryPendingTurnInput Json}
    (h : row ∈ eligibleInputs host sessionId owner mode rows) :
    mode.claimedState row.input.state = stateAfterClaim mode := by
  cases mode with
  | activeTurn turnId checkpoint => rfl
  | nextTurn =>
    have hwaiting := (mem_filter.mp (mem_of_mem_filter h)).2
    simp only [wantedState, Bool.and_eq_true, beq_iff_eq] at hwaiting
    exact hwaiting.2

theorem memory_claimedInputs {host : Host} (asked : maxInputs ≠ 0)
    (leased : memory.verifySessionExecutionLease host sessionId fence = .ok ()) :
    claimedInputs (memory.claimPendingTurnInputsInMemory host sessionId fence owner leaseTtlMs
        maxInputs mode).1 =
      .ok (handedInputs mode ((eligibleInputs host sessionId owner mode
        memory.pendingTurnInputs).take maxInputs)) := by
  rw [claimPendingTurnInputsInMemory, if_neg asked, leased]
  dsimp only
  rw [filter_claimable_inputs]
  have hstate : ∀ row ∈ (eligibleInputs host sessionId owner mode
      memory.pendingTurnInputs).take maxInputs,
      mode.claimedState row.input.state = stateAfterClaim mode :=
    fun row hrow => claimedState_of_eligible (mem_of_mem_take hrow)
  cases htaken : (eligibleInputs host sessionId owner mode
      memory.pendingTurnInputs).take maxInputs with
  | nil => rfl
  | cons first rest =>
    rw [htaken] at hstate
    simp only [claimedInputs, Except.map, map_some, handedInputs, Except.ok.injEq, some.injEq]
    refine map_congr_left fun row hrow => ?_
    rw [stamp, hstate row hrow]

theorem sqlite_claimedInputs (asked : maxInputs ≠ 0)
    (leased : db.ensureSessionExecutionLease host.toHost sessionId fence = .ok ()) :
    claimedInputs (db.claimPendingTurnInputsSqlite host sessionId fence owner leaseTtlMs
        maxInputs mode).1 =
      .ok (handedInputs mode
        (db.turnInputCandidates host.toHost sessionId owner maxInputs mode)) := by
  unfold claimPendingTurnInputsSqlite
  rw [if_neg asked]
  split
  · rename_i e hfails
    rw [leased] at hfails
    simp at hfails
  · generalize db.turnInputCandidates host.toHost sessionId owner maxInputs mode = rows
    cases rows with
    | nil => rfl
    | cons head rest =>
      have hguard : ((head :: rest).all fun row => rowStillClaimable host.timestampMs
          row.toClaimStamp row.toClaimStamp) = true :=
        all_eq_true.mpr fun row _ => rowStillClaimable_self _ _
      simp only [stampTurnInputs]
      rw [if_pos hguard]
      rfl

theorem turnInputCandidates_eq_take {host : Host} (mode : TurnInputClaimMode) (maxInputs : Nat) :
    db.turnInputCandidates host sessionId owner maxInputs mode =
      (eligibleInputs host sessionId owner mode db.pendingTurnInputs.rows).take
        (min maxInputs (eligibleInputsInWindow host sessionId owner mode maxInputs
          db.pendingTurnInputs.rows)) := by
  have hprefix := (limitRows_initial (turnInputScanLimit maxInputs)
    (waitingInputs sessionId mode db.pendingTurnInputs.rows)).filter fun row =>
      row.toClaimStamp.available host owner && matchesMode mode row.input
  rw [eligibleInputsInWindow, countP_eq_length_filter, ← take_take,
    eligibleInputs, ← prefix_iff_eq_take.mp hprefix]
  rfl

/-- Both stores claim the same inputs, or fail alike, exactly when the window reaches
as far as the claim. -/
theorem inputs_agree_iff (same : SameState memory db) :
    claimedInputs (db.claimPendingTurnInputsSqlite host sessionId fence owner leaseTtlMs
          maxInputs mode).1 =
        claimedInputs (memory.claimPendingTurnInputsInMemory host.toHost sessionId fence owner
          leaseTtlMs maxInputs mode).1 ↔
      InputWindowReaches host.toHost sessionId fence owner mode maxInputs db := by
  have hlease := verify_eq_ensure same host.toHost sessionId fence
  rw [InputWindowReaches]
  by_cases hzero : maxInputs = 0
  · have hnone : (memory.claimPendingTurnInputsInMemory host.toHost sessionId fence owner
        leaseTtlMs maxInputs mode).1 = .ok none := by
      rw [claimPendingTurnInputsInMemory, if_pos hzero]
    have hnone' : (db.claimPendingTurnInputsSqlite host sessionId fence owner leaseTtlMs
        maxInputs mode).1 = .ok none := by
      rw [claimPendingTurnInputsSqlite, if_pos hzero]
    rw [hnone, hnone']
    exact iff_of_true rfl fun h => absurd hzero h
  · cases hensure : db.ensureSessionExecutionLease host.toHost sessionId fence with
    | error e =>
      rw [hensure] at hlease
      have hmemory : (memory.claimPendingTurnInputsInMemory host.toHost sessionId fence owner
          leaseTtlMs maxInputs mode).1 = .error e := by
        rw [claimPendingTurnInputsInMemory, if_neg hzero, hlease]
      have hsqlite : (db.claimPendingTurnInputsSqlite host sessionId fence owner leaseTtlMs
          maxInputs mode).1 = .error e := by
        rw [claimPendingTurnInputsSqlite, if_neg hzero, hensure]
      rw [hmemory, hsqlite]
      exact iff_of_true rfl fun _ h => by cases h
    | ok _ =>
      rw [hensure] at hlease
      rw [sqlite_claimedInputs hzero hensure, memory_claimedInputs hzero hlease, same.inputs,
        turnInputCandidates_eq_take, Except.ok.injEq, handedInputs_take_iff]
      have hwithin : eligibleInputsInWindow host.toHost sessionId owner mode maxInputs
          db.pendingTurnInputs.rows ≤
          (eligibleInputs host.toHost sessionId owner mode db.pendingTurnInputs.rows).length := by
        rw [eligibleInputsInWindow, countP_eq_length_filter]
        exact ((limitRows_initial _ _).filter _).length_le
      simp only [ne_eq, hzero, not_false_eq_true, true_implies]
      omega

end Inputs

/-- The claims of both stores agree, over queued work of every kind and over pending
inputs in every mode, exactly when the window of the scan reaches as far as the
claim. -/
theorem claims_agree_iff (same : SameState memory db) :
    (∀ kind, TimesAgree host.toHost sessionId fence kind db →
      (claimedBatches (db.claimQueuedWork host sessionId fence owner leaseTtlMs kind).1 =
          claimedBatches (memory.claimReadyQueuedWorkInMemory host.toHost sessionId fence owner
            leaseTtlMs kind).1 ↔
        WindowReaches host.toHost sessionId fence owner kind db)) ∧
    ∀ mode maxInputs,
      (claimedInputs (db.claimPendingTurnInputsSqlite host sessionId fence owner leaseTtlMs
            maxInputs mode).1 =
          claimedInputs (memory.claimPendingTurnInputsInMemory host.toHost sessionId fence owner
            leaseTtlMs maxInputs mode).1 ↔
        InputWindowReaches host.toHost sessionId fence owner mode maxInputs db) :=
  ⟨fun _ times => batches_agree_iff same times, fun _ _ => inputs_agree_iff same⟩

section Example

/-- A host that knows the digest of one lease. -/
def digestHost (now : Nat) : SqliteHost Unit :=
  { SqliteHost.quiet now with
    sha256Hex := fun text =>
      if text = "s:a:a:1:qwc:3:1:4" then
        "13bf8b5d8149a8f0c27d386b4d8c93c732bc929835f366b9fce26bfd8d89eff5"
      else "" }

/-- A wake that joins others and has no source key. -/
def joiningDraft (sequence : Nat) : QueuedWorkBatchDraft Unit :=
  { processWakeBatchDraft ⟨"s", "p", sequence, ()⟩ with
    sourceKey := none
    slotPolicy := .join
    mergeKey := .payloadDefault }

variable (size : Nat)

/-- The worker takes the lease and claims a group of this many batches until time
502; then one more batch is enqueued. -/
def claimGroup : List (Host × Op Unit) :=
  [(.quiet 0, .tryClaimSessionExecutionLease "s" worker 1000)] ++
    (List.range size).map (fun n => (.quiet 1, .enqueueQueuedWork (joiningDraft n))) ++
    [(.quiet 2, .claimReadyQueuedWork "s" workerFence worker .idle 500 size),
      (.quiet 3, .enqueueQueuedWork (joiningDraft size))]

def groupStore : InMemorySessionStore Unit :=
  (perform InMemoryStore.step (claimGroup size) ([], .new)).2

variable (distinct : ((groupStore size).queuedWork.map (·.batch.batchId)).Nodup)

/-- A database with the same queue and the same leases. -/
def groupDatabase : Store Unit :=
  { Store.new with
    sessionExecutionLeases := (groupStore size).sessionExecutionLeases
    queuedWorkBatches := ⟨(groupStore size).queuedWork, distinct⟩ }

theorem groupStore_distinct_two : ((groupStore 2).queuedWork.map (·.batch.batchId)).Nodup :=
  nodup_of_numbered (by decide) (by decide)

theorem groupStore_distinct : ((groupStore 33).queuedWork.map (·.batch.batchId)).Nodup :=
  nodup_of_numbered (by decide) (by decide)

theorem groupStore_sameState (inputs : (groupStore size).pendingTurnInputs = []) :
    SameState (groupStore size) (groupDatabase size distinct) :=
  ⟨rfl, inputs, rfl⟩

/-- Behind two claimed batches, both stores claim the third. -/
theorem claims_agree_behind_two :
    claimedBatches ((groupDatabase 2 groupStore_distinct_two).claimQueuedWork (digestHost 4) "s"
        workerFence worker 50 (.turnWork .idle 1)).1 =
      claimedBatches ((groupStore 2).claimReadyQueuedWorkInMemory (.quiet 4) "s" workerFence
        worker 50 (.turnWork .idle 1)).1 := by
  have hsame := groupStore_sameState 2 groupStore_distinct_two rfl
  have htimes : TimesAgree (digestHost 4).toHost "s" workerFence (.turnWork .idle 1)
      (groupDatabase 2 groupStore_distinct_two) :=
    timesAgree_of_lt (by decide) (by decide)
  have hagree := (@claims_agree_iff Unit (digestHost 4) _ _ "s" workerFence worker 50 hsame).1
    (.turnWork .idle 1) htimes
  refine hagree.mpr ?_
  intro _ _
  decide

/-- Behind 33 claimed batches, the in-memory store claims the next one and the
database claims nothing. -/
theorem claims_differ_behind_many :
    SameState (groupStore 33) (groupDatabase 33 groupStore_distinct) ∧
      (claimedBatches ((groupStore 33).claimReadyQueuedWork (.quiet 4) "s" workerFence worker
        .idle 50 1).1).map (·.map (·.map (·.batchId))) = .ok (some [queuedWorkBatchId 34]) ∧
      claimedBatches ((groupDatabase 33 groupStore_distinct).claimReadyQueuedWork (digestHost 4)
        "s" workerFence worker .idle 50 1).1 = .ok none := by
  refine ⟨groupStore_sameState 33 groupStore_distinct rfl, ?_, ?_⟩
  · decide
  · decide

end Example

end ScanWindows
