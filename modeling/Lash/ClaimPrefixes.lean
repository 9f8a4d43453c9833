import Lash.ScanWindows
import Mathlib.Data.List.TakeWhile

/-!
# What one claim takes of the queue

A claim takes the longest prefix of the ready batches under no live claim that it may hold:
a session command alone, or turn work that is admitted at the boundary, an exclusive batch
alone and joining batches together as long as delivery policy and merge key stay the same.
-/

namespace ClaimPrefixes

open StoreTypes QueuedWork InMemoryStore SqliteStore Runs ScanWindows List Option

section Prefixes

variable {A : Type}

/-- The longest prefix of the queue that may be taken. -/
structure LongestPrefix (mayTake : List A → Prop) (queue taken : List A) : Prop where
  isPrefix : taken <+: queue
  admissible : mayTake taken
  longest : ∀ other, other <+: queue → mayTake other → other.length ≤ taken.length

theorem takeWhile_longest {p : A → Bool} {queue other : List A} (initial : other <+: queue)
    (all : ∀ a ∈ other, p a = true) : other.length ≤ (queue.takeWhile p).length := by
  obtain ⟨rest, rfl⟩ := initial
  rw [takeWhile_append_of_pos all, length_append]
  exact Nat.le_add_right _ _

theorem longestPrefix_nil {mayTake : List A → Prop} {queue : List A} (nothing : mayTake [])
    (none : ∀ first rest, first :: rest <+: queue → ¬ mayTake (first :: rest)) :
    LongestPrefix mayTake queue [] where
  isPrefix := List.nil_prefix
  admissible := nothing
  longest other initial allowed := by
    cases other with
    | nil => exact Nat.le_refl 0
    | cons first rest => exact absurd allowed (none first rest initial)

end Prefixes

variable {Json : Type}

/-! ## What a claim may hold -/

/-- The batch may join a claim that starts with the first one. -/
def joins (first batch : QueuedWorkBatch Json) : Bool :=
  batch.workClass == some .turnWork && batch.slotPolicy == .join &&
    batch.deliveryPolicy == first.deliveryPolicy && batch.mergeKey == first.mergeKey

/-- Turn work that a claim at this boundary may start with. -/
def Admitted (boundary : QueuedWorkClaimBoundary) (first : QueuedWorkBatch Json) : Prop :=
  first.workClass = some .turnWork ∧
    (boundary = .activeTurnCheckpoint → first.deliveryPolicy = .earliestSafeBoundary)

instance (boundary : QueuedWorkClaimBoundary) (first : QueuedWorkBatch Json) :
    Decidable (Admitted boundary first) :=
  inferInstanceAs (Decidable (_ ∧ (_ → _)))

/-- What a claim of each kind may hold besides nothing. -/
def MayHold : QueuedWorkClaimKind → List (QueuedWorkBatch Json) → Prop
  | _, [] => True
  | .leadingSessionCommand, first :: rest =>
    first.workClass = some .sessionCommand ∧ rest = []
  | .turnWork boundary maxBatches, first :: rest =>
    Admitted boundary first ∧ rest.length < maxBatches ∧
      (rest = [] ∨ first.slotPolicy = .join ∧ ∀ batch ∈ rest, joins first batch = true)

/-! ## What the selection takes -/

/-- The batch has the data of the candidate. -/
structure Matches (batch : QueuedWorkBatch Json) (candidate : ClaimCandidate) : Prop where
  workClass : batch.workClass = some candidate.workClass
  deliveryPolicy : candidate.deliveryPolicy = batch.deliveryPolicy
  slotPolicy : candidate.slotPolicy = batch.slotPolicy
  mergeKey : candidate.mergeKey = batch.mergeKey

variable {queue rest : List (QueuedWorkBatch Json)} {candidates : List ClaimCandidate}
  {first : QueuedWorkBatch Json} {head : ClaimCandidate} {candidate : ClaimCandidate}

theorem claimCandidate_matches {row : InMemoryQueuedBatch Json}
    (h : claimCandidate row = .ok candidate) : Matches row.batch candidate := by
  rw [claimCandidate, queuedBatchWorkClass] at h
  cases hclass : row.batch.workClass with
  | none => simp [hclass, Except.map] at h
  | some workClass =>
    simp only [hclass, Except.map, Except.ok.injEq] at h
    subst h
    exact ⟨hclass, rfl, rfl, rfl⟩

variable {rows : List (InMemoryQueuedBatch Json)}

theorem mapM_claimCandidate (h : rows.mapM claimCandidate = .ok candidates) :
    List.Forall₂ Matches (rows.map (·.batch)) candidates := by
  rw [forall₂_map_left_iff]
  exact (mapM_ok_iff.mp h).imp fun _ _ => claimCandidate_matches

theorem joins_iff (hfirst : Matches first head) {batch : QueuedWorkBatch Json}
    (hbatch : Matches batch candidate) :
    joins first batch = true ↔ candidate.workClass = .turnWork ∧ candidate.slotPolicy = .join ∧
        candidate.deliveryPolicy = head.deliveryPolicy ∧ candidate.mergeKey = head.mergeKey := by
  simp only [joins, Bool.and_eq_true, beq_iff_eq, hbatch.workClass, some.injEq,
    hbatch.deliveryPolicy, hbatch.slotPolicy, hbatch.mergeKey, hfirst.deliveryPolicy,
    hfirst.mergeKey, and_assoc]

/-- A group grows by the batches that join it, up to its bound. -/
theorem extendJoinGroup_eq (hfirst : Matches first head) (maxBatches selected : Nat)
    (hrest : List.Forall₂ Matches rest candidates) :
    extendJoinGroup head maxBatches selected candidates =
      selected + min (maxBatches - selected) (rest.takeWhile (joins first)).length := by
  induction hrest generalizing selected with
  | nil => simp [extendJoinGroup]
  | @cons batch candidate rest candidates hbatch hrest ih =>
    have hjoins := joins_iff hfirst hbatch
    rw [extendJoinGroup]
    by_cases hfull : maxBatches ≤ selected
    · rw [if_pos (Or.inl hfull), Nat.sub_eq_zero_of_le hfull, Nat.zero_min, Nat.add_zero]
    · by_cases hjoin : joins first batch = true
      · obtain ⟨hclass, hslot, hpolicy, hkey⟩ := hjoins.mp hjoin
        rw [if_neg (by simp [hfull, hclass, hslot, hpolicy, hkey]), ih,
          takeWhile_cons_of_pos hjoin, length_cons]
        omega
      · have hstop : maxBatches ≤ selected ∨ candidate.workClass ≠ .turnWork ∨
            candidate.slotPolicy ≠ .join ∨ candidate.deliveryPolicy ≠ head.deliveryPolicy ∨
            candidate.mergeKey ≠ head.mergeKey := by
          by_contra hgo
          simp only [not_or, not_not] at hgo
          exact hjoin (hjoins.mpr hgo.2)
        rw [if_pos hstop, takeWhile_cons_of_neg hjoin, length_nil, Nat.min_zero, Nat.add_zero]

/-- A claim that asks for no batch may hold none. -/
theorem nothing_longest {kind : QueuedWorkClaimKind} (unasked : kind.maxBatches = 0) :
    LongestPrefix (MayHold kind) queue [] := by
  cases kind with
  | leadingSessionCommand => cases unasked
  | turnWork boundary maxBatches =>
    refine longestPrefix_nil trivial fun first rest _ allowed => ?_
    have hzero : maxBatches = 0 := unasked
    have hbound := allowed.2.1
    omega

variable {boundary : QueuedWorkClaimBoundary} {maxBatches : Nat}

/-- The group is the longest that may be held, if the claim may start with its first batch. -/
theorem joinGroup_longest (admitted : Admitted boundary first) (asked : maxBatches ≠ 0)
    (slot : first.slotPolicy = .join) :
    LongestPrefix (MayHold (.turnWork boundary maxBatches)) (first :: rest)
      ((first :: rest).take
        (1 + min (maxBatches - 1) (rest.takeWhile (joins first)).length)) := by
  have htaken : (first :: rest).take
      (1 + min (maxBatches - 1) (rest.takeWhile (joins first)).length) =
        first :: (rest.takeWhile (joins first)).take (maxBatches - 1) := by
    have hgroup := prefix_iff_eq_take.mp <| takeWhile_prefix (joins first) (l := rest)
    rw [Nat.add_comm, take_succ_cons, ← take_take, ← hgroup]
  rw [htaken]
  refine ⟨?_, ⟨admitted, ?_, Or.inr ⟨slot, ?_⟩⟩, ?_⟩
  · refine cons_prefix_cons.mpr ⟨rfl, ?_⟩
    calc (rest.takeWhile (joins first)).take (maxBatches - 1)
      _ <+: rest.takeWhile (joins first) := take_prefix _ _
      _ <+: rest := takeWhile_prefix _
  · have := length_take_le (maxBatches - 1) (rest.takeWhile (joins first))
    omega
  · intro batch hbatch
    exact mem_takeWhile_imp (mem_of_mem_take hbatch)
  · intro other initial allowed
    cases other with
    | nil => exact Nat.zero_le _
    | cons a more =>
      obtain ⟨rfl, hmore⟩ := cons_prefix_cons.mp initial
      obtain ⟨-, hbound, hall⟩ := allowed
      have hjoins : ∀ batch ∈ more, joins a batch = true := by
        rcases hall with rfl | ⟨-, hall⟩
        · simp
        · exact hall
      have hlength := takeWhile_longest hmore hjoins
      simp only [length_cons, length_take]
      omega

theorem not_mayHold_cons (refused : ¬ Admitted boundary first) :
    ¬ MayHold (.turnWork boundary maxBatches) (first :: rest) := fun h => refused h.1

/-- An exclusive batch is claimed alone. -/
theorem exclusive_longest (admitted : Admitted boundary first) (asked : maxBatches ≠ 0)
    (slot : first.slotPolicy ≠ .join) :
    LongestPrefix (MayHold (.turnWork boundary maxBatches)) (first :: rest) [first] := by
  refine ⟨cons_prefix_cons.mpr ⟨rfl, nil_prefix⟩,
    ⟨admitted, Nat.pos_of_ne_zero asked, Or.inl rfl⟩, ?_⟩
  intro other initial allowed
  cases other with
  | nil => exact Nat.zero_le _
  | cons a more =>
    obtain ⟨rfl, hmore⟩ := cons_prefix_cons.mp initial
    obtain ⟨-, -, rfl | ⟨hjoin, -⟩⟩ := allowed
    · exact Nat.le_refl _
    · exact absurd hjoin slot

theorem selectTurnWork_longest (matched : List.Forall₂ Matches queue candidates)
    (boundary : QueuedWorkClaimBoundary) (maxBatches : Nat) :
    LongestPrefix (MayHold (.turnWork boundary maxBatches)) queue
      (queue.take (selectTurnWorkClaimPrefix candidates boundary maxBatches)) := by
  unfold selectTurnWorkClaimPrefix
  by_cases hzero : maxBatches = 0
  · rw [if_pos hzero, take_zero]
    exact @nothing_longest _ _ (.turnWork boundary maxBatches) hzero
  · rw [if_neg hzero]
    cases matched with
    | nil => exact longestPrefix_nil trivial fun first rest initial => by simp at initial
    | @cons first head rest candidates hfirst hrest =>
      have hrefused (refused : ¬ Admitted boundary first) :
          LongestPrefix (MayHold (.turnWork boundary maxBatches)) (first :: rest) [] :=
        longestPrefix_nil trivial fun a more initial => by
          obtain ⟨rfl, -⟩ := cons_prefix_cons.mp initial
          exact not_mayHold_cons refused
      dsimp only
      split
      · rename_i hclass
        refine hrefused fun admitted => hclass ?_
        exact some.inj (hfirst.workClass.symm.trans admitted.1)
      · rename_i hclass
        rw [not_not] at hclass
        split
        · rename_i hlate
          refine hrefused fun admitted => hlate.2 ?_
          exact hfirst.deliveryPolicy.trans (admitted.2 hlate.1)
        · rename_i hearly
          have hadmitted : Admitted boundary first := by
            refine ⟨hclass ▸ hfirst.workClass, fun hboundary => ?_⟩
            by_contra hpolicy
            exact hearly ⟨hboundary, hfirst.deliveryPolicy ▸ hpolicy⟩
          split
          · rename_i hslot
            exact exclusive_longest hadmitted hzero (hfirst.slotPolicy ▸ hslot)
          · rename_i hslot
            rw [not_not] at hslot
            rw [extendJoinGroup_eq hfirst maxBatches 1 hrest]
            exact joinGroup_longest hadmitted hzero (hfirst.slotPolicy ▸ hslot)

theorem selectLeadingSessionCommand_longest (matched : List.Forall₂ Matches queue candidates) :
    LongestPrefix (MayHold .leadingSessionCommand) queue
      (queue.take (selectLeadingSessionCommand candidates)) := by
  cases matched with
  | nil => exact longestPrefix_nil trivial fun first rest initial => by simp at initial
  | @cons first head rest candidates hfirst hrest =>
    rw [selectLeadingSessionCommand, head?_cons, any_some]
    by_cases hclass : head.workClass = .sessionCommand
    · rw [if_pos (beq_iff_eq.mpr hclass)]
      refine ⟨?_, ⟨hclass ▸ hfirst.workClass, rfl⟩, ?_⟩
      · exact take_prefix _ _
      · intro other initial allowed
        cases other with
        | nil => exact Nat.zero_le _
        | cons a more =>
          obtain ⟨-, rfl⟩ := allowed
          exact Nat.le_refl _
    · rw [if_neg (by simpa using hclass), take_zero]
      refine longestPrefix_nil trivial fun a more initial allowed => ?_
      obtain ⟨rfl, -⟩ := cons_prefix_cons.mp initial
      exact hclass (some.inj (hfirst.workClass.symm.trans allowed.1))

/-- Whatever rows a claim finds to be claimable, it takes the longest prefix of them. -/
theorem answerOf_longest {kind : QueuedWorkClaimKind}
    {claimed : Option (List (QueuedWorkBatch Json))} (h : answerOf kind rows = .ok claimed) :
    LongestPrefix (MayHold kind) (rows.map (·.batch)) (claimed.getD []) := by
  rw [answerOf] at h
  cases hcandidates : rows.mapM claimCandidate with
  | error e => simp [hcandidates, Except.map] at h
  | ok candidates =>
    have hmatched := mapM_claimCandidate hcandidates
    simp only [hcandidates, Except.map, Except.ok.injEq] at h
    have htaken : claimed.getD [] = (rows.map (·.batch)).take (kind.select candidates) := by
      rw [← h]
      split
      · rename_i hzero
        rw [hzero, take_zero, getD_none]
      · rw [getD_some, map_take]
    rw [htaken]
    cases kind with
    | leadingSessionCommand => exact selectLeadingSessionCommand_longest hmatched
    | turnWork boundary maxBatches => exact selectTurnWork_longest hmatched boundary maxBatches

/-! ## Claims over the queue of a store -/

variable {host : Host} {sessionId : String} {fence : SessionExecutionLeaseFence}
  {owner : LeaseOwnerIdentity} {leaseTtlMs : Nat} {kind : QueuedWorkClaimKind}
  {claimed : Option (List (QueuedWorkBatch Json))}

/-- The ready batches under no live claim, in enqueue order. -/
def eligibleBatches (host : Host) (sessionId : String) (owner : LeaseOwnerIdentity)
    (rows : List (InMemoryQueuedBatch Json)) : List (QueuedWorkBatch Json) :=
  (eligibleRows host sessionId owner rows).map (·.batch)

/-- Of the ready batches that the scan of the database reads, those under no live claim. -/
def scannedBatches (host : Host) (sessionId : String) (owner : LeaseOwnerIdentity)
    (maxBatches : Nat) (db : Store Json) : List (QueuedWorkBatch Json) :=
  (db.queuedWorkCandidates host sessionId owner maxBatches).map (·.batch)

theorem queued_ordered (rows : List (InMemoryQueuedBatch Json)) :
    (rows.insertionSort enqueueOrder).Pairwise
      fun a b => a.batch.enqueueSeq ≤ b.batch.enqueueSeq := by
  have : Std.Total (@enqueueOrder Json) := ⟨fun a b => Nat.le_total _ _⟩
  have : IsTrans _ (@enqueueOrder Json) := ⟨fun a b c => Nat.le_trans⟩
  exact pairwise_insertionSort enqueueOrder rows

theorem eligibleBatches_ordered (host : Host) (sessionId : String) (owner : LeaseOwnerIdentity)
    (rows : List (InMemoryQueuedBatch Json)) :
    (eligibleBatches host sessionId owner rows).Pairwise (·.enqueueSeq ≤ ·.enqueueSeq) :=
  pairwise_map.mpr (((queued_ordered rows).filter _).filter _)

theorem scannedBatches_ordered (host : Host) (sessionId : String) (owner : LeaseOwnerIdentity)
    (maxBatches : Nat) (db : Store Json) :
    (scannedBatches host sessionId owner maxBatches db).Pairwise
      (·.enqueueSeq ≤ ·.enqueueSeq) := by
  have hready := (queued_ordered db.queuedWorkBatches.rows).filter fun row =>
    row.batch.sessionId == sessionId && sqlLe row.batch.availableAtMs host.timestampMs
  exact pairwise_map.mpr ((hready.sublist (limitRows_initial _ _).sublist).filter _)

theorem memory_longest {memory : InMemorySessionStore Json}
    (answered : claimedBatches (memory.claimReadyQueuedWorkInMemory host sessionId fence owner
      leaseTtlMs kind).1 = .ok claimed) :
    LongestPrefix (MayHold kind) (eligibleBatches host sessionId owner memory.queuedWork)
      (claimed.getD []) := by
  by_cases unasked : kind.maxBatches = 0
  · rw [InMemorySessionStore.claimReadyQueuedWorkInMemory, if_pos unasked] at answered
    cases answered
    exact nothing_longest unasked
  · cases hlease : memory.verifySessionExecutionLease host sessionId fence with
    | error e =>
      rw [InMemorySessionStore.claimReadyQueuedWorkInMemory, if_neg unasked, hlease] at answered
      cases answered
    | ok _ =>
      rw [memory_claimedBatches unasked hlease] at answered
      exact answerOf_longest answered

theorem sqlite_longest {host : SqliteHost Json} {db : Store Json}
    (answered : claimedBatches (db.claimQueuedWork host sessionId fence owner
      leaseTtlMs kind).1 = .ok claimed) :
    LongestPrefix (MayHold kind) (scannedBatches host.toHost sessionId owner kind.maxBatches db)
      (claimed.getD []) := by
  by_cases unasked : kind.maxBatches = 0
  · rw [Store.claimQueuedWork, if_pos unasked] at answered
    cases answered
    exact nothing_longest unasked
  · cases hlease : db.ensureSessionExecutionLease host.toHost sessionId fence with
    | error e =>
      rw [claimQueuedWork_unleased unasked hlease] at answered
      cases answered
    | ok _ =>
      rw [sqlite_claimedBatches unasked hlease] at answered
      exact answerOf_longest answered

/-- A claim that is answered takes the longest prefix in enqueue order that it may hold, of the
ready batches that are under no live claim; in the database, of those among the rows of its
scan. -/
theorem claims_take_longest (memory : InMemorySessionStore Json) (db : Store Json)
    (sqlite : SqliteHost Json) :
    (∀ claimed, claimedBatches (memory.claimReadyQueuedWorkInMemory host sessionId fence owner
          leaseTtlMs kind).1 = .ok claimed →
        (eligibleBatches host sessionId owner memory.queuedWork).Pairwise
            (·.enqueueSeq ≤ ·.enqueueSeq) ∧
          LongestPrefix (MayHold kind) (eligibleBatches host sessionId owner memory.queuedWork)
            (claimed.getD [])) ∧
      ∀ claimed, claimedBatches (db.claimQueuedWork sqlite sessionId fence owner leaseTtlMs
          kind).1 = .ok claimed →
        (scannedBatches sqlite.toHost sessionId owner kind.maxBatches db).Pairwise
            (·.enqueueSeq ≤ ·.enqueueSeq) ∧
          LongestPrefix (MayHold kind)
            (scannedBatches sqlite.toHost sessionId owner kind.maxBatches db)
            (claimed.getD []) :=
  ⟨fun _ answered => ⟨eligibleBatches_ordered _ _ _ _, memory_longest answered⟩,
    fun _ answered => ⟨scannedBatches_ordered _ _ _ _ _, sqlite_longest answered⟩⟩

section Example

/-- Turn work of one delivery policy and one merge key. -/
def Unmixed (maxBatches : Nat) : List (QueuedWorkBatch Json) → Prop
  | [] => True
  | first :: rest =>
    first.workClass = some .turnWork ∧ rest.length < maxBatches ∧
      ∀ batch ∈ rest, batch.workClass = some .turnWork ∧
        batch.deliveryPolicy = first.deliveryPolicy ∧ batch.mergeKey = first.mergeKey

/-- The worker takes the lease, and the wakes of two events of a process are enqueued. -/
def enqueueTwoWakes : List (Host × Op Unit) :=
  [(.quiet 0, .tryClaimSessionExecutionLease "s" worker 1000),
    (.quiet 1, .enqueueQueuedWork (processWakeBatchDraft ⟨"s", "p", 1, ()⟩)),
    (.quiet 1, .enqueueQueuedWork (processWakeBatchDraft ⟨"s", "p", 2, ()⟩))]

def twoWakes : InMemorySessionStore Unit :=
  (perform InMemoryStore.step enqueueTwoWakes ([], .new)).2

/-- The two wakes as they are queued. -/
def wakesQueued : List (QueuedWorkBatch Unit) :=
  eligibleBatches (.quiet 2) "s" worker twoWakes.queuedWork

/-- A database with the same queue and the same leases. -/
def twoWakesDatabase : Store Unit :=
  { Store.new with
    sessionExecutionLeases := twoWakes.sessionExecutionLeases
    queuedWorkBatches := ⟨twoWakes.queuedWork, by decide⟩ }

theorem claims_take_longest_twoWakes :
    (wakesQueued.Pairwise (·.enqueueSeq ≤ ·.enqueueSeq) ∧
      LongestPrefix (MayHold (.turnWork .idle 10)) wakesQueued (wakesQueued.take 1)) ∧
    (scannedBatches (.quiet 2) "s" worker 10 twoWakesDatabase).Pairwise
        (·.enqueueSeq ≤ ·.enqueueSeq) ∧
      LongestPrefix (MayHold (.turnWork .idle 10))
        (scannedBatches (.quiet 2) "s" worker 10 twoWakesDatabase) (wakesQueued.take 1) := by
  have answered : claimedBatches (twoWakes.claimReadyQueuedWorkInMemory (.quiet 2) "s" workerFence
      worker 50 (.turnWork .idle 10)).1 = .ok (some (wakesQueued.take 1)) := by decide
  have scanned : claimedBatches (twoWakesDatabase.claimQueuedWork (digestHost 2) "s" workerFence
      worker 50 (.turnWork .idle 10)).1 = .ok (some (wakesQueued.take 1)) := by
    rw [sqlite_claimedBatches (by decide) (by decide)]
    decide
  have hlongest := @claims_take_longest Unit (.quiet 2) "s" workerFence worker 50
    (.turnWork .idle 10) twoWakes twoWakesDatabase (digestHost 2)
  exact ⟨hlongest.1 _ answered, hlongest.2 _ scanned⟩

/-- Wakes are exclusive, so each is claimed alone although the two do not differ in what a
claim must not mix. -/
theorem exclusive_wakes_claimed_alone :
    claimedBatches (twoWakes.claimReadyQueuedWork (.quiet 2) "s" workerFence worker .idle 50 10).1 =
        .ok (some (wakesQueued.take 1)) ∧
      ¬ LongestPrefix (Unmixed 10) wakesQueued (wakesQueued.take 1) := by
  refine ⟨by decide, fun h => ?_⟩
  have hboth : Unmixed 10 wakesQueued := by
    have hqueued : wakesQueued = [
        (processWakeBatchDraft ⟨"s", "p", 1, ()⟩).stored (queuedWorkBatchId 1) 1 1,
        (processWakeBatchDraft ⟨"s", "p", 2, ()⟩).stored (queuedWorkBatchId 2) 2 1] := by
      decide
    rw [hqueued]
    exact ⟨rfl, by decide, by decide⟩
  exact absurd (h.longest _ (prefix_refl _) hboth) (by decide)

end Example

end ClaimPrefixes
