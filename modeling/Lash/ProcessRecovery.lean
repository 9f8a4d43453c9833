import Lash.DecimalNames
import Lash.LocalProcesses
import Lash.OnceCells

/-!
# Recovery of processes by several workers

A worker claims the lease of a process, runs it while it renews the lease, renews once
more, writes the outcome and releases the lease. Each call of the registry is a step of
its own. A worker may stall between any two of them, or for good, and the clock may show
anything.
-/

namespace ProcessRecovery

open ProcessRecords LocalProcesses LocalProcesses.TestLocalProcessRegistry Runs OnceCells List
  Option String

variable {rules : ProcessRules}

def runtimeTurnLeaseTtlMs : Nat := 30 * 1000

/-- Random identifiers: no two are the same, and none has a colon in it. -/
structure Uuids where
  uuid : Nat → String
  injective : Function.Injective uuid
  noColon : ∀ n, ':' ∉ (uuid n).toList

def Uuids.ownerId (uuids : Uuids) (worker : Nat) : String :=
  "process-recovery-" ++ uuids.uuid worker

inductive Phase (rules : ProcessRules) where
  | claiming
  | claimed (lease : ProcessLease)
  | running (lease renewed : ProcessLease)
  | confirming (lease : ProcessLease) (output : rules.AwaitOutput)
  | writing (fenced : ProcessLease) (output : rules.AwaitOutput)
  | releasing (lease : ProcessLease)
  | ended

/-- A task of `recover_process`. -/
structure Worker (rules : ProcessRules) where
  processId : String
  phase : Phase rules

structure World (rules : ProcessRules) where
  registry : TestLocalProcessRegistry rules
  now : Nat
  workers : Nat → Option (Worker rules)

def World.setWorker (world : World rules) (id : Nat) (worker : Worker rules) : World rules :=
  { world with workers := fun i => if i = id then some worker else world.workers i }

inductive Input (rules : ProcessRules) where
  | clock (now : Nat)
  | recover (worker : Nat) (processId : String)
  | claim (worker : Nat)
  | check (worker : Nat)
  | append (worker : Nat) (request : ProcessEventAppendRequest rules)
  | renew (worker : Nat)
  | finish (worker : Nat) (result : Except String rules.AwaitOutput)
  | confirm (worker : Nat)
  | complete (worker : Nat)
  | release (worker : Nat)
  | crash (worker : Nat)

def Input.worker : Input rules → Option Nat
  | clock _ => none
  | recover worker _ | claim worker | check worker | append worker _ | renew worker
  | finish worker _ | confirm worker | complete worker | release worker | crash worker =>
    some worker

/-- What a worker does next where it stands. A step that is not its next leaves it alone. -/
def act (uuids : Uuids) (id : Nat) (input : Input rules) (world : World rules)
    (processId : String) (phase : Phase rules) : TestLocalProcessRegistry rules × Phase rules :=
  match input, phase with
  | .claim _, .claiming =>
    match world.registry.claimProcessLease processId (uuids.ownerId id) runtimeTurnLeaseTtlMs
        world.now with
    | (.ok lease, registry) => (registry, .claimed lease)
    | (.error _, registry) => (registry, .ended)
  | .check _, .claimed lease =>
    if (world.registry.getProcess processId).any (·.isTerminal) then
      (world.registry, .releasing lease)
    else (world.registry, .running lease lease)
  | .append _ request, .running lease renewed =>
    ((world.registry.appendEvent processId request world.now).2, .running lease renewed)
  | .renew _, .running lease renewed =>
    match world.registry.renewProcessLease renewed runtimeTurnLeaseTtlMs world.now with
    | (.ok renewed, registry) => (registry, .running lease renewed)
    -- the new owner finishes the process
    | (.error _, registry) => (registry, .ended)
  | .finish _ (.ok output), .running lease _ => (world.registry, .confirming lease output)
  | .finish _ (.error message), .running lease _ =>
    (world.registry,
      .confirming lease (rules.executionFailure "process_recovery_failed" message))
  | .confirm _, .confirming lease output =>
    match world.registry.renewProcessLease lease runtimeTurnLeaseTtlMs world.now with
    | (.ok fenced, registry) => (registry, .writing fenced output)
    | (.error _, registry) => (registry, .ended)
  | .complete _, .writing fenced output =>
    ((world.registry.completeProcess processId output world.now).2, .releasing fenced)
  | .release _, .releasing lease =>
    (world.registry.completeProcessLease (.fromLease lease), .ended)
  | .crash _, _ => (world.registry, .ended)
  | _, phase => (world.registry, phase)

def step (uuids : Uuids) (input : Input rules) (world : World rules) : Unit × World rules :=
  match input with
  | .clock now => ((), { world with now := now })
  | .recover id processId =>
    match world.workers id with
    | some _ => ((), world)
    | none => ((), world.setWorker id ⟨processId, .claiming⟩)
  | input =>
    match input.worker with
    | none => ((), world)
    | some id =>
      match world.workers id with
      | none => ((), world)
      | some worker =>
        let (registry, phase) := act uuids id input world worker.processId worker.phase
        ((), { world with registry := registry }.setWorker id ⟨worker.processId, phase⟩)

/-! ## Tokens -/

/-- The lease carries the name of the worker and is for its process. -/
def Own (uuids : Uuids) (id : Nat) (processId : String) (lease : ProcessLease) : Prop :=
  lease.processId = processId ∧ lease.ownerId = uuids.ownerId id ∧
    ∃ now fencingToken, lease.leaseToken = leaseToken processId (uuids.ownerId id) now fencingToken

theorem Uuids.ownerId_noColon (uuids : Uuids) (id : Nat) : ':' ∉ (uuids.ownerId id).toList := by
  rw [ownerId, toList_append, mem_append, not_or]
  exact ⟨by decide, uuids.noColon id⟩

theorem Uuids.ownerId_nonempty (uuids : Uuids) (id : Nat) : (uuids.ownerId id).isEmpty = false := by
  rw [Bool.eq_false_iff, ne_eq, String.isEmpty_iff]
  intro h
  have hlength := congrArg (fun s => s.toList.length) h
  simp [ownerId] at hlength

theorem Uuids.ownerId_injective (uuids : Uuids) {id id' : Nat}
    (h : uuids.ownerId id = uuids.ownerId id') : id = id' := by
  refine uuids.injective ?_
  have hlist := congrArg String.toList h
  rw [ownerId, ownerId, toList_append, toList_append, append_cancel_left_eq]
    at hlist
  exact toList_inj.mp hlist

theorem leaseToken_toList (processId ownerId : String) (now fencingToken : Nat) :
    (leaseToken processId ownerId now fencingToken).toList =
      processId.toList ++ ':' :: (ownerId.toList ++
        ':' :: ((toString now).toList ++ ':' :: (toString fencingToken).toList)) := by
  have hsame : ∀ s : String, toString s = s := fun _ => rfl
  have hcolon : (":" : String).toList = [':'] := rfl
  simp [leaseToken, hsame, hcolon]

variable {lease : ProcessLease}

/-- The token of a lease names the worker it was given to. -/
theorem Own.worker_eq {uuids : Uuids} {id id' : Nat} {processId : String} {lease' : ProcessLease}
    (h : Own uuids id processId lease) (h' : Own uuids id' processId lease')
    (htoken : lease.leaseToken = lease'.leaseToken) : id = id' := by
  obtain ⟨-, -, now, fencingToken, hlease⟩ := h
  obtain ⟨-, -, now', fencingToken', hlease'⟩ := h'
  rw [hlease, hlease'] at htoken
  have hlist := congrArg String.toList htoken
  rw [leaseToken_toList, leaseToken_toList, append_cancel_left_eq, cons.injEq] at hlist
  have howner := (DecimalNames.append_cons_inj (uuids.ownerId_noColon id)
    (uuids.ownerId_noColon id') hlist.2).1
  exact uuids.ownerId_injective (toList_inj.mp howner)

/-! ## What a worker does to the leases -/

namespace Phase

/-- Every lease a worker still has at hand. -/
def leases : Phase rules → List ProcessLease
  | claimed lease | confirming lease _ | releasing lease => [lease]
  | running lease renewed => [lease, renewed]
  | writing fenced _ => [fenced]
  | claiming | ended => []

/-- The lease a worker goes by when it writes: the one it claimed or renewed last. -/
def held : Phase rules → Option ProcessLease
  | claimed lease => some lease
  | running _ renewed => some renewed
  | writing fenced _ => some fenced
  | claiming | confirming .. | releasing _ | ended => none

end Phase

variable {uuids : Uuids} {id : Nat} {input : Input rules} {world : World rules}
variable {processId : String} {phase : Phase rules} {registry : TestLocalProcessRegistry rules}

@[simp] theorem leases_setLease (registry : TestLocalProcessRegistry rules) (processId q : String)
    (lease : ProcessLease) :
    (registry.setLease processId lease).leases q =
      if q = processId then some lease else registry.leases q := rfl

/-- A lease is claimed over one that is free, has run out, or was the claimer's. -/
theorem claim_cases (uuids : Uuids) (id : Nat) (registry : TestLocalProcessRegistry rules)
    (processId : String) (now : Nat) :
    (∃ error, registry.claimProcessLease processId (uuids.ownerId id) runtimeTurnLeaseTtlMs now =
      (.error error, registry)) ∨
    ∃ lease, registry.claimProcessLease processId (uuids.ownerId id) runtimeTurnLeaseTtlMs now =
        (.ok lease, registry.setLease processId lease) ∧ Own uuids id processId lease ∧
      ∀ current, registry.leases processId = some current → current.ownerId.isEmpty = true ∨
        current.expiresAtEpochMs ≤ now ∨ current.ownerId = uuids.ownerId id := by
  simp only [claimProcessLease]
  split
  · exact Or.inl ⟨_, rfl⟩
  · next hfree =>
      refine Or.inr ⟨_, rfl, ⟨rfl, rfl, now, _, rfl⟩, fun current hcurrent => ?_⟩
      rw [hcurrent, filter_eq_none_iff] at hfree
      have hnot := hfree current rfl
      simp only [Bool.and_eq_true, Bool.not_eq_eq_eq_not, Bool.not_true, decide_eq_true_eq,
        bne_iff_ne, ne_eq, not_and, Decidable.not_not] at hnot
      by_cases hempty : current.ownerId.isEmpty = true
      · exact Or.inl hempty
      · by_cases hexpired : current.expiresAtEpochMs ≤ now
        · exact Or.inr (Or.inl hexpired)
        · exact Or.inr (Or.inr (hnot ⟨by simpa using hempty, by omega⟩))

/-- A lease is renewed while the registry has its token. -/
theorem renew_cases (registry : TestLocalProcessRegistry rules) (lease : ProcessLease) (now : Nat) :
    (∃ error, registry.renewProcessLease lease runtimeTurnLeaseTtlMs now =
      (.error error, registry)) ∨
    ∃ current expiresAtEpochMs, registry.leases lease.processId = some current ∧
      current.leaseToken = lease.leaseToken ∧
      registry.renewProcessLease lease runtimeTurnLeaseTtlMs now =
        (.ok { lease with expiresAtEpochMs := expiresAtEpochMs },
          registry.setLease lease.processId
            { lease with expiresAtEpochMs := expiresAtEpochMs }) := by
  simp only [renewProcessLease]
  split
  · exact Or.inl ⟨_, rfl⟩
  · next current hcurrent =>
      rw [filter_eq_some_iff] at hcurrent
      obtain ⟨hlease, hheld⟩ := hcurrent
      simp only [Bool.and_eq_true, beq_iff_eq] at hheld
      exact Or.inr ⟨current, _, hlease, hheld.1.2, rfl⟩

theorem release_cases (registry : TestLocalProcessRegistry rules)
    (completion : ProcessLeaseCompletion) :
    registry.completeProcessLease completion = registry ∨
    ∃ current, registry.leases completion.processId = some current ∧
      current.leaseToken = completion.leaseToken ∧ registry.completeProcessLease completion =
        registry.setLease completion.processId (ProcessLease.released current) := by
  unfold completeProcessLease
  cases hcurrent : registry.leases completion.processId with
  | none => exact Or.inl rfl
  | some current =>
    by_cases htoken : current.leaseToken = completion.leaseToken
    · exact Or.inr ⟨current, rfl, htoken, by simp only [if_pos htoken]⟩
    · exact Or.inl (by simp only [if_neg htoken])

theorem appendEvent_leases (registry : TestLocalProcessRegistry rules) (processId : String)
    (request : ProcessEventAppendRequest rules) (now : Nat) :
    (registry.appendEvent processId request now).2.leases = registry.leases := by
  rcases appendEvent_cases registry processId request now with h | ⟨_, _, _, -, -, h⟩
  · rw [h]
  · rw [h]
    rfl

/-- What a worker does to the leases, and which one it goes by afterwards. -/
inductive LeaseCase (uuids : Uuids) (id : Nat) (world : World rules) (processId : String)
    (phase : Phase rules) : (String → Option ProcessLease) → Phase rules → Prop where
  | kept {phase' : Phase rules} (hheld : phase'.held = none ∨ phase'.held = phase.held)
      (hleases : phase'.leases ⊆ phase.leases) :
      LeaseCase uuids id world processId phase world.registry.leases phase'
  | claimed {lease : ProcessLease} (hown : Own uuids id processId lease)
      (hfree : ∀ current, world.registry.leases processId = some current →
        current.ownerId.isEmpty = true ∨ current.expiresAtEpochMs ≤ world.now ∨
          current.ownerId = uuids.ownerId id) :
      LeaseCase uuids id world processId phase (world.registry.setLease processId lease).leases
        (.claimed lease)
  | renewed {phase' : Phase rules} {lease lease' current : ProcessLease}
      (hmem : lease ∈ phase.leases)
      (hsame : lease'.processId = lease.processId ∧ lease'.ownerId = lease.ownerId ∧
        lease'.leaseToken = lease.leaseToken)
      (hcurrent : world.registry.leases lease.processId = some current)
      (htoken : current.leaseToken = lease.leaseToken)
      (hheld : phase'.held = some lease') (hleases : phase'.leases ⊆ lease' :: phase.leases) :
      LeaseCase uuids id world processId phase
        (world.registry.setLease lease.processId lease').leases phase'
  | released {lease current : ProcessLease} (hmem : lease ∈ phase.leases)
      (hcurrent : world.registry.leases lease.processId = some current)
      (htoken : current.leaseToken = lease.leaseToken) :
      LeaseCase uuids id world processId phase
        (world.registry.setLease lease.processId (ProcessLease.released current)).leases .ended

theorem act_cases (uuids : Uuids) (id : Nat) (input : Input rules) (world : World rules)
    (processId : String) (phase : Phase rules) :
    LeaseCase uuids id world processId phase
      (act uuids id input world processId phase).1.leases
      (act uuids id input world processId phase).2 := by
  unfold act
  split
  · rcases claim_cases uuids id world.registry processId world.now with
      ⟨error, h⟩ | ⟨lease, h, hown, hfree⟩
    · rw [h]
      exact .kept (.inl rfl) (nil_subset _)
    · rw [h]
      exact .claimed hown hfree
  · split
    · exact .kept (.inl rfl) (List.Subset.refl _)
    · exact .kept (.inr rfl) (by simp [Phase.leases])
  · rw [appendEvent_leases]
    exact .kept (.inr rfl) (List.Subset.refl _)
  · next lease renewed =>
      rcases renew_cases world.registry renewed world.now with
        ⟨error, h⟩ | ⟨current, expiry, hcurrent, htoken, h⟩
      · rw [h]
        exact .kept (.inl rfl) (nil_subset _)
      · rw [h]
        exact .renewed (by simp [Phase.leases]) ⟨rfl, rfl, rfl⟩ hcurrent htoken rfl
          (by simp [Phase.leases])
  · exact .kept (.inl rfl) (by simp [Phase.leases])
  · exact .kept (.inl rfl) (by simp [Phase.leases])
  · next lease output =>
      rcases renew_cases world.registry lease world.now with
        ⟨error, h⟩ | ⟨current, expiry, hcurrent, htoken, h⟩
      · rw [h]
        exact .kept (.inl rfl) (nil_subset _)
      · rw [h]
        exact .renewed (by simp [Phase.leases]) ⟨rfl, rfl, rfl⟩ hcurrent htoken rfl
          (by simp [Phase.leases])
  · rw [completeProcess_registry, appendEvent_leases]
    exact .kept (.inl rfl) (by simp [Phase.leases])
  · next lease =>
      rcases release_cases world.registry (.fromLease lease) with h | ⟨current, hcurrent, htoken, h⟩
      · rw [h]
        exact .kept (.inl rfl) (nil_subset _)
      · rw [h]
        exact .released (by simp [Phase.leases]) hcurrent htoken
  · exact .kept (.inl rfl) (nil_subset _)
  · exact .kept (.inr rfl) (List.Subset.refl _)

/-! ## The invariant -/

/-- A worker's leases are its own, and the one it goes by is the registry's until it runs out. -/
structure Sound (uuids : Uuids) (world : World rules) : Prop where
  own : ∀ id worker, world.workers id = some worker → ∀ lease ∈ worker.phase.leases,
    Own uuids id worker.processId lease
  current : ∀ id worker lease, world.workers id = some worker → worker.phase.held = some lease →
    world.registry.leases worker.processId = some lease ∨ lease.expiresAtEpochMs ≤ world.now

theorem Phase.held_mem (h : phase.held = some lease) : lease ∈ phase.leases := by
  cases phase with
  | claimed | running | writing =>
    cases h
    simp [leases]
  | claiming | confirming | releasing | ended => cases h

variable {entries : String → Option ProcessLease}

variable {phase' : Phase rules}

section

variable (h : LeaseCase uuids id world processId phase entries phase')
include h

section

variable (hown : ∀ lease ∈ phase.leases, Own uuids id processId lease)
include hown

theorem LeaseCase.own : ∀ lease ∈ phase'.leases, Own uuids id processId lease := by
  cases h with
  | kept _ hleases => exact fun lease hmem => hown lease (hleases hmem)
  | claimed hlease =>
    intro lease hmem
    rw [mem_singleton.mp hmem]
    exact hlease
  | renewed hmem hsame _ _ _ hleases =>
    intro lease hlease
    rcases mem_cons.mp (hleases hlease) with rfl | hold
    · obtain ⟨hprocess, howner, now, fencingToken, htoken⟩ := hown _ hmem
      exact ⟨hsame.1.trans hprocess, hsame.2.1.trans howner, now, fencingToken,
        hsame.2.2.trans htoken⟩
    · exact hown lease hold
  | released => exact fun lease hmem => by cases hmem

/-- The lease that a worker goes by after a step of its own is the registry's, if it was. -/
theorem LeaseCase.current (hcurrent : ∀ lease, phase.held = some lease →
      world.registry.leases processId = some lease ∨ lease.expiresAtEpochMs ≤ world.now)
    (hheld : phase'.held = some lease) :
    entries processId = some lease ∨ lease.expiresAtEpochMs ≤ world.now := by
  cases h with
  | kept hsame =>
    rcases hsame with hnone | hsame
    · rw [hnone] at hheld
      cases hheld
    · exact hcurrent lease (hsame.symm.trans hheld)
  | claimed =>
    cases hheld
    exact Or.inl (by simp)
  | renewed hmem _ _ _ hrenewed =>
    rw [hrenewed] at hheld
    cases hheld
    exact Or.inl (by simp [(hown _ hmem).1])
  | released => cases hheld

/-- A worker takes no lease from another before it has run out. -/
theorem LeaseCase.others {other : Nat} {q : String} (hother : other ≠ id)
    (hlease : Own uuids other q lease)
    (hcurrent : world.registry.leases q = some lease ∨ lease.expiresAtEpochMs ≤ world.now) :
    entries q = some lease ∨ lease.expiresAtEpochMs ≤ world.now := by
  rcases hcurrent with hcurrent | hexpired
  · -- a lease of the other's that is replaced would have carried the worker's name
    have replaced : ∀ mine current, mine ∈ phase.leases →
        world.registry.leases mine.processId = some current →
        current.leaseToken = mine.leaseToken → q ≠ mine.processId := by
      rintro mine current hmine hentry htoken rfl
      rw [hcurrent] at hentry
      cases hentry
      obtain ⟨hprocess, -⟩ := hown mine hmine
      have hmineOwn := hown mine hmine
      rw [← hprocess] at hmineOwn
      exact hother (hlease.worker_eq hmineOwn htoken)
    cases h with
    | kept => exact Or.inl hcurrent
    | claimed _ hfree =>
      by_cases hq : q = processId
      · subst hq
        rcases hfree lease hcurrent with hempty | hexpired | howner
        · rw [hlease.2.1, uuids.ownerId_nonempty] at hempty
          cases hempty
        · exact Or.inr hexpired
        · exact absurd (uuids.ownerId_injective (hlease.2.1.symm.trans howner)) hother
      · refine Or.inl ?_
        rw [leases_setLease, if_neg hq]
        exact hcurrent
    | renewed hmem _ hentry htoken | released hmem hentry htoken =>
      refine Or.inl ?_
      rw [leases_setLease, if_neg (replaced _ _ hmem hentry htoken)]
      exact hcurrent
  · exact Or.inr hexpired

end

end

open Phase World

theorem act_sound (input : Input rules) (hsound : Sound uuids world)
    (hworker : world.workers id = some ⟨processId, phase⟩) :
    Sound uuids ({ world with
      registry := (act uuids id input world processId phase).1 }.setWorker id
        ⟨processId, (act uuids id input world processId phase).2⟩) := by
  have hcase := act_cases uuids id input world processId phase
  have hown := hsound.own id _ hworker
  constructor
  · intro i worker hi lease hmem
    by_cases hid : i = id
    · simp only [setWorker, if_pos hid, some.injEq] at hi
      subst hid hi
      exact hcase.own hown lease hmem
    · simp only [setWorker, if_neg hid] at hi
      exact hsound.own i worker hi lease hmem
  · intro i worker lease hi hheld
    by_cases hid : i = id
    · simp only [setWorker, if_pos hid, some.injEq] at hi
      subst hid hi
      exact hcase.current hown (fun lease => hsound.current i _ lease hworker) hheld
    · simp only [setWorker, if_neg hid] at hi
      exact hcase.others hown hid (hsound.own i worker hi lease (held_mem hheld))
        (hsound.current i worker lease hi hheld)

/-- A step is the clock's, the start of a worker, or what a worker does. -/
theorem step_cases (uuids : Uuids) (input : Input rules) (world : World rules) :
    (step uuids input world).2 = world ∨
    (∃ now, input = .clock now ∧ (step uuids input world).2 = { world with now := now }) ∨
    (∃ id processId, world.workers id = none ∧
      (step uuids input world).2 = world.setWorker id ⟨processId, .claiming⟩) ∨
    ∃ id worker, input.worker = some id ∧ world.workers id = some worker ∧
      (step uuids input world).2 = { world with
        registry := (act uuids id input world worker.processId worker.phase).1 }.setWorker id
          ⟨worker.processId, (act uuids id input world worker.processId worker.phase).2⟩ := by
  cases input with
  | clock now => exact Or.inr (Or.inl ⟨now, rfl, rfl⟩)
  | recover id processId =>
    cases hworker : world.workers id with
    | none => exact Or.inr (Or.inr (Or.inl ⟨id, processId, hworker, by simp only [step, hworker]⟩))
    | some worker => exact Or.inl (by simp only [step, hworker])
  | _ =>
    simp only [step, Input.worker]
    split
    · exact Or.inl rfl
    · next worker hworker => exact Or.inr (Or.inr (Or.inr ⟨_, worker, rfl, hworker, rfl⟩))

/-- The clock does not go back. -/
def Forward (input : Input rules) (world : World rules) : Prop :=
  ∀ now, input = .clock now → world.now ≤ now

theorem step_sound (hsound : Sound uuids world) (hforward : Forward input world) :
    Sound uuids (step uuids input world).2 := by
  rcases step_cases uuids input world with
    h | ⟨now, hinput, h⟩ | ⟨id, processId, hnone, h⟩ | ⟨id, worker, -, hworker, h⟩
  · rw [h]
    exact hsound
  · rw [h]
    refine ⟨hsound.own, fun id worker lease hworker hheld => ?_⟩
    have hle := hforward now hinput
    rcases hsound.current id worker lease hworker hheld with hcurrent | hexpired
    · exact Or.inl hcurrent
    · exact Or.inr (Nat.le_trans hexpired hle)
  · rw [h]
    constructor
    · intro i worker hi lease hmem
      by_cases hid : i = id
      · simp only [setWorker, if_pos hid, some.injEq] at hi
        subst hi
        cases hmem
      · simp only [setWorker, if_neg hid] at hi
        exact hsound.own i worker hi lease hmem
    · intro i worker lease hi hheld
      by_cases hid : i = id
      · simp only [setWorker, if_pos hid, some.injEq] at hi
        subst hi
        cases hheld
      · simp only [setWorker, if_neg hid] at hi
        exact hsound.current i worker lease hi hheld
  · rw [h]
    exact act_sound input hsound hworker

/-! ## What a worker writes -/

theorem appendEvent_managed {q : String} {request : ProcessEventAppendRequest rules} {now : Nat}
    (h : (registry.appendEvent processId request now).2.managed q ≠ registry.managed q) :
    q = processId := by
  rcases appendEvent_cases registry processId request now with hsame | ⟨_, managed', _, -, -, hset⟩
  · rw [hsame] at h
    exact absurd rfl h
  · rw [hset] at h
    by_contra hq
    exact h (if_neg hq)

/-- The event a worker appends where it stands. -/
def appends (input : Input rules) (processId : String) (phase : Phase rules) :
    Option (ProcessEventAppendRequest rules) :=
  match input, phase with
  | .append _ request, .running _ _ => some request
  | .complete _, .writing _ output => some (terminalRequest processId output)
  | _, _ => none

/-- A worker touches a process only by appending an event to its own. -/
theorem act_managed (uuids : Uuids) (id : Nat) (input : Input rules) (world : World rules)
    (processId : String) (phase : Phase rules) :
    (act uuids id input world processId phase).1.managed = world.registry.managed ∨
      ∃ request lease, phase.held = some lease ∧ appends input processId phase = some request ∧
        (act uuids id input world processId phase).1 =
          (world.registry.appendEvent processId request world.now).2 := by
  unfold act
  split
  · rcases claim_cases uuids id world.registry processId world.now with
      ⟨error, h⟩ | ⟨lease, h, -, -⟩
    · exact Or.inl (by rw [h])
    · exact Or.inl (by rw [h]; rfl)
  · split <;> exact Or.inl rfl
  · next request lease renewed => exact Or.inr ⟨request, renewed, rfl, rfl, rfl⟩
  · next lease renewed =>
      rcases renew_cases world.registry renewed world.now with ⟨error, h⟩ | ⟨_, _, -, -, h⟩
      · exact Or.inl (by rw [h])
      · exact Or.inl (by rw [h]; rfl)
  · exact Or.inl rfl
  · exact Or.inl rfl
  · next lease output =>
      rcases renew_cases world.registry lease world.now with ⟨error, h⟩ | ⟨_, _, -, -, h⟩
      · exact Or.inl (by rw [h])
      · exact Or.inl (by rw [h]; rfl)
  · next fenced output =>
      exact Or.inr ⟨_, fenced, rfl, rfl, completeProcess_registry _ _ _ _⟩
  · next lease =>
      rcases release_cases world.registry (.fromLease lease) with h | ⟨_, -, -, h⟩
      · exact Or.inl (by rw [h])
      · exact Or.inl (by rw [h]; rfl)
  · exact Or.inl rfl
  · exact Or.inl rfl

/-- The outcomes of the processes that have ended. -/
def outcomes (world : World rules) (processId : String) : Option (ProcessStatus rules) :=
  (world.registry.managed processId).bind (·.outcome)

theorem appendEvent_keeps (registry : TestLocalProcessRegistry rules) (processId : String)
    (request : ProcessEventAppendRequest rules) (now : Nat) :
    Keeps (fun q => (registry.managed q).bind (·.outcome))
      (fun q => ((registry.appendEvent processId request now).2.managed q).bind (·.outcome)) := by
  intro q status hstatus
  rcases appendEvent_cases registry processId request now with
    h | ⟨managed, managed', result, hmanaged, happend, h⟩
  · rw [h]
    exact hstatus
  · rw [h]
    by_cases hq : q = processId
    · simp only [setManaged, if_pos hq, bind_some]
      simp only [hq, hmanaged, bind_some] at hstatus
      exact ManagedProcessRecord.appendEvent_outcome happend hstatus
    · simp only [setManaged, if_neg hq]
      exact hstatus

/-- Whatever the workers do, a process that has ended keeps its outcome. -/
theorem step_keeps (uuids : Uuids) (input : Input rules) (world : World rules) :
    Keeps (outcomes world) (outcomes (step uuids input world).2) := by
  rcases step_cases uuids input world with
    h | ⟨now, -, h⟩ | ⟨id, processId, -, h⟩ | ⟨id, worker, -, -, h⟩
  · rw [h]
    exact .refl _
  · rw [h]
    exact .refl _
  · rw [h]
    exact .refl _
  · rw [h]
    rcases act_managed uuids id input world worker.processId worker.phase with
      hsame | ⟨request, lease, -, -, happend⟩
    · refine .of_eq ?_
      funext q
      simp only [outcomes, setWorker, hsame]
    · intro q status hstatus
      simp only [outcomes, setWorker, happend]
      exact appendEvent_keeps world.registry worker.processId request world.now q status hstatus

/-! ## One writer -/

abbrev Step (rules : ProcessRules) := Entry (Input rules) (World rules) Unit

variable {history : List (Step rules)} {start : World rules}

/-- The registry's lease of the process is the worker's, and has not run out. -/
def Holds (uuids : Uuids) (world : World rules) (id : Nat) (processId : String) : Prop :=
  ∃ lease, world.registry.leases processId = some lease ∧ lease.ownerId = uuids.ownerId id ∧
    world.now < lease.expiresAtEpochMs

/-- The clock does not go back, and a worker only writes before the lease that it claimed or
renewed last has run out. -/
def Timely (e : Step rules) : Prop :=
  Forward e.input e.before ∧ ∀ id worker lease request, e.input.worker = some id →
    e.before.workers id = some worker → worker.phase.held = some lease →
    appends e.input worker.processId worker.phase = some request →
    e.before.now < lease.expiresAtEpochMs

theorem writes_holds {e : Step rules} (he : e = entryAt (step uuids) e.input e.before)
    (hsound : Sound uuids e.before) (htimely : Timely e)
    (h : e.after.registry.managed processId ≠ e.before.registry.managed processId) :
    ∃ id, e.input.worker = some id ∧ Holds uuids e.before id processId := by
  have hafter : e.after = (step uuids e.input e.before).2 := by
    rw [he]
    rfl
  rw [hafter] at h
  rcases step_cases uuids e.input e.before with
    hstep | ⟨now, -, hstep⟩ | ⟨id, q, -, hstep⟩ | ⟨id, worker, hid, hworker, hstep⟩
  · rw [hstep] at h
    exact absurd rfl h
  · rw [hstep] at h
    exact absurd rfl h
  · rw [hstep] at h
    exact absurd rfl h
  · rw [hstep] at h
    rcases act_managed uuids id e.input e.before worker.processId worker.phase with
      hsame | ⟨request, lease, hheld, happends, happend⟩
    · exact absurd (congrFun hsame processId) h
    · simp only [setWorker, happend] at h
      have hprocess := appendEvent_managed h
      have hlive := htimely.2 id worker lease request hid hworker hheld happends
      have hown := hsound.own id worker hworker lease (held_mem hheld)
      rcases hsound.current id worker lease hworker hheld with hcurrent | hexpired
      · exact ⟨id, hid, lease, hprocess ▸ hcurrent, hown.2.1, hlive⟩
      · omega

/-- In every run a process ends at most once. If the clock does not go back and no worker writes
after its lease has run out, only the worker that holds a process's lease writes to it. -/
theorem recovery_single_writer (uuids : Uuids) (hidle : start.workers = fun _ => none)
    (run : Run (step uuids) start history world) :
    (∀ d e processId status status', Precedes history d e → Fills outcomes d processId status →
      ¬ Fills outcomes e processId status') ∧
    ((∀ e ∈ history, Timely e) → ∀ e ∈ history, ∀ processId,
      e.after.registry.managed processId ≠ e.before.registry.managed processId →
      ∃ id, e.input.worker = some id ∧ Holds uuids e.before id processId) := by
  constructor
  · rintro d e processId status status' ⟨newer, older, shape, hd⟩ hfills
    exact filled_once (fun s i _ => step_keeps uuids i s) run shape hd hfills
  · intro htimely e he processId hchanged
    obtain ⟨newer, older, shape⟩ := append_of_mem he
    obtain ⟨hbefore, hentry, -⟩ := run.split shape
    have hsound : Sound uuids e.before := by
      refine hbefore.invariant_of (P := fun _ s => Sound uuids s) (Q := Timely) ⟨?_, ?_⟩ ?_ ?_
      · intro id worker hworker
        rw [hidle] at hworker
        cases hworker
      · intro id worker lease hworker
        rw [hidle] at hworker
        cases hworker
      · exact fun _ s i _ hi hs => step_sound hs hi.1
      · intro d hd
        exact htimely d (by simp [shape, hd])
    exact writes_holds hentry hsound (htimely e he) hchanged

/-! ## A worker that stalls -/

def exampleRules : ProcessRules where
  Json := String
  Schema := Unit
  SemanticsSpec := Option ProcessTerminalState
  AwaitOutput := ProcessTerminalState × String
  Wake := Unit
  WakeDelivery := Unit
  WaitState := Unit
  ExternalRef := Unit
  Details := Unit
  payloadHash eventType payload := .ok (eventType ++ ":" ++ payload)
  validate _ _ := .ok ()
  declaresTerminal := Option.isSome
  materialize _ _ payload spec := .ok (spec.map fun state => (state, state, payload), none)
  wakeDelivery _ _ _ _ _ _ _ _ := .ok ()
  terminalState := Prod.fst
  executionFailure code message := (.failed, code ++ ": " ++ message)
  awaitOutputPayload := Prod.snd

def exampleUuids : Uuids where
  uuid n := toString n
  injective := fun m n h => @DecimalNames.tagged_injective "" m n (by simpa using h)
  noColon n := by
    rw [DecimalNames.toList_numeral]
    exact DecimalNames.colon_not_mem_toDigits n

def exampleProcess : ManagedProcessRecord exampleRules where
  record :=
    { id := "p", registrationHash := "", details := (), wakeTarget := none, createdAtMs := 0
      updatedAtMs := 0, externalRef := none, wait := none, status := .running
      eventTypes := [⟨"process.completed", (), some .completed⟩] }
  events := []
  keyedEvents := fun _ => none
  ackedWakes := []

def exampleStart : World exampleRules where
  registry := ⟨fun id => if id = "p" then some exampleProcess else none, fun _ _ => none,
    fun _ => none⟩
  now := 0
  workers := fun _ => none

/-- The first worker confirms its lease. -/
def exampleBegin : List (Input exampleRules) :=
  [.recover 0 "p", .claim 0, .check 0, .finish 0 (.ok (.completed, "done")), .confirm 0]

/-- It writes at once. -/
def examplePrompt : List (Step exampleRules) × World exampleRules :=
  perform (step exampleUuids) (exampleBegin ++ [.complete 0]) ([], exampleStart)

/-- It stalls until its lease has run out and another worker has claimed the process. -/
def exampleStalled : List (Step exampleRules) × World exampleRules :=
  perform (step exampleUuids)
    (exampleBegin ++ [.clock 30001, .recover 1 "p", .claim 1, .complete 0]) ([], exampleStart)

theorem timely_of_silent {e : Step rules} (hclock : ∀ now, e.input ≠ .clock now)
    (happend : ∀ processId phase, appends e.input processId phase = none) : Timely e := by
  refine ⟨fun now h => absurd h (hclock now), fun id worker lease request _ _ _ h => ?_⟩
  rw [happend] at h
  cases h

theorem examplePrompt_run : Run (step exampleUuids) exampleStart examplePrompt.1 examplePrompt.2 :=
  Run.perform .nil (exampleBegin ++ [.complete 0])

theorem exampleBegin_silent : ∀ input ∈ exampleBegin, (∀ now, input ≠ .clock now) ∧
    ∀ processId phase, appends input processId phase = none := by
  intro input hinput
  simp only [exampleBegin, mem_cons, not_mem_nil, or_false] at hinput
  rcases hinput with rfl | rfl | rfl | rfl | rfl <;> exact ⟨nofun, fun _ _ => rfl⟩

/-- The worker that writes at once holds the lease. -/
theorem recovery_single_writer_examplePrompt : ∃ e ∈ examplePrompt.1,
    e.input = .complete 0 ∧
      ∃ id, e.input.worker = some id ∧ Holds exampleUuids e.before id "p" := by
  obtain ⟨-, hholds⟩ := recovery_single_writer exampleUuids rfl examplePrompt_run
  refine ⟨_, mem_cons_self, rfl, hholds ?_ _ mem_cons_self "p" ?_⟩
  · intro e he
    rcases mem_cons.mp he with rfl | he
    · refine ⟨nofun, ?_⟩
      intro id worker lease request hid hworker hheld _
      cases hid
      cases hworker
      cases hheld
      decide
    · have hbegin : e ∈ (perform (step exampleUuids) exampleBegin ([], exampleStart)).1 := he
      rcases input_mem_of_perform hbegin with hnone | hinput
      · cases hnone
      · exact timely_of_silent (exampleBegin_silent _ hinput).1 (exampleBegin_silent _ hinput).2
  · intro hsame
    have hlength := congrArg (fun managed => managed.map (·.events.length)) hsame
    exact absurd hlength (by decide)

/-- A stalled worker writes an outcome although another one holds the lease. -/
theorem stalled_worker_writes : ∃ e ∈ exampleStalled.1, ∃ id, e.input.worker = some id ∧
    outcomes e.before "p" = none ∧ (outcomes e.after "p").isSome = true ∧
      ¬ Holds exampleUuids e.before id "p" := by
  refine ⟨_, mem_cons_self, 0, rfl, ?_, ?_, ?_⟩
  · rfl
  · decide
  · rintro ⟨lease, hlease, howner, -⟩
    cases hlease
    exact absurd howner (by decide)

end ProcessRecovery
