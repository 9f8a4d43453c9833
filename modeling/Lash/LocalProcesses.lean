import Lash.ProcessRecords

/-!
# The registry of processes in memory

Processes with their events, the handles granted to sessions, and one lease per process,
each behind a lock of its own. The lease of a process that was released keeps its fencing
token.
-/

namespace LocalProcesses

open StoreTypes ProcessRecords

variable {rules : ProcessRules}

structure ProcessHandleDescriptor where
  kind : Option String
  label : Option String
deriving DecidableEq

structure ProcessHandleGrant where
  sessionId : String
  processId : String
  descriptor : ProcessHandleDescriptor
deriving DecidableEq

def processLeaseSchemaVersion : Nat := 1

structure ProcessLease where
  schemaVersion : Nat
  processId : String
  ownerId : String
  leaseToken : String
  fencingToken : Nat
  claimedAtEpochMs : Nat
  expiresAtEpochMs : Nat
deriving DecidableEq

structure ProcessLeaseCompletion where
  processId : String
  leaseToken : String
deriving DecidableEq

def ProcessLeaseCompletion.fromLease (lease : ProcessLease) : ProcessLeaseCompletion :=
  ⟨lease.processId, lease.leaseToken⟩

structure ManagedProcessRecord (rules : ProcessRules) where
  record : ProcessRecord rules
  events : List (ProcessEvent rules)
  keyedEvents : String → Option (String × ProcessEvent rules)
  ackedWakes : List Nat

structure TestLocalProcessRegistry (rules : ProcessRules) where
  managed : String → Option (ManagedProcessRecord rules)
  grants : String → String → Option ProcessHandleGrant
  leases : String → Option ProcessLease

structure ProcessEventAppendResult (rules : ProcessRules) where
  event : ProcessEvent rules
  wakeDelivery : Option rules.WakeDelivery

abbrev Outcome (rules : ProcessRules) (α : Type) :=
  Except PluginError α × TestLocalProcessRegistry rules

def unknownProcess (processId : String) : PluginError :=
  .session s!"unknown process `{processId}`"

def processLeaseConflict (processId : String) (current : ProcessLease) : PluginError :=
  .session (s!"process `{processId}` is already leased by `{current.ownerId}` until " ++
    s!"{current.expiresAtEpochMs}")

def processLeaseExpired (processId : String) : PluginError :=
  .session s!"process lease for `{processId}` is missing or expired"

/-! ## Events -/

namespace ManagedProcessRecord

variable (managed : ManagedProcessRecord rules)

/-- What the plan of an event makes of the process. -/
def applyPlan :
    ProcessEventAppendPlan rules → ProcessEventAppendResult rules × ManagedProcessRecord rules
  | .replay event repairStatus wakeDelivery occurredAtMs =>
    (⟨event, wakeDelivery⟩,
      match repairStatus with
      | some status =>
        { managed with
          record := applyProcessStatusProjection managed.record status occurredAtMs }
      | none => managed)
  | .insert event payloadHash statusUpdate wakeDelivery occurredAtMs =>
    (⟨event, wakeDelivery⟩,
      { managed with
        record := match statusUpdate with
          | some status => applyProcessStatusProjection managed.record status occurredAtMs
          | none => { managed.record with updatedAtMs := occurredAtMs }
        events := managed.events ++ [event]
        keyedEvents := match event.replay with
          | some key => fun k =>
            if k = key then some (payloadHash, event) else managed.keyedEvents k
          | none => managed.keyedEvents })

def appendEvent (request : ProcessEventAppendRequest rules) (now : Nat) :
    Except PluginError (ProcessEventAppendResult rules × ManagedProcessRecord rules) :=
  match prepareProcessEventAppend managed.record request (managed.events.length + 1)
      (request.replay.bind managed.keyedEvents) now with
  | .error error => .error error
  | .ok plan => .ok (managed.applyPlan plan)

/-- The outcome of a process that has ended. -/
def outcome : Option (ProcessStatus rules) :=
  if managed.record.isTerminal then some managed.record.status else none

end ManagedProcessRecord

/-- A registration that has been prepared. -/
structure PreparedRegistration (rules : ProcessRules) where
  id : String
  details : rules.Details
  eventTypes : List (ProcessEventType rules)
  wakeTarget : Option SessionScope

namespace TestLocalProcessRegistry

variable (registry : TestLocalProcessRegistry rules)

variable (processId : String)

def setManaged (managed : ManagedProcessRecord rules) : TestLocalProcessRegistry rules :=
  { registry with
    managed := fun id => if id = processId then some managed else registry.managed id }

variable (lease : ProcessLease)

def setLease : TestLocalProcessRegistry rules :=
  { registry with leases := fun id => if id = processId then some lease else registry.leases id }

def getProcess : Option (ProcessRecord rules) :=
  (registry.managed processId).map (·.record)

def appendEvent (processId : String) (request : ProcessEventAppendRequest rules) (now : Nat) :
    Outcome rules (ProcessEventAppendResult rules) :=
  match registry.managed processId with
  | none => (.error (unknownProcess processId), registry)
  | some managed =>
    match managed.appendEvent request now with
    | .error error => (.error error, registry)
    | .ok (result, managed) => (.ok result, registry.setManaged processId managed)

def terminalEventType : ProcessTerminalState → String
  | .completed => "process.completed"
  | .failed => "process.failed"
  | .cancelled => "process.cancelled"

variable (awaitOutput : rules.AwaitOutput)

/-- The event that ends a process with this outcome. -/
def terminalRequest : ProcessEventAppendRequest rules :=
  let eventType := terminalEventType (rules.terminalState awaitOutput)
  { eventType := eventType
    payload := rules.awaitOutputPayload awaitOutput
    replay := some s!"process:{processId}:terminal:{eventType}"
    wakeTargetScope := none }

def completeProcess (now : Nat) : Outcome rules (ProcessRecord rules) :=
  match registry.appendEvent processId (terminalRequest processId awaitOutput) now with
  | (.error error, registry) => (.error error, registry)
  | (.ok _, registry) =>
    match registry.getProcess processId with
    | some record => (.ok record, registry)
    | none => (.error (.session s!"unknown process `{processId}` after terminal event"), registry)

/-! ## Waiting -/

def setProcessWait (wait : rules.WaitState) (now : Nat) : Outcome rules (ProcessRecord rules) :=
  match registry.managed processId with
  | none => (.error (unknownProcess processId), registry)
  | some managed =>
    if managed.record.isTerminal then
      (.error (.session s!"terminal process `{processId}` cannot enter a wait state"), registry)
    else
      let record := { managed.record with wait := some wait, updatedAtMs := now }
      (.ok record, registry.setManaged processId { managed with record := record })

def clearProcessWait (now : Nat) : Outcome rules (ProcessRecord rules) :=
  match registry.managed processId with
  | none => (.error (unknownProcess processId), registry)
  | some managed =>
    let record := { managed.record with wait := none, updatedAtMs := now }
    (.ok record, registry.setManaged processId { managed with record := record })

/-! ## Registering -/

variable (registration : PreparedRegistration rules)

variable (registrationHash : String)

def fromPreparedRegistration (now : Nat) : ProcessRecord rules where
  id := registration.id
  registrationHash := registrationHash
  details := registration.details
  eventTypes := registration.eventTypes
  wakeTarget := registration.wakeTarget
  createdAtMs := now
  updatedAtMs := now
  externalRef := none
  wait := none
  status := .running

/-- The source's `insert_process` after the registration is prepared. -/
def insertPrepared (now : Nat) : Outcome rules (ProcessRecord rules) :=
  match registry.managed registration.id with
  | some existing =>
    if existing.record.registrationHash = registrationHash then (.ok existing.record, registry)
    else
      (.error (.session (s!"process `{registration.id}` registration hash conflict: existing " ++
        s!"{existing.record.registrationHash}, new {registrationHash}")), registry)
  | none =>
    let record := fromPreparedRegistration registration registrationHash now
    (.ok record, registry.setManaged registration.id
      { record := record, events := [], keyedEvents := fun _ => none, ackedWakes := [] })

/-! ## Leases -/

def leaseToken (ownerId : String) (now fencingToken : Nat) : String :=
  s!"{processId}:{ownerId}:{now}:{fencingToken}"

def claimProcessLease (ownerId : String) (leaseTtlMs now : Nat) : Outcome rules ProcessLease :=
  let current := registry.leases processId
  match current.filter fun current => !current.ownerId.isEmpty &&
      now < current.expiresAtEpochMs && current.ownerId != ownerId with
  | some current => (.error (processLeaseConflict processId current), registry)
  | none =>
    let fencingToken := saturatingAdd (current.elim 0 (·.fencingToken)) 1
    let lease : ProcessLease :=
      { schemaVersion := processLeaseSchemaVersion
        processId := processId
        ownerId := ownerId
        leaseToken := leaseToken processId ownerId now fencingToken
        fencingToken := fencingToken
        claimedAtEpochMs := now
        expiresAtEpochMs := saturatingAdd now leaseTtlMs }
    (.ok lease, registry.setLease processId lease)

def renewProcessLease (leaseTtlMs now : Nat) : Outcome rules ProcessLease :=
  match (registry.leases lease.processId).filter fun current => !current.ownerId.isEmpty &&
      current.leaseToken == lease.leaseToken && now < current.expiresAtEpochMs with
  | none => (.error (processLeaseExpired lease.processId), registry)
  | some _ =>
    let renewed := { lease with expiresAtEpochMs := saturatingAdd now leaseTtlMs }
    (.ok renewed, registry.setLease lease.processId renewed)

def ProcessLease.released : ProcessLease :=
  { lease with ownerId := "", leaseToken := "", claimedAtEpochMs := 0, expiresAtEpochMs := 0 }

def completeProcessLease (completion : ProcessLeaseCompletion) : TestLocalProcessRegistry rules :=
  match registry.leases completion.processId with
  | some current =>
    if current.leaseToken = completion.leaseToken then
      registry.setLease completion.processId (ProcessLease.released current)
    else registry
  | none => registry

end TestLocalProcessRegistry

/-! ## What an event changes -/

theorem ManagedProcessRecord.applyPlan_status (managed : ManagedProcessRecord rules)
    (plan : ProcessEventAppendPlan rules) :
    (managed.applyPlan plan).2.record.status = plan.status.getD managed.record.status := by
  cases plan with
  | insert event payloadHash statusUpdate wakeDelivery occurredAtMs =>
    cases statusUpdate <;> rfl
  | replay event repairStatus wakeDelivery occurredAtMs =>
    cases repairStatus <;> rfl

theorem ManagedProcessRecord.outcome_congr {managed managed' : ManagedProcessRecord rules}
    (h : managed'.record.status = managed.record.status) : managed'.outcome = managed.outcome := by
  unfold outcome ProcessRecord.isTerminal
  rw [h]

/-- The outcome of a process that has ended stays. -/
theorem ManagedProcessRecord.appendEvent_outcome {managed managed' : ManagedProcessRecord rules}
    {request : ProcessEventAppendRequest rules} {now : Nat}
    {result : ProcessEventAppendResult rules} {status : ProcessStatus rules}
    (h : managed.appendEvent request now = .ok (result, managed'))
    (hstatus : managed.outcome = some status) : managed'.outcome = some status := by
  simp only [appendEvent] at h
  split at h
  · cases h
  · next plan hplan =>
      have hmanaged : managed' = (managed.applyPlan plan).2 := by
        rw [Except.ok.inj h]
      have hterminal : managed.record.isTerminal = true := by
        simp only [outcome] at hstatus
        split at hstatus
        · assumption
        · cases hstatus
      have hkept : managed'.record.status = managed.record.status := by
        rw [hmanaged, applyPlan_status]
        cases hs : plan.status with
        | none => rfl
        | some status =>
          obtain ⟨hrunning, -⟩ := plan_status hplan hs
          rw [hrunning] at hterminal
          cases hterminal
      rw [← hstatus]
      exact outcome_congr hkept

open TestLocalProcessRegistry

/-- An event touches only its process. -/
theorem appendEvent_cases (registry : TestLocalProcessRegistry rules) (processId : String)
    (request : ProcessEventAppendRequest rules) (now : Nat) :
    (registry.appendEvent processId request now).2 = registry ∨
      ∃ managed managed' result, registry.managed processId = some managed ∧
        managed.appendEvent request now = .ok (result, managed') ∧
        registry.appendEvent processId request now =
          (.ok result, registry.setManaged processId managed') := by
  cases hmanaged : registry.managed processId with
  | none =>
    refine Or.inl ?_
    simp only [appendEvent, hmanaged]
  | some managed =>
    rcases happend : managed.appendEvent request now with error | ⟨result, managed'⟩
    · refine Or.inl ?_
      simp only [appendEvent, hmanaged, happend]
    · refine Or.inr ⟨managed, managed', result, rfl, happend, ?_⟩
      simp only [appendEvent, hmanaged, happend]

theorem completeProcess_registry (registry : TestLocalProcessRegistry rules) (processId : String)
    (awaitOutput : rules.AwaitOutput) (now : Nat) :
    (registry.completeProcess processId awaitOutput now).2 = (registry.appendEvent processId
        (terminalRequest processId awaitOutput) now).2 := by
  unfold completeProcess
  split
  · next h => rw [h]
  · next h =>
      rw [h]
      split <;> rfl

end LocalProcesses
