import Lash.StoreTypes

/-!
# Process records and their events

A process is a record with a log of events. An event is of a type the process declares,
which says whether the event ends the process and whether it wakes a session. An event
with a replay key that is already there is not appended again.
-/

namespace ProcessRecords

inductive PluginError where
  | session (message : String)
deriving DecidableEq

def PluginError.display : PluginError → String
  | .session message => s!"plugin session error: {message}"

inductive ProcessTerminalState where
  | completed
  | failed
  | cancelled
deriving DecidableEq

structure SessionScope where
  sessionId : String
  agentFrameId : Option String
deriving DecidableEq

def SessionScope.id (scope : SessionScope) : String :=
  match scope.agentFrameId with
  | some frameId =>
    if frameId.isEmpty then s!"session:{scope.sessionId}"
    else s!"session:{scope.sessionId}/frame:{frameId}"
  | none => s!"session:{scope.sessionId}"

/-- The data of processes that is only carried along, and what is computed from it elsewhere:
hashes, the check of a payload against its schema, what an event type makes of a payload, and
the wake a session is sent. -/
structure ProcessRules where
  Json : Type
  Schema : Type
  SemanticsSpec : Type
  AwaitOutput : Type
  Wake : Type
  WakeDelivery : Type
  WaitState : Type
  ExternalRef : Type
  Details : Type
  payloadHash : String → Json → Except PluginError String
  validate : Schema → Json → Except String Unit
  declaresTerminal : SemanticsSpec → Bool
  materialize : String → Nat → Json → SemanticsSpec →
    Except PluginError (Option (ProcessTerminalState × AwaitOutput) × Option Wake)
  wakeDelivery : SessionScope → String → Nat → String → Option String → Details → Wake → Nat →
    Except PluginError WakeDelivery
  terminalState : AwaitOutput → ProcessTerminalState
  executionFailure : (code message : String) → AwaitOutput
  awaitOutputPayload : AwaitOutput → Json

variable {rules : ProcessRules}

structure ProcessEventType (rules : ProcessRules) where
  name : String
  payloadSchema : rules.Schema
  semantics : rules.SemanticsSpec

structure ProcessEventSemantics (rules : ProcessRules) where
  terminal : Option (ProcessTerminalState × rules.AwaitOutput)
  wake : Option rules.Wake

inductive ProcessStatus (rules : ProcessRules) where
  | running
  | completed (awaitOutput : rules.AwaitOutput)
  | failed (awaitOutput : rules.AwaitOutput)
  | cancelled (awaitOutput : rules.AwaitOutput)

namespace ProcessStatus

def fromTerminal : ProcessTerminalState × rules.AwaitOutput → ProcessStatus rules
  | (.completed, awaitOutput) => completed awaitOutput
  | (.failed, awaitOutput) => failed awaitOutput
  | (.cancelled, awaitOutput) => cancelled awaitOutput

def isTerminal : ProcessStatus rules → Bool
  | running => false
  | _ => true

def awaitOutput : ProcessStatus rules → Option rules.AwaitOutput
  | running => none
  | completed awaitOutput | failed awaitOutput | cancelled awaitOutput => some awaitOutput

@[simp] theorem isTerminal_fromTerminal (terminal : ProcessTerminalState × rules.AwaitOutput) :
    (fromTerminal terminal).isTerminal = true := by
  obtain ⟨state, awaitOutput⟩ := terminal
  cases state <;> rfl

end ProcessStatus

/-- The input, identity and provenance of a process are its details. -/
structure ProcessRecord (rules : ProcessRules) where
  id : String
  registrationHash : String
  details : rules.Details
  eventTypes : List (ProcessEventType rules)
  wakeTarget : Option SessionScope
  createdAtMs : Nat
  updatedAtMs : Nat
  externalRef : Option rules.ExternalRef
  wait : Option rules.WaitState
  status : ProcessStatus rules

def ProcessRecord.isTerminal (record : ProcessRecord rules) : Bool := record.status.isTerminal

/-- The invocation of an event says which event it is and carries its replay key. -/
structure ProcessEvent (rules : ProcessRules) where
  processId : String
  sequence : Nat
  eventType : String
  payload : rules.Json
  replay : Option String
  semantics : ProcessEventSemantics rules
  occurredAtMs : Nat

structure ProcessEventAppendRequest (rules : ProcessRules) where
  eventType : String
  payload : rules.Json
  replay : Option String
  wakeTargetScope : Option SessionScope

inductive ProcessEventAppendPlan (rules : ProcessRules) where
  | insert (event : ProcessEvent rules) (payloadHash : String)
      (statusUpdate : Option (ProcessStatus rules)) (wakeDelivery : Option rules.WakeDelivery)
      (occurredAtMs : Nat)
  | replay (event : ProcessEvent rules) (repairStatus : Option (ProcessStatus rules))
      (wakeDelivery : Option rules.WakeDelivery) (occurredAtMs : Nat)

def applyProcessStatusProjection (record : ProcessRecord rules) (status : ProcessStatus rules)
    (updatedAtMs : Nat) : ProcessRecord rules :=
  { record with
    status := status
    wait := if status.isTerminal then none else record.wait
    updatedAtMs := updatedAtMs }

def prepareWakeDelivery (processId : String) (record : ProcessRecord rules) (sequence : Nat)
    (eventType : String) (replay : Option String) (occurredAtMs : Nat) (wake : Option rules.Wake)
    (wakeTargetScope : Option SessionScope) : Except PluginError (Option rules.WakeDelivery) :=
  match wake, wakeTargetScope with
  | none, _ => .ok none
  | some _, none => .ok none
  | some wake, some target =>
    match rules.wakeDelivery target processId sequence eventType replay record.details wake
        occurredAtMs with
    | .ok delivery => .ok (some delivery)
    | .error error => .error error

def requireEventReplay (processId : String) (request : ProcessEventAppendRequest rules)
    (spec : rules.SemanticsSpec) : Except PluginError Unit :=
  let requiresKey := rules.declaresTerminal spec || request.eventType == "process.cancel_requested"
  if requiresKey && request.replay.all String.isEmpty then
    .error (.session (s!"process `{processId}` event `{request.eventType}` requires a " ++
      "deterministic replay key"))
  else .ok ()

/-- The plan for an event whose replay key is there already, under this hash. -/
def planReplay (record : ProcessRecord rules) (request : ProcessEventAppendRequest rules)
    (replayKey payloadHash existingHash : String) (existing : ProcessEvent rules) :
    Except PluginError (ProcessEventAppendPlan rules) :=
  if existingHash = payloadHash then
    let repairStatus := existing.semantics.terminal.bind fun terminal =>
      if record.isTerminal then none else some (ProcessStatus.fromTerminal terminal)
    match prepareWakeDelivery record.id record existing.sequence existing.eventType
        existing.replay existing.occurredAtMs existing.semantics.wake
        (request.wakeTargetScope.or record.wakeTarget) with
    | .ok wakeDelivery => .ok (.replay existing repairStatus wakeDelivery existing.occurredAtMs)
    | .error error => .error error
  else
    .error (.session (s!"process `{record.id}` event replay key `{replayKey}` conflicts with " ++
      "an existing event"))

/-- The plan for a new event. -/
def planInsert (record : ProcessRecord rules) (request : ProcessEventAppendRequest rules)
    (sequence : Nat) (payloadHash : String) (occurredAtMs : Nat) :
    Except PluginError (ProcessEventAppendPlan rules) :=
  match record.eventTypes.find? (·.name == request.eventType) with
  | none =>
    .error (.session (s!"process `{record.id}` emitted undeclared event type " ++
      s!"`{request.eventType}`"))
  | some declared => do
      requireEventReplay record.id request declared.semantics
      match rules.validate declared.payloadSchema request.payload with
      | .error error => .error (.session s!"invalid `{request.eventType}` payload: {error}")
      | .ok () =>
        let (terminal, wake) ←
          rules.materialize record.id sequence request.payload declared.semantics
        if terminal.isSome && record.isTerminal then
          .error (.session s!"process `{record.id}` is already terminal")
        else
          let wakeDelivery ← prepareWakeDelivery record.id record sequence request.eventType
            request.replay occurredAtMs wake (request.wakeTargetScope.or record.wakeTarget)
          .ok (.insert
            { processId := record.id, sequence := sequence, eventType := request.eventType
              payload := request.payload, replay := request.replay
              semantics := ⟨terminal, wake⟩, occurredAtMs := occurredAtMs }
            payloadHash (terminal.map ProcessStatus.fromTerminal) wakeDelivery occurredAtMs)

def prepareProcessEventAppend (record : ProcessRecord rules)
    (request : ProcessEventAppendRequest rules) (sequence : Nat)
    (replayLookup : Option (String × ProcessEvent rules)) (occurredAtMs : Nat) :
    Except PluginError (ProcessEventAppendPlan rules) := do
  let payloadHash ← rules.payloadHash request.eventType request.payload
  match request.replay, replayLookup with
  | some replayKey, some (existingHash, existing) =>
    planReplay record request replayKey payloadHash existingHash existing
  | _, _ => planInsert record request sequence payloadHash occurredAtMs

/-- The status a plan gives the process, if it gives it one. -/
def ProcessEventAppendPlan.status :
    ProcessEventAppendPlan rules → Option (ProcessStatus rules)
  | .insert _ _ status _ _ => status
  | .replay _ status _ _ => status

variable {request : ProcessEventAppendRequest rules} {plan : ProcessEventAppendPlan rules}
  {record : ProcessRecord rules}

theorem planReplay_status {replayKey payloadHash existingHash : String}
    {existing : ProcessEvent rules}
    (h : planReplay record request replayKey payloadHash existingHash existing = .ok plan)
    {status : ProcessStatus rules} (hstatus : plan.status = some status) :
    record.isTerminal = false ∧ status.isTerminal = true := by
  simp only [planReplay] at h
  split at h
  · split at h
    · cases h
      simp only [ProcessEventAppendPlan.status, Option.bind_eq_some_iff] at hstatus
      obtain ⟨terminal, -, hterminal⟩ := hstatus
      split at hterminal
      · cases hterminal
      · next hrunning =>
          cases hterminal
          exact ⟨by simpa using hrunning, ProcessStatus.isTerminal_fromTerminal terminal⟩
    · cases h
  · cases h

theorem planInsert_status {sequence : Nat} {payloadHash : String} {occurredAtMs : Nat}
    (h : planInsert record request sequence payloadHash occurredAtMs = .ok plan)
    {status : ProcessStatus rules} (hstatus : plan.status = some status) :
    record.isTerminal = false ∧ status.isTerminal = true := by
  simp only [planInsert, bind, Except.bind] at h
  split at h
  · cases h
  · split at h
    · cases h
    · split at h
      · cases h
      · split at h
        · cases h
        · split at h
          · cases h
          · next hrunning =>
              split at h
              · cases h
              · cases h
                simp only [ProcessEventAppendPlan.status, Option.map_eq_some_iff] at hstatus
                obtain ⟨terminal, hterminal, rfl⟩ := hstatus
                refine ⟨?_, ProcessStatus.isTerminal_fromTerminal terminal⟩
                simpa [hterminal] using hrunning

/-- Only a process that runs is given a status, and it is a terminal one. -/
theorem plan_status {sequence occurredAtMs : Nat}
    {replayLookup : Option (String × ProcessEvent rules)}
    (h : prepareProcessEventAppend record request sequence replayLookup occurredAtMs = .ok plan)
    {status : ProcessStatus rules} (hstatus : plan.status = some status) :
    record.isTerminal = false ∧ status.isTerminal = true := by
  simp only [prepareProcessEventAppend, bind, Except.bind] at h
  split at h
  · cases h
  · split at h
    · exact planReplay_status h hstatus
    · exact planInsert_status h hstatus

end ProcessRecords
