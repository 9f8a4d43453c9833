import Lash.AwaitEvents
import Lash.LocalProcesses
import Lash.ScriptBuiltins
import Lash.ToolOutputs

/-!
# The event types of a process

An event type says which values of a payload end the process and wake a session. A
registration may declare event types under any names; the ones of the runtime are added
where their names are not declared yet.
-/

namespace ProcessEventTypes

open ProcessRecords LocalProcesses ScriptBuiltins ToolOutputs

/-! ## What an event type declares -/

/-- The fields of a template are in the order of their names. -/
inductive ProcessValueSelector where
  | payload
  | pointer (pointer : String)
  | const (value : Json)
  | template (template : String) (fields : List (String × ProcessValueSelector))
  | present (pointer : String)

structure ProcessTerminalSpec where
  state : ProcessTerminalState
  awaitOutput : Option ProcessValueSelector

inductive ProcessWakeDedupeKey where
  | eventIdentity
  | selector (selector : ProcessValueSelector)
  | const (value : String)

structure ProcessWakeSpec where
  condition : Option ProcessValueSelector
  input : ProcessValueSelector
  dedupeKey : ProcessWakeDedupeKey

structure ProcessEventSemanticsSpec where
  terminal : Option ProcessTerminalSpec
  wake : Option ProcessWakeSpec

structure ProcessWake where
  input : String
  dedupeKey : String
deriving DecidableEq

abbrev ProcessAwaitOutput (ToolControl : Type) := ToolOutputs.ProcessAwaitOutput Json ToolControl

def ProcessAwaitOutput.terminalState {ToolControl : Type} :
    ProcessAwaitOutput ToolControl → ProcessTerminalState
  | .success _ _ => .completed
  | .failure _ _ _ _ _ => .failed
  | .cancelled _ _ _ => .cancelled

inductive ProcessInput (PreparedToolCall SessionTurnInput : Type) where
  | toolCall (call : PreparedToolCall)
  | engine (kind : String) (payload : Json)
  | sessionTurn (input : SessionTurnInput)
  | external (metadata : Json)

/-- What processes carry along, and what is computed outside the repository: the JSON text and the
JSON reading of an await output, what a JSON pointer points to, hashes, and schemas. -/
structure ProcessHost where
  Schema : Type
  ToolControl : Type
  PreparedToolCall : Type
  SessionTurnInput : Type
  ProcessIdentity : Type
  ProcessProvenance : Type
  ExecutionEnvRef : Type
  WaitState : Type
  ExternalRef : Type
  WakeDelivery : Type
  anySchema : Schema
  validate : Schema → Json → Except String Unit
  controlJson : ToolControl → Json
  readOutput : Json → Option (ProcessAwaitOutput ToolControl)
  display : Json → String
  pointer : Json → String → Option Json
  payloadHash : String → Json → Except PluginError String
  wakeDelivery : SessionScope → String → Nat → String → Option String → ProcessProvenance →
    ProcessWake → Nat → Except PluginError WakeDelivery

variable (host : ProcessHost)

/-! ## Selecting from a payload -/

def replaceText (text pattern replacement : List Char) : List Char :=
  replacement.intercalate (splitText text pattern)

def selectorValueToString : Json → String
  | .string value => value
  | value => host.display value

def selectorValueIsTruthy : Json → Bool
  | .null => false
  | .bool value => value
  | .string value => !value.isEmpty
  | .array values => !values.isEmpty
  | .object entries => !entries.isEmpty
  | .number _ => true

def renderField (rendered name : String) (value : Json) : String :=
  String.ofList (replaceText rendered.toList ('{' :: name.toList ++ ['}'])
    (selectorValueToString host value).toList)

mutual
def selectValue (payload : Json) : ProcessValueSelector → Except PluginError Json
  | .payload => .ok payload
  | .pointer pointer =>
    match host.pointer payload pointer with
    | some value => .ok value
    | none => .error (.session s!"payload pointer `{pointer}` did not match")
  | .const value => .ok value
  | .template template fields => (renderFields payload template fields).map Json.string
  | .present pointer => .ok (.bool (host.pointer payload pointer).isSome)
def renderFields (payload : Json) (rendered : String) :
    List (String × ProcessValueSelector) → Except PluginError String
  | [] => .ok rendered
  | (name, selector) :: fields =>
    match selectValue payload selector with
    | .error error => .error error
    | .ok value => renderFields payload (renderField host rendered name value) fields
end

/-! ## What an event type makes of a payload -/

variable {host} in
def selectedValueToAwaitOutput (state : ProcessTerminalState) (value : Json) :
    ProcessAwaitOutput host.ToolControl :=
  match state with
  | .completed => .success value none
  | .failed =>
    .failure .execution "process_failed" (selectorValueToString host value) (some value) none
  | .cancelled => .cancelled (selectorValueToString host value) (some value) none

/-- A selected value that does not read as an await output is wrapped in one. -/
def readSelected (state : ProcessTerminalState) (selected : Json) :
    ProcessAwaitOutput host.ToolControl :=
  (host.readOutput selected).getD (selectedValueToAwaitOutput state selected)

def materializeTerminalSemantics (payload : Json) (terminal : ProcessTerminalSpec) :
    Except PluginError (ProcessTerminalState × ProcessAwaitOutput host.ToolControl) :=
  match terminal.awaitOutput, terminal.state with
  | some selector, state =>
    (selectValue host payload selector).map fun selected =>
      (state, readSelected host state selected)
  | none, .completed => .ok (.completed, .success payload none)
  | none, _ =>
    .error (.session "failed or cancelled terminal events must declare await output")

variable (processId : String)

variable (sequence : Nat)

def wakeDedupeKey (payload : Json) : ProcessWakeDedupeKey → Except PluginError String
  | .eventIdentity => .ok s!"{processId}:{sequence}"
  | .selector selector =>
    (selectValue host payload selector).map (selectorValueToString host)
  | .const value => .ok value

def materializeWake (payload : Json) (wake : ProcessWakeSpec) :
    Except PluginError (Option ProcessWake) := do
  let wanted ← match wake.condition with
    | some selector => (selectValue host payload selector).map selectorValueIsTruthy
    | none => .ok true
  if !wanted then .ok none
  else
    let input ← selectValue host payload wake.input
    let dedupeKey ← wakeDedupeKey host processId sequence payload wake.dedupeKey
    .ok (some ⟨selectorValueToString host input, dedupeKey⟩)

def transpose {α : Type} : Option (Except PluginError α) → Except PluginError (Option α)
  | none => .ok none
  | some (.ok value) => .ok (some value)
  | some (.error error) => .error error

def materializeEventSemantics (payload : Json) (spec : ProcessEventSemanticsSpec) :
    Except PluginError
      (Option (ProcessTerminalState × ProcessAwaitOutput host.ToolControl) × Option ProcessWake) :=
  do
    let terminal ← transpose (spec.terminal.map (materializeTerminalSemantics host payload))
    let wake ← transpose (spec.wake.map (materializeWake host processId sequence payload))
    .ok (terminal, wake.join)

/-! ## The JSON of an await output -/

def failureClassName : ToolFailureClass → String
  | .invalidRequest => "invalid_request"
  | .unavailable => "unavailable"
  | .permissionDenied => "permission_denied"
  | .timeout => "timeout"
  | .execution => "execution"
  | .external => "external"
  | .resourceLimit => "resource_limit"
  | .internal => "internal"

def optionalEntry (name : String) (value : Option Json) : List (String × Json) :=
  value.toList.map fun value => (name, value)

/-- The entries of the object are in the order of their keys. -/
def awaitOutputJson : ProcessAwaitOutput host.ToolControl → Json
  | .success value control =>
    .object (optionalEntry "control" (control.map host.controlJson) ++
      [("type", .string "success"), ("value", value)])
  | .failure failureClass code message raw control =>
    .object ([("class", .string (failureClassName failureClass)), ("code", .string code)] ++
      optionalEntry "control" (control.map host.controlJson) ++
      [("message", .string message)] ++ optionalEntry "raw" raw ++
      [("type", .string "failure")])
  | .cancelled message raw control =>
    .object (optionalEntry "control" (control.map host.controlJson) ++
      [("message", .string message)] ++ optionalEntry "raw" raw ++
      [("type", .string "cancelled")])

def completionPayload (awaitOutput : ProcessAwaitOutput host.ToolControl) : Json :=
  .object [("await_output", awaitOutputJson host awaitOutput)]

/-! ## Registrations -/

structure ProcessDetails where
  input : ProcessInput host.PreparedToolCall host.SessionTurnInput
  identity : host.ProcessIdentity
  provenance : host.ProcessProvenance
  envRef : Option host.ExecutionEnvRef

/-- The rules of processes on this host. -/
abbrev rules : ProcessRules where
  Json := Json
  Schema := host.Schema
  SemanticsSpec := ProcessEventSemanticsSpec
  AwaitOutput := ProcessAwaitOutput host.ToolControl
  Wake := ProcessWake
  WakeDelivery := host.WakeDelivery
  WaitState := host.WaitState
  ExternalRef := host.ExternalRef
  Details := ProcessDetails host
  payloadHash := host.payloadHash
  validate := host.validate
  declaresTerminal spec := spec.terminal.isSome
  materialize := materializeEventSemantics host
  wakeDelivery scope processId sequence eventType replay details :=
    host.wakeDelivery scope processId sequence eventType replay details.provenance
  terminalState := ProcessAwaitOutput.terminalState
  executionFailure code message := .failure .execution code message none none
  awaitOutputPayload := completionPayload host

def terminalEventType (name : String) (state : ProcessTerminalState) :
    ProcessEventType (rules host) :=
  ⟨name, host.anySchema, ⟨some ⟨state, some (.pointer "/await_output")⟩, none⟩⟩

def defaultProcessEventTypes : List (ProcessEventType (rules host)) :=
  [⟨"process.cancel_requested", host.anySchema, ⟨none, none⟩⟩,
    ⟨"process.waiting", host.anySchema, ⟨none, none⟩⟩,
    ⟨"process.resumed", host.anySchema, ⟨none, none⟩⟩,
    terminalEventType host "process.completed" .completed,
    terminalEventType host "process.failed" .failed,
    terminalEventType host "process.cancelled" .cancelled]

structure ProcessRegistration where
  id : String
  input : ProcessInput host.PreparedToolCall host.SessionTurnInput
  identity : host.ProcessIdentity
  eventTypes : List (ProcessEventType (rules host))
  provenance : host.ProcessProvenance
  envRef : Option host.ExecutionEnvRef
  wakeTarget : Option SessionScope

variable {host}

/-- The event types of the runtime whose names are not declared yet are added. -/
def addMissing (eventTypes : List (ProcessEventType (rules host))) :
    List (ProcessEventType (rules host)) → List (ProcessEventType (rules host))
  | [] => eventTypes
  | eventType :: rest =>
    addMissing
      (if eventTypes.any (·.name == eventType.name) then eventTypes
        else eventTypes ++ [eventType]) rest

variable (registration : ProcessRegistration host)

def ensureCoreEventTypes : ProcessRegistration host :=
  { registration with
    eventTypes := addMissing registration.eventTypes (defaultProcessEventTypes host) }

def validateEnvRef : Except PluginError Unit :=
  match registration.input with
  | .toolCall _ | .engine _ _ =>
    if registration.envRef.isNone then
      .error (.session s!"process `{registration.id}` requires a captured execution env")
    else .ok ()
  | .external _ | .sessionTurn _ =>
    if registration.envRef.isSome then
      .error (.session (s!"process `{registration.id}` must not capture an execution env for " ++
        "this input kind"))
    else .ok ()

/-- The check of the event types one after the other, with the names seen before. -/
def validateEventTypes (processId : String) (names : List String) :
    List (ProcessEventType (rules host)) → Except PluginError Unit
  | [] => .ok ()
  | eventType :: rest =>
    if AwaitEvents.isBlank eventType.name then
      .error (.session s!"process `{processId}` declares an empty event type")
    else if eventType.name ∈ names then
      .error (.session (s!"process `{processId}` declares duplicate event type " ++
        s!"`{eventType.name}`"))
    else
      match eventType.semantics.terminal with
      | some ⟨.failed, none⟩ | some ⟨.cancelled, none⟩ =>
        .error (.session (s!"terminal event `{eventType.name}` for process `{processId}` " ++
          "must declare await output"))
      | _ => validateEventTypes processId (eventType.name :: names) rest

def validateProcessRegistration : Except PluginError Unit := do
  if AwaitEvents.isBlank registration.id then
    .error (.session "process id must be a non-empty string")
  else
    validateEnvRef registration
    validateEventTypes registration.id [] registration.eventTypes

def ProcessRegistration.prepared : PreparedRegistration (rules host) where
  id := registration.id
  details := ⟨registration.input, registration.identity, registration.provenance,
    registration.envRef⟩
  eventTypes := registration.eventTypes
  wakeTarget := registration.wakeTarget

def prepareProcessRegistration
    (registrationHash : ProcessRegistration host → Except PluginError String)
    (registration : ProcessRegistration host) :
    Except PluginError (ProcessRegistration host × String) := do
  let registration := ensureCoreEventTypes registration
  validateProcessRegistration registration
  let hash ← registrationHash registration
  .ok (registration, hash)

end ProcessEventTypes
