import Lash.ProcessCompletions
import Lash.ReplayedClients
import Lash.ScriptMachine

/-!
# The host of a lashlang process

A process runs from the beginning whenever it is started again. Its program is deterministic:
what it asks for next depends on the answers it was given. The host turns each operation into
requests to the runtime, under names that it makes from the process id, from counters of its
own and from the call site. Effects are executed once and their answers are recorded under
their keys, a batch of resource calls as one effect with the waits of its pending calls; a single
resource call is no effect and is made again. Events go to the log of the process. Counters and
times are natural numbers. What a signal does to the process it is sent to is left out, and what
single calls and handles are answered is open.
-/

namespace LashlangProcesses

open ScriptValues ScriptBuiltins ProcessRecords LocalProcesses ProcessEventTypes ReplayedClients
open ScriptMachine (ProcessEventKind SleepKind ProcessStart AbilityResult)

/-! ## Waiting for a signal -/

/-- A wait for a signal. -/
structure WaitState where
  name : String
  eventType : String
  key : String
  ordinal : Nat
  sinceMs : Nat
deriving DecidableEq

def natJson (n : Nat) : Json := .number (.integer n)

def readNat : Json → Option Nat
  | .number (.integer n) => if 0 ≤ n then some n.toNat else none
  | _ => none

/-- The entries of the objects are in the order of their keys. -/
def WaitState.toJson (wait : WaitState) : Json :=
  .object [("kind", .object [("event_type", .string wait.eventType), ("key", .string wait.key),
      ("kind", .string "signal"), ("name", .string wait.name), ("ordinal", natJson wait.ordinal)]),
    ("since_ms", natJson wait.sinceMs)]

def WaitState.fromJson : Json → Option WaitState
  | .object map =>
    match Json.get map "kind" with
    | some (.object kind) => do
        let tag ← (Json.get kind "kind").bind Json.asStr
        if tag ≠ "signal" then none
        else
          let name ← (Json.get kind "name").bind Json.asStr
          let eventType ← (Json.get kind "event_type").bind Json.asStr
          let key ← (Json.get kind "key").bind Json.asStr
          let ordinal ← (Json.get kind "ordinal").bind readNat
          let sinceMs ← (Json.get map "since_ms").bind readNat
          some ⟨name, eventType, key, ordinal, sinceMs⟩
    | _ => none
  | _ => none

theorem WaitState.fromJson_toJson (wait : WaitState) : fromJson wait.toJson = some wait := by
  simp [fromJson, toJson, Json.get, Json.asStr, natJson, readNat]

/-- The host of the processes, with the waits of lashlang processes. -/
abbrev lashlangHost (host : ProcessHost) : ProcessHost := { host with WaitState := WaitState }

abbrev Managed (host : ProcessHost) := ManagedProcessRecord (rules (lashlangHost host))

/-! ## Names -/

section Names

variable (processId : String)

def eventKey (ordinal : Nat) : String := s!"process:{processId}:event:{ordinal}"

variable (name : String)

def processSignalWaitKey (ordinal : Nat) : String :=
  s!"process:{processId}:signal.{name}:{ordinal}"

def waitingKey (ordinal : Nat) : String :=
  s!"process:{processId}:waiting:signal.{name}:{ordinal}"

def resumedKey (ordinal : Nat) : String :=
  s!"process:{processId}:resumed:signal.{name}:{ordinal}"

def signalId (sequence : Nat) : String :=
  s!"lashlang:{processId}:signal.{name}:{sequence}"

/-- The keys under which the host appends events. -/
def OwnKey (key : String) : Prop :=
  (∃ ordinal, key = eventKey processId ordinal) ∨
    ∃ name ordinal, key = waitingKey processId name ordinal ∨
      key = resumedKey processId name ordinal

end Names

def validateProcessSignalName (name : String) : Bool :=
  !name.isEmpty && name.toList.all fun c => c.isAlphanum || c == '_' || c == '-'

def invalidSignalName (name : String) : String :=
  "plugin session error: process signal name must be non-empty and contain only ASCII letters, " ++
    s!"digits, `_`, or `-`, got `{name}`"

/-! ## Operations -/

structure CallSite where
  nodeId : String
  occurrence : Nat
deriving DecidableEq

structure ResourceCall where
  operation : String
  receiver : Value
  args : List Value
  callSite : Option CallSite

inductive AbilityOp where
  | resourceOperation (call : ResourceCall)
  | resourceOperationBatch (calls : List ResourceCall)
  | await (handle : Value)
  | cancel (handle : Value)
  | startProcess (start : ProcessStart) (startSite : CallSite)
  | processEvent (kind : ProcessEventKind) (value : Value)
  | sleep (kind : SleepKind) (value : Value)
  | waitSignal (name : String)
  | signalRun (run : Value) (name : String) (payload : Value)
  | print (value : Value)

abbrev Answer := Except String AbilityResult

/-- The outcome of an effect, as a value of the language. -/
abbrev Outcome := Except String Value

inductive Command where
  | perform (op : AbilityOp)
  | finish (outcome : Outcome)

/-- A linked process with its arguments: what it does after these answers. -/
structure Program where
  next : List Answer → Command

structure Invocation where
  callId : String
  toolId : String
  args : Json

/-- What the host takes from elsewhere: the JSON and the texts of values, the operations of the
environment, the key of a batch of calls, the calls of a batch that are completed when it is
prepared, the reading of durations and deadlines, and the checks of a module artifact, which give
the text of the arguments and the registration under an id. -/
structure Bridge where
  valueToJson : Value → Except String Json
  valueText : Value → String
  resolveModuleOperation : ResourceHandle → String → Except String String
  callable : String → Bool
  batchKey : List Invocation → String
  completed : Invocation → Option Outcome
  durationValueMs : Value → Except String Nat
  deadlineValueMs : Value → Except String Nat
  checkArtifact : ProcessStart → Except String (String × (String → Json))
  sha256Hex : String → String

/-- What an effect executes. -/
inductive EffectCommand where
  | batch (calls : List Invocation)
  | start (registration : Json)
  | sleep (durationMs : Nat)
  | signal (processId name signalId : String) (payload : Json)
  | awaitEvent (key : String)

inductive Request where
  | perform (op : AbilityOp)
  | call (callId toolId : String) (args : Json)
  | effect (key : String) (command : EffectCommand)
  | uuid
  | handle (cancel : Bool) (callId : String) (handle : Json)
  | clock
  | append (eventType : String) (payload : Json) (replayKey : String)
  | waitSince (name : String) (ordinal : Nat)
  | setProcessWait (wait : WaitState)
  | clearProcessWait

inductive Reply where
  | performing
  | outcome (outcome : Outcome)
  | outcomes (outcomes : List Outcome)
  | uuid (id : String)
  | time (now : Nat)
  | registry (result : Except PluginError Unit)

/-! ## Payloads and identifiers -/

section Host

variable (processId : String) (bridge : Bridge)

def isObject : Json → Bool
  | .object _ => true
  | _ => false

def resourcePayload (args : List Value) : Except String Json :=
  match args with
  | [.record entries] =>
    match bridge.valueToJson (.record entries) with
    | .ok payload =>
      if isObject payload then .ok payload
      else .error "module operation payload must be an object"
    | .error error => .error error
  | args => (args.mapM bridge.valueToJson).map fun args => .object [("args", .array args)]

def resourceToolCallId (hostOperation : String) (callSite : CallSite)
    (batchIndex : Option Nat) : String :=
  s!"lashlang:{processId}:resource:{hostOperation}:{callSite.nodeId}:{callSite.occurrence}" ++
    batchIndex.elim "" fun index => s!":child:{index}"

def prepareResourceInvocation (call : ResourceCall) (batchIndex : Option Nat) :
    Except String Invocation :=
  match call.receiver with
  | .resource receiver => do
      let hostOperation ← bridge.resolveModuleOperation receiver call.operation
      if !bridge.callable hostOperation then
        .error (s!"module operation `{call.operation}` resolved to unavailable host operation " ++
          s!"`{hostOperation}`")
      else
        let payload ← resourcePayload bridge call.args
        match call.callSite with
        | none =>
          .error (s!"module operation `{call.operation}` resolved to host operation " ++
            s!"`{hostOperation}` but has no deterministic lashlang execution call site")
        | some callSite =>
          .ok ⟨resourceToolCallId processId hostOperation callSite batchIndex, hostOperation,
            payload⟩
  | _ =>
    .error s!"module operation `{call.operation}` requires a module authority receiver"

def deterministicLashlangProcessId (seed : String) (site : CallSite) (start : ProcessStart)
    (args : String) : String :=
  let parts := ["lashlang-process-start:v1", seed, site.nodeId, toString site.occurrence,
    start.moduleRef, s!"{start.processRef.component}:{start.processRef.pos}",
    start.hostRequirementsRef, start.processName, args]
  "process:lashlang:sha256:" ++
    bridge.sha256Hex (String.join (parts.map fun part => part.push (Char.ofNat 0)))

/-- The id and the registration of a process to start. -/
def prepareLashlangProcessStart (start : ProcessStart) (site : CallSite) :
    Except String (String × Json) :=
  (bridge.checkArtifact start).map fun (args, registration) =>
    let id := deterministicLashlangProcessId bridge s!"parent-process:{processId}" site start args
    (id, registration id)

def processEventPayload (value : Value) : Except String Json :=
  (bridge.valueToJson value).map fun json =>
    .object [("text", .string (bridge.valueText value)), ("value", json)]

def processIdFromLashlangHandle (handle : Value) : Except String String :=
  match bridge.valueToJson handle with
  | .error error => .error error
  | .ok (.object map) =>
    if (Json.get map "__handle__").bind Json.asStr ≠ some "process" then
      .error "signal_run expects a process handle"
    else
      match (Json.get map "id").bind Json.asStr with
      | some id => .ok id
      | none => .error "signal_run process handle is missing `id`"
  | .ok _ => .error "signal_run expects a process handle"

def eventTypeOf : ProcessEventKind → String
  | .yieldEvent => "process.yield"
  | .wake => "process.wake"

def signalWait (name : String) (ordinal sinceMs : Nat) : WaitState where
  name := name
  eventType := s!"signal.{name}"
  key := processSignalWaitKey processId name ordinal
  ordinal := ordinal
  sinceMs := sinceMs

def waitingPayload (wait : WaitState) : Json := .object [("wait", wait.toJson)]

def resumedPayload (name : String) (ordinal : Nat) : Json :=
  .object [("key", .string (processSignalWaitKey processId name ordinal)),
    ("ordinal", natJson ordinal), ("signal", .string name)]

/-! ## The host -/

structure Counters where
  sleepSequence : Nat
  eventSequence : Nat
  signalSendSequence : Nat
  signalWaitOrdinals : String → Nat

def Counters.new : Counters := ⟨0, 0, 0, fun _ => 0⟩

/-- Where the host stands in an operation. -/
inductive Place where
  | calling (invocation : Invocation)
  | batching (key : String) (prepared : List (Outcome ⊕ Invocation))
  | drawing (cancel : Bool) (handle : Json)
  | handling (cancel : Bool) (callId : String) (handle : Json)
  | starting (id : String) (registration : Json)
  | emitting (ordinal : Nat) (eventType : String) (payload : Json)
  | reading (sequence deadlineMs : Nat)
  | sleeping (sequence durationMs : Nat)
  | resolving (name : String) (ordinal : Nat)
  | setting (name : String) (ordinal sinceMs : Nat)
  | announcing (name : String) (ordinal sinceMs : Nat)
  | receiving (name : String) (ordinal : Nat)
  | clearing (name : String) (ordinal : Nat) (payload : Value)
  | resuming (name : String) (ordinal : Nat) (payload : Value)
  | signalling (target name signalId : String) (payload : Json)

/-- The host goes on in the operation or has its answer. -/
abbrev Turn := Place ⊕ Answer

def turnOf {α : Type} (place : α → Place) : Except String α → Turn
  | .ok value => .inl (place value)
  | .error error => .inr (.error error)

/-- A call of a batch that is not executed has its outcome already. -/
def prepareBatchCall : Except String Invocation → Outcome ⊕ Invocation
  | .error error => .inl (.error error)
  | .ok invocation =>
    match bridge.completed invocation with
    | some outcome => .inl outcome
    | none => .inr invocation

/-- The outcomes of the calls that are executed fill the places between the others. -/
def fillResults : List (Outcome ⊕ Invocation) → List Outcome → List Outcome
  | .inl outcome :: prepared, outcomes => outcome :: fillResults prepared outcomes
  | .inr _ :: prepared, outcome :: outcomes => outcome :: fillResults prepared outcomes
  | _, _ => []

def invocations (prepared : List (Outcome ⊕ Invocation)) : List Invocation :=
  prepared.filterMap Sum.getRight?

def beginBatch (calls : List (Except String Invocation)) : Turn :=
  let prepared := calls.map (prepareBatchCall bridge)
  if (invocations prepared).isEmpty then
    .inr (.ok (.resourceOperationBatch (fillResults prepared [])))
  else .inl (.batching (bridge.batchKey (calls.filterMap Except.toOption)) prepared)

/-- The source's `perform`, up to the first request. -/
def begin (counters : Counters) : AbilityOp → Counters × Turn
  | .resourceOperation call =>
    (counters, turnOf .calling (prepareResourceInvocation processId bridge call none))
  | .resourceOperationBatch calls =>
    (counters, beginBatch bridge (calls.zipIdx.map fun (call, index) =>
      prepareResourceInvocation processId bridge call (some index)))
  | .await handle => (counters, turnOf (.drawing false) (bridge.valueToJson handle))
  | .cancel handle => (counters, turnOf (.drawing true) (bridge.valueToJson handle))
  | .startProcess start site =>
    (counters, turnOf (fun (id, registration) => .starting id registration)
      (prepareLashlangProcessStart processId bridge start site))
  | .processEvent kind value =>
    ({ counters with eventSequence := counters.eventSequence + 1 },
      turnOf (.emitting counters.eventSequence (eventTypeOf kind))
        (processEventPayload bridge value))
  | .sleep .forDuration value =>
    match bridge.durationValueMs value with
    | .ok durationMs =>
      ({ counters with sleepSequence := counters.sleepSequence + 1 },
        .inl (.sleeping counters.sleepSequence durationMs))
    | .error error => (counters, .inr (.error error))
  | .sleep .untilDeadline value =>
    match bridge.deadlineValueMs value with
    | .ok deadlineMs =>
      ({ counters with sleepSequence := counters.sleepSequence + 1 },
        .inl (.reading counters.sleepSequence deadlineMs))
    | .error error => (counters, .inr (.error error))
  | .waitSignal name =>
    if validateProcessSignalName name then
      let ordinal := counters.signalWaitOrdinals name + 1
      ({ counters with signalWaitOrdinals := fun other =>
          if other = name then ordinal else counters.signalWaitOrdinals other },
        .inl (.resolving name ordinal))
    else (counters, .inr (.error (invalidSignalName name)))
  | .signalRun run name payload =>
    match processIdFromLashlangHandle bridge run, bridge.valueToJson payload with
    | .ok target, .ok payload =>
      ({ counters with signalSendSequence := counters.signalSendSequence + 1 },
        .inl (.signalling target name (signalId processId name counters.signalSendSequence)
          payload))
    | .error error, _ | _, .error error => (counters, .inr (.error error))
  | .print _ =>
    (counters, .inr (.error "`print` is not available inside lashlang process bodies"))

def answerOf : Outcome → Turn := fun outcome => .inr (outcome.map .value)

def answerNull : Outcome → Turn := fun outcome => .inr (outcome.map fun _ => .value .null)

def afterRegistry (turn : Turn) : Except PluginError Unit → Turn
  | .ok () => turn
  | .error error => .inr (.error error.display)

def Place.request : Place → Request
  | .calling invocation => .call invocation.callId invocation.toolId invocation.args
  | .batching key prepared => .effect key (.batch (invocations prepared))
  | .drawing _ _ => .uuid
  | .handling cancel callId handle => .handle cancel callId handle
  | .starting id registration => .effect s!"process:start:{id}" (.start registration)
  | .emitting ordinal eventType payload => .append eventType payload (eventKey processId ordinal)
  | .reading _ _ => .clock
  | .sleeping sequence durationMs =>
    .effect s!"process:process:{processId}:sleep:{sequence}" (.sleep durationMs)
  | .resolving name ordinal => .waitSince name ordinal
  | .setting name ordinal sinceMs => .setProcessWait (signalWait processId name ordinal sinceMs)
  | .announcing name ordinal sinceMs =>
    .append "process.waiting" (waitingPayload (signalWait processId name ordinal sinceMs))
      (waitingKey processId name ordinal)
  | .receiving name ordinal =>
    .effect s!"process:{processId}:signal.{name}:await:{ordinal}"
      (.awaitEvent (processSignalWaitKey processId name ordinal))
  | .clearing _ _ _ => .clearProcessWait
  | .resuming name ordinal _ =>
    .append "process.resumed" (resumedPayload processId name ordinal)
      (resumedKey processId name ordinal)
  | .signalling target name signalId payload =>
    .effect s!"process:signal:{target}:signal.{name}:{signalId}"
      (.signal target name signalId payload)

/-- What the host does with a reply. A reply of another kind is never given. -/
def Place.resume : Place → Reply → Turn
  | .calling _, .outcome outcome => answerOf outcome
  | .batching _ prepared, .outcomes outcomes =>
    .inr (.ok (.resourceOperationBatch (fillResults prepared outcomes)))
  | .drawing cancel handle, .uuid id => .inl (.handling cancel id handle)
  | .handling _ _ _, .outcome outcome => answerOf outcome
  | .starting _ _, .outcome outcome => answerOf outcome
  | .emitting _ _ _, .registry result => afterRegistry (.inr (.ok .unit)) result
  | .reading sequence deadlineMs, .time now => .inl (.sleeping sequence (deadlineMs - now))
  | .sleeping _ _, .outcome outcome => answerNull outcome
  | .resolving name ordinal, .time sinceMs => .inl (.setting name ordinal sinceMs)
  | .setting name ordinal sinceMs, .registry result =>
    afterRegistry (.inl (.announcing name ordinal sinceMs)) result
  | .announcing name ordinal _, .registry result =>
    afterRegistry (.inl (.receiving name ordinal)) result
  | .receiving name ordinal, .outcome outcome =>
    turnOf (.clearing name ordinal) outcome
  | .clearing name ordinal payload, .registry result =>
    afterRegistry (.inl (.resuming name ordinal payload)) result
  | .resuming _ _ payload, .registry result => afterRegistry (.inr (.ok (.value payload))) result
  | .signalling _ _ _ _, .outcome outcome => answerNull outcome
  | place, _ => .inl place

/-! ## The process -/

inductive State where
  | ended (outcome : Outcome)
  | entering (answers : List Answer) (counters : Counters) (op : AbilityOp)
  | within (answers : List Answer) (counters : Counters) (place : Place)

variable (program : Program)

variable (answers : List Answer)

def enter (counters : Counters) : State :=
  match program.next answers with
  | .finish outcome => .ended outcome
  | .perform op => .entering answers counters op

def settle (counters : Counters) : Turn → State
  | .inl place => .within answers counters place
  | .inr answer => enter program (answers ++ [answer]) counters

def State.request : State → Option Request
  | .ended _ => none
  | .entering _ _ op => some (.perform op)
  | .within _ _ place => some (place.request processId)

def State.resume : State → Reply → State
  | .ended outcome, _ => .ended outcome
  | .entering answers counters op, _ =>
    let (counters, turn) := begin processId bridge counters op
    settle program answers counters turn
  | .within answers counters place, reply => settle program answers counters (place.resume reply)

def process : Client State Request Reply where
  start := enter program [] .new
  request := State.request processId
  resume := State.resume processId bridge program

end Host

/-! ## The runtime -/

/-- The process in the registry, and the effects with their recorded answers. -/
structure Runtime (host : ProcessHost) where
  managed : Managed host
  effects : String → Option (EffectCommand × Reply)

/-- What an effect can be answered, a batch with an outcome for each of its calls. -/
def EffectCommand.Answers : EffectCommand → Reply → Prop
  | .batch calls, reply => ∃ outcomes, outcomes.length = calls.length ∧ reply = .outcomes outcomes
  | _, reply => ∃ outcome, reply = .outcome outcome

def reusedError (key : String) : String :=
  s!"runtime effect replay key `{key}` was reused with a different envelope hash"

/-- The answer where the key was used for another command. -/
def EffectCommand.reused (key : String) : EffectCommand → Reply
  | .batch calls => .outcomes (calls.map fun _ => .error s!"tool batch failed: {reusedError key}")
  | _ => .outcome (.error (reusedError key))

section Serving

variable {host : ProcessHost}

variable (managed : Managed host)

/-- The source's `set_process_wait`. -/
def setWait (wait : WaitState) (now : Nat) : Except PluginError Unit × Managed host :=
  if managed.record.isTerminal then
    (.error (.session s!"terminal process `{managed.record.id}` cannot enter a wait state"),
      managed)
  else
    (.ok (),
      { managed with record := { managed.record with wait := some wait, updatedAtMs := now } })

/-- The source's `clear_process_wait`. -/
def clearWait (now : Nat) : Managed host :=
  { managed with record := { managed.record with wait := none, updatedAtMs := now } }

def ownRequest (eventType : String) (payload : Json) (replayKey : String) :
    ProcessEventAppendRequest (rules (lashlangHost host)) where
  eventType := eventType
  payload := payload
  replay := some replayKey
  wakeTargetScope := none

def recordedSince (key : String) : Option Nat :=
  match managed.record.wait with
  | some wait => if wait.key = key then some wait.sinceMs else none
  | none => none

def announcedIn (replayKey : String) (event : ProcessEvent (rules (lashlangHost host))) :
    Option Nat :=
  if event.eventType ≠ "process.waiting" ∨ event.replay ≠ some replayKey then none
  else
    match event.payload with
    | .object map => ((Json.get map "wait").bind WaitState.fromJson).map (·.sinceMs)
    | _ => none

/-- The source's `wait_since_ms`. -/
def waitSinceMs (key replayKey : String) (now : Nat) : Nat :=
  ((recordedSince managed key).or
    (managed.events.reverse.findSome? (announcedIn replayKey))).getD now

def Runtime.recorded (runtime : Runtime host) (key : String) (command : EffectCommand)
    (reply : Reply) : Runtime host :=
  { runtime with
    effects := fun k => if k = key then some (command, reply) else runtime.effects k }

/-- Executing an effect: a recorded answer is returned for the same command only. -/
inductive Executes (key : String) (command : EffectCommand) :
    Runtime host → Reply → Runtime host → Prop
  | recorded {runtime : Runtime host} {reply : Reply}
      (found : runtime.effects key = some (command, reply)) :
      Executes key command runtime reply runtime
  | conflict {runtime : Runtime host} {other : EffectCommand} {reply : Reply}
      (found : runtime.effects key = some (other, reply)) (differs : other ≠ command) :
      Executes key command runtime (command.reused key) runtime
  | executed {runtime : Runtime host} {reply : Reply} (new : runtime.effects key = none)
      (answers : command.Answers reply) :
      Executes key command runtime reply (runtime.recorded key command reply)

/-- What the runtime does for a request. Ids, times and the outcomes of single calls and of new
effects are open. -/
inductive Serves (processId : String) : Request → Runtime host → Reply → Runtime host → Prop
  | perform {runtime : Runtime host} (op : AbilityOp) :
      Serves processId (.perform op) runtime .performing runtime
  | call {runtime : Runtime host} {callId toolId : String} {args : Json} (outcome : Outcome) :
      Serves processId (.call callId toolId args) runtime (.outcome outcome) runtime
  | effect {runtime after : Runtime host} {key : String} {command : EffectCommand} {reply : Reply}
      (executes : Executes key command runtime reply after) :
      Serves processId (.effect key command) runtime reply after
  | uuid {runtime : Runtime host} (id : String) : Serves processId .uuid runtime (.uuid id) runtime
  | handle {runtime : Runtime host} {cancel : Bool} {callId : String} {handle : Json}
      (outcome : Outcome) :
      Serves processId (.handle cancel callId handle) runtime (.outcome outcome) runtime
  | clock {runtime : Runtime host} (now : Nat) : Serves processId .clock runtime (.time now) runtime
  | appended {runtime : Runtime host} {eventType replayKey : String} {payload : Json} {now : Nat}
      {result : ProcessEventAppendResult (rules (lashlangHost host))} {managed : Managed host}
      (appended : runtime.managed.appendEvent (ownRequest eventType payload replayKey) now =
        .ok (result, managed)) :
      Serves processId (.append eventType payload replayKey) runtime (.registry (.ok ()))
        { runtime with managed := managed }
  | refused {runtime : Runtime host} {eventType replayKey : String} {payload : Json} {now : Nat}
      {error : PluginError}
      (refused : runtime.managed.appendEvent (ownRequest eventType payload replayKey) now =
        .error error) :
      Serves processId (.append eventType payload replayKey) runtime (.registry (.error error))
        runtime
  | waitSince {runtime : Runtime host} (name : String) (ordinal now : Nat) :
      Serves processId (.waitSince name ordinal) runtime
        (.time (waitSinceMs runtime.managed (processSignalWaitKey processId name ordinal)
          (waitingKey processId name ordinal) now)) runtime
  | setProcessWait {runtime : Runtime host} (wait : WaitState) (now : Nat) :
      Serves processId (.setProcessWait wait) runtime
        (.registry (setWait runtime.managed wait now).1)
        { runtime with managed := (setWait runtime.managed wait now).2 }
  | clearProcessWait {runtime : Runtime host} (now : Nat) :
      Serves processId .clearProcessWait runtime (.registry (.ok ()))
        { runtime with managed := clearWait runtime.managed now }

/-- What others do meanwhile: they append events under keys of their own, and an effect that was
under way when the process was cut records its answer. -/
inductive Meanwhile (processId : String) : Runtime host → Runtime host → Prop
  | appended {runtime : Runtime host}
      {request : ProcessEventAppendRequest (rules (lashlangHost host))} {now : Nat}
      {result : ProcessEventAppendResult (rules (lashlangHost host))}
      {managed : Managed host}
      (foreign : ∀ key, request.replay = some key → ¬ OwnKey processId key)
      (appended : runtime.managed.appendEvent request now = .ok (result, managed)) :
      Meanwhile processId runtime { runtime with managed := managed }
  | recorded {runtime : Runtime host} {key : String} {command : EffectCommand} {reply : Reply}
      (new : runtime.effects key = none) (answers : command.Answers reply) :
      Meanwhile processId runtime (runtime.recorded key command reply)

/-- A process without its wait, which is set and cleared again and again. -/
def unwaited : Managed host :=
  { managed with record := { managed.record with wait := none, updatedAtMs := 0 } }

/-- Reading since when to wait and setting the wait leaves no trace. -/
def Request.isQuiet : Request → Bool
  | .waitSince _ _ | .setProcessWait _ => true
  | _ => false

/-- The runtime of a process that runs. A process that has ended is not run. -/
def runtimeOf (host : ProcessHost) (processId : String) (allowed : Request → Reply → Prop) :
    ReplayedClients.World Request Reply (Runtime host)
      (Managed host × (String → Option (EffectCommand × Reply))) where
  serve request runtime reply after := allowed request reply ∧
    runtime.managed.record.isTerminal = false ∧ Serves processId request runtime reply after
  others runtime after :=
    runtime.managed.record.isTerminal = false ∧ Meanwhile processId runtime after
  durable runtime := (unwaited runtime.managed, runtime.effects)
  quiet := Request.isQuiet

end Serving

/-! ## Registrations -/

section Registering

variable {host : ProcessHost}

def lashlangProcessEventTypes : List (ProcessEventType (rules (lashlangHost host))) :=
  [⟨"process.yield", host.anySchema, ⟨none, none⟩⟩,
    ⟨"process.wake", host.anySchema, ⟨none, some ⟨none, .pointer "/text", .eventIdentity⟩⟩⟩]

variable (signals : List (String × host.Schema))

def lashlangProcessSignalEventTypes : List (ProcessEventType (rules (lashlangHost host))) :=
  signals.map fun (name, schema) => ⟨s!"signal.{name}", schema, ⟨none, none⟩⟩

/-- A lashlang process that was just registered, with these signals. -/
def registered (registration : ProcessRegistration (lashlangHost host)) (registrationHash : String)
    (now : Nat) : Managed host where
  record := TestLocalProcessRegistry.fromPreparedRegistration
    (ensureCoreEventTypes { registration with
      eventTypes := lashlangProcessEventTypes ++ lashlangProcessSignalEventTypes signals }).prepared
    registrationHash now
  events := []
  keyedEvents := fun _ => none
  ackedWakes := []

end Registering

end LashlangProcesses
