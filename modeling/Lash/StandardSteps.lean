import Lash.StandardDrivers

/-!
# What a step does to a turn on the standard driver

Of a machine only a few fields matter to the course of a turn. Each operation is
described once by what it does to them; the answer to an awaited response and
the preparation of an iteration are then case distinctions over what the driver
may decide.
-/

namespace StandardSteps

open SessionGraphs (ConversationRecord)
open TurnInputs TurnProtocols TurnMachines TurnMachine MachineSteps MachineRuns EffectOrder
open List Bool
open StandardDrivers

variable {M : TurnProtocol} {host : DriverHost M} {m m' : TurnMachine M}

def requestOf : Effect M → Option M.LlmRequest
  | .llmCall _ request => some request
  | _ => none

/-- The requests of the model calls among the effects. -/
def requestsOf (effects : List (Effect M)) : List M.LlmRequest :=
  effects.filterMap requestOf

@[simp] theorem requestsOf_append (xs ys : List (Effect M)) :
    requestsOf (xs ++ ys) = requestsOf xs ++ requestsOf ys :=
  List.filterMap_append

/-- Where the turn stands. -/
structure Standing (M : TurnProtocol) where
  state : MachineState M
  requests : List M.LlmRequest
  messages : List Message
  protocolIteration : Nat
  termination : TurnTerminationPolicyState
  syncedProtocolIteration : Option Nat

def standing (m : TurnMachine M) : Standing M where
  state := m.state
  requests := requestsOf m.pendingEffects
  messages := m.messages
  protocolIteration := m.protocolIteration
  termination := m.termination
  syncedProtocolIteration := m.syncedProtocolIteration

section Operations

theorem standing_push {effect : Effect M} (quiet : requestOf effect = none) :
    standing (m.push effect) = standing m := by
  simp [standing, push, requestsOf, quiet]

variable (event : SessionEvent M)

@[simp] theorem standing_emit : standing (m.emit event) = standing m :=
  standing_push rfl

theorem standing_emit_each (m : TurnMachine M) (event : SessionEvent M) :
    standing (m.emit event) = standing m :=
  standing_emit event

@[simp] theorem standing_emitProgress : standing m.emitProgress = standing m := by
  simp [standing, emitProgress, nextEventDelta, push, requestsOf, requestOf]

@[simp] theorem standing_flushProgress (dirty : Bool) :
    standing (flushProgress dirty m) = standing m := by
  cases dirty with
  | false => rfl
  | true => exact standing_emitProgress

@[simp] theorem standing_withState (state : MachineState M) :
    standing (m.withState state) = { standing m with state := state } := rfl

@[simp] theorem standing_countIteration : standing m.countIteration =
      { standing m with protocolIteration := m.protocolIteration + 1 } := rfl

@[simp] theorem standing_finish (outcome : TurnOutcome M) :
    standing (m.finish outcome) = { standing m with state := .finished, messages := [] } := by
  rw [finish_eq]
  simp [standing, finishEffects, requestsOf, requestOf]

@[simp] theorem standing_failTurn :
    standing (m.failTurn event) = { standing m with state := .finished, messages := [] } := by
  simp [failTurn]

theorem standing_start {state : EffectId → MachineState M} {effect : EffectId → Effect M}
    (quiet : ∀ id, requestOf (effect id) = none) :
    standing (m.start state effect) = { standing m with state := state m.nextEffectId } := by
  simp [standing, start, push, requestsOf, quiet]

theorem standing_startSync (updateMachineConfig : Bool) :
    standing (m.startSync updateMachineConfig) = { standing m with
        state := .waitingExecutionEnvironment m.nextEffectId updateMachineConfig } :=
  standing_start fun _ => rfl

theorem standing_startLlmRequest (request : M.LlmRequest) (driverState : Option M.DriverState) :
    standing (m.startLlmRequest request driverState) = { standing m with
        state := .waitingLlm m.nextEffectId request driverState
        requests := requestsOf m.pendingEffects ++ [request] } := by
  simp [standing, startLlmRequest, start, emit, push, requestsOf, filterMap_cons, requestOf]

@[simp] theorem standing_appendConversation (message : Message) :
    standing (m.appendEvent (conversationEvent message)) =
      { standing m with messages := m.messages ++ [message] } := rfl

theorem standing_foldl {A : Type*} {work : TurnMachine M → A → TurnMachine M}
    (each : ∀ m a, standing (work m a) = standing m) (items : List A) :
    standing (items.foldl work m) = standing m :=
  foldl_frame standing each items m

/-- Work that only adds messages, and none of the assistant. -/
def Adds (m m' : TurnMachine M) : Prop :=
  ∃ added : List Message, (∀ message ∈ added, message.role ≠ .assistant) ∧
    standing m' = { standing m with messages := m.messages ++ added }

theorem Adds.refl (m : TurnMachine M) : Adds m m := ⟨[], by simp, by simp [standing]⟩

theorem Adds.trans {m'' : TurnMachine M} (first : Adds m m') (second : Adds m' m'') :
    Adds m m'' := by
  obtain ⟨added, hadded, hm⟩ := first
  obtain ⟨later, hlater, hm'⟩ := second
  refine ⟨added ++ later, ?_, ?_⟩
  · intro message hmessage
    exact (mem_append.mp hmessage).elim (hadded message) (hlater message)
  · have hmessages := congrArg Standing.messages hm
    simp only [standing] at hmessages
    rw [hm', hm, hmessages, append_assoc]

theorem adds_one {message : Message} (other : message.role ≠ .assistant)
    (after : standing m' = { standing m with messages := m.messages ++ [message] }) :
    Adds m m' :=
  ⟨[message], by simpa using other, after⟩

theorem adds_foldl {A : Type*} {work : TurnMachine M → A → TurnMachine M} {items : List A}
    (each : ∀ a ∈ items, ∀ m, Adds m (work m a)) (m : TurnMachine M) :
    Adds m (items.foldl work m) := by
  induction items generalizing m with
  | nil => exact .refl m
  | cons a items ih =>
    refine (each a mem_cons_self m).trans (ih ?_ (work m a))
    exact fun b hb => each b (mem_cons_of_mem _ hb)

theorem adds_appendCheckpointMessages (pluginMessages : List PluginMessage) (transient : Bool)
    (m : TurnMachine M) : Adds m (m.appendCheckpointMessages pluginMessages transient) := by
  refine adds_foldl ?_ m
  intro message hmessage m
  have hfrom : fromUserOrSystem message = true := (mem_filter.mp hmessage).2
  have hrole : message.role ≠ .assistant := by
    intro h
    simp [fromUserOrSystem, h] at hfrom
  exact @adds_one M m (appendCheckpointMessage transient m message)
    (checkpointMessage (m.nextSyntheticId "checkpoint").1 transient message) hrole rfl

theorem adds_appendTurnCause (cause : TurnCause) (m : TurnMachine M) :
    Adds m (m.appendTurnCause cause) := by
  unfold appendTurnCause
  split
  · exact .refl m
  · have hrole : cause.toEventMessage.role ≠ .assistant := by simp [TurnCause.toEventMessage]
    exact adds_one hrole rfl

theorem adds_acceptDelivery (delivery : CheckpointDelivery) (m : TurnMachine M) :
    Adds m (m.acceptDelivery delivery) :=
  ((adds_appendCheckpointMessages _ false m).trans
    (adds_appendCheckpointMessages _ true _)).trans
    (adds_foldl (fun cause _ m => adds_appendTurnCause cause m) _)

end Operations

/-- The messages the machine holds, or those it handed over when it finished. -/
def transcript (m : TurnMachine M) : List Message :=
  if m.isDone then
    match m.pendingEffects.getLast? with
    | some (.done messages _ _) => messages
    | _ => []
  else m.messages

theorem transcript_finish (outcome : TurnOutcome M) :
    transcript (m.finish outcome) = m.messages := by
  rw [finish_eq]
  simp [transcript, isDone, finishEffects]

theorem transcript_of_unfinished (unfinished : m.state ≠ .finished) :
    transcript m = m.messages := by
  have hopen : ¬ m.isDone = true := fun h => unfinished (isDone_iff.mp h)
  simp [transcript, hopen]

open Standing

section Answers

/-- The states a turn on the standard driver goes through. -/
def Orderly : MachineState M → Prop
  | .waitingExec _ _ _ _ => False
  | .waitingCheckpoint _ .beforeCompletion onEmpty => ∃ outcome, onEmpty = .finish outcome
  | .waitingCheckpoint _ .afterWork onEmpty => onEmpty = .prepareIteration
  | _ => True

/-- The turn is over, and the model was not asked again. -/
structure Ended (m m' : TurnMachine M) : Prop where
  state : m'.state = .finished
  requests : requestsOf m'.pendingEffects = requestsOf m.pendingEffects
  termination : m'.termination = m.termination

theorem Ended.of_standing {s : Standing M}
    (after : standing m' = { s with state := .finished, messages := [] })
    (requests : s.requests = requestsOf m.pendingEffects)
    (termination : s.termination = m.termination) : Ended m m' where
  state := congrArg Standing.state after
  requests := (congrArg Standing.requests after).trans requests
  termination := (congrArg Standing.termination after).trans termination

/-- The answer to a response that an orderly machine awaited. -/
inductive Answered (host : DriverHost M) (m : TurnMachine M) :
    Response M → TurnMachine M → Prop
  | ending {response : Response M} {m' : TurnMachine M} (ended : Ended m m') :
      Answered host m response m'
  | synced {id : EffectId} {update : Bool}
      {result : Except String (Option (ExecutionEnvironmentSync M))} {m' : TurnMachine M}
      (waiting : m.state = .waitingExecutionEnvironment id update)
      (after : standing m' = { standing m with
        state := .prepareIteration
        syncedProtocolIteration := some m.protocolIteration }) :
      Answered host m (.executionEnvironmentSynced id result) m'
  | completing {id effectId : EffectId} {request : M.LlmRequest}
      {driverState : Option M.DriverState} {response : LlmResponse M} {textStreamed : Bool}
      {text : String} {m' : TurnMachine M}
      (waiting : m.state = .waitingLlm id request driverState)
      (spoke : (readResponse textStreamed response).toolCalls = [])
      (after : standing m' = { standing m with
        state := .waitingCheckpoint effectId .beforeCompletion
          (.finish (.finished (.assistantMessage text))) }) :
      Answered host m (.llmComplete id (.ok response) textStreamed) m'
  | calling {id effectId : EffectId} {request : M.LlmRequest}
      {driverState : Option M.DriverState} {response : LlmResponse M} {textStreamed : Bool}
      {asstId : String} {m' : TurnMachine M}
      (waiting : m.state = .waitingLlm id request driverState)
      (called : (readResponse textStreamed response).toolCalls ≠ [])
      (after : standing m' = { standing m with
        state := .waitingTools effectId
          ((readResponse textStreamed response).toolCalls.map (pendingToolCall host))
        messages := m.messages ++
          [assistantMessage asstId (readResponse textStreamed response)] }) :
      Answered host m (.llmComplete id (.ok response) textStreamed) m'
  | worked {id effectId : EffectId} {calls : List (PendingToolCall M)}
      {completed : List (CompletedToolCall M)} {userId : String} {m' : TurnMachine M}
      (waiting : m.state = .waitingTools id calls)
      (more : turnsExhausted m.driverContext = none)
      (after : standing m' = { standing m with
        state := .waitingCheckpoint effectId .afterWork .prepareIteration
        messages := m.messages ++ resultMessages userId completed
        protocolIteration := m.protocolIteration + 1
        syncedProtocolIteration := none }) :
      Answered host m (.toolResults id completed) m'
  | rested {id : EffectId} {delivery : CheckpointDelivery} {added : List Message}
      {m' : TurnMachine M}
      (waiting : m.state = .waitingCheckpoint id .afterWork .prepareIteration)
      (others : ∀ message ∈ added, message.role ≠ .assistant)
      (after : standing m' = { standing m with
        state := .prepareIteration
        messages := m.messages ++ added }) :
      Answered host m (.checkpoint id delivery) m'
  | continued {id : EffectId} {outcome : TurnOutcome M} {delivery : CheckpointDelivery}
      {added : List Message} {noticeId : String} {m' : TurnMachine M}
      (waiting : m.state = .waitingCheckpoint id .beforeCompletion (.finish outcome))
      (delivered : delivery.isEmpty = false)
      (grace : m.termination.turnLimitFinalScheduled = false)
      (others : ∀ message ∈ added, message.role ≠ .assistant)
      (after : standing m' = { standing m with
        state := .prepareIteration
        messages := m.messages ++ added ++ (turnsExhausted m.driverContext).toList.map
          (m.config.turnLimitFinalMessage noticeId)
        protocolIteration := m.protocolIteration + 1
        termination := ⟨(turnsExhausted m.driverContext).isSome⟩ }) :
      Answered host m (.checkpoint id delivery) m'

variable {id : EffectId}

theorem answered_sync {update : Bool} (waiting : m.state = .waitingExecutionEnvironment id update)
    (result : Except String (Option (ExecutionEnvironmentSync M))) :
    Answered host m (.executionEnvironmentSynced id result)
      (m.handleExecutionEnvironmentSynced id result) := by
  simp only [handleExecutionEnvironmentSynced, waiting, ne_eq, not_true_eq_false, if_false]
  cases result with
  | ok update => exact .synced waiting rfl
  | error error => exact .ending (.of_standing (standing_failTurn _) rfl rfl)

/-- Refining the terminal reason changes nothing that the driver reads. -/
theorem readResponse_refine (textStreamed : Bool) (response : LlmResponse M)
    (maxContextTokens : Option Nat) :
    readResponse textStreamed (refineTerminalReasonForContextWindow response maxContextTokens) =
      readResponse textStreamed response := by
  unfold refineTerminalReasonForContextWindow
  split <;> rfl

variable (response : LlmResponse M)

theorem standing_recordLlmUsage : standing (m.recordLlmUsage response) = standing m := by
  simp only [recordLlmUsage]
  split
  · rw [standing_push rfl, standing_emit]
    rfl
  · rw [standing_emit]
    rfl

theorem standing_emitLlmError (error : LlmCallError) : standing (m.emitLlmError error) =
      { standing m with state := .finished, messages := [] } := by
  have hrecorded : standing (m.recordLlmError error) = standing m := by
    unfold recordLlmError
    split
    · exact standing_push rfl
    · rfl
  rw [emitLlmError, standing_finish, standing_emit, hrecorded]

theorem standing_emitTerminalLlmResponse (textStreamed : Bool) (outcome : TurnOutcome M) :
    standing (m.emitTerminalLlmResponse response textStreamed outcome) =
      { standing m with state := .finished, messages := [] } := by
  simp only [emitTerminalLlmResponse]
  split
  · rw [standing_finish, standing_emit, standing_emit, standing_emit]
  · rw [standing_finish, standing_emit, standing_emit]

theorem applyActionsFrom_emits (dirty : Bool) (events : List (SessionEvent M))
    (actions : List (DriverAction M)) (m : TurnMachine M) :
    applyActionsFrom dirty m (events.map .emit ++ actions) =
      applyActionsFrom dirty (events.foldl emit m) actions := by
  induction events generalizing m with
  | nil => rfl
  | cons event events ih => exact ih (m.emit event)

/-- The events come first; what the rest of the answer does is all that matters. -/
theorem applyActions_handleLlmSuccess (host : DriverHost M) (ctx : DriverContextView M)
    (waiting : WaitingLlmState M) (response : LlmResponse M) (textStreamed : Bool)
    (m : TurnMachine M) :
    ∃ quiet : TurnMachine M, standing quiet = standing m ∧
      m.applyActions (handleLlmSuccess host ctx waiting response textStreamed) =
        applyActionsFrom false quiet
          (if (readResponse textStreamed response).toolCalls.isEmpty
            then completionActions host ctx (readResponse textStreamed response)
            else toolCallActions host ctx (readResponse textStreamed response)) := by
  obtain ⟨events, hevents⟩ := readResponse_emits textStreamed response
  let last : SessionEvent M := .llmResponse ctx.protocolIteration
    (readResponse textStreamed response).assistantText 0
  have hactions : handleLlmSuccess host ctx waiting response textStreamed =
      (events ++ [last]).map .emit ++ (if (readResponse textStreamed response).toolCalls.isEmpty
          then completionActions host ctx (readResponse textStreamed response)
          else toolCallActions host ctx (readResponse textStreamed response)) := by
    rw [map_append, ← hevents]
    rfl
  refine ⟨(events ++ [last]).foldl emit m, standing_foldl standing_emit_each _, ?_⟩
  rw [hactions]
  exact applyActionsFrom_emits false _ _ m

theorem standing_emptyResponseActions (m : TurnMachine M) :
    standing (applyActionsFrom false m emptyResponseActions) =
      { standing m with state := .finished, messages := [] } := by
  simp [emptyResponseActions, applyActionsFrom]

theorem standing_completionCheckpoint (text : String) (m : TurnMachine M) :
    standing (applyActionsFrom false m [completionCheckpoint text]) = { standing m with
        state := .waitingCheckpoint m.nextEffectId .beforeCompletion
          (.finish (.finished (.assistantMessage text))) } := by
  simp only [completionCheckpoint, applyActionsFrom, standing_flushProgress]
  exact standing_start fun _ => rfl

theorem standing_toolCallActions (host : DriverHost M) (ctx : DriverContextView M)
    {reading : Reading M} (called : reading.toolCalls ≠ []) (m : TurnMachine M) :
    standing (applyActionsFrom false m (toolCallActions host ctx reading)) = { standing m with
        state := .waitingTools m.nextEffectId (reading.toolCalls.map (pendingToolCall host))
        messages := m.messages ++ [assistantMessage (host.freshMessageId ctx 0) reading] } := by
  rw [toolCallActions_eq host ctx called]
  simp only [applyActionsFrom, isEmpty_cons, false_eq_true, if_false, foldl_cons,
    foldl_nil, standing_flushProgress]
  exact standing_start fun _ => rfl

/-- A response ends the turn, waits for the completion checkpoint, or starts the
tools it calls. -/
theorem acceptLlmResponse_cases (driver : m.config.protocolDriver = standardDriver host)
    (waiting : WaitingLlmState M) (response : LlmResponse M) (textStreamed : Bool) :
    let reading := readResponse textStreamed response
    let after := standing (m.acceptLlmResponse waiting response textStreamed)
    after = { standing m with state := .finished, messages := [] } ∨
      (reading.toolCalls = [] ∧ ∃ effectId text, after = { standing m with
        state := .waitingCheckpoint effectId .beforeCompletion
          (.finish (.finished (.assistantMessage text))) }) ∨
      (reading.toolCalls ≠ [] ∧ ∃ effectId asstId, after = { standing m with
        state := .waitingTools effectId (reading.toolCalls.map (pendingToolCall host))
        messages := m.messages ++ [assistantMessage asstId reading] }) := by
  intro reading after
  have hrefined : readResponse textStreamed
      (refineTerminalReasonForContextWindow response m.config.maxContextTokens) = reading :=
    readResponse_refine textStreamed response _
  simp only [after, acceptLlmResponse]
  generalize refineTerminalReasonForContextWindow response m.config.maxContextTokens = refined
    at hrefined
  have hrecorded := standing_recordLlmUsage (m := m) refined
  have hdriver : (m.recordLlmUsage refined).config.protocolDriver = standardDriver host := by
    rw [(recordLlmUsage_frame refined).2]
    exact driver
  generalize m.recordLlmUsage refined = recorded at hrecorded hdriver
  split
  · rw [standing_emitTerminalLlmResponse, hrecorded]
    exact .inl rfl
  · obtain ⟨quiet, hquiet, happly⟩ := applyActions_handleLlmSuccess host recorded.driverContext
      waiting refined textStreamed recorded
    have hmessages : quiet.messages = m.messages :=
      congrArg Standing.messages (hquiet.trans hrecorded)
    rw [hdriver]
    simp only [standardDriver]
    rw [happly, hrefined]
    by_cases hcalls : reading.toolCalls = []
    · rw [if_pos (isEmpty_iff.mpr hcalls)]
      rcases completionActions_cases host recorded.driverContext reading with h | ⟨text, h⟩
      · rw [h, standing_emptyResponseActions, hquiet, hrecorded]
        exact .inl rfl
      · rw [h, standing_completionCheckpoint, hquiet, hrecorded]
        exact .inr (.inl ⟨hcalls, _, text, rfl⟩)
    · rw [if_neg (mt List.isEmpty_iff.mp hcalls), standing_toolCallActions host _ hcalls, hquiet,
        hrecorded, hmessages]
      exact .inr (.inr ⟨hcalls, _, _, rfl⟩)

theorem answered_llm {request : M.LlmRequest} {driverState : Option M.DriverState}
    (waiting : m.state = .waitingLlm id request driverState)
    (driver : m.config.protocolDriver = standardDriver host)
    (result : Except LlmCallError (LlmResponse M)) (textStreamed : Bool) :
    Answered host m (.llmComplete id result textStreamed)
      (m.handleLlmComplete id result textStreamed) := by
  simp only [handleLlmComplete, waiting, ne_eq, not_true_eq_false, if_false]
  cases result with
  | error error => exact .ending (.of_standing (standing_emitLlmError error) rfl rfl)
  | ok response =>
    have hdriver : (m.withState .finished).config.protocolDriver = standardDriver host := driver
    rcases acceptLlmResponse_cases hdriver { request := request, driverState := driverState }
      response textStreamed with h | ⟨hspoke, _, _, h⟩ | ⟨hcalled, _, _, h⟩
    · exact .ending (.of_standing h rfl rfl)
    · exact .completing waiting hspoke h
    · exact .calling waiting hcalled h

theorem standing_advance (m : TurnMachine M) : standing ({ m with
      protocolIteration := m.protocolIteration + 1
      syncedProtocolIteration := none } : TurnMachine M) = { standing m with
        protocolIteration := m.protocolIteration + 1
        syncedProtocolIteration := none } := rfl

/-- The results are recorded first; then the turn ends, by a tool or by its limit, or
pauses. -/
theorem applyActionsFrom_advance (host : DriverHost M) (ctx : DriverContextView M)
    (dirty : Bool) (m : TurnMachine M) :
    let m' := applyActionsFrom dirty m (advanceActions host ctx)
    (∃ maxTurns noticeId, turnsExhausted ctx = some maxTurns ∧ standing m' = { standing m with
        state := .finished
        messages := []
        protocolIteration := m.protocolIteration + 1
        syncedProtocolIteration := none } ∧
      transcript m' = m.messages ++ [turnLimitExhaustedMessage noticeId maxTurns]) ∨
    (turnsExhausted ctx = none ∧ ∃ effectId, standing m' = { standing m with
        state := .waitingCheckpoint effectId .afterWork .prepareIteration
        protocolIteration := m.protocolIteration + 1
        syncedProtocolIteration := none }) := by
  intro m'
  simp only [m', advanceActions]
  cases turnsExhausted ctx with
  | some maxTurns =>
    refine .inl ⟨maxTurns, host.freshMessageId ctx 1, rfl, ?_, ?_⟩
    · simp [applyActionsFrom, standing_advance]
    · simp only [applyActionsFrom, isEmpty_cons, false_eq_true, if_false]
      rw [transcript_finish]
      rfl
  | none =>
    refine .inr ⟨rfl, m.nextEffectId, ?_⟩
    simp only [applyActionsFrom, standing_flushProgress]
    exact standing_start fun _ => rfl

theorem applyActionsFrom_results (userId : String) (completed : List (CompletedToolCall M))
    (actions : List (DriverAction M)) (m : TurnMachine M) :
    ∃ dirty recorded, standing recorded =
        { standing m with messages := m.messages ++ resultMessages userId completed } ∧
      applyActionsFrom false m
        ((resultMessages userId completed).map
          (fun message => .appendEvents [conversationEvent message]) ++ actions) =
        applyActionsFrom dirty recorded actions := by
  unfold resultMessages
  split
  · exact ⟨false, m, by simp [standing], rfl⟩
  · exact ⟨true, m.appendEvent (conversationEvent (resultMessage userId completed)), rfl, rfl⟩

/-- Reporting the calls leaves the turn where it stands, and all it reads of its limit. -/
theorem emitToolCalls_frame (completed : List (CompletedToolCall M)) (m : TurnMachine M) :
    let emitted := completed.foldl emitToolCall m
    standing emitted = standing m ∧ emitted.config = m.config ∧
      turnsExhausted emitted.driverContext = turnsExhausted m.driverContext := by
  intro emitted
  have hemitted : standing emitted = standing m :=
    standing_foldl (fun _ _ => standing_emit _) completed
  have hconfig : emitted.config = m.config :=
    @foldl_frame M _ _ emitToolCall TurnMachine.config (fun _ _ => rfl) completed m
  have hoffset : emitted.protocolRunOffset = m.protocolRunOffset :=
    @foldl_frame M _ _ emitToolCall TurnMachine.protocolRunOffset (fun _ _ => rfl) completed m
  exact ⟨hemitted, hconfig, turnsExhausted_congr (congrArg TurnMachineConfig.maxTurns hconfig)
    hoffset (congrArg Standing.protocolIteration hemitted)⟩

/-- The results of the tools end the turn, or the machine pauses with the next
iteration ahead. Either way they are recorded first. -/
theorem acceptToolResults_cases (driver : m.config.protocolDriver = standardDriver host)
    (completed : List (CompletedToolCall M)) :
    let m' := m.acceptToolResults completed
    ∃ userId, (Ended m m' ∧ ∃ notices : List Message, (∀ notice ∈ notices, ∃ noticeId maxTurns,
          notice = turnLimitExhaustedMessage noticeId maxTurns) ∧
        transcript m' = m.messages ++ resultMessages userId completed ++ notices) ∨
      (turnsExhausted m.driverContext = none ∧ ∃ effectId, standing m' = { standing m with
        state := .waitingCheckpoint effectId .afterWork .prepareIteration
        messages := m.messages ++ resultMessages userId completed
        protocolIteration := m.protocolIteration + 1
        syncedProtocolIteration := none }) := by
  intro m'
  simp only [m', acceptToolResults]
  obtain ⟨hemitted, hconfig, hexhausted⟩ := emitToolCalls_frame completed m
  generalize completed.foldl emitToolCall m = emitted at hemitted hconfig hexhausted
  have hsent : emitted.messages = m.messages := congrArg Standing.messages hemitted
  rw [hconfig, driver]
  simp only [standardDriver, StandardDrivers.handleToolResults, applyActions]
  refine ⟨host.freshMessageId emitted.driverContext 0, ?_⟩
  obtain ⟨dirty, recorded, hrecorded, happly⟩ := applyActionsFrom_results
    (host.freshMessageId emitted.driverContext 0) completed
    (afterResults host emitted.driverContext completed) emitted
  rw [happly]
  rw [hemitted, hsent] at hrecorded
  have hmessages : recorded.messages = _ := congrArg Standing.messages hrecorded
  have hiteration : recorded.protocolIteration = _ := congrArg Standing.protocolIteration hrecorded
  unfold afterResults
  cases StandardDrivers.terminalOutcome host completed with
  | some outcome =>
    refine .inl ⟨?_, [], by simp, ?_⟩
    · refine @Ended.of_standing M m _ (standing recorded) ?_
        (congrArg Standing.requests hrecorded) (congrArg Standing.termination hrecorded)
      simp [applyActionsFrom]
    · simp only [applyActionsFrom]
      rw [transcript_finish, append_nil]
      exact (congrArg Standing.messages (standing_flushProgress dirty)).trans hmessages
  | none =>
    rcases applyActionsFrom_advance host emitted.driverContext dirty recorded with
      ⟨maxTurns, noticeId, _, hstanding, htranscript⟩ | ⟨hmore, effectId, hstanding⟩
    · refine .inl ⟨?_, [turnLimitExhaustedMessage noticeId maxTurns], ?_, ?_⟩
      · exact ⟨congrArg Standing.state hstanding,
          (congrArg requests hstanding).trans (congrArg requests hrecorded),
          (congrArg Standing.termination hstanding).trans
            (congrArg Standing.termination hrecorded)⟩
      · intro notice hnotice
        exact ⟨noticeId, maxTurns, mem_singleton.mp hnotice⟩
      · rw [htranscript, hmessages]
    · refine .inr ⟨hexhausted.symm.trans hmore, effectId, ?_⟩
      rw [hstanding, hrecorded, hiteration]
      rfl

theorem answered_tools {calls : List (PendingToolCall M)}
    (waiting : m.state = .waitingTools id calls)
    (driver : m.config.protocolDriver = standardDriver host)
    (completed : List (CompletedToolCall M)) :
    Answered host m (.toolResults id completed) (m.handleToolResults id completed) := by
  simp only [TurnMachine.handleToolResults, waiting, ne_eq, not_true_eq_false, if_false]
  have hdriver : (m.withState .finished).config.protocolDriver = standardDriver host := driver
  obtain ⟨userId, ⟨hended, _⟩ | ⟨hmore, effectId, hstanding⟩⟩ :=
    acceptToolResults_cases hdriver completed
  · exact .ending ⟨hended.state, hended.requests, hended.termination⟩
  · exact .worked waiting hmore hstanding

theorem standing_scheduleConfiguredTurnLimitFinal (m : TurnMachine M)
    (grace : m.termination.turnLimitFinalScheduled = false) :
    ∃ noticeId, standing m.scheduleConfiguredTurnLimitFinal = { standing m with
        messages := m.messages ++ m.turnLimitFinalToSchedule.toList.map
          (m.config.turnLimitFinalMessage noticeId)
        termination := ⟨m.turnLimitFinalToSchedule.isSome⟩ } := by
  unfold scheduleConfiguredTurnLimitFinal
  cases m.turnLimitFinalToSchedule with
  | none =>
    refine ⟨"", ?_⟩
    have htermination : m.termination = ⟨false⟩ := by
      cases h : m.termination
      rw [h] at grace
      rw [← grace]
    simp [standing, htermination]
  | some maxTurns => exact ⟨(m.nextSyntheticId "turn_limit").1, rfl⟩

/-- The limit of the iteration after this one, seen before it is counted. -/
theorem turnLimitFinalToSchedule_countIteration
    (grace : m.termination.turnLimitFinalScheduled = false) :
    m.countIteration.turnLimitFinalToSchedule = turnsExhausted m.driverContext := by
  rw [turnLimitFinalToSchedule]
  exact turnLimitFinalToSchedule_eq grace _ _ _

theorem standing_resumeAfterDelivery (grace : m.termination.turnLimitFinalScheduled = false) :
    ∃ noticeId, standing (m.resumeAfterDelivery .beforeCompletion) = { standing m with
      state := .prepareIteration
      messages := m.messages ++ (turnsExhausted m.driverContext).toList.map
        (m.config.turnLimitFinalMessage noticeId)
      protocolIteration := m.protocolIteration + 1
      termination := ⟨(turnsExhausted m.driverContext).isSome⟩ } := by
  obtain ⟨noticeId, hscheduled⟩ :=
    @standing_scheduleConfiguredTurnLimitFinal M m.countIteration grace
  rw [turnLimitFinalToSchedule_countIteration grace] at hscheduled
  refine ⟨noticeId, ?_⟩
  have hgrace : m.countIteration.termination.shouldForceExitAfterGraceTurn = false := grace
  simp only [resumeAfterDelivery, hgrace, false_eq_true, if_false, standing_emitProgress,
    standing_withState, hscheduled]
  rfl

theorem turnsExhausted_of_fixed (same : fixed m' = fixed m)
    (iteration : m'.protocolIteration = m.protocolIteration) :
    turnsExhausted m'.driverContext = turnsExhausted m.driverContext :=
  turnsExhausted_congr (congrArg (fun kept => kept.1.maxTurns) same) (congrArg Prod.snd same)
    iteration

/-- What a checkpoint delivers is put behind the messages before the machine goes on. -/
theorem answered_pause (waiting : m.state = .waitingCheckpoint id .afterWork .prepareIteration)
    (delivery : CheckpointDelivery) :
    Answered host m (.checkpoint id delivery) (m.handleCheckpoint id delivery) := by
  simp only [handleCheckpoint, waiting, ne_eq, not_true_eq_false, if_false]
  obtain ⟨added, hothers, hadded⟩ := adds_acceptDelivery delivery (m.withState .finished)
  split
  · have hnone : standing (m.withState .prepareIteration) =
        { standing m with state := .prepareIteration, messages := m.messages ++ [] } := by
      rw [append_nil]
      rfl
    exact .rested waiting (by simp) hnone
  · have hrested : standing (((m.withState .finished).acceptDelivery
        delivery).resumeAfterDelivery .afterWork) =
        { standing m with state := .prepareIteration, messages := m.messages ++ added } := by
      simp only [resumeAfterDelivery, standing_emitProgress, standing_withState, hadded]
      rfl
    exact .rested waiting hothers hrested

/-- The turn completes if nothing is delivered; else it goes on, unless its last
iteration is over. -/
theorem answered_completion {outcome : TurnOutcome M}
    (waiting : m.state = .waitingCheckpoint id .beforeCompletion (.finish outcome))
    (delivery : CheckpointDelivery) :
    Answered host m (.checkpoint id delivery) (m.handleCheckpoint id delivery) := by
  simp only [handleCheckpoint, waiting, ne_eq, not_true_eq_false, if_false]
  split
  · exact .ending (.of_standing (standing_finish outcome) rfl rfl)
  rename_i hdelivered
  obtain ⟨added, hothers, hadded⟩ := adds_acceptDelivery delivery (m.withState .finished)
  have hfixed : fixed ((m.withState .finished).acceptDelivery delivery) = fixed m :=
    (advance_acceptDelivery delivery).lasting
  generalize (m.withState .finished).acceptDelivery delivery = accepted at hadded hfixed
  have htermination : accepted.termination = m.termination := congrArg Standing.termination hadded
  by_cases hgrace : m.termination.turnLimitFinalScheduled = true
  · have hforced : accepted.countIteration.termination.shouldForceExitAfterGraceTurn =
        true := (congrArg _ htermination).trans hgrace
    simp only [resumeAfterDelivery, hforced, if_true]
    exact .ending (.of_standing (standing_finish _)
      ((congrArg requests standing_emitProgress).trans
        (congrArg requests hadded))
      ((congrArg Standing.termination standing_emitProgress).trans htermination))
  · have hopen : accepted.termination.turnLimitFinalScheduled = false := by
      rw [htermination]
      exact not_eq_true _ ▸ hgrace
    have hiteration : accepted.protocolIteration = m.protocolIteration :=
      congrArg Standing.protocolIteration hadded
    have hmessages : accepted.messages = m.messages ++ added := congrArg Standing.messages hadded
    have hnotice : accepted.config.turnLimitFinalMessage = m.config.turnLimitFinalMessage :=
      congrArg (fun kept => kept.1.turnLimitFinalMessage) hfixed
    obtain ⟨noticeId, hresumed⟩ := standing_resumeAfterDelivery hopen
    rw [turnsExhausted_of_fixed hfixed hiteration, hnotice, hmessages, hiteration,
      hadded] at hresumed
    exact .continued waiting (not_eq_true _ ▸ hdelivered) (htermination ▸ hopen)
      hothers hresumed

theorem answered_checkpoint {checkpoint : CheckpointKind} {onEmpty : CheckpointResumeAction M}
    (waiting : m.state = .waitingCheckpoint id checkpoint onEmpty) (orderly : Orderly m.state)
    (delivery : CheckpointDelivery) :
    Answered host m (.checkpoint id delivery) (m.handleCheckpoint id delivery) := by
  rw [waiting] at orderly
  cases checkpoint with
  | afterWork =>
    cases orderly
    exact answered_pause waiting delivery
  | beforeCompletion =>
    obtain ⟨outcome, rfl⟩ := orderly
    exact answered_completion waiting delivery

/-- An awaited response does to an orderly machine what `Answered` lists. -/
theorem answered {response : Response M} (awaited : Awaits m response)
    (orderly : Orderly m.state) (driver : m.config.protocolDriver = standardDriver host) :
    Answered host m response (m.answer response) := by
  unfold Awaits at awaited
  cases hstate : m.state <;> cases response <;> rw [hstate] at awaited <;>
    simp only [awaits, false_eq_true, beq_iff_eq] at awaited <;> subst awaited
  case waitingExecutionEnvironment.executionEnvironmentSynced result =>
    exact answered_sync hstate result
  case waitingLlm.llmComplete result textStreamed =>
    exact answered_llm hstate driver result textStreamed
  case waitingTools.toolResults completed => exact answered_tools hstate driver completed
  case waitingExec.execResult result =>
    rw [hstate] at orderly
    exact orderly.elim
  case waitingCheckpoint.checkpoint delivery =>
    exact answered_checkpoint hstate orderly delivery

end Answers

end StandardSteps
