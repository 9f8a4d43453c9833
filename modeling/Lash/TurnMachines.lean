import Lash.TurnProtocols

/-!
# The turn machine

A machine that does no input or output: it queues effects for a host, waits for
at most one response at a time, and asks a driver what to do with it. Event and
message lists are plain lists. While a response is being handled the state is
`finished`, as in the source, until the handler sets the next one.
-/

namespace TurnMachines

open TurnInputs RuntimeCommits TurnProtocols

structure TurnMachine (M : TurnProtocol) where
  config : TurnMachineConfig M
  state : MachineState M
  pendingEffects : List (Effect M)
  activeEffectRedelivery : Bool
  nextEffectId : Nat
  nextSyntheticMessageId : Nat
  messages : List Message
  events : List (SessionEventRecord M)
  turnCauses : List TurnCause
  progressEventCursor : Nat
  protocolIteration : Nat
  protocolRunOffset : Nat
  cumulativeUsage : TokenUsage
  termination : TurnTerminationPolicyState
  syncedProtocolIteration : Option Nat

structure TurnCheckpoint (M : TurnProtocol) where
  state : MachineState M
  pendingEffects : List (Effect M)
  nextEffectId : Nat
  nextSyntheticMessageId : Nat
  messages : List Message
  events : List (SessionEventRecord M)
  turnCauses : List TurnCause
  progressEventCursor : Nat
  protocolIteration : Nat
  protocolRunOffset : Nat
  cumulativeUsage : TokenUsage
  termination : TurnTerminationPolicyState
  syncedProtocolIteration : Option Nat

variable {M : TurnProtocol}

def TurnMachine.newSharedWithTurnCauses (config : TurnMachineConfig M)
    (messages : List Message) (events : List (SessionEventRecord M))
    (protocolRunOffset : Nat) (turnCauses : List TurnCause) : TurnMachine M where
  config := config
  state := .preparingProtocol
  pendingEffects := []
  activeEffectRedelivery := false
  nextEffectId := 1
  nextSyntheticMessageId := messages.length
  messages := messages
  events := events
  turnCauses := turnCauses
  progressEventCursor := events.length
  protocolIteration := protocolRunOffset
  protocolRunOffset := protocolRunOffset
  cumulativeUsage := ⟨0, 0, 0, 0⟩
  termination := .new
  syncedProtocolIteration := none

namespace TurnMachine

variable (m : TurnMachine M)

def isDone : Bool :=
  match m.state with
  | .finished => true
  | _ => false

def checkpoint : TurnCheckpoint M where
  state := m.state
  pendingEffects := m.pendingEffects.filter fun effect =>
    match m.state.outstandingEffectId with
    | none => true
    | some id => decide (effect.id ≠ some id)
  nextEffectId := m.nextEffectId
  nextSyntheticMessageId := m.nextSyntheticMessageId
  messages := m.messages
  events := m.events
  turnCauses := m.turnCauses
  progressEventCursor := m.progressEventCursor
  protocolIteration := m.protocolIteration
  protocolRunOffset := m.protocolRunOffset
  cumulativeUsage := m.cumulativeUsage
  termination := m.termination
  syncedProtocolIteration := m.syncedProtocolIteration

def restoreFromCheckpoint (config : TurnMachineConfig M) (checkpoint : TurnCheckpoint M) :
    TurnMachine M where
  config := config
  state := checkpoint.state
  pendingEffects := checkpoint.pendingEffects
  activeEffectRedelivery :=
    checkpoint.state.outstandingEffectId.isSome &&
      !checkpoint.pendingEffects.any fun effect =>
        decide (effect.id = checkpoint.state.outstandingEffectId)
  nextEffectId := checkpoint.nextEffectId
  nextSyntheticMessageId := checkpoint.nextSyntheticMessageId
  messages := checkpoint.messages
  events := checkpoint.events
  turnCauses := checkpoint.turnCauses
  progressEventCursor := checkpoint.progressEventCursor
  protocolIteration := checkpoint.protocolIteration
  protocolRunOffset := checkpoint.protocolRunOffset
  cumulativeUsage := checkpoint.cumulativeUsage
  termination := checkpoint.termination
  syncedProtocolIteration := checkpoint.syncedProtocolIteration

/-- The request the projector builds from what the machine holds now. -/
def projectLlmRequest (useTools : Bool) : M.LlmRequest :=
  m.config.projector
    { systemPrompt := m.config.systemPrompt
      toolSpecs := m.config.toolSpecs
      messages := m.messages
      events := m.events
      turnCauses := m.turnCauses
      protocolIteration := m.protocolIteration
      useTools := useTools }

def driverContext : DriverContextView M where
  projectLlmRequest := m.projectLlmRequest
  protocolIteration := m.protocolIteration
  protocolRunOffset := m.protocolRunOffset
  maxTurns := m.config.maxTurns
  termination := m.config.termination
  autonomous := m.config.autonomous
  policy := m.termination
  messages := m.messages
  events := m.events
  turnCauses := m.turnCauses

def withState (state : MachineState M) : TurnMachine M :=
  { m with state := state }

def countIteration : TurnMachine M :=
  { m with protocolIteration := m.protocolIteration + 1 }

def push (effect : Effect M) : TurnMachine M :=
  { m with pendingEffects := m.pendingEffects ++ [effect] }

def emit (event : SessionEvent M) : TurnMachine M :=
  m.push (.emit event)

/-- The events past the cursor. -/
def eventDelta : List (SessionEventRecord M) :=
  if m.events.length ≤ m.progressEventCursor then [] else m.events.drop m.progressEventCursor

/-- The events past the cursor, and the machine with the cursor moved behind them. -/
def nextEventDelta : List (SessionEventRecord M) × TurnMachine M :=
  (m.eventDelta, { m with progressEventCursor := m.events.length })

def emitProgress : TurnMachine M :=
  let (eventDelta, m) := m.nextEventDelta
  m.push (.progress m.messages eventDelta m.protocolIteration)

variable (outcome : TurnOutcome M)

def finish : TurnMachine M :=
  let m := (m.emit (.turnOutcome outcome)).emit .done
  let messages := m.messages
  let (eventDelta, m) := { m with messages := [] }.nextEventDelta
  (m.withState .finished).push (.done messages eventDelta m.protocolIteration)

def failTurn (event : SessionEvent M) : TurnMachine M :=
  (m.emit event).finish (.stopped .runtimeError)

def finishWithOutcome : TurnMachine M :=
  m.finish outcome

/-- Take the next effect id, enter the state that waits for it and queue the
effect. -/
def start (state : EffectId → MachineState M) (effect : EffectId → Effect M) : TurnMachine M :=
  { m with
    nextEffectId := m.nextEffectId + 1
    state := state m.nextEffectId }.push (effect m.nextEffectId)

def startSync (updateMachineConfig : Bool) : TurnMachine M :=
  m.start (.waitingExecutionEnvironment · updateMachineConfig)
    (.syncExecutionEnvironment · updateMachineConfig)

def startLlmRequest (request : M.LlmRequest) (driverState : Option M.DriverState) : TurnMachine M :=
  (m.emit (.llmRequest m.protocolIteration m.messages.length
    (String.intercalate ", " (m.config.toolSpecs.map LlmToolSpec.name)))).start
    (.waitingLlm · request driverState) (.llmCall · request)

def startToolCalls (calls : List (PendingToolCall M)) : TurnMachine M :=
  m.start (.waitingTools · calls) (.toolCalls · calls)

def startExec (language code : String) (driverState : M.DriverState) : TurnMachine M :=
  m.start (.waitingExec · language code driverState) (.execCode · language code)

def requestCheckpoint (checkpoint : CheckpointKind) (onEmpty : CheckpointResumeAction M) :
    TurnMachine M :=
  m.start (.waitingCheckpoint · checkpoint onEmpty) (.checkpoint · checkpoint)

def nextSyntheticId (scope : String) : String × TurnMachine M :=
  ("m_sansio_" ++ toString m.protocolRunOffset ++ "_" ++ scope ++ "_" ++
      toString m.nextSyntheticMessageId,
    { m with nextSyntheticMessageId := m.nextSyntheticMessageId + 1 })

def turnLimitFinalToSchedule : Option Nat :=
  m.termination.turnLimitFinalToSchedule m.protocolIteration m.protocolRunOffset
    m.config.maxTurns

/-- The machine, and whether the final message was scheduled. -/
def scheduleTurnLimitFinal (message : Message) : Bool × TurnMachine M :=
  match m.turnLimitFinalToSchedule with
  | none => (false, m)
  | some _ =>
    (true, { m with
      termination := m.termination.markTurnLimitFinalScheduled
      messages := m.messages ++ [message] })

def scheduleConfiguredTurnLimitFinal : TurnMachine M :=
  match m.turnLimitFinalToSchedule with
  | none => m
  | some maxTurns =>
    let (messageId, m) := m.nextSyntheticId "turn_limit"
    { m with
      termination := m.termination.markTurnLimitFinalScheduled
      messages := m.messages ++ [m.config.turnLimitFinalMessage messageId maxTurns] }

def appendEvent : SessionEventRecord M → TurnMachine M
  | .conversation record =>
    { m with
      events := m.events ++ [.conversation record]
      messages := m.messages ++ [record.toMessage] }
  | .protocol event => { m with events := m.events ++ [.protocol event] }

def flushProgress (progressDirty : Bool) (m : TurnMachine M) : TurnMachine M :=
  if progressDirty then m.emitProgress else m

/-- The actions in order, up to and including the first `finish`. -/
def applyActionsFrom (progressDirty : Bool) : TurnMachine M → List (DriverAction M) →
    TurnMachine M
  | m, [] => flushProgress progressDirty m
  | m, .emit event :: actions => applyActionsFrom progressDirty (m.emit event) actions
  | m, .appendEvents events :: actions =>
    if events.isEmpty then applyActionsFrom progressDirty m actions
    else applyActionsFrom true (events.foldl appendEvent m) actions
  | m, .startLlm request driverState :: actions =>
    applyActionsFrom progressDirty (m.startLlmRequest request driverState) actions
  | m, .startTools calls :: actions =>
    applyActionsFrom progressDirty (m.startToolCalls calls) actions
  | m, .startExec language code driverState :: actions =>
    applyActionsFrom progressDirty (m.startExec language code driverState) actions
  | m, .startCheckpoint checkpoint onEmpty :: actions =>
    applyActionsFrom progressDirty (m.requestCheckpoint checkpoint onEmpty) actions
  | m, .advanceProtocolIteration :: actions =>
    applyActionsFrom true
      { m with
        protocolIteration := m.protocolIteration + 1
        syncedProtocolIteration := none } actions
  | m, .scheduleTurnLimitFinal message :: actions =>
    applyActionsFrom (progressDirty || (m.scheduleTurnLimitFinal message).1)
      (m.scheduleTurnLimitFinal message).2 actions
  | m, .finish outcome :: _ => (flushProgress progressDirty m).finish outcome

def applyActions (actions : List (DriverAction M)) : TurnMachine M :=
  applyActionsFrom false m actions

def prepareProtocolIteration : TurnMachine M :=
  if m.config.syncExecutionEnvironment ∧
      m.syncedProtocolIteration ≠ some m.protocolIteration then
    m.startSync true
  else
    m.applyActions (m.config.protocolDriver.prepareProtocolIteration m.driverContext)

def prepareProtocol : TurnMachine M :=
  if m.config.syncExecutionEnvironment then m.startSync false
  else m.prepareProtocolIteration

def popFront : Option (Effect M) × TurnMachine M :=
  match m.pendingEffects with
  | [] => (none, m)
  | effect :: rest => (some effect, { m with pendingEffects := rest })

/-- The tail of a poll, reached when nothing is queued or due again. -/
def prepare : Option (Effect M) × TurnMachine M :=
  match m.state with
  | .preparingProtocol => m.prepareProtocol.popFront
  | .prepareIteration => m.prepareProtocolIteration.popFront
  | _ => (none, m)

def pollEffect : Option (Effect M) × TurnMachine M :=
  match m.pendingEffects with
  | effect :: rest => (some effect, { m with pendingEffects := rest })
  | [] =>
    if m.activeEffectRedelivery then
      match m.state.outstandingEffect with
      | some effect => (some effect, { m with activeEffectRedelivery := false })
      | none => { m with activeEffectRedelivery := false }.prepare
    else m.prepare

def acceptSync (update : Option (ExecutionEnvironmentSync M)) : TurnMachine M :=
  { m with
    config := match update with
      | some update =>
        { m.config with
          systemPrompt := update.systemPrompt
          toolSpecs := update.toolSpecs }
      | none => m.config
    syncedProtocolIteration := some m.protocolIteration
    state := .prepareIteration }

variable (id : EffectId)

def handleExecutionEnvironmentSynced
    (result : Except String (Option (ExecutionEnvironmentSync M))) :
    TurnMachine M :=
  match m.state with
  | .waitingExecutionEnvironment effectId _ =>
    if effectId ≠ id then m
    else match result with
      | .ok update => m.acceptSync update
      | .error error =>
        (m.withState .finished).failTurn
          (makeErrorEvent "execution_environment" (some "reconfigure_failed")
            ("Failed to refresh execution environment: " ++ error) (some error))
  | _ => m

def checkpointMessage (messageId : String) (transient : Bool) (message : PluginMessage) :
    Message where
  id := messageId
  role := message.role
  parts := reassignPartIds messageId
    (if message.parts.isEmpty then
      [Part.plain (partId messageId 0) .text message.content]
    else message.parts)
  origin := message.origin.orElse fun _ => some (.plugin "plugin" transient)

def fromUserOrSystem (message : PluginMessage) : Bool :=
  match message.role with
  | .user => true
  | .system => true
  | _ => false

def appendCheckpointMessage (transient : Bool) (m : TurnMachine M)
    (message : PluginMessage) : TurnMachine M :=
  let (messageId, m) := m.nextSyntheticId "checkpoint"
  { m with messages := m.messages ++ [checkpointMessage messageId transient message] }

def appendCheckpointMessages (pluginMessages : List PluginMessage) (transient : Bool) :
    TurnMachine M :=
  (pluginMessages.filter fromUserOrSystem).foldl (appendCheckpointMessage transient) m

/-- A cause is taken in once: a later one of the same id is passed over. -/
def appendTurnCause (cause : TurnCause) : TurnMachine M :=
  if m.turnCauses.any fun known => known.id == cause.id then m
  else
    { m with
      messages := m.messages ++ [cause.toEventMessage]
      turnCauses := m.turnCauses ++ [cause] }

def appendTurnCauses (causes : List TurnCause) : TurnMachine M :=
  causes.foldl appendTurnCause m

variable (delivery : CheckpointDelivery)

/-- What a checkpoint delivered, taken in. -/
def acceptDelivery : TurnMachine M :=
  ((m.appendCheckpointMessages delivery.messages false).appendCheckpointMessages
    delivery.transientMessages true).appendTurnCauses delivery.turnCauses

/-- How the turn goes on after a delivery was taken in. One before completion
counts as another iteration, and ends the turn in the grace iteration. -/
def resumeAfterDelivery : CheckpointKind → TurnMachine M
  | .beforeCompletion =>
    let m := m.countIteration
    if m.termination.shouldForceExitAfterGraceTurn then
      m.emitProgress.finish (.stopped .maxTurns)
    else
      (m.scheduleConfiguredTurnLimitFinal.withState .prepareIteration).emitProgress
  | .afterWork => (m.withState .prepareIteration).emitProgress

def handleCheckpoint : TurnMachine M :=
  match m.state with
  | .waitingCheckpoint effectId checkpoint onEmpty =>
    if effectId ≠ id then m
    else if delivery.isEmpty then
      match onEmpty with
      | .prepareIteration => m.withState .prepareIteration
      | .finish outcome => (m.withState .finished).finish outcome
    else
      ((m.withState .finished).acceptDelivery delivery).resumeAfterDelivery checkpoint
  | _ => m

def tokenUsageFromLlmUsage (usage : LlmUsage) : TokenUsage := usage

def i64Max : Int := 2 ^ 63 - 1

def i64Min : Int := -2 ^ 63

def saturatingAddI64 (a b : Int) : Int := max i64Min (min (a + b) i64Max)

def usizeMax : Nat := 2 ^ 64 - 1

def contextWindowDiagnostic : String :=
  "Model produced no output because the prompt reached the configured context window."

variable (response : LlmResponse M)

variable (maxContextTokens : Option Nat)

/-- No output at all, and a prompt that fills the window to 95 percent. -/
def overflowsContextWindow : Bool :=
  decide (response.terminalReason = .outputLimit) &&
    decide (response.usage.outputTokens = 0) &&
    maxContextTokens.any fun window =>
      decide (0 < window) &&
        decide (min (window * 95) usizeMax / 100 ≤
          (max (saturatingAddI64 response.usage.inputTokens.toInt
            response.usage.cachedInputTokens.toInt) 0).toNat)

def refineTerminalReasonForContextWindow : LlmResponse M :=
  if overflowsContextWindow response maxContextTokens then
    { response with
      terminalReason := .contextOverflow
      terminalDiagnostic := some contextWindowDiagnostic }
  else response

def llmDebugPart : LlmOutputPart → Option LlmDebugPart
  | .text text _ => if text = "" then none else some (.text text)
  | .reasoning text replay =>
    some (.reasoning (replay.bind ProviderReasoningReplay.itemId)
      (replay.map ProviderReasoningReplay.summary) text
      (replay.any fun r => r.encryptedContent.isSome || r.signature.isSome)
      (replay.any ProviderReasoningReplay.redacted))
  | .toolCall callId toolName inputJson replay =>
    some (.toolCall callId toolName inputJson (replay.bind ProviderReplayMeta.itemId)
      (replay.any fun r => r.opaqueState.isSome))

def llmResponseDebugParts : Option (List LlmDebugPart) :=
  let parts := response.parts.filterMap llmDebugPart
  if parts.isEmpty then none else some parts

def countUsage (usage : TokenUsage) : TurnMachine M :=
  { m with cumulativeUsage := m.cumulativeUsage.add usage }

def recordLlmUsage : TurnMachine M :=
  let usage := tokenUsageFromLlmUsage response.usage
  let m := m.countUsage usage
  let m := m.emit (.tokenUsage m.protocolIteration usage m.cumulativeUsage)
  if m.config.emitLlmTrace then
    m.push (.log (.llmDebug m.config.sessionId m.protocolIteration usage
      response.providerUsage response.requestBody response.fullText
      (llmResponseDebugParts response)))
  else m

def recordLlmError (error : LlmCallError) : TurnMachine M :=
  if m.config.emitLlmTrace then
    m.push (.log (.llmError m.config.sessionId m.protocolIteration error.requestBody
      error.message error.retryable error.raw error.code error.terminalReason))
  else m

def emitLlmError (error : LlmCallError) : TurnMachine M :=
  ((m.recordLlmError error).emit
    (.error ("LLM error: " ++ error.message)
      (some (makeErrorEnvelope "llm_provider" error.code (some error.terminalReason)
        ("LLM error: " ++ error.message) error.raw)))).finish (.stopped .providerError)

/-- The outcome of a response that ends the turn by its terminal reason. -/
def terminalOutcome : LlmTerminalReason → Option (TurnOutcome M)
  | .outputLimit => some (.stopped .incomplete)
  | .contextOverflow => some (.stopped .providerError)
  | .contentFilter => some (.stopped .providerError)
  | .providerError => some (.stopped .providerError)
  | .cancelled => some (.stopped .cancelled)
  | .stop => none
  | .toolUse => none
  | .unknown => none

def emitTerminalLlmResponse (textStreamed : Bool) (outcome : TurnOutcome M) : TurnMachine M :=
  let m := if !textStreamed && response.fullText ≠ "" then
    m.emit (.textDelta response.fullText) else m
  let m := m.emit (.llmResponse m.protocolIteration response.fullText 0)
  let reason := response.terminalReason
  let diagnostic := response.terminalDiagnostic.getD
    ("Model call ended with terminal reason " ++ reason.debug ++ ".")
  (m.emit (.error diagnostic
    (some (makeErrorEnvelope "llm_provider" (some reason.code) (some reason) diagnostic
      none)))).finish outcome

/-- The success of a call the machine was waiting for. -/
def acceptLlmResponse (waiting : WaitingLlmState M) (response : LlmResponse M)
    (textStreamed : Bool) :
    TurnMachine M :=
  let response := refineTerminalReasonForContextWindow response m.config.maxContextTokens
  let m := m.recordLlmUsage response
  match terminalOutcome response.terminalReason with
  | some outcome => m.emitTerminalLlmResponse response textStreamed outcome
  | none =>
    m.applyActions
      (m.config.protocolDriver.handleLlmSuccess m.driverContext waiting response textStreamed)

def handleLlmComplete (result : Except LlmCallError (LlmResponse M)) (textStreamed : Bool) :
    TurnMachine M :=
  match m.state with
  | .waitingLlm effectId request driverState =>
    if effectId ≠ id then m
    else match result with
      | .error error => (m.withState .finished).emitLlmError error
      | .ok response =>
        (m.withState .finished).acceptLlmResponse
          { request := request, driverState := driverState } response textStreamed
  | _ => m

def emitToolCall (outcome : CompletedToolCall M) : TurnMachine M :=
  m.emit (.toolCall (some outcome.callId) outcome.toolName outcome.args outcome.output
    outcome.durationMs)

variable (completed : List (CompletedToolCall M))

def acceptToolResults : TurnMachine M :=
  let m := completed.foldl emitToolCall m
  m.applyActions (m.config.protocolDriver.handleToolResults m.driverContext completed)

def handleToolResults : TurnMachine M :=
  match m.state with
  | .waitingTools effectId _ =>
    if effectId ≠ id then m
    else (m.withState .finished).acceptToolResults completed
  | _ => m

def handleExecResult (id : EffectId) (result : Except String M.ExecResponse) : TurnMachine M :=
  match m.state with
  | .waitingExec effectId _ _ driverState =>
    if effectId ≠ id then m
    else
      let m := m.withState .finished
      m.applyActions
        (m.config.protocolDriver.handleExecResult m.driverContext
          { driverState := driverState } result)
  | _ => m

/-- The response handlers, by the kind of the response. -/
def answer : Response M → TurnMachine M
  | .executionEnvironmentSynced id result => m.handleExecutionEnvironmentSynced id result
  | .llmComplete id result textStreamed => m.handleLlmComplete id result textStreamed
  | .toolResults id results => m.handleToolResults id results
  | .execResult id result => m.handleExecResult id result
  | .checkpoint id delivery => m.handleCheckpoint id delivery

def handleResponse (response : Response M) : TurnMachine M :=
  { m with activeEffectRedelivery := false }.answer response

end TurnMachine

end TurnMachines
