import Lash.TurnLimits

/-!
# The footing of a turn

What a turn has come to, whatever its driver: where it stands, and which model
calls, code blocks and outcomes its effects were. Every operation of the machine
is followed on the footing alone, so that the runs of one driver are a small
transition system in which its decisions are all that is left open.
-/

namespace TurnFootings

open TurnInputs TurnProtocols TurnMachines TurnMachine MachineSteps MachineRuns EffectOrder List
open StandardRuns (pollEntry responseEntry handleResponse_undue emitted_pollEntry
  emitted_responseEntry pollEffect_cases)

variable {M : TurnProtocol} {m m' : TurnMachine M}

inductive Mark (M : TurnProtocol) where
  | asked (request : M.LlmRequest)
  | executed (code : String)
  | ended (outcome : TurnOutcome M)

def markOfEvent : SessionEvent M → Option (Mark M)
  | .turnOutcome outcome => some (.ended outcome)
  | _ => none

def markOf : Effect M → Option (Mark M)
  | .llmCall _ request => some (.asked request)
  | .execCode _ _ code => some (.executed code)
  | .emit event => markOfEvent event
  | _ => none

variable (effects : List (Effect M))

def marksOf : List (Mark M) := effects.filterMap markOf

@[simp] theorem marksOf_append (xs ys : List (Effect M)) :
    marksOf (xs ++ ys) = marksOf xs ++ marksOf ys :=
  List.filterMap_append

@[simp] theorem marksOf_nil : marksOf ([] : List (Effect M)) = [] := rfl

def isAsked : Mark M → Bool
  | .asked _ => true
  | _ => false

def isExecuted : Mark M → Bool
  | .executed _ => true
  | _ => false

def isLlmCall : Effect M → Bool
  | .llmCall _ _ => true
  | _ => false

def isExecCode : Effect M → Bool
  | .execCode _ _ _ => true
  | _ => false

/-- Counting marks is counting effects, for marks that one kind of effect leaves. -/
theorem countP_marksOf {mark : Mark M → Bool} {kind : Effect M → Bool}
    (same : ∀ effect, kind effect = (markOf effect).any mark) (effects : List (Effect M)) :
    (marksOf effects).countP mark = effects.countP kind := by
  induction effects with
  | nil => rfl
  | cons effect effects ih =>
    have hsame := same effect
    unfold marksOf at ih ⊢
    cases h : markOf effect with
    | none =>
      rw [h] at hsame
      rw [filterMap_cons_none h, ih, countP_cons_of_neg (by simp [hsame])]
    | some found =>
      rw [h] at hsame
      rw [filterMap_cons_some h, countP_cons, countP_cons, ih, hsame]
      rfl

theorem countP_isAsked : (marksOf effects).countP isAsked = effects.countP isLlmCall := by
  refine countP_marksOf (fun effect => ?_) effects
  cases effect with
  | emit event => cases event <;> rfl
  | _ => rfl

theorem countP_isExecuted : (marksOf effects).countP isExecuted = effects.countP isExecCode := by
  refine countP_marksOf (fun effect => ?_) effects
  cases effect with
  | emit event => cases event <;> rfl
  | _ => rfl

structure Footing (M : TurnProtocol) where
  state : MachineState M
  nextEffectId : EffectId
  marks : List (Mark M)
  protocolIteration : Nat
  termination : TurnTerminationPolicyState
  syncedProtocolIteration : Option Nat

def footing (m : TurnMachine M) : Footing M where
  state := m.state
  nextEffectId := m.nextEffectId
  marks := marksOf m.pendingEffects
  protocolIteration := m.protocolIteration
  termination := m.termination
  syncedProtocolIteration := m.syncedProtocolIteration

namespace Footing

variable {f f' : Footing M}

def withState (f : Footing M) (state : MachineState M) : Footing M := { f with state := state }

def mark (f : Footing M) (marks : List (Mark M)) : Footing M :=
  { f with marks := f.marks ++ marks }

/-- The footing behind what was marked earlier. -/
def after (earlier : List (Mark M)) (f : Footing M) : Footing M :=
  { f with marks := earlier ++ f.marks }

def start (f : Footing M) (state : EffectId → MachineState M) (marks : List (Mark M)) :
    Footing M :=
  { f with
    state := state f.nextEffectId
    nextEffectId := f.nextEffectId + 1
    marks := f.marks ++ marks }

def close (f : Footing M) (outcome : TurnOutcome M) : Footing M :=
  { f with
    state := .finished
    marks := f.marks ++ [.ended outcome] }

def turnLimitFinalToSchedule (f : Footing M) (offset : Nat) (maxTurns : Option Nat) : Option Nat :=
  f.termination.turnLimitFinalToSchedule f.protocolIteration offset maxTurns

variable (offset : Nat)

variable (maxTurns : Option Nat)

/-- An action other than `finish`, carried out on a footing. -/
def act (f : Footing M) : DriverAction M → Footing M
  | .emit event => f.mark (markOfEvent event).toList
  | .appendEvents _ => f
  | .startLlm request driverState => f.start (.waitingLlm · request driverState) [.asked request]
  | .startTools calls => f.start (.waitingTools · calls) []
  | .startExec language code driverState =>
    f.start (.waitingExec · language code driverState) [.executed code]
  | .startCheckpoint checkpoint onEmpty => f.start (.waitingCheckpoint · checkpoint onEmpty) []
  | .advanceProtocolIteration =>
    { f with
      protocolIteration := f.protocolIteration + 1
      syncedProtocolIteration := none }
  | .scheduleTurnLimitFinal _ =>
    if (f.turnLimitFinalToSchedule offset maxTurns).isSome then { f with termination := ⟨true⟩ }
    else f
  | .finish _ => f

/-- The actions in order, up to and including the first `finish`. -/
def carryOut (offset : Nat) (maxTurns : Option Nat) : Footing M → List (DriverAction M) → Footing M
  | f, [] => f
  | f, .finish outcome :: _ => f.close outcome
  | f, action :: actions => (f.act offset maxTurns action).carryOut offset maxTurns actions

theorem carryOut_cons {action : DriverAction M} (hopen : isFinish action = false) (offset : Nat)
    (maxTurns : Option Nat) (actions : List (DriverAction M)) :
    f.carryOut offset maxTurns (action :: actions) =
      (f.act offset maxTurns action).carryOut offset maxTurns actions := by
  cases action with
  | finish outcome => cases hopen
  | _ => rfl

theorem act_after (earlier : List (Mark M)) (action : DriverAction M) :
    (f.after earlier).act offset maxTurns action =
      (f.act offset maxTurns action).after earlier := by
  cases action with
  | scheduleTurnLimitFinal message =>
    simp only [act]
    have hsame : (f.after earlier).turnLimitFinalToSchedule offset maxTurns =
        f.turnLimitFinalToSchedule offset maxTurns := rfl
    rw [hsame]
    split <;> rfl
  | emit | startLlm | startTools | startExec | startCheckpoint =>
    simp [act, start, mark, after, append_assoc]
  | _ => rfl

/-- Nothing reads what was marked earlier. -/
theorem carryOut_after (earlier : List (Mark M)) (actions : List (DriverAction M)) :
    (f.after earlier).carryOut offset maxTurns actions =
      (f.carryOut offset maxTurns actions).after earlier := by
  induction actions generalizing f with
  | nil => rfl
  | cons action actions ih =>
    cases hopen : isFinish action with
    | false => rw [carryOut_cons hopen, carryOut_cons hopen, act_after, ih]
    | true =>
      cases action <;> simp only [isFinish, Bool.false_eq_true] at hopen
      simp [carryOut, close, after, append_assoc]

end Footing

open Footing

section Operations

theorem footing_push (effect : Effect M) :
    footing (m.push effect) = (footing m).mark (markOf effect).toList := by
  cases h : markOf effect <;> simp [footing, push, Footing.mark, marksOf, h]

theorem footing_quiet {effect : Effect M} (quiet : markOf effect = none) :
    footing (m.push effect) = footing m := by
  rw [footing_push, quiet]
  simp [Footing.mark]

theorem footing_emit (event : SessionEvent M) :
    footing (m.emit event) = (footing m).mark (markOfEvent event).toList :=
  footing_push _

@[simp] theorem footing_emitProgress : footing m.emitProgress = footing m := by
  simp [footing, emitProgress, nextEventDelta, push, marksOf, markOf]

@[simp] theorem footing_flushProgress (dirty : Bool) :
    footing (flushProgress dirty m) = footing m := by
  cases dirty with
  | false => rfl
  | true => exact footing_emitProgress

theorem footing_finish (outcome : TurnOutcome M) :
    footing (m.finish outcome) = (footing m).close outcome := by
  rw [finish_eq]
  simp [footing, finishEffects, marksOf, markOf, markOfEvent, close]

theorem footing_start {state : EffectId → MachineState M} {effect : EffectId → Effect M} :
    footing (m.start state effect) =
      (footing m).start state (markOf (effect m.nextEffectId)).toList := by
  cases h : markOf (effect m.nextEffectId) <;>
    simp [footing, TurnMachine.start, push, Footing.start, marksOf, h]

theorem footing_startLlmRequest (request : M.LlmRequest) (driverState : Option M.DriverState) :
    footing (m.startLlmRequest request driverState) =
      (footing m).start (.waitingLlm · request driverState) [.asked request] := by
  unfold startLlmRequest
  rw [footing_start, footing_emit]
  simp [markOfEvent, markOf, Footing.mark, Footing.start]

theorem footing_appendEvents (events : List (SessionEventRecord M)) :
    footing (events.foldl appendEvent m) = footing m :=
  foldl_frame footing (fun m event => by cases event <;> rfl) events m

theorem footing_applyAction (action : DriverAction M) : footing (applyAction m action) =
      (footing m).act m.protocolRunOffset m.config.maxTurns action := by
  cases action with
  | emit event => exact footing_emit event
  | appendEvents events => exact footing_appendEvents events
  | startLlm request driverState => exact footing_startLlmRequest request driverState
  | startTools calls | startExec language code driverState | startCheckpoint checkpoint onEmpty =>
    exact footing_start
  | scheduleTurnLimitFinal message =>
    simp only [applyAction, scheduleTurnLimitFinal, act]
    have hsame : (footing m).turnLimitFinalToSchedule m.protocolRunOffset m.config.maxTurns =
        m.turnLimitFinalToSchedule := rfl
    rw [hsame]
    cases m.turnLimitFinalToSchedule <;> rfl
  | advanceProtocolIteration | finish => rfl

/-- The machine carries the actions out as the footing says. -/
theorem footing_applyActionsFrom (dirty : Bool) (actions : List (DriverAction M)) :
    footing (applyActionsFrom dirty m actions) =
      (footing m).carryOut m.protocolRunOffset m.config.maxTurns actions := by
  induction dirty, m, actions using applyActionsFrom_induct with
  | empty dirty m => exact footing_flushProgress dirty
  | finish dirty m outcome actions =>
    simp only [applyActionsFrom, carryOut]
    rw [footing_finish, footing_flushProgress]
  | other dirty m action actions hopen ih =>
    have hlasting := (advance_applyAction (m := m) action).lasting
    have hoffset : (applyAction m action).protocolRunOffset = m.protocolRunOffset :=
      congrArg Prod.snd hlasting
    have hturns : (applyAction m action).config.maxTurns = m.config.maxTurns :=
      congrArg (fun kept => kept.1.maxTurns) hlasting
    rw [applyActionsFrom_cons dirty hopen, ih, carryOut_cons hopen, footing_applyAction,
      hoffset, hturns]

theorem footing_acceptDelivery (delivery : CheckpointDelivery) :
    footing (m.acceptDelivery delivery) = footing m := by
  have hmessages (m : TurnMachine M) (messages : List PluginMessage) (transient : Bool) :
      footing (m.appendCheckpointMessages messages transient) = footing m :=
    @foldl_frame M _ _ (appendCheckpointMessage transient) footing (fun _ _ => rfl) _ m
  have hcause (m : TurnMachine M) (cause : TurnCause) :
      footing (m.appendTurnCause cause) = footing m := by
    unfold appendTurnCause
    split <;> rfl
  calc footing (m.acceptDelivery delivery) = _ := foldl_frame footing hcause _ _
    _ = _ := hmessages _ _ _
    _ = footing m := hmessages _ _ _

theorem footing_recordLlmUsage (response : LlmResponse M) :
    footing (m.recordLlmUsage response) = footing m := by
  simp only [recordLlmUsage]
  split
  · rw [footing_quiet rfl, footing_emit]
    simp [markOfEvent, Footing.mark, footing, countUsage]
  · rw [footing_emit]
    simp [markOfEvent, Footing.mark, footing, countUsage]

theorem footing_emitLlmError (error : LlmCallError) :
    footing (m.emitLlmError error) = (footing m).close (.stopped .providerError) := by
  have hrecorded : footing (m.recordLlmError error) = footing m := by
    unfold recordLlmError
    split
    · exact footing_quiet rfl
    · rfl
  have herror (message : String) (envelope : Option ErrorEnvelope) :
      footing ((m.recordLlmError error).emit (.error message envelope)) = footing m :=
    (footing_quiet rfl).trans hrecorded
  rw [emitLlmError, footing_finish, herror]

theorem footing_emitTerminalLlmResponse (response : LlmResponse M) (textStreamed : Bool)
    (outcome : TurnOutcome M) :
    footing (m.emitTerminalLlmResponse response textStreamed outcome) =
      (footing m).close outcome := by
  simp only [emitTerminalLlmResponse]
  rw [footing_finish]
  congr 1
  split
  · exact ((footing_quiet rfl).trans (footing_quiet rfl)).trans (footing_quiet rfl)
  · exact (footing_quiet rfl).trans (footing_quiet rfl)

end Operations

/-- A driver's actions, carried out by a machine that has taken a response in. -/
def decided (m : TurnMachine M) (f : Footing M) (actions : List (DriverAction M)) : Footing M :=
  (f.withState .finished).carryOut m.protocolRunOffset m.config.maxTurns actions

/-- The notice is due once the iteration after this one would be past the limit. -/
def lastIteration (m : TurnMachine M) (f : Footing M) : Bool :=
  (f.termination.turnLimitFinalToSchedule (f.protocolIteration + 1) m.protocolRunOffset
    m.config.maxTurns).isSome

/-- What the answer to an awaited response makes of the footing `f` of the machine. -/
inductive Answers (m : TurnMachine M) (f : Footing M) : Response M → Footing M → Prop
  | stopping {response : Response M} (stop : TurnStop M) :
      Answers m f response (f.close (.stopped stop))
  | synced {id : EffectId} {update : Bool} (result : Option (ExecutionEnvironmentSync M))
      (waiting : m.state = .waitingExecutionEnvironment id update) :
      Answers m f (.executionEnvironmentSynced id (.ok result))
        { f with
          state := .prepareIteration
          syncedProtocolIteration := some f.protocolIteration }
  | replied {id : EffectId} {request : M.LlmRequest} {driverState : Option M.DriverState}
      (response refined : LlmResponse M) (textStreamed : Bool)
      (waiting : m.state = .waitingLlm id request driverState) :
      Answers m f (.llmComplete id (.ok response) textStreamed)
        (decided m f (m.config.protocolDriver.handleLlmSuccess m.driverContext
          { request := request, driverState := driverState } refined textStreamed))
  | worked {id : EffectId} {calls : List (PendingToolCall M)}
      (completed : List (CompletedToolCall M)) (waiting : m.state = .waitingTools id calls) :
      Answers m f (.toolResults id completed)
        (decided m f (m.config.protocolDriver.handleToolResults m.driverContext completed))
  | ran {id : EffectId} {language code : String} {driverState : M.DriverState}
      (result : Except String M.ExecResponse)
      (waiting : m.state = .waitingExec id language code driverState) :
      Answers m f (.execResult id result)
        (decided m f (m.config.protocolDriver.handleExecResult m.driverContext
          { driverState := driverState } result))
  | completed {id : EffectId} {checkpoint : CheckpointKind} {outcome : TurnOutcome M}
      (delivery : CheckpointDelivery) (nothing : delivery.isEmpty = true)
      (waiting : m.state = .waitingCheckpoint id checkpoint (.finish outcome)) :
      Answers m f (.checkpoint id delivery) (f.close outcome)
  | resumed {id : EffectId} {checkpoint : CheckpointKind} {onEmpty : CheckpointResumeAction M}
      (delivery : CheckpointDelivery)
      (waiting : m.state = .waitingCheckpoint id checkpoint onEmpty)
      (goes : checkpoint = .afterWork ∨ onEmpty = .prepareIteration) :
      Answers m f (.checkpoint id delivery) (f.withState .prepareIteration)
  | exhausted {id : EffectId} {onEmpty : CheckpointResumeAction M}
      (delivery : CheckpointDelivery) (delivered : delivery.isEmpty = false)
      (waiting : m.state = .waitingCheckpoint id .beforeCompletion onEmpty)
      (grace : f.termination.turnLimitFinalScheduled = true) :
      Answers m f (.checkpoint id delivery)
        ({ f with protocolIteration := f.protocolIteration + 1 }.close (.stopped .maxTurns))
  | continued {id : EffectId} {onEmpty : CheckpointResumeAction M}
      (delivery : CheckpointDelivery) (delivered : delivery.isEmpty = false)
      (waiting : m.state = .waitingCheckpoint id .beforeCompletion onEmpty)
      (open_ : f.termination.turnLimitFinalScheduled = false) :
      Answers m f (.checkpoint id delivery)
        { f with
          state := .prepareIteration
          protocolIteration := f.protocolIteration + 1
          termination := ⟨lastIteration m f⟩ }

/-- What a poll of an idle machine makes of its footing. -/
inductive Prepares (m : TurnMachine M) (f : Footing M) : Footing M → Prop
  | syncing {update : Bool}
      (due : m.state = .preparingProtocol ∨
        f.syncedProtocolIteration ≠ some f.protocolIteration) :
      Prepares m f (f.start (.waitingExecutionEnvironment · update) [])
  | asking :
      Prepares m f (f.carryOut m.protocolRunOffset m.config.maxTurns
        (m.config.protocolDriver.prepareProtocolIteration m.driverContext))

section Answered

theorem decided_after (earlier : List (Mark M)) (f : Footing M) (actions : List (DriverAction M)) :
    decided m (f.after earlier) actions = (decided m f actions).after earlier :=
  carryOut_after (f := f.withState .finished) m.protocolRunOffset m.config.maxTurns earlier actions

theorem close_after (earlier : List (Mark M)) (f : Footing M) (outcome : TurnOutcome M) :
    (f.after earlier).close outcome = (f.close outcome).after earlier := by
  simp [Footing.close, Footing.after]

variable {response : Response M}

theorem Answers.after {f f' : Footing M} (done : Answers m f response f')
    (earlier : List (Mark M)) :
    Answers m (f.after earlier) response (f'.after earlier) := by
  cases done with
  | stopping stop => exact close_after earlier f _ ▸ .stopping stop
  | synced result waiting => exact .synced result waiting
  | replied response refined textStreamed waiting =>
    exact decided_after earlier f _ ▸ .replied response refined textStreamed waiting
  | worked completed waiting => exact decided_after earlier f _ ▸ .worked completed waiting
  | ran result waiting => exact decided_after earlier f _ ▸ .ran result waiting
  | completed delivery nothing waiting =>
    exact close_after earlier f _ ▸ .completed delivery nothing waiting
  | resumed delivery waiting goes => exact .resumed delivery waiting goes
  | exhausted delivery delivered waiting grace =>
    have hclose := close_after earlier
      { f with protocolIteration := f.protocolIteration + 1 } (.stopped .maxTurns)
    exact hclose ▸ .exhausted delivery delivered waiting grace
  | continued delivery delivered waiting open_ => exact .continued delivery delivered waiting open_

theorem Prepares.after {f f' : Footing M} (done : Prepares m f f') (earlier : List (Mark M)) :
    Prepares m (f.after earlier) (f'.after earlier) := by
  cases done with
  | @syncing update due =>
    have hstart : (f.start (.waitingExecutionEnvironment · update) []).after earlier =
        (f.after earlier).start (.waitingExecutionEnvironment · update) [] := by
      simp [Footing.start, Footing.after]
    exact hstart ▸ .syncing due
  | asking => exact carryOut_after _ _ earlier _ ▸ .asking

theorem terminalOutcome_stopped {reason : LlmTerminalReason} {outcome : TurnOutcome M}
    (ends : terminalOutcome reason = some outcome) : ∃ stop, outcome = .stopped stop := by
  cases reason <;> simp only [terminalOutcome, Option.some.injEq, reduceCtorEq] at ends <;>
    exact ⟨_, ends.symm⟩

variable {id : EffectId}

theorem answers_sync {update : Bool} (waiting : m.state = .waitingExecutionEnvironment id update)
    (result : Except String (Option (ExecutionEnvironmentSync M))) :
    Answers m (footing m) (.executionEnvironmentSynced id result)
      (footing (m.handleExecutionEnvironmentSynced id result)) := by
  simp only [handleExecutionEnvironmentSynced, waiting, ne_eq, not_true_eq_false, if_false]
  cases result with
  | ok update => exact .synced update waiting
  | error error =>
    simp only [failTurn]
    rw [footing_finish, show footing ((m.withState .finished).emit _) =
      footing (m.withState .finished) from footing_quiet rfl]
    exact .stopping .runtimeError

theorem answers_llm {request : M.LlmRequest} {driverState : Option M.DriverState}
    (waiting : m.state = .waitingLlm id request driverState)
    (result : Except LlmCallError (LlmResponse M)) (textStreamed : Bool) :
    Answers m (footing m) (.llmComplete id result textStreamed)
      (footing (m.handleLlmComplete id result textStreamed)) := by
  simp only [handleLlmComplete, waiting, ne_eq, not_true_eq_false, if_false]
  cases result with
  | error error =>
    rw [footing_emitLlmError]
    exact .stopping .providerError
  | ok response =>
    simp only [acceptLlmResponse]
    generalize refineTerminalReasonForContextWindow response
      (m.withState .finished).config.maxContextTokens = refined
    have hrecorded := footing_recordLlmUsage (m := m.withState .finished) refined
    have hcontext : ((m.withState .finished).recordLlmUsage refined).driverContext =
        m.driverContext := by
      simp only [recordLlmUsage]
      split <;> rfl
    have hfixed : ((m.withState .finished).recordLlmUsage refined).config = m.config ∧
        ((m.withState .finished).recordLlmUsage refined).protocolRunOffset =
          m.protocolRunOffset := by
      simp only [recordLlmUsage]
      split <;> exact ⟨rfl, rfl⟩
    generalize (m.withState .finished).recordLlmUsage refined = kept at hrecorded hcontext hfixed
    cases hends : terminalOutcome (M := M) refined.terminalReason with
    | some outcome =>
      obtain ⟨stop, rfl⟩ := terminalOutcome_stopped hends
      simp only
      rw [footing_emitTerminalLlmResponse, hrecorded]
      exact .stopping stop
    | none =>
      simp only [applyActions]
      rw [footing_applyActionsFrom, hrecorded, hcontext, hfixed.1, hfixed.2]
      exact .replied response refined textStreamed waiting

theorem answers_tools {calls : List (PendingToolCall M)}
    (waiting : m.state = .waitingTools id calls) (completed : List (CompletedToolCall M)) :
    Answers m (footing m) (.toolResults id completed)
      (footing (m.handleToolResults id completed)) := by
  simp only [handleToolResults, waiting, ne_eq, not_true_eq_false, if_false, acceptToolResults]
  have hfooting : footing (completed.foldl emitToolCall (m.withState .finished)) =
      footing (m.withState .finished) :=
    @foldl_frame M _ _ emitToolCall footing (fun _ _ => footing_quiet rfl) completed _
  have hcontext : (completed.foldl emitToolCall (m.withState .finished)).driverContext =
      m.driverContext :=
    @foldl_frame M _ _ emitToolCall driverContext (fun _ _ => rfl) completed _
  have hconfig : (completed.foldl emitToolCall (m.withState .finished)).config = m.config :=
    @foldl_frame M _ _ emitToolCall config (fun _ _ => rfl) completed _
  have hoffset : (completed.foldl emitToolCall (m.withState .finished)).protocolRunOffset =
      m.protocolRunOffset :=
    @foldl_frame M _ _ emitToolCall protocolRunOffset (fun _ _ => rfl) completed _
  simp only [applyActions]
  rw [footing_applyActionsFrom, hfooting, hcontext, hconfig, hoffset]
  exact .worked completed waiting

theorem answers_exec {language code : String} {driverState : M.DriverState}
    (waiting : m.state = .waitingExec id language code driverState)
    (result : Except String M.ExecResponse) :
    Answers m (footing m) (.execResult id result) (footing (m.handleExecResult id result)) := by
  simp only [handleExecResult, waiting, ne_eq, not_true_eq_false, if_false, applyActions]
  rw [footing_applyActionsFrom]
  exact .ran result waiting

theorem footing_resumeAfterDelivery (m : TurnMachine M) :
    footing (m.resumeAfterDelivery .beforeCompletion) =
      if m.termination.turnLimitFinalScheduled then
        { footing m with protocolIteration := m.protocolIteration + 1 }.close (.stopped .maxTurns)
      else
        { footing m with
          state := .prepareIteration
          protocolIteration := m.protocolIteration + 1
          termination := ⟨lastIteration m (footing m)⟩ } := by
  simp only [resumeAfterDelivery]
  have hforced : m.countIteration.termination.shouldForceExitAfterGraceTurn =
      m.termination.turnLimitFinalScheduled := rfl
  rw [hforced]
  split
  · rw [footing_finish, footing_emitProgress]
    rfl
  · rename_i hopen
    rw [footing_emitProgress]
    have hlast : lastIteration m (footing m) =
        m.countIteration.turnLimitFinalToSchedule.isSome := rfl
    rw [hlast]
    unfold scheduleConfiguredTurnLimitFinal
    cases hdue : m.countIteration.turnLimitFinalToSchedule with
    | some maxTurns => rfl
    | none =>
      have htermination : m.termination = ⟨false⟩ :=
        congrArg TurnTerminationPolicyState.mk (Bool.eq_false_iff.mpr hopen)
      simp [footing, TurnMachine.withState, countIteration, htermination]

theorem answers_checkpoint {checkpoint : CheckpointKind} {onEmpty : CheckpointResumeAction M}
    (waiting : m.state = .waitingCheckpoint id checkpoint onEmpty) (delivery : CheckpointDelivery) :
    Answers m (footing m) (.checkpoint id delivery) (footing (m.handleCheckpoint id delivery)) := by
  simp only [handleCheckpoint, waiting, ne_eq, not_true_eq_false, if_false]
  cases hempty : delivery.isEmpty with
  | true =>
    simp only [if_true]
    cases onEmpty with
    | prepareIteration => exact .resumed delivery waiting (.inr rfl)
    | finish outcome =>
      simp only
      rw [footing_finish]
      exact .completed delivery hempty waiting
  | false =>
    simp only [Bool.false_eq_true, if_false]
    have haccepted := footing_acceptDelivery (m := m.withState .finished) delivery
    have hlasting := (advance_acceptDelivery (m := m.withState .finished) delivery).lasting
    generalize (m.withState .finished).acceptDelivery delivery = accepted at haccepted hlasting
    cases checkpoint with
    | afterWork =>
      have hrested : footing (accepted.resumeAfterDelivery .afterWork) =
          (footing accepted).withState .prepareIteration := by
        simp only [resumeAfterDelivery, footing_emitProgress]
        rfl
      rw [hrested, haccepted]
      exact .resumed delivery waiting (.inl rfl)
    | beforeCompletion =>
      have hoffset : accepted.protocolRunOffset = m.protocolRunOffset := congrArg Prod.snd hlasting
      have hturns : accepted.config.maxTurns = m.config.maxTurns :=
        congrArg (fun kept => kept.1.maxTurns) hlasting
      have hiteration : accepted.protocolIteration = m.protocolIteration :=
        congrArg Footing.protocolIteration haccepted
      have htermination : accepted.termination = m.termination :=
        congrArg Footing.termination haccepted
      have hlast : lastIteration accepted (footing accepted) = lastIteration m (footing m) := by
        rw [haccepted]
        simp only [lastIteration, hoffset, hturns]
        rfl
      rw [footing_resumeAfterDelivery, hlast, hiteration, haccepted, htermination]
      cases hgrace : m.termination.turnLimitFinalScheduled with
      | true => exact .exhausted delivery hempty waiting hgrace
      | false => exact .continued delivery hempty waiting hgrace

/-- The machine answers a response it awaits as the footing says. -/
theorem answers (awaited : Awaits m response) :
    Answers m (footing m) response (footing (m.answer response)) := by
  unfold Awaits at awaited
  cases hstate : m.state <;> cases response <;> rw [hstate] at awaited <;>
    simp only [awaits, Bool.false_eq_true, beq_iff_eq] at awaited <;> subst awaited
  case waitingExecutionEnvironment.executionEnvironmentSynced result =>
    exact answers_sync hstate result
  case waitingLlm.llmComplete result textStreamed => exact answers_llm hstate result textStreamed
  case waitingTools.toolResults completed => exact answers_tools hstate completed
  case waitingExec.execResult result => exact answers_exec hstate result
  case waitingCheckpoint.checkpoint delivery => exact answers_checkpoint hstate delivery

theorem prepares_iteration : Prepares m (footing m) (footing m.prepareProtocolIteration) := by
  unfold prepareProtocolIteration
  split
  · rename_i hsync
    have hstart : footing (m.startSync true) =
        (footing m).start (.waitingExecutionEnvironment · true) [] := footing_start
    exact hstart ▸ .syncing (.inr hsync.2)
  · rw [applyActions, footing_applyActionsFrom]
    exact .asking

theorem prepares_protocol (state : m.state = .preparingProtocol) :
    Prepares m (footing m) (footing m.prepareProtocol) := by
  unfold prepareProtocol
  split
  · have hstart : footing (m.startSync false) =
        (footing m).start (.waitingExecutionEnvironment · false) [] := footing_start
    exact hstart ▸ .syncing (.inl state)
  · exact prepares_iteration

end Answered

section Runs

variable {history : List (MachineEntry M)}

/-- The footing of a turn after a run, with the marks of all effects of the run. -/
def course (history : List (MachineEntry M)) (m : TurnMachine M) : Footing M :=
  (footing m).after (marksOf (delivered history))

theorem marks_course (history : List (MachineEntry M)) (m : TurnMachine M) :
    (course history m).marks = marksOf (emitted history m) :=
  (marksOf_append _ _).symm

theorem course_responseEntry (response : Response M) (m' : TurnMachine M) :
    course (responseEntry response m :: history) m' = course history m' := by
  have hsilent : delivered (responseEntry response m :: history) = delivered history := append_nil _
  rw [course, hsilent, course]

variable {reached : TurnMachine M}

/-- Taking an effect from the queue moves its mark from one place to the other. -/
theorem course_popFront (poll : m.pollEffect = reached.popFront) :
    course (pollEntry m :: history) m.pollEffect.2 = course history reached := by
  have hqueue := congrArg marksOf (popFront_queue reached)
  rw [marksOf_append] at hqueue
  have hdelivered : delivered (pollEntry m :: history) =
      delivered history ++ reached.popFront.1.toList := by
    rw [← poll]
    rfl
  have hrest : { footing reached.popFront.2 with marks := marksOf reached.pendingEffects } =
      footing reached := by
    unfold popFront
    split <;> rfl
  rw [course, hdelivered, poll, course, ← hrest]
  simp only [Footing.after, marksOf_append, append_assoc]
  rw [← hqueue]
  rfl

theorem course_answer {response : Response M} (awaited : Awaits m response) :
    Answers m (course history m) response
      (course (responseEntry response m :: history) (m.answer response)) := by
  rw [course_responseEntry]
  exact (answers awaited).after _

/-- The machine has something to deliver, waits for a response or is finished. -/
def Busy (m : TurnMachine M) : Prop :=
  m.pendingEffects ≠ [] ∨ m.isDone = true ∨ m.state.outstandingEffect.isSome

/-- An idle machine prepared for its next effects. -/
structure Readied (m reached : TurnMachine M) : Prop where
  queue : m.pendingEffects = []
  idle : m.state = .preparingProtocol ∨ m.state = .prepareIteration
  works : Works m reached
  prepares : Prepares m (footing m) (footing reached)

/-- A poll takes an effect from the machine as it is, or prepares an idle machine first. -/
theorem poll_cases (undue : m.activeEffectRedelivery = false) :
    (m.pollEffect = m.popFront ∧ Busy m) ∨
      ∃ reached : TurnMachine M, m.pollEffect = reached.popFront ∧ Readied m reached := by
  rcases pollEffect_cases undue with took | ⟨queue, ⟨hstate, hpoll⟩ | ⟨hstate, hpoll⟩⟩
  · exact .inl took
  · exact .inr ⟨m.prepareProtocol, hpoll, queue, .inl hstate, works_prepareProtocol,
      prepares_protocol hstate⟩
  · exact .inr ⟨m.prepareProtocolIteration, hpoll, queue, .inr hstate,
      works_prepareProtocolIteration, prepares_iteration⟩

/-- What the machines of a run share with the first of them. -/
structure Underway (first m : TurnMachine M) : Prop where
  undue : m.activeEffectRedelivery = false
  lasting : fixed m = fixed first

variable {first : TurnMachine M}

theorem Underway.of_worked {new : List (Effect M)} (underway : Underway first m)
    (worked : Worked m m' new) : Underway first m' :=
  ⟨worked.redelivery.trans underway.undue, worked.lasting.trans underway.lasting⟩

theorem Underway.popFront (underway : Underway first m) : Underway first m.popFront.2 := by
  unfold TurnMachine.popFront
  split
  · exact underway
  · exact ⟨underway.undue, underway.lasting⟩

variable {earlier : List (MachineEntry M)}

/-- The rule for runs, from any machine that is not due to deliver an effect again. -/
theorem turn_run (undue : first.activeEffectRedelivery = false)
    {P : List (MachineEntry M) → TurnMachine M → Prop} (begins : P earlier first)
    (polls : ∀ history m, Underway first m → P history m → m.pollEffect = m.popFront → Busy m →
      P (pollEntry m :: history) m.pollEffect.2)
    (readies : ∀ history m reached, Underway first m → P history m →
      m.pollEffect = reached.popFront → Readied m reached →
      P (pollEntry m :: history) m.pollEffect.2)
    (stale : ∀ history m response, P history m → ¬ Awaits m response →
      P (responseEntry response m :: history) m)
    (answers : ∀ history m response, Underway first m → P history m → Awaits m response →
      P (responseEntry response m :: history) (m.answer response))
    (inputs : List (Option (Response M))) :
    let reached := Runs.perform MachineRuns.step (inputs.map hostCall) (earlier, first)
    Underway first reached.2 ∧ P reached.1 reached.2 := by
  suffices h : ∀ (history : List (MachineEntry M)) (m : TurnMachine M), Underway first m →
      P history m →
      Underway first (Runs.perform MachineRuns.step (inputs.map hostCall) (history, m)).2 ∧
        P (Runs.perform MachineRuns.step (inputs.map hostCall) (history, m)).1
          (Runs.perform MachineRuns.step (inputs.map hostCall) (history, m)).2 from
    h earlier first ⟨undue, rfl⟩ begins
  clear begins
  induction inputs with
  | nil => exact fun _ _ underway holds => ⟨underway, holds⟩
  | cons input inputs ih =>
    intro history m underway holds
    suffices h : Underway first (MachineRuns.step (hostCall input) m).2 ∧
        P (Runs.entryAt MachineRuns.step (hostCall input) m :: history)
          (MachineRuns.step (hostCall input) m).2 from ih _ _ h.1 h.2
    cases input with
    | none =>
      change Underway first m.pollEffect.2 ∧ P (pollEntry m :: history) m.pollEffect.2
      rcases poll_cases underway.undue with ⟨hpoll, hbusy⟩ | ⟨reached, hpoll, hreadied⟩
      · refine ⟨?_, polls history m underway holds hpoll hbusy⟩
        rw [hpoll]
        exact underway.popFront
      · obtain ⟨new, hworked⟩ := hreadied.works
        refine ⟨?_, readies history m reached underway holds hpoll hreadied⟩
        rw [hpoll]
        exact (underway.of_worked hworked).popFront
    | some response =>
      have hstep : (MachineRuns.step (hostCall (some response)) m).2 = m.answer response :=
        handleResponse_undue underway.undue response
      rw [hstep]
      by_cases hawaits : Awaits m response
      · obtain ⟨new, hworked⟩ := works_answer_of_awaits hawaits
        exact ⟨⟨hworked.redelivery.trans underway.undue, hworked.lasting.trans underway.lasting⟩,
          answers history m response underway holds hawaits⟩
      · rw [answer_of_not_awaits hawaits]
        exact ⟨underway, stale history m response holds hawaits⟩

/-- The rule for what runs make of the footing: a law that holds at the beginning and
is kept wherever the footing changes. -/
theorem course_run (undue : first.activeEffectRedelivery = false)
    {Law : List (MachineEntry M) → Footing M → Prop} (begins : Law earlier (course earlier first))
    (polls : ∀ history m f, Law history f → Law (pollEntry m :: history) f)
    (prepares : ∀ history m f', Underway first m → Law history (course history m) →
      m.state = .preparingProtocol ∨ m.state = .prepareIteration →
      Prepares m (course history m) f' → Law history f')
    (stale : ∀ history m response f, Law history f → ¬ Awaits m response →
      Law (responseEntry response m :: history) f)
    (answers : ∀ history m response f', Underway first m → Law history (course history m) →
      Awaits m response → Answers m (course history m) response f' →
      Law (responseEntry response m :: history) f') (inputs : List (Option (Response M))) :
    let reached := Runs.perform MachineRuns.step (inputs.map hostCall) (earlier, first)
    Underway first reached.2 ∧ Law reached.1 (course reached.1 reached.2) := by
  refine turn_run (P := fun history m => Law history (course history m)) undue begins ?_ ?_ ?_ ?_
    inputs
  · intro history m _ holds hpoll _
    rw [course_popFront hpoll]
    exact polls history m _ holds
  · intro history m reached underway holds hpoll hreadied
    rw [course_popFront hpoll]
    exact polls history m _
      (prepares history m _ underway holds hreadied.idle (hreadied.prepares.after _))
  · intro history m response holds hstale
    rw [course_responseEntry]
    exact stale history m response _ holds hstale
  · intro history m response underway holds hawaits
    exact answers history m response _ underway holds hawaits (course_answer hawaits)

theorem Underway.driver (underway : Underway first m) :
    m.config.protocolDriver = first.config.protocolDriver :=
  driver_of_fixed underway.lasting

open TurnLimits (Shown shown_of_works idle_outstanding)

theorem popFront_state (m : TurnMachine M) : m.popFront.2.state = m.state := by
  unfold popFront
  split <;> rfl

/-- Whatever the run, the effect the machine waits for has been queued. -/
theorem shown_run (undue : first.activeEffectRedelivery = false)
    (new : first.state = .preparingProtocol) (inputs : List (Option (Response M))) :
    let reached := MachineRuns.after (inputs.map hostCall) first
    Underway first reached.2 ∧ Shown reached.1 reached.2 := by
  refine turn_run (P := Shown) undue ?_ ?_ ?_ ?_ ?_ inputs
  · intro effect heffect
    rw [new] at heffect
    cases heffect
  · intro history m _ shown hpoll _ effect heffect
    rw [hpoll, popFront_state] at heffect
    rw [emitted_pollEntry hpoll]
    exact shown effect heffect
  · intro history m reached _ _ hpoll readied effect heffect
    obtain ⟨new, worked⟩ := readied.works
    rw [hpoll, popFront_state] at heffect
    rw [emitted_pollEntry hpoll, worked.queued]
    exact mem_append_right _ (mem_append_right _
      (shown_of_works worked (idle_outstanding readied.idle) effect heffect))
  · intro history m response shown _ effect heffect
    rw [emitted_responseEntry]
    exact shown effect heffect
  · intro history m response _ _ awaits
    exact Shown.answer awaits

/-- A machine whose preparations always queue something is never stuck: it has an effect to
deliver, or waits for the answer to one that was delivered. -/
theorem delivers_or_waits (undue : m.activeEffectRedelivery = false) (shown : Shown history m)
    (unfinished : m.isDone = false)
    (queues : ∀ reached, Readied m reached → reached.pendingEffects ≠ []) :
    m.pollEffect.1.isSome ∨
      ∃ effect ∈ delivered history, m.state.outstandingEffect = some effect := by
  have htake {reached : TurnMachine M} (hpoll : m.pollEffect = reached.popFront)
      (hqueue : reached.pendingEffects ≠ []) : m.pollEffect.1.isSome := by
    obtain ⟨effect, rest, hcons⟩ := exists_cons_of_ne_nil hqueue
    rw [hpoll, popFront_cons hcons]
    rfl
  rcases poll_cases undue with ⟨hpoll, hbusy⟩ | ⟨reached, hpoll, readied⟩
  · by_cases hqueue : m.pendingEffects = []
    · rcases hbusy with h | h | h
      · exact absurd hqueue h
      · rw [unfinished] at h
        cases h
      · obtain ⟨effect, heffect⟩ := Option.isSome_iff_exists.mp h
        have hmem := shown effect heffect
        rw [emitted, hqueue, append_nil] at hmem
        exact .inr ⟨effect, hmem, heffect⟩
    · exact .inl (htake hpoll hqueue)
  · exact .inl (htake hpoll (queues reached readied))

end Runs

end TurnFootings
