import Lash.RlmDrivers
import Lash.TurnFootings

/-!
# Turns on the RLM driver

Whatever a response or a code block was, the driver's answer stops the turn, ends
the iteration, runs a cell or waits for the checkpoint before completion. A turn
therefore makes one model call an iteration, and the iteration that begins with
the notice of the limit is the last.
-/

namespace RlmTurns

open TurnProtocols TurnMachines TurnMachine MachineRuns EffectOrder List
open LashlangCells RlmDrivers TurnFootings Footing
open StandardRuns (pollEntry responseEntry)

variable {T : RlmTypes} {host : RlmHost T} {m m' : TurnMachine (rlmProtocol T)}
  {f f' : Footing (rlmProtocol T)}

section Answers

/-- Actions that leave the footing alone. -/
def isQuiet : DriverAction (rlmProtocol T) → Bool
  | .emit event => (markOfEvent event).isNone
  | .appendEvents _ => true
  | _ => false

variable {actions : List (DriverAction (rlmProtocol T))}

theorem carryOut_quiet (quiet : ∀ action ∈ actions, isQuiet action = true) (offset : Nat)
    (maxTurns : Option Nat) (more : List (DriverAction (rlmProtocol T))) :
    f.carryOut offset maxTurns (actions ++ more) = f.carryOut offset maxTurns more := by
  induction actions with
  | nil => rfl
  | cons action actions ih =>
    have hquiet := quiet action mem_cons_self
    have hrest := ih fun action haction => quiet action (mem_cons_of_mem _ haction)
    cases action with
    | emit event =>
      have hsilent : markOfEvent event = none := by simpa [isQuiet] using hquiet
      rw [cons_append, carryOut_cons rfl, ← hrest]
      simp [act, mark, hsilent]
    | appendEvents events => exact hrest
    | _ => simp [isQuiet] at hquiet

/-- The footing of a machine, behind marks made earlier. -/
def Matches (m : TurnMachine (rlmProtocol T)) (f : Footing (rlmProtocol T)) : Prop :=
  ∃ earlier, f = (footing m).after earlier

theorem matches_course (history : List (MachineEntry (rlmProtocol T))) :
    Matches m (course history m) := ⟨_, rfl⟩

theorem Matches.iteration (same : Matches m f) : f.protocolIteration = m.protocolIteration := by
  obtain ⟨_, rfl⟩ := same
  rfl

theorem Matches.termination (same : Matches m f) : f.termination = m.termination := by
  obtain ⟨_, rfl⟩ := same
  rfl

theorem Matches.state (same : Matches m f) : f.state = m.state := by
  obtain ⟨_, rfl⟩ := same
  rfl

/-- The iteration that ends on footing `f`, counted. -/
def counted (f : Footing (rlmProtocol T)) : Footing (rlmProtocol T) :=
  { f with
    protocolIteration := f.protocolIteration + 1
    syncedProtocolIteration := none }

/-- What the driver's answer to a response or to a code block makes of the footing:
it may wait to complete the turn only with an outcome that is allowed. -/
inductive Turns (m : TurnMachine (rlmProtocol T)) (f : Footing (rlmProtocol T))
    (allowed : TurnOutcome (rlmProtocol T) → Prop) : Footing (rlmProtocol T) → Prop
  | stopping (stop : TurnStop (rlmProtocol T)) : Turns m f allowed (f.close (.stopped stop))
  | exhausted : Turns m f allowed ((counted f).close (.stopped .maxTurns))
  | pausing (open_ : f.termination.turnLimitFinalScheduled = false) :
      Turns m f allowed
        (({ counted f with termination := ⟨lastIteration m f⟩ } : Footing (rlmProtocol T)).start
          (.waitingCheckpoint · .afterWork .prepareIteration) [])
  | completing {outcome : TurnOutcome (rlmProtocol T)} (may : allowed outcome) :
      Turns m f allowed (f.start (.waitingCheckpoint · .beforeCompletion (.finish outcome)) [])

theorem turns_runtimeError (category code error : String)
    (allowed : TurnOutcome (rlmProtocol T) → Prop) :
    Turns m f allowed (decided m f (runtimeErrorActions category code error)) := by
  have hclose : decided m f (runtimeErrorActions category code error) =
      f.close (.stopped .runtimeError) := by
    simp [decided, runtimeErrorActions, makeErrorEvent, carryOut, act, markOfEvent, mark,
      Footing.withState, Footing.close]
  exact hclose ▸ .stopping _

theorem lastIteration_eq (same : Matches m f)
    (open_ : f.termination.turnLimitFinalScheduled = false) :
    lastIteration m f = (reachedTurnLimit m.driverContext).isSome := by
  rw [lastIteration, turnLimitFinalToSchedule_eq open_, same.iteration]
  rfl

theorem termination_eq (open_ : f.termination.turnLimitFinalScheduled = false) :
    f.termination = ⟨false⟩ :=
  congrArg TurnTerminationPolicyState.mk open_

/-- After an iteration that does not end it the turn goes on, or its limit stops it. -/
theorem turns_nonterminal (quiet : ∀ action ∈ actions, isQuiet action = true) (same : Matches m f)
    (durable retry : List (SessionEventRecord (rlmProtocol T)))
    (allowed : TurnOutcome (rlmProtocol T) → Prop) :
    Turns m f allowed (decided m f (orInvalidTurnOptions actions
      (continueOrStopAfterNonterminal host m.driverContext durable retry))) := by
  have hlead (offset : Nat) (maxTurns : Option Nat) (g : Footing (rlmProtocol T))
      (more : List (DriverAction (rlmProtocol T))) :
      g.carryOut offset maxTurns
        (actions ++ ((if durable.isEmpty then [] else [.appendEvents durable]) ++
          [DriverAction.advanceProtocolIteration] ++ more)) =
        (counted g).carryOut offset maxTurns more := by
    rw [carryOut_quiet quiet]
    cases durable <;> rfl
  have hstops : decided m f (actions ++ ((if durable.isEmpty then []
      else [.appendEvents durable]) ++ [DriverAction.advanceProtocolIteration] ++
        [DriverAction.finish (.stopped .maxTurns)])) = (counted f).close (.stopped .maxTurns) := by
    rw [decided, hlead]
    rfl
  simp only [continueOrStopAfterNonterminal]
  by_cases hgrace : m.driverContext.policy.shouldForceExitAfterGraceTurn = true
  · rw [if_pos hgrace]
    exact hstops ▸ .exhausted
  · rw [if_neg hgrace]
    have hopen : f.termination.turnLimitFinalScheduled = false := by
      rw [same.termination]
      exact Bool.eq_false_iff.mpr hgrace
    have hlast := lastIteration_eq same hopen
    cases hreached : reachedTurnLimit m.driverContext with
    | none =>
      rw [hreached] at hlast
      have hpause : decided m f (actions ++ ((if durable.isEmpty then []
          else [.appendEvents durable]) ++ [DriverAction.advanceProtocolIteration] ++
            (if retry.isEmpty then [] else [.appendEvents retry]) ++ [afterWorkCheckpoint])) =
          ({ counted f with termination := ⟨lastIteration m f⟩ } : Footing _).start
            (.waitingCheckpoint · .afterWork .prepareIteration) [] := by
        rw [append_assoc (_ ++ [DriverAction.advanceProtocolIteration]), decided, hlead,
          hlast]
        cases retry <;> simp [carryOut, act, afterWorkCheckpoint, Footing.start, counted,
          Footing.withState, termination_eq hopen]
      exact hpause ▸ .pausing hopen
    | some maxTurns =>
      rw [hreached] at hlast
      cases hdecode : host.decodeRlmTerminationOptions m.driverContext.termination with
      | error error => exact turns_runtimeError _ _ _ _
      | ok termination =>
        cases termination with
        | finishRequired schema => exact hstops ▸ .exhausted
        | natural =>
          have hdue : ((counted (f.withState .finished)).turnLimitFinalToSchedule
              m.protocolRunOffset m.config.maxTurns).isSome = true := hlast
          have hpause : decided m f (actions ++ ((if durable.isEmpty then []
              else [.appendEvents durable]) ++ [DriverAction.advanceProtocolIteration] ++
                [DriverAction.scheduleTurnLimitFinal
                    (turnLimitFinalMessage (host.freshMessageId m.driverContext 2) maxTurns),
                  afterWorkCheckpoint])) =
              ({ counted f with termination := ⟨lastIteration m f⟩ } : Footing _).start
                (.waitingCheckpoint · .afterWork .prepareIteration) [] := by
            rw [decided, hlead, hlast]
            simp only [carryOut, act, afterWorkCheckpoint, hdue, if_true]
            rfl
          exact hpause ▸ .pausing hopen

theorem runs_decided {lead : List (DriverAction (rlmProtocol T))}
    (quiet : ∀ action ∈ lead, isQuiet action = true) {language code : String}
    {driverState : T.DriverState} :
    decided m f (lead ++ [DriverAction.startExec language code driverState]) =
      f.start (.waitingExec · language code driverState) [.executed code] := by
  rw [decided, carryOut_quiet quiet]
  rfl

/-- The answer to a response: as `Turns` says, or the cell of the response is run. A turn
completes by prose only if that is how it may end. -/
theorem decided_llm (same : Matches m f) (waiting : WaitingLlmState (rlmProtocol T))
    (response : LlmResponse (rlmProtocol T)) (textStreamed : Bool) :
    let f' := decided m f (handleLlmSuccess host m.driverContext waiting response textStreamed)
    Turns m f (fun outcome =>
        host.decodeRlmTerminationOptions m.config.termination = .ok .natural ∧
          ∃ text, outcome = .finished (.assistantMessage text)) f' ∨
      ∃ code driverState, f' = f.start (.waitingExec · "lashlang" code driverState)
        [.executed code] := by
  intro f'
  simp only [f', handleLlmSuccess]
  have hemit : isQuiet (.emit (.llmResponse m.driverContext.protocolIteration
      response.fullText 0) : DriverAction (rlmProtocol T)) = true := rfl
  have hextraction (decision : String) (termination : RlmTermination T.Json)
      (counts : LlmExtractionCounts) :
      isQuiet (extractionActions host decision termination counts) = true := rfl
  split
  · have hclose : decided m f (([.emit (.llmResponse m.driverContext.protocolIteration
        response.fullText 0)] : List (DriverAction (rlmProtocol T))) ++ emptyResponseActions) =
        f.close (.stopped .providerError) := by
      rw [decided, carryOut_quiet (by simpa using hemit)]
      simp [emptyResponseActions, makeErrorEvent, carryOut, act, markOfEvent, mark,
        Footing.withState, Footing.close]
    exact .inl (hclose ▸ .stopping _)
  · cases hdecode : host.decodeRlmTerminationOptions m.driverContext.termination with
    | error error => exact .inl (turns_runtimeError _ _ _ _)
    | ok termination =>
      cases extractLashlangCell (readResponse response).assistantText.toList with
      | error error =>
        refine .inl (turns_nonterminal ?_ same _ _ _)
        simp [hemit, hextraction]
      | ok extraction =>
        cases extraction with
        | none =>
          cases termination with
          | natural =>
            refine .inl ?_
            have hstart : decided m f (proseActions host m.driverContext .natural
                (readResponse response) [.emit (.llmResponse
                  m.driverContext.protocolIteration response.fullText 0)]) =
                f.start (.waitingCheckpoint · .beforeCompletion (.finish (.finished
                  (.assistantMessage (readResponse response).assistantText)))) [] := by
              simp [decided, proseActions, extractionActions, carryOut, act, markOfEvent,
                mark, Footing.withState, Footing.start]
            exact hstart ▸ .completing ⟨hdecode, _, rfl⟩
          | finishRequired schema =>
            refine .inl (turns_nonterminal ?_ same _ _ _)
            simp [hemit, hextraction]
        | some cell =>
          simp only [cellActions]
          split
          · exact .inl (turns_runtimeError _ _ _ _)
          · split
            · exact .inl (turns_runtimeError _ _ _ _)
            · exact .inr ⟨_, _, @runs_decided T m f [_, _, _]
                (by simp [isQuiet, extractionActions, markOfEvent]) _ _ _⟩

/-- How a code block may end the turn: by a tool of it, or by a value that the schema of
the turn, if it has one, accepts. -/
def BlockMayEnd (host : RlmHost T) (options : T.Options)
    (result : Except String (ExecResponse T.Json)) (outcome : TurnOutcome (rlmProtocol T)) :
    Prop :=
  (∃ response record, result = .ok response ∧ record ∈ response.toolCalls ∧
      terminalOutcomeFromToolResult host record = some outcome) ∨
    ∃ value termination, host.decodeRlmTerminationOptions options = .ok termination ∧
      finishValueError host value termination = none ∧ outcome = .finished (.finalValue value)

theorem completes_decided (ctx : DriverContextView (rlmProtocol T)) (messageId : String)
    (state : RlmDriverState T.Json) (finalOutput : Option T.Json)
    (outcome : TurnOutcome (rlmProtocol T)) :
    decided m f (completionActions ctx messageId state finalOutput outcome) =
      f.start (.waitingCheckpoint · .beforeCompletion (.finish outcome)) [] := rfl

theorem decided_afterExecution (same : Matches m f) (state : RlmDriverState T.Json)
    (result : Except String (ExecResponse T.Json)) :
    Turns m f (BlockMayEnd host m.config.termination result)
      (decided m f (afterExecution host m.driverContext state)) := by
  unfold afterExecution
  split
  · rename_i value _
    unfold finishActions
    split
    · exact turns_runtimeError _ _ _ _
    · rename_i termination hdecode
      split
      · exact turns_nonterminal (by simp) same _ _ _
      · rename_i haccepted
        rw [completes_decided]
        exact .completing (.inr ⟨value, termination, hdecode, haccepted, rfl⟩)
  · exact turns_nonterminal (by simp) same _ _ _

/-- The answer to the result of a code block. -/
theorem decided_exec (same : Matches m f) (waiting : WaitingExecState (rlmProtocol T))
    (result : Except String (ExecResponse T.Json)) :
    Turns m f (BlockMayEnd host m.config.termination result)
      (decided m f (RlmDrivers.handleExecResult host m.driverContext waiting result)) := by
  unfold RlmDrivers.handleExecResult
  split
  · exact turns_runtimeError _ _ _ _
  · split
    · exact decided_afterExecution same _ _
    · rename_i response
      simp only
      split
      · rename_i outcome hterminal
        rw [completes_decided]
        obtain ⟨record, hmem, hrecord⟩ := exists_of_findSome?_eq_some hterminal
        exact .completing (.inl ⟨response, record, rfl, hmem, hrecord⟩)
      · exact decided_afterExecution same _ _

theorem prepares_asking :
    let f' := f.carryOut m.protocolRunOffset m.config.maxTurns
      (RlmDrivers.prepareProtocolIteration host m.driverContext)
    f' = f.close (.stopped .runtimeError) ∨
      f' = f.start (.waitingLlm · (m.projectLlmRequest false) (some (host.rlmDriverState .default)))
        [.asked (m.projectLlmRequest false)] := by
  intro f'
  simp only [f', RlmDrivers.prepareProtocolIteration]
  split
  · refine .inl ?_
    simp [invalidTurnOptionsActions, runtimeErrorActions, makeErrorEvent, carryOut, act,
      markOfEvent, mark, Footing.close]
  · exact .inr rfl

end Answers

section Limits

/-- The states a turn on the RLM driver goes through. -/
def Orderly : MachineState (rlmProtocol T) → Prop
  | .waitingTools _ _ => False
  | .waitingCheckpoint _ .beforeCompletion onEmpty => ∃ outcome, onEmpty = .finish outcome
  | .waitingCheckpoint _ .afterWork onEmpty => onEmpty = .prepareIteration
  | _ => True

/-- A step of the turn: what one answer to an awaited response, or the preparation of an
iteration, can make of the footing. `ends` are the outcomes a block or prose may end it by. -/
inductive Step (m : TurnMachine (rlmProtocol T)) (f : Footing (rlmProtocol T))
    (ends : TurnOutcome (rlmProtocol T) → Prop) : Footing (rlmProtocol T) → Prop
  | stopping (stop : TurnStop (rlmProtocol T)) : Step m f ends (f.close (.stopped stop))
  | synced {id : EffectId} {update : Bool}
      (waiting : f.state = .waitingExecutionEnvironment id update) :
      Step m f ends
        { f with
          state := .prepareIteration
          syncedProtocolIteration := some f.protocolIteration }
  | running {id : EffectId} {request : T.LlmRequest} {driverState : Option T.DriverState}
      (waiting : f.state = .waitingLlm id request driverState) (code : String)
      (next : T.DriverState) :
      Step m f ends (f.start (.waitingExec · "lashlang" code next) [.executed code])
  | turned {f' : Footing (rlmProtocol T)}
      (waiting : (∃ id request driverState, f.state = .waitingLlm id request driverState) ∨
      ∃ id language code driverState, f.state = .waitingExec id language code driverState)
      (turns : Turns m f ends f') : Step m f ends f'
  | completed {id : EffectId} {outcome : TurnOutcome (rlmProtocol T)}
      (waiting : f.state = .waitingCheckpoint id .beforeCompletion (.finish outcome)) :
      Step m f ends (f.close outcome)
  | resumed {id : EffectId}
      (waiting : f.state = .waitingCheckpoint id .afterWork .prepareIteration) :
      Step m f ends (f.withState .prepareIteration)
  | exhausted : Step m f ends
      ({ f with protocolIteration := f.protocolIteration + 1 }.close (.stopped .maxTurns))
  | continued {id : EffectId} {outcome : TurnOutcome (rlmProtocol T)}
      (waiting : f.state = .waitingCheckpoint id .beforeCompletion (.finish outcome))
      (open_ : f.termination.turnLimitFinalScheduled = false) :
      Step m f ends
        { f with
          state := .prepareIteration
          protocolIteration := f.protocolIteration + 1
          termination := ⟨lastIteration m f⟩ }

/-- The outcomes a response may end its turn by, once nothing is delivered any more. -/
def MayEnd (host : RlmHost T) (options : T.Options) :
    Response (rlmProtocol T) → TurnOutcome (rlmProtocol T) → Prop
  | .llmComplete _ _ _, outcome =>
    host.decodeRlmTerminationOptions options = .ok .natural ∧
      ∃ text, outcome = .finished (.assistantMessage text)
  | .execResult _ result, outcome => BlockMayEnd host options result outcome
  | _, _ => False

theorem handleLlmSuccess_rlmDriver :
    (rlmDriver host).handleLlmSuccess = handleLlmSuccess host := by
  simp only [rlmDriver]

theorem handleExecResult_rlmDriver :
    (rlmDriver host).handleExecResult = RlmDrivers.handleExecResult host := by
  simp only [rlmDriver]

theorem step_of_answers (driver : m.config.protocolDriver = rlmDriver host) (same : Matches m f)
    (orderly : Orderly f.state) {response : Response (rlmProtocol T)}
    (answers : Answers m f response f') :
    Step m f (MayEnd host m.config.termination response) f' := by
  have hstate := same.state
  cases answers with
  | stopping stop => exact .stopping stop
  | synced result waiting => exact .synced (hstate.trans waiting)
  | @replied id request driverState response refined textStreamed waiting =>
    have hdecided := @decided_llm T host m f same ⟨request, driverState⟩ refined textStreamed
    rw [driver, handleLlmSuccess_rlmDriver]
    simp only at hdecided
    generalize decided m f (handleLlmSuccess host m.driverContext ⟨request, driverState⟩ refined
      textStreamed) = f' at hdecided ⊢
    rcases hdecided with hturns | ⟨code, next, rfl⟩
    · exact .turned (.inl ⟨id, request, driverState, hstate.trans waiting⟩) hturns
    · exact .running (hstate.trans waiting) code next
  | worked completed waiting =>
    rw [hstate, waiting] at orderly
    exact orderly.elim
  | @ran id language code driverState result waiting =>
    have hdecided := @decided_exec T host m f same ⟨driverState⟩ result
    rw [driver, handleExecResult_rlmDriver]
    exact .turned (.inr ⟨id, language, code, driverState, hstate.trans waiting⟩) hdecided
  | @completed id checkpoint outcome delivery nothing waiting =>
    have hwaiting := hstate.trans waiting
    cases checkpoint with
    | beforeCompletion => exact .completed hwaiting
    | afterWork =>
      rw [hwaiting] at orderly
      cases orderly
  | @resumed id checkpoint onEmpty delivery waiting goes =>
    have hwaiting := hstate.trans waiting
    rw [hwaiting] at orderly
    cases checkpoint with
    | beforeCompletion =>
      obtain ⟨outcome, rfl⟩ := orderly
      rcases goes with h | h <;> cases h
    | afterWork =>
      cases orderly
      exact .resumed hwaiting
  | exhausted delivery delivered waiting grace => exact .exhausted
  | @continued id onEmpty delivery delivered waiting open_ =>
    have hwaiting := hstate.trans waiting
    rw [hwaiting] at orderly
    obtain ⟨outcome, rfl⟩ := orderly
    exact .continued hwaiting open_

/-- The preparation of an iteration. -/
inductive Readying (f : Footing (rlmProtocol T)) : Footing (rlmProtocol T) → Prop
  | stopping (stop : TurnStop (rlmProtocol T)) : Readying f (f.close (.stopped stop))
  | syncing {update : Bool}
      (due : f.state = .preparingProtocol ∨
        f.syncedProtocolIteration ≠ some f.protocolIteration) :
      Readying f (f.start (.waitingExecutionEnvironment · update) [])
  | asking (request : T.LlmRequest) (driverState : Option T.DriverState) :
      Readying f (f.start (.waitingLlm · request driverState) [.asked request])

theorem readying_of_prepares (driver : m.config.protocolDriver = rlmDriver host)
    (same : Matches m f) (prepares : Prepares m f f') : Readying f f' := by
  cases prepares with
  | syncing due => exact .syncing (due.imp (same.state.trans ·) id)
  | asking =>
    rw [driver]
    rcases @prepares_asking T host m f with h | h
    · exact h ▸ .stopping _
    · exact h ▸ .asking _ _

theorem Turns.orderly {allowed : TurnOutcome (rlmProtocol T) → Prop}
    (turns : Turns m f allowed f') : Orderly f'.state := by
  cases turns with
  | stopping | exhausted => trivial
  | pausing => exact rfl
  | completing may => exact ⟨_, rfl⟩

variable {ends : TurnOutcome (rlmProtocol T) → Prop}

theorem Step.orderly (step : Step m f ends f') : Orderly f'.state := by
  cases step with
  | turned waiting turns => exact turns.orderly
  | _ => trivial

theorem Readying.orderly (readying : Readying f f') : Orderly f'.state := by
  cases readying <;> trivial

/-- The model calls the current iteration has made. -/
def callsMade : MachineState (rlmProtocol T) → Nat
  | .waitingLlm _ _ _ => 1
  | .waitingExec _ _ _ _ => 1
  | .waitingCheckpoint _ .beforeCompletion _ => 1
  | _ => 0

/-- The most responses the current iteration can still take. A pause after work
counts the next iteration as the current one. -/
def responsesOpen (f : Footing (rlmProtocol T)) : Nat :=
  match f.state with
  | .preparingProtocol => 4
  | .waitingExecutionEnvironment _ _ => 4
  | .prepareIteration =>
    if f.syncedProtocolIteration = some f.protocolIteration then 3 else 4
  | .waitingLlm _ _ _ => 3
  | .waitingTools _ _ => 1
  | .waitingExec _ _ _ _ => 2
  | .waitingCheckpoint _ .beforeCompletion _ => 1
  | .waitingCheckpoint _ .afterWork _ => 5
  | .finished => 0

def callsOf (f : Footing (rlmProtocol T)) : Nat := f.marks.countP isAsked

def executionsOf (f : Footing (rlmProtocol T)) : Nat := f.marks.countP isExecuted

variable (outcome : TurnOutcome (rlmProtocol T))

@[simp] theorem calls_close : callsOf (f.close outcome) = callsOf f := by
  simp [callsOf, Footing.close, isAsked]

@[simp] theorem executions_close : executionsOf (f.close outcome) = executionsOf f := by
  simp [executionsOf, Footing.close, isExecuted]

@[simp] theorem calls_start (state : EffectId → MachineState (rlmProtocol T))
    (marks : List (Mark (rlmProtocol T))) :
    callsOf (f.start state marks) = callsOf f + marks.countP isAsked := by
  simp [callsOf, Footing.start]

@[simp] theorem executions_start (state : EffectId → MachineState (rlmProtocol T))
    (marks : List (Mark (rlmProtocol T))) :
    executionsOf (f.start state marks) = executionsOf f + marks.countP isExecuted := by
  simp [executionsOf, Footing.start]

/-- A turn that goes on, between its first iteration and the one after the limit. -/
structure Running (offset maxTurns taken : Nat) (f : Footing (rlmProtocol T)) : Prop where
  begun : offset ≤ f.protocolIteration
  within : f.protocolIteration ≤ offset + maxTurns
  grace : f.termination.turnLimitFinalScheduled = true ↔ f.protocolIteration = offset + maxTurns
  made : callsOf f + offset = f.protocolIteration + callsMade f.state
  left : taken + responsesOpen f + 4 * (offset + maxTurns - f.protocolIteration) ≤
    4 * (maxTurns + 1)

/-- The bounds on the model calls and on the responses taken in, of a turn that goes on or
is over. -/
structure Spending (offset maxTurns taken : Nat) (f : Footing (rlmProtocol T)) : Prop where
  orderly : Orderly f.state
  calls : callsOf f ≤ maxTurns + 1
  responses : taken ≤ 4 * (maxTurns + 1)
  running : f.state ≠ .finished → Running offset maxTurns taken f

variable {offset maxTurns taken : Nat}

theorem callsMade_le (state : MachineState (rlmProtocol T)) : callsMade state ≤ 1 := by
  unfold callsMade
  split <;> omega

theorem responsesOpen_pos (unfinished : f.state ≠ .finished) : 1 ≤ responsesOpen f := by
  unfold responsesOpen
  split <;> first | contradiction | omega | (split <;> omega)

theorem responsesOpen_ready (ready : f.state = .prepareIteration) : responsesOpen f ≤ 4 := by
  simp only [responsesOpen, ready]
  split <;> omega

theorem Spending.of_running (running : Running offset maxTurns taken f)
    (orderly : Orderly f.state) : Spending offset maxTurns taken f where
  orderly := orderly
  calls := by
    have hmade := running.made
    have hcalls := callsMade_le f.state
    have hwithin := running.within
    omega
  responses := by
    have hleft := running.left
    omega
  running := fun _ => running

/-- A turn that ends keeps its bounds. -/
theorem Spending.ending (spending : Spending offset maxTurns taken f)
    (unfinished : f.state ≠ .finished) (done : f'.state = .finished)
    (same : callsOf f' = callsOf f) : Spending offset maxTurns (taken + 1) f' where
  orderly := by
    rw [done]
    trivial
  calls := same ▸ spending.calls
  responses := by
    have hleft := (spending.running unfinished).left
    have hpos := responsesOpen_pos unfinished
    omega
  running := fun open_ => absurd done open_

theorem lastIteration_of_limit (limit : m.config.maxTurns = some maxTurns)
    (begun : m.protocolRunOffset = offset)
    (open_ : f.termination.turnLimitFinalScheduled = false) :
    lastIteration m f = decide (offset + maxTurns ≤ f.protocolIteration + 1) := by
  simp only [lastIteration, TurnTerminationPolicyState.turnLimitFinalToSchedule, open_, limit,
    begun, Bool.false_eq_true, if_false]
  by_cases h : offset + maxTurns ≤ f.protocolIteration + 1
  · simp [h, Nat.not_lt.mpr h]
  · simp [h, Nat.not_le.mp h]

/-- The next iteration begins, with the notice if it is past the limit. -/
theorem Running.advances (running : Running offset maxTurns taken f)
    (open_ : f.termination.turnLimitFinalScheduled = false) (called : callsMade f.state = 1)
    (iteration : f'.protocolIteration = f.protocolIteration + 1)
    (termination : f'.termination = ⟨decide (offset + maxTurns ≤ f.protocolIteration + 1)⟩)
    (same : callsOf f' = callsOf f) (fresh : callsMade f'.state = 0)
    (opens : responsesOpen f' ≤ responsesOpen f + 3) :
    Running offset maxTurns (taken + 1) f' := by
  have hbegun := running.begun
  have hmade := running.made
  have hleft := running.left
  have hbelow : f.protocolIteration < offset + maxTurns := by
    refine Nat.lt_of_le_of_ne running.within fun h => ?_
    rw [running.grace.mpr h] at open_
    cases open_
  refine ⟨by omega, by omega, ?_, ?_, ?_⟩
  · rw [termination, iteration]
    simp only [decide_eq_true_eq]
    omega
  · rw [same, iteration, fresh]
    omega
  · rw [iteration]
    omega

/-- A response within an iteration is one of those that were left. -/
theorem Running.stays (running : Running offset maxTurns taken f)
    (iteration : f'.protocolIteration = f.protocolIteration)
    (termination : f'.termination = f.termination) (same : callsOf f' = callsOf f)
    (made : callsMade f'.state = callsMade f.state)
    (opens : responsesOpen f' + 1 ≤ responsesOpen f) :
    Running offset maxTurns (taken + 1) f' := by
  have hleft := running.left
  refine ⟨iteration ▸ running.begun, iteration ▸ running.within, ?_, ?_, ?_⟩
  · rw [iteration, termination]
    exact running.grace
  · rw [iteration, same, made]
    exact running.made
  · rw [iteration]
    omega

/-- A step of the turn takes one of the responses that were left. -/
theorem Spending.step (spending : Spending offset maxTurns taken f)
    (limit : m.config.maxTurns = some maxTurns) (begun : m.protocolRunOffset = offset)
    (unfinished : f.state ≠ .finished) (step : Step m f ends f') :
    Spending offset maxTurns (taken + 1) f' := by
  have running := spending.running unfinished
  have horderly := step.orderly
  cases step with
  | stopping stop | completed waiting | exhausted =>
    exact spending.ending unfinished rfl (calls_close _)
  | synced waiting =>
    refine .of_running (running.stays rfl rfl rfl ?_ ?_) horderly
    · rw [waiting]
      rfl
    · simp [responsesOpen, waiting]
  | running waiting code next =>
    refine .of_running (running.stays rfl rfl ?_ ?_ ?_) horderly
    · simp [isAsked]
    · rw [waiting]
      rfl
    · simp [responsesOpen, waiting, Footing.start]
  | turned waiting turns =>
    have hcalled : callsMade f.state = 1 := by
      rcases waiting with ⟨_, _, _, h⟩ | ⟨_, _, _, _, h⟩ <;> rw [h] <;> rfl
    have hopen : 2 ≤ responsesOpen f := by
      rcases waiting with ⟨_, _, _, h⟩ | ⟨_, _, _, _, h⟩ <;> simp [responsesOpen, h]
    cases turns with
    | stopping stop | exhausted => exact spending.ending unfinished rfl (calls_close _)
    | pausing open_ =>
      refine .of_running (running.advances open_ hcalled rfl ?_ ?_ rfl ?_) horderly
      · rw [← lastIteration_of_limit limit begun open_]
        rfl
      · simp [callsOf, counted, Footing.start]
      · simp only [responsesOpen, Footing.start]
        exact Nat.add_le_add_right hopen 3
    | completing may =>
      refine .of_running (running.stays rfl rfl ?_ ?_ ?_) horderly
      · simp
      · rw [hcalled]
        rfl
      · simp only [responsesOpen, Footing.start]
        exact hopen
  | resumed waiting =>
    refine .of_running (running.stays rfl rfl rfl ?_ ?_) horderly
    · rw [waiting]
      rfl
    · have hopen : responsesOpen f = 5 := by simp only [responsesOpen, waiting]
      have hready := @responsesOpen_ready T (f.withState .prepareIteration) rfl
      omega
  | continued waiting open_ =>
    have hcalled : callsMade f.state = 1 := by
      rw [waiting]
      rfl
    refine .of_running (running.advances open_ hcalled rfl ?_ rfl rfl ?_) horderly
    · rw [← lastIteration_of_limit limit begun open_]
    · have hopen : responsesOpen f = 1 := by simp only [responsesOpen, waiting]
      rw [hopen]
      exact responsesOpen_ready rfl

/-- Preparing an iteration takes no response; the call it makes is the first of the
iteration. -/
theorem Spending.ready (spending : Spending offset maxTurns taken f)
    (idle : f.state = .preparingProtocol ∨ f.state = .prepareIteration)
    (readying : Readying f f') : Spending offset maxTurns taken f' := by
  have hunfinished : f.state ≠ .finished := by rcases idle with h | h <;> rw [h] <;> simp
  have running := spending.running hunfinished
  have hnone : callsMade f.state = 0 := by rcases idle with h | h <;> rw [h] <;> rfl
  have hleft := running.left
  have hmade := running.made
  have horderly := readying.orderly
  cases readying with
  | stopping stop =>
    exact ⟨trivial, (calls_close (f := f) _) ▸ spending.calls, spending.responses,
      fun open_ => absurd rfl open_⟩
  | syncing due =>
    refine .of_running ⟨running.begun, running.within, running.grace, ?_, ?_⟩ horderly
    · rw [hnone] at hmade
      simpa [callsMade, Footing.start, callsOf] using hmade
    · have hopen : responsesOpen f = 4 := by
        rcases idle with h | h
        · simp only [responsesOpen, h]
        · have hsynced : f.syncedProtocolIteration ≠ some f.protocolIteration :=
            due.resolve_left (by rw [h]; simp)
          simp only [responsesOpen, h, if_neg hsynced]
      rw [hopen] at hleft
      exact hleft
  | asking request driverState =>
    refine .of_running ⟨running.begun, running.within, running.grace, ?_, ?_⟩ horderly
    · rw [hnone] at hmade
      rw [calls_start]
      simp only [Footing.start, callsMade, countP_cons, countP_nil, isAsked, if_true]
      omega
    · have hopen : 3 ≤ responsesOpen f := by
        rcases idle with h | h
        · simp [responsesOpen, h]
        · simp only [responsesOpen, h]
          split <;> omega
      change taken + 3 + 4 * (offset + maxTurns - f.protocolIteration) ≤ _
      omega

/-- The model calls that a turn can still make in its last iteration. -/
def callsLeft : MachineState (rlmProtocol T) → Nat
  | .waitingLlm _ _ _ => 0
  | .waitingExec _ _ _ _ => 0
  | .waitingCheckpoint _ .beforeCompletion _ => 0
  | .finished => 0
  | _ => 1

/-- The code blocks that a turn can still run in its last iteration. -/
def executionsLeft : MachineState (rlmProtocol T) → Nat
  | .waitingExec _ _ _ _ => 0
  | .waitingCheckpoint _ .beforeCompletion _ => 0
  | .finished => 0
  | _ => 1

/-- A turn in its last iteration, which began after `called` model calls and `run` code
blocks at the latest. -/
structure Last (called run : Nat) (f : Footing (rlmProtocol T)) : Prop where
  scheduled : f.termination.turnLimitFinalScheduled = true
  orderly : Orderly f.state
  calls : callsOf f + callsLeft f.state ≤ called + 1
  executions : executionsOf f + executionsLeft f.state ≤ run + 1

variable {called run : Nat}

theorem last_of_scheduled (scheduled : f.termination.turnLimitFinalScheduled = true)
    (orderly : Orderly f.state) : Last (callsOf f) (executionsOf f) f where
  scheduled := scheduled
  orderly := orderly
  calls := by
    unfold callsLeft
    split <;> omega
  executions := by
    unfold executionsLeft
    split <;> omega

theorem Last.closes (last : Last called run f) {outcome : TurnOutcome (rlmProtocol T)}
    (termination : f'.termination = f.termination) (calls : callsOf f' = callsOf f)
    (executions : executionsOf f' = executionsOf f) : Last called run (f'.close outcome) where
  scheduled := (congrArg _ termination).trans last.scheduled
  orderly := trivial
  calls := by
    rw [calls_close, calls]
    exact Nat.le_trans (Nat.le_add_right _ _) last.calls
  executions := by
    rw [executions_close, executions]
    exact Nat.le_trans (Nat.le_add_right _ _) last.executions

/-- The last iteration goes on within what is left of it, or ends. -/
theorem Last.step (last : Last called run f) (step : Step m f ends f') : Last called run f' := by
  have horderly := step.orderly
  have hcalls := last.calls
  have hexecutions := last.executions
  have hshut {P : Prop} (open_ : f.termination.turnLimitFinalScheduled = false) : P := by
    rw [last.scheduled] at open_
    cases open_
  cases step with
  | stopping stop | completed waiting | exhausted => exact last.closes rfl rfl rfl
  | synced waiting | resumed waiting =>
    rw [waiting] at hcalls hexecutions
    exact ⟨last.scheduled, horderly, hcalls, hexecutions⟩
  | running waiting code next =>
    rw [waiting] at hcalls hexecutions
    refine ⟨last.scheduled, horderly, ?_, ?_⟩
    · rw [calls_start]
      exact hcalls
    · rw [executions_start]
      exact hexecutions
  | turned waiting turns =>
    cases turns with
    | stopping stop | exhausted => exact last.closes rfl rfl rfl
    | pausing open_ => exact hshut open_
    | completing may =>
      refine ⟨last.scheduled, horderly, ?_, ?_⟩
      · rw [calls_start]
        exact Nat.le_trans (Nat.le_add_right _ _) hcalls
      · rw [executions_start]
        exact Nat.le_trans (Nat.le_add_right _ _) hexecutions
  | continued waiting open_ => exact hshut open_

theorem Last.ready (last : Last called run f)
    (idle : f.state = .preparingProtocol ∨ f.state = .prepareIteration)
    (readying : Readying f f') : Last called run f' := by
  have horderly := readying.orderly
  have hcalls := last.calls
  have hexecutions := last.executions
  have hleft : callsLeft f.state = 1 ∧ executionsLeft f.state = 1 := by
    rcases idle with h | h <;> rw [h] <;> exact ⟨rfl, rfl⟩
  rw [hleft.1] at hcalls
  rw [hleft.2] at hexecutions
  cases readying with
  | stopping stop => exact last.closes rfl rfl rfl
  | syncing due | asking request driverState =>
    refine ⟨last.scheduled, horderly, ?_, ?_⟩
    · rw [calls_start]
      exact hcalls
    · rw [executions_start]
      exact hexecutions

end Limits

section Runs

variable {history : List (MachineEntry (rlmProtocol T))} {first : TurnMachine (rlmProtocol T)}
  {response : Response (rlmProtocol T)}

theorem accepted_stale (stale : ¬ Awaits m response) :
    accepted (responseEntry response m :: history) = accepted history :=
  if_neg stale

theorem accepted_awaited (awaited : Awaits m response) :
    accepted (responseEntry response m :: history) = responseId response :: accepted history :=
  if_pos awaited

/-- The rule for runs on the RLM driver, in terms of its steps. -/
theorem rlm_run (driver : first.config.protocolDriver = rlmDriver host)
    {earlier : List (MachineEntry (rlmProtocol T))}
    (undue : first.activeEffectRedelivery = false)
    {Law : List (MachineEntry (rlmProtocol T)) → Footing (rlmProtocol T) → Prop}
    (begins : Law earlier (course earlier first))
    (orderly : ∀ history f, Law history f → Orderly f.state)
    (polls : ∀ history m f, Law history f → Law (pollEntry m :: history) f)
    (readies : ∀ history f f', Law history f →
      f.state = .preparingProtocol ∨ f.state = .prepareIteration → Readying f f' →
      Law history f')
    (stale : ∀ history m response f, Law history f → ¬ Awaits m response →
      Law (responseEntry response m :: history) f)
    (steps : ∀ history m f f' response, Underway first m → Law history f → Matches m f →
      Awaits m response → Step m f (MayEnd host first.config.termination response) f' →
      Law (responseEntry response m :: history) f')
    (inputs : List (Option (Response (rlmProtocol T)))) :
    let reached := Runs.perform MachineRuns.step (inputs.map hostCall) (earlier, first)
    Underway first reached.2 ∧ Law reached.1 (course reached.1 reached.2) := by
  refine course_run undue begins polls ?_ stale ?_ inputs
  · intro history m f' underway holds idle prepares
    exact readies history _ f' holds idle
      (readying_of_prepares (underway.driver.trans driver) (matches_course history) prepares)
  · intro history m response f' underway holds awaits answers
    have hoptions : m.config.termination = first.config.termination :=
      congrArg (fun kept => kept.1.termination) underway.lasting
    have hstep := step_of_answers (underway.driver.trans driver) (matches_course history)
      (orderly history _ holds) answers
    rw [hoptions] at hstep
    exact steps history m _ f' response underway holds (matches_course history) awaits hstep

theorem spending_new (config : TurnMachineConfig (rlmProtocol T)) (messages : List Message)
    (events : List (SessionEventRecord (rlmProtocol T))) (offset : Nat) (causes : List TurnCause)
    {maxTurns : Nat} (positive : 1 ≤ maxTurns) :
    Spending offset maxTurns 0
      (footing (newSharedWithTurnCauses config messages events offset causes)) := by
  refine .of_running ⟨Nat.le_refl _, Nat.le_add_right _ _, ?_, ?_, ?_⟩ trivial
  · constructor
    · intro h
      cases h
    · intro h
      have hoffset : offset = offset + maxTurns := h
      omega
  · exact Nat.zero_add _
  · change 0 + 4 + 4 * (offset + maxTurns - offset) ≤ _
    omega

theorem spending_run {config : TurnMachineConfig (rlmProtocol T)}
    (driver : config.protocolDriver = rlmDriver host) {maxTurns : Nat}
    (limit : config.maxTurns = some maxTurns) (positive : 1 ≤ maxTurns)
    (messages : List Message) (events : List (SessionEventRecord (rlmProtocol T)))
    (offset : Nat) (causes : List TurnCause)
    (inputs : List (Option (Response (rlmProtocol T)))) :
    let start := newSharedWithTurnCauses config messages events offset causes
    let reached := MachineRuns.after (inputs.map hostCall) start
    Underway start reached.2 ∧
      Spending offset maxTurns (accepted reached.1).length (course reached.1 reached.2) := by
  intro start
  refine @rlm_run T host start driver [] rfl
    (fun history f => Spending offset maxTurns (accepted history).length f) ?_ ?_ ?_ ?_ ?_ ?_ inputs
  · exact spending_new config messages events offset causes positive
  · exact fun _ _ spending => spending.orderly
  · exact fun _ _ _ spending => spending
  · exact fun _ _ _ spending idle readying => spending.ready idle readying
  · intro history m response f spending hstale
    rw [accepted_stale hstale]
    exact spending
  · intro history m f f' response underway spending same awaits step
    rw [accepted_awaited awaits]
    have hunfinished := same.state ▸ state_ne_finished_of_awaits awaits
    exact spending.step ((congrArg (fun kept => kept.1.maxTurns) underway.lasting).trans limit)
      (congrArg Prod.snd underway.lasting) hunfinished step

/-- The iteration that the notice begins runs within its own bounds, however it goes on. -/
theorem last_run (driver : first.config.protocolDriver = rlmDriver host)
    {earlier : List (MachineEntry (rlmProtocol T))}
    (undue : first.activeEffectRedelivery = false) (last : Last called run (course earlier first))
    (inputs : List (Option (Response (rlmProtocol T)))) :
    let reached := Runs.perform MachineRuns.step (inputs.map hostCall) (earlier, first)
    Last called run (course reached.1 reached.2) := by
  refine (@rlm_run T host first driver earlier undue (fun _ f => Last called run f) last ?_ ?_ ?_
    ?_ ?_ inputs).2
  · exact fun _ _ last => last.orderly
  · exact fun _ _ _ last => last
  · exact fun _ _ _ last idle readying => last.ready idle readying
  · exact fun _ _ _ _ last _ => last
  · exact fun _ _ _ _ _ _ last _ _ step => last.step step

/-- Preparing an iteration always queues something. -/
theorem queues_of_readied {reached : TurnMachine (rlmProtocol T)}
    (driver : m.config.protocolDriver = rlmDriver host) (readied : Readied m reached) :
    reached.pendingEffects ≠ [] := by
  obtain ⟨new, worked⟩ := readied.works
  have hidle := TurnLimits.idle_outstanding readied.idle
  have hwaits (waits : reached.state.outstandingEffect.isSome) : reached.pendingEffects ≠ [] := by
    obtain ⟨effect, heffect⟩ := Option.isSome_iff_exists.mp waits
    rw [worked.queued]
    exact ne_nil_of_mem (mem_append_right _
      (TurnLimits.shown_of_works worked hidle effect heffect))
  have hreadying := readying_of_prepares driver ⟨[], rfl⟩ readied.prepares
  generalize hreached : footing reached = f' at hreadying
  have hstate : reached.state = f'.state := congrArg Footing.state hreached
  have hmarks : marksOf reached.pendingEffects = f'.marks := congrArg Footing.marks hreached
  cases hreadying with
  | stopping stop =>
    intro hnil
    rw [hnil] at hmarks
    simp [Footing.close] at hmarks
  | syncing due | asking request driverState => exact hwaits (by rw [hstate]; rfl)

theorem callsOf_course (history : List (MachineEntry (rlmProtocol T)))
    (m : TurnMachine (rlmProtocol T)) :
    callsOf (course history m) = (emitted history m).countP isLlmCall := by
  rw [callsOf, marks_course, countP_isAsked]

theorem executionsOf_course (history : List (MachineEntry (rlmProtocol T)))
    (m : TurnMachine (rlmProtocol T)) :
    executionsOf (course history m) = (emitted history m).countP isExecCode := by
  rw [executionsOf, marks_course, countP_isExecuted]

/-- A turn with a limit calls the model at most once more than the limit says, and once
the notice of the limit is scheduled at most one more model call and one more code block
follow. It takes a bounded number of responses, is never stuck, and a host that keeps
answering finishes it. -/
theorem rlm_turn_ends_within_limit (host : RlmHost T)
    (config : TurnMachineConfig (rlmProtocol T))
    (driver : config.protocolDriver = rlmDriver host) (maxTurns : Nat)
    (limit : config.maxTurns = some maxTurns) (positive : 1 ≤ maxTurns)
    (messages : List Message) (events : List (SessionEventRecord (rlmProtocol T)))
    (offset : Nat) (causes : List TurnCause) :
    let start := newSharedWithTurnCauses config messages events offset causes
    (∀ inputs : List (Option (Response (rlmProtocol T))),
      let (history, m) := MachineRuns.after (inputs.map hostCall) start
      (emitted history m).countP isLlmCall ≤ maxTurns + 1 ∧
        (accepted history).length ≤ 4 * (maxTurns + 1) ∧
        (m.isDone = false → m.pollEffect.1.isSome ∨
          ∃ effect ∈ delivered history, m.state.outstandingEffect = some effect) ∧
        (m.termination.turnLimitFinalScheduled = true →
          ∀ later : List (Option (Response (rlmProtocol T))),
            let (history', m') := MachineRuns.after ((inputs ++ later).map hostCall) start
            (emitted history' m').countP isLlmCall ≤ (emitted history m).countP isLlmCall + 1 ∧
              (emitted history' m').countP isExecCode ≤
                (emitted history m).countP isExecCode + 1)) ∧
      ∀ stream, TurnLimits.KeepsAnswering start stream →
        ∃ k, (TurnLimits.afterFirst start stream k).2.isDone = true := by
  intro start
  have hrun := spending_run driver limit positive messages events offset causes
  constructor
  · intro inputs
    obtain ⟨hunderway, hspending⟩ := hrun inputs
    have hshown := (@shown_run _ start rfl rfl inputs).2
    have hlater (later : List (Option (Response (rlmProtocol T)))) :
        MachineRuns.after ((inputs ++ later).map hostCall) start =
          Runs.perform MachineRuns.step (later.map hostCall)
            (MachineRuns.after (inputs.map hostCall) start) := by
      rw [MachineRuns.after, map_append, Runs.perform_append]
      rfl
    simp only [hlater]
    revert hunderway hspending hshown
    change Underway start (MachineRuns.after (inputs.map hostCall) start).2 → _
    generalize MachineRuns.after (inputs.map hostCall) start = reached
    obtain ⟨history, m⟩ := reached
    intro hunderway hspending hshown
    have hdriver : m.config.protocolDriver = rlmDriver host := hunderway.driver.trans driver
    refine ⟨?_, hspending.responses, fun unfinished => ?_, fun scheduled later => ?_⟩
    · rw [← callsOf_course]
      exact hspending.calls
    · exact delivers_or_waits hunderway.undue hshown unfinished fun _ readied =>
        queues_of_readied hdriver readied
    · have hlast := last_run hdriver hunderway.undue
        (last_of_scheduled (f := course history m) scheduled hspending.orderly) later
      revert hlast
      simp only
      generalize Runs.perform MachineRuns.step (later.map hostCall) (history, m) = ended
      obtain ⟨history', m'⟩ := ended
      intro hlast
      rw [← callsOf_course, ← callsOf_course, ← executionsOf_course, ← executionsOf_course]
      exact ⟨Nat.le_trans (Nat.le_add_right _ _) hlast.calls,
        Nat.le_trans (Nat.le_add_right _ _) hlast.executions⟩
  · intro stream keeps
    exact TurnLimits.finishes_of_bounded
      (fun k => (hrun ((range k).map stream)).2.responses) keeps

end Runs

/-- Types whose JSON values and requests are strings, and whose options say whether a value
is required. -/
@[reducible] def plainTypes : RlmTypes where
  Json := String
  Options := RlmTermination String
  DriverState := RlmDriverState String
  LlmRequest := String

/-- A host whose schemas accept the one value that is written in them. -/
def plainRlmHost : RlmHost plainTypes where
  freshMessageId := fun ctx taken =>
    "m" ++ toString ctx.protocolIteration ++ "_" ++ toString taken
  decodeRlmTerminationOptions := .ok
  rlmDriverState := id
  decodeRlmDriverState := .ok
  compileSchema := fun schema =>
    .ok fun value => if value = schema then none else some ["not " ++ schema]
  llmExtractionPayload := LlmExtraction.decision
  lashlangCodeMessage := id
  toJsonValue := fun _ => "tool value"
  failureToJsonValue := fun _ => "failure"

def rlmConfig (maxTurns : Option Nat) (termination : RlmTermination String) :
    TurnMachineConfig (rlmProtocol plainTypes) where
  protocolDriver := rlmDriver plainRlmHost
  projector := fun _ => "prompt"
  syncExecutionEnvironment := false
  maxContextTokens := none
  maxTurns := maxTurns
  autonomous := false
  toolSpecs := []
  systemPrompt := ""
  sessionId := "s"
  emitLlmTrace := false
  termination := termination
  turnLimitFinalMessage := turnLimitFinalMessage

def rlmMachine (maxTurns : Option Nat) (termination : RlmTermination String) :
    TurnMachine (rlmProtocol plainTypes) :=
  newSharedWithTurnCauses (rlmConfig maxTurns termination) [] [] 0 []

def replyOf (text : String) : LlmResponse (rlmProtocol plainTypes) where
  fullText := text
  parts := []
  usage := ⟨0, 0, 0, 0⟩
  terminalReason := .stop
  terminalDiagnostic := none
  providerUsage := none
  requestBody := none

def nothingDelivered : CheckpointDelivery := ⟨[], [], []⟩

def quietBlock : ExecResponse String := ⟨["1"], [], [], none, none⟩

/-- The only iteration the limit allows runs a cell; the next is the last. -/
def cellThenNotice : List (Option (Response (rlmProtocol plainTypes))) :=
  [none, some (.llmComplete 1 (.ok (replyOf "<lashlang>\nprint 1\n</lashlang>")) true), none,
    some (.execResult 2 (.ok quietBlock)), none, some (.checkpoint 3 nothingDelivered)]

theorem rlm_turn_ends_within_limit_cell :
    let reached := MachineRuns.after (cellThenNotice.map hostCall) (rlmMachine (some 1) .natural)
    reached.2.termination.turnLimitFinalScheduled = true ∧
      (emitted reached.1 reached.2).countP isExecCode = 1 ∧
      (emitted reached.1 reached.2).countP isLlmCall ≤ 1 + 1 :=
  ⟨by decide, by decide,
    ((rlm_turn_ends_within_limit plainRlmHost (rlmConfig (some 1) .natural) rfl 1 rfl
      (Nat.le_refl 1) [] [] 0 []).1 cellThenNotice).1⟩

end RlmTurns
