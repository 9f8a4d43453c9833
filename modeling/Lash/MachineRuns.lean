import Lash.MachineSteps

/-!
# Runs of a turn machine

A host polls, responds, stops the turn on its own account, or takes a checkpoint
and goes on with the machine restored from it. A run is any sequence of these
calls. The effects that the polls of a run returned are what was delivered.
-/

namespace MachineRuns

open TurnProtocols TurnMachines TurnMachine MachineSteps

variable {M : TurnProtocol} {m : TurnMachine M}

inductive Call (M : TurnProtocol) where
  | poll
  | respond (response : Response M)
  | failTurn (event : SessionEvent M)
  | finishWithOutcome (outcome : TurnOutcome M)
  | applyActions (actions : List (DriverAction M))
  | restart

/-- The machine restored, with its own configuration, from its checkpoint. -/
def restarted (m : TurnMachine M) : TurnMachine M :=
  restoreFromCheckpoint m.config m.checkpoint

def step : Call M → TurnMachine M → Option (Effect M) × TurnMachine M
  | .poll, m => m.pollEffect
  | .respond response, m => (none, m.handleResponse response)
  | .failTurn event, m => (none, m.failTurn event)
  | .finishWithOutcome outcome, m => (none, m.finishWithOutcome outcome)
  | .applyActions actions, m => (none, m.applyActions actions)
  | .restart, m => (none, restarted m)

abbrev MachineEntry (M : TurnProtocol) :=
  Runs.Entry (Call M) (TurnMachine M) (Option (Effect M))

/-- The delivered effects of a history, oldest first. -/
def delivered : List (MachineEntry M) → List (Effect M)
  | [] => []
  | entry :: older => delivered older ++ entry.output.toList

/-- The history and the machine after these calls on a new machine. -/
def after (calls : List (Call M)) (start : TurnMachine M) :
    List (MachineEntry M) × TurnMachine M :=
  Runs.perform step calls ([], start)

theorem run_after (calls : List (Call M)) (start : TurnMachine M) :
    Runs.Run step start (after calls start).1 (after calls start).2 :=
  Runs.Run.perform .nil calls

def settled (m : TurnMachine M) : TurnMachine M := { m with activeEffectRedelivery := false }

/-- What a poll can do: return the head of the queue, deliver the outstanding
effect again, let the machine prepare and return the head of what that queued,
or find nothing. -/
inductive Polled (m : TurnMachine M) : Option (Effect M) → TurnMachine M → Prop
  | queued {effect : Effect M} {rest : List (Effect M)}
      (queue : m.pendingEffects = effect :: rest) :
      Polled m (some effect) { m with pendingEffects := rest }
  | due {effect : Effect M} (queue : m.pendingEffects = [])
      (redelivery : m.activeEffectRedelivery = true)
      (outstanding : m.state.outstandingEffect = some effect) :
      Polled m (some effect) (settled m)
  | prepared {m' : TurnMachine M} (queue : m.pendingEffects = [])
      (idle : m.state.outstandingEffect = none)
      (unfinished : m.isDone = false) (works : Works (settled m) m') :
      Polled m m'.popFront.1 m'.popFront.2
  | idle (queue : m.pendingEffects = [])
      (redelivery : m.activeEffectRedelivery = true → m.state.outstandingEffect = none)
      (still : m.isDone = true ∨ m.state.outstandingEffect.isSome) : Polled m none (settled m)

theorem settled_eq (h : m.activeEffectRedelivery = false) : settled m = m := by
  cases m
  cases h
  rfl

theorem polled_prepare (queue : m.pendingEffects = [])
    (redelivery : m.activeEffectRedelivery = true → m.state.outstandingEffect = none) :
    Polled m (settled m).prepare.1 (settled m).prepare.2 := by
  cases hstate : m.state with
  | preparingProtocol =>
    have hprepare : (settled m).prepare = (settled m).prepareProtocol.popFront := by
      simp only [prepare, settled, hstate]
    rw [hprepare]
    exact .prepared queue (by rw [hstate]; rfl) (by simp [isDone, hstate])
      works_prepareProtocol
  | prepareIteration =>
    have hprepare : (settled m).prepare = (settled m).prepareProtocolIteration.popFront := by
      simp only [prepare, settled, hstate]
    rw [hprepare]
    exact .prepared queue (by rw [hstate]; rfl) (by simp [isDone, hstate])
      works_prepareProtocolIteration
  | finished =>
    have hprepare : (settled m).prepare = (none, settled m) := by
      simp only [prepare, settled, hstate]
    rw [hprepare]
    exact .idle queue redelivery (.inl (by simp [isDone, hstate]))
  | _ =>
    have hprepare : (settled m).prepare = (none, settled m) := by
      simp only [prepare, settled, hstate]
    rw [hprepare]
    exact .idle queue redelivery (.inr (by rw [hstate]; rfl))

variable {rest : List (Effect M)} {effect : Effect M}

theorem pollEffect_cons (queue : m.pendingEffects = effect :: rest) :
    m.pollEffect = (some effect, { m with pendingEffects := rest }) := by
  simp only [pollEffect, queue]

theorem pollEffect_due (queue : m.pendingEffects = [])
    (redelivery : m.activeEffectRedelivery = true)
    (outstanding : m.state.outstandingEffect = some effect) :
    m.pollEffect = (some effect, settled m) := by
  simp [pollEffect, queue, redelivery, outstanding, settled]

theorem pollEffect_prepare (queue : m.pendingEffects = [])
    (redelivery : m.activeEffectRedelivery = true → m.state.outstandingEffect = none) :
    m.pollEffect = (settled m).prepare := by
  cases hflag : m.activeEffectRedelivery with
  | false => simp [pollEffect, queue, hflag, settled_eq hflag]
  | true => simp [pollEffect, queue, hflag, redelivery hflag, settled]

theorem polled (m : TurnMachine M) : Polled m m.pollEffect.1 m.pollEffect.2 := by
  cases hqueue : m.pendingEffects with
  | cons effect rest =>
    rw [pollEffect_cons hqueue]
    exact .queued hqueue
  | nil =>
    by_cases hdue : m.activeEffectRedelivery = true → m.state.outstandingEffect = none
    · rw [pollEffect_prepare hqueue hdue]
      exact polled_prepare hqueue hdue
    · obtain ⟨hflag, hsome⟩ := Classical.not_imp.mp hdue
      obtain ⟨effect, houtstanding⟩ := Option.ne_none_iff_exists'.mp hsome
      rw [pollEffect_due hqueue hflag houtstanding]
      exact .due hqueue hflag houtstanding

/-- A call other than a poll or a restart is the work of one call, on the machine
as it is or with its redelivery flag cleared. -/
theorem works_step {call : Call M} (hpoll : call ≠ .poll) (hrestart : call ≠ .restart) :
    (step call m).1 = none ∧ (Works m (step call m).2 ∨ Works (settled m) (step call m).2) := by
  cases call with
  | poll => exact absurd rfl hpoll
  | restart => exact absurd rfl hrestart
  | respond response => exact ⟨rfl, .inr (works_answer response)⟩
  | failTurn event => exact ⟨rfl, .inl (works_failTurn event)⟩
  | finishWithOutcome outcome => exact ⟨rfl, .inl (works_finish outcome)⟩
  | applyActions actions => exact ⟨rfl, .inl (works_applyActions actions)⟩

theorem popFront_cons (queue : m.pendingEffects = effect :: rest) :
    m.popFront = (some effect, { m with pendingEffects := rest }) := by
  simp only [popFront, queue]

theorem popFront_nil (queue : m.pendingEffects = []) : m.popFront = (none, m) := by
  simp only [popFront, queue]

/-- Taking the head of the queue moves it from one list to the other. -/
theorem popFront_queue (m : TurnMachine M) :
    m.popFront.1.toList ++ m.popFront.2.pendingEffects = m.pendingEffects := by
  cases hqueue : m.pendingEffects with
  | nil => simp [popFront_nil hqueue, hqueue]
  | cons effect rest => simp [popFront_cons hqueue]

/-- A response the machine is waiting for: its kind and its id are those of the
outstanding effect. -/
def awaits : MachineState M → Response M → Bool
  | .waitingExecutionEnvironment effectId _, .executionEnvironmentSynced id _ => effectId == id
  | .waitingLlm effectId _ _, .llmComplete id _ _ => effectId == id
  | .waitingTools effectId _, .toolResults id _ => effectId == id
  | .waitingExec effectId _ _ _, .execResult id _ => effectId == id
  | .waitingCheckpoint effectId _ _, .checkpoint id _ => effectId == id
  | _, _ => false

abbrev Awaits (m : TurnMachine M) (response : Response M) : Prop :=
  awaits m.state response = true

variable {response : Response M}

/-- The handlers pass a response over that they do not await. -/
theorem answer_of_not_awaits (stale : ¬ Awaits m response) : m.answer response = m := by
  cases hstate : m.state <;> cases response <;>
    simp_all [awaits, answer, handleExecutionEnvironmentSynced, handleLlmComplete,
      TurnMachine.handleToolResults, TurnMachine.handleExecResult, handleCheckpoint]

theorem handleResponse_of_not_awaits (stale : ¬ Awaits m response) :
    m.handleResponse response = settled m := by
  have hstale : ¬ Awaits (settled m) response := stale
  exact answer_of_not_awaits hstale

/-- A protocol with nothing of its own, whose requests and values are strings. -/
@[reducible] def unitProtocol : TurnProtocol where
  Event := Unit
  Termination := Unit
  DriverState := Unit
  Json := String
  LlmRequest := String
  ExecResponse := Unit

/-- Drivers of it, by what they answer to the start of an iteration and to a
response. -/
def scripted (prepared answered : List (DriverAction unitProtocol)) :
    TurnMachineConfig unitProtocol where
  protocolDriver :=
    { prepareProtocolIteration := fun _ => prepared
      handleLlmSuccess := fun _ _ _ _ => answered
      handleToolResults := fun _ _ => answered
      handleExecResult := fun _ _ _ => answered }
  projector := fun _ => "prompt"
  syncExecutionEnvironment := false
  maxContextTokens := none
  maxTurns := none
  autonomous := false
  toolSpecs := []
  systemPrompt := ""
  sessionId := "s"
  emitLlmTrace := false
  termination := ()
  turnLimitFinalMessage := fun id _ => ⟨id, .system, [], none⟩

def scriptedMachine (prepared answered : List (DriverAction unitProtocol)) :
    TurnMachine unitProtocol :=
  newSharedWithTurnCauses (scripted prepared answered) [] [] 0 []

end MachineRuns
