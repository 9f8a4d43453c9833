import Lash.RlmTurns

/-!
# The outcome of a typed turn

A turn that requires a value of a schema hands its outcome over at a checkpoint, after
a code block proposed it. The value a block finishes with is checked before that; the
value of a tool that ends the turn by itself is not.
-/

namespace RlmOutcomes

open TurnProtocols TurnMachines TurnMachine MachineRuns List
open EffectOrder RlmDrivers TurnFootings Footing RlmTurns
open StandardRuns (pollEntry responseEntry)

variable {T : RlmTypes} {host : RlmHost T} {m m' : TurnMachine (rlmProtocol T)}
  {f f' : Footing (rlmProtocol T)} {history : List (MachineEntry (rlmProtocol T))}

/-- A successful tool of a code block ended the turn with this value. The answer came in, awaited
or not. -/
def EndedByTool (host : RlmHost T) (history : List (MachineEntry (rlmProtocol T)))
    (tool : String) (value : T.Json) : Prop :=
  ∃ entry ∈ history, ∃ id response record control,
    entry.input = .respond (.execResult id (.ok response)) ∧ record ∈ response.toolCalls ∧
      record.output.isSuccess = true ∧ record.output.control = some (.finish control) ∧
      tool = record.tool ∧ value = host.toJsonValue control

/-- A finish that a typed turn may come to. -/
inductive Earned (host : RlmHost T) (schema : T.Json)
    (history : List (MachineEntry (rlmProtocol T))) : TurnFinish (rlmProtocol T) → Prop
  | valid {value : T.Json} (accepted : validateFinishValue host value schema = .ok ()) :
      Earned host schema history (.finalValue value)
  | tool {name : String} {value : T.Json} (ended : EndedByTool host history name value) :
      Earned host schema history (.toolValue name value)

def EarnedOutcome (host : RlmHost T) (schema : T.Json)
    (history : List (MachineEntry (rlmProtocol T))) : TurnOutcome (rlmProtocol T) → Prop
  | .finished finish => Earned host schema history finish
  | _ => True

variable {schema : T.Json} {finish : TurnFinish (rlmProtocol T)}

theorem Earned.mono (earned : Earned host schema history finish)
    (entry : MachineEntry (rlmProtocol T)) : Earned host schema (entry :: history) finish := by
  cases earned with
  | valid accepted => exact .valid accepted
  | tool ended =>
    obtain ⟨found, hmem, hfound⟩ := ended
    exact .tool ⟨found, mem_cons_of_mem _ hmem, hfound⟩

variable {outcome : TurnOutcome (rlmProtocol T)}

theorem EarnedOutcome.mono (earned : EarnedOutcome host schema history outcome)
    (entry : MachineEntry (rlmProtocol T)) :
    EarnedOutcome host schema (entry :: history) outcome := by
  cases outcome with
  | finished finish => exact Earned.mono earned entry
  | _ => trivial

/-- Of a tool record only a `finish` control finishes the turn. -/
theorem finish_of_terminalOutcome {record : ToolCallRecord}
    (ends : terminalOutcomeFromToolResult host record = some (.finished finish)) :
    record.output.isSuccess = true ∧ ∃ control,
      record.output.control = some (.finish control) ∧
        finish = .toolValue record.tool (host.toJsonValue control) := by
  unfold terminalOutcomeFromToolResult at ends
  split at ends
  · rename_i hsuccess
    refine ⟨hsuccess, ?_⟩
    split at ends
    · split at ends <;> cases ends
    · rename_i control hcontrol
      cases ends
      exact ⟨control, hcontrol, rfl⟩
    all_goals cases ends
  · cases ends

/-- Whatever may end a typed turn is earned by the response that proposes it. -/
theorem earned_of_mayEnd {options : T.Options}
    (typed : host.decodeRlmTerminationOptions options = .ok (.finishRequired (some schema)))
    {response : Response (rlmProtocol T)} (may : MayEnd host options response outcome) :
    EarnedOutcome host schema (responseEntry response m :: history) outcome := by
  cases response with
  | llmComplete id result textStreamed =>
    have hnatural := typed.symm.trans may.1
    cases hnatural
  | execResult id result =>
    rcases may with ⟨response, record, rfl, hmem, hends⟩ |
      ⟨value, termination, hdecode, haccepted, rfl⟩
    · cases outcome with
      | finished finish =>
        obtain ⟨hsuccess, control, hcontrol, rfl⟩ := finish_of_terminalOutcome hends
        exact .tool ⟨_, mem_cons_self, id, response, record, control, rfl, hmem,
          hsuccess, hcontrol, rfl, rfl⟩
      | _ => trivial
    · obtain rfl : RlmTermination.finishRequired (some schema) = termination :=
        Except.ok.inj (typed.symm.trans hdecode)
      refine .valid ?_
      simp only [finishValueError] at haccepted
      cases hvalidate : validateFinishValue host value schema with
      | error error =>
        rw [hvalidate] at haccepted
        cases haccepted
      | ok _ => rfl
  | _ => exact may.elim

/-- The outcomes a typed turn has come to or is about to complete with are earned. -/
structure Typed (host : RlmHost T) (schema : T.Json)
    (history : List (MachineEntry (rlmProtocol T))) (f : Footing (rlmProtocol T)) : Prop where
  orderly : Orderly f.state
  ended : ∀ outcome, .ended outcome ∈ f.marks → EarnedOutcome host schema history outcome
  pending : ∀ id checkpoint outcome, f.state = .waitingCheckpoint id checkpoint (.finish outcome) →
    EarnedOutcome host schema history outcome

theorem Typed.mono (typed : Typed host schema history f) (entry : MachineEntry (rlmProtocol T)) :
    Typed host schema (entry :: history) f where
  orderly := typed.orderly
  ended := fun outcome h => (typed.ended outcome h).mono entry
  pending := fun id checkpoint outcome h => (typed.pending id checkpoint outcome h).mono entry

theorem Typed.closes (typed : Typed host schema history f) (marks : f'.marks = f.marks)
    (earned : EarnedOutcome host schema history outcome) :
    Typed host schema history (f'.close outcome) where
  orderly := trivial
  ended := by
    intro found hfound
    rcases mem_append.mp (show _ ∈ f'.marks ++ [.ended outcome] from hfound) with h | h
    · exact typed.ended found (marks ▸ h)
    · cases mem_singleton.mp h
      exact earned
  pending := fun _ _ _ h => by cases h

/-- A footing that completes nothing and marks no outcome stays typed. -/
theorem Typed.stays (typed : Typed host schema history f) (orderly : Orderly f'.state)
    (marks : ∀ outcome, .ended outcome ∈ f'.marks → .ended outcome ∈ f.marks)
    (idle : ∀ id checkpoint outcome, f'.state ≠ .waitingCheckpoint id checkpoint (.finish outcome))
    :
    Typed host schema history f' where
  orderly := orderly
  ended := fun outcome h => typed.ended outcome (marks outcome h)
  pending := fun id checkpoint outcome h => absurd h (idle id checkpoint outcome)

theorem ended_mem_start {state : EffectId → MachineState (rlmProtocol T)}
    {marks : List (Mark (rlmProtocol T))} (none : .ended outcome ∉ marks)
    (h : .ended outcome ∈ (f.start state marks).marks) : .ended outcome ∈ f.marks :=
  (List.mem_append.mp h).resolve_right none

theorem Typed.step (typed : Typed host schema history f) {ends : TurnOutcome (rlmProtocol T) → Prop}
    (earned : ∀ outcome, ends outcome → EarnedOutcome host schema history outcome)
    (step : Step m f ends f') : Typed host schema history f' := by
  have horderly := step.orderly
  cases step with
  | stopping stop | exhausted => exact typed.closes rfl trivial
  | synced waiting => exact typed.stays horderly (fun _ h => h) (fun _ _ _ h => by cases h)
  | running waiting code next =>
    exact typed.stays horderly (fun _ h => ended_mem_start (by simp) h) fun _ _ _ h => by cases h
  | turned waiting turns =>
    cases turns with
    | stopping stop | exhausted => exact typed.closes rfl trivial
    | pausing open_ =>
      refine typed.stays horderly (fun _ h => ?_) fun _ _ _ h => by cases h
      simpa [Footing.start, counted] using h
    | completing may =>
      refine ⟨horderly, fun outcome h => typed.ended outcome (ended_mem_start (by simp) h), ?_⟩
      intro id checkpoint outcome h
      cases h
      exact earned _ may
  | completed waiting => exact typed.closes rfl (typed.pending _ _ _ waiting)
  | resumed waiting | continued waiting open_ =>
    exact typed.stays horderly (fun _ h => h) fun _ _ _ h => by cases h

theorem Typed.ready (typed : Typed host schema history f) (readying : Readying f f') :
    Typed host schema history f' := by
  have horderly := readying.orderly
  cases readying with
  | stopping stop => exact typed.closes rfl trivial
  | syncing due | asking request driverState =>
    exact typed.stays horderly (fun _ h => ended_mem_start (by simp) h) fun _ _ _ h => by cases h

theorem typed_run {config : TurnMachineConfig (rlmProtocol T)}
    (driver : config.protocolDriver = rlmDriver host)
    (typed : host.decodeRlmTerminationOptions config.termination =
      .ok (.finishRequired (some schema))) (messages : List Message)
    (events : List (SessionEventRecord (rlmProtocol T))) (offset : Nat) (causes : List TurnCause)
    (inputs : List (Option (Response (rlmProtocol T)))) :
    let start := newSharedWithTurnCauses config messages events offset causes
    let reached := after (inputs.map hostCall) start
    Underway start reached.2 ∧ Typed host schema reached.1 (course reached.1 reached.2) := by
  intro start
  refine @rlm_run T host start driver [] rfl (Typed host schema) ?_ ?_ ?_ ?_ ?_ ?_ inputs
  · exact ⟨trivial, (fun _ h => by cases h), (fun _ _ _ h => by cases h)⟩
  · exact fun _ _ typed => typed.orderly
  · exact fun _ m _ typed => typed.mono (pollEntry m)
  · exact fun _ _ _ typed _ readying => typed.ready readying
  · exact fun _ m response _ typed _ => typed.mono (responseEntry response m)
  · intro history m f f' response _ holds _ _ step
    exact (holds.mono (responseEntry response m)).step
      (fun _ may => earned_of_mayEnd typed may) step

section Rejections

/-- The first that happened since, if anything did, was another model call, or the turn was
stopped. -/
def RetriedSince (earlier now : List (Mark (rlmProtocol T))) : Prop :=
  ∃ more, now = earlier ++ more ∧ ∀ mark, more.head? = some mark →
    isAsked mark = true ∨ ∃ stop, mark = .ended (.stopped stop)

/-- After a value was rejected: nothing happened yet and the next iteration is under way,
or the model was asked again, or the turn was stopped. -/
structure Rejected (earlier : List (Mark (rlmProtocol T))) (f : Footing (rlmProtocol T)) :
    Prop where
  orderly : Orderly f.state
  retried : RetriedSince earlier f.marks
  waits : f.marks = earlier → (∃ id, f.state = .waitingCheckpoint id .afterWork .prepareIteration) ∨
    f.state = .prepareIteration ∨ ∃ id update, f.state = .waitingExecutionEnvironment id update

variable {earlier : List (Mark (rlmProtocol T))} {more : List (Mark (rlmProtocol T))}

/-- What happened first stays first. -/
theorem RetriedSince.grows {now : List (Mark (rlmProtocol T))} (retried : RetriedSince earlier now)
    (since : now ≠ earlier) : RetriedSince earlier (now ++ more) := by
  obtain ⟨first, rfl, hfirst⟩ := retried
  refine ⟨first ++ more, append_assoc _ _ _, fun mark hmark => hfirst mark ?_⟩
  cases first with
  | nil => exact absurd (append_nil _) since
  | cons mark' rest => exact hmark

theorem Rejected.grows (rejected : Rejected earlier f) (since : f.marks ≠ earlier)
    (orderly : Orderly f'.state) (marks : f'.marks = f.marks ++ more) : Rejected earlier f' where
  orderly := orderly
  retried := marks ▸ rejected.retried.grows since
  waits := by
    intro same
    obtain ⟨first, hfirst, _⟩ := rejected.retried
    have hlength := congrArg length same
    rw [marks, hfirst] at hlength
    simp only [length_append] at hlength
    have hnil : first = [] := eq_nil_of_length_eq_zero (by omega)
    rw [hnil, append_nil] at hfirst
    exact absurd hfirst since

theorem Rejected.waits_on (rejected : Rejected earlier f) (same : f'.marks = f.marks)
    (orderly : Orderly f'.state)
    (waits : (∃ id, f'.state = .waitingCheckpoint id .afterWork .prepareIteration) ∨
      f'.state = .prepareIteration ∨
      ∃ id update, f'.state = .waitingExecutionEnvironment id update) :
    Rejected earlier f' :=
  ⟨orderly, same ▸ rejected.retried, fun _ => waits⟩

theorem rejected_of_first {mark : Mark (rlmProtocol T)} (same : f.marks = earlier)
    (orderly : Orderly f'.state) (marks : f'.marks = f.marks ++ [mark])
    (first : isAsked mark = true ∨ ∃ stop, mark = .ended (.stopped stop)) :
    Rejected earlier f' where
  orderly := orderly
  retried := ⟨[mark], same ▸ marks, fun found hfound => by
    cases hfound
    exact first⟩
  waits := fun hsame => by
    have hlength := congrArg length (hsame.symm.trans marks)
    simp [same] at hlength

theorem Rejected.closes (rejected : Rejected earlier f) {stop : TurnStop (rlmProtocol T)}
    (marks : f'.marks = f.marks) : Rejected earlier (f'.close (.stopped stop)) := by
  have hmarks : (f'.close (.stopped stop)).marks = f.marks ++ [.ended (.stopped stop)] := by
    rw [← marks]
    rfl
  by_cases hsame : f.marks = earlier
  · exact rejected_of_first hsame trivial hmarks (.inr ⟨stop, rfl⟩)
  · exact rejected.grows hsame trivial hmarks

theorem Rejected.step (rejected : Rejected earlier f) {ends : TurnOutcome (rlmProtocol T) → Prop}
    (step : Step m f ends f') : Rejected earlier f' := by
  have horderly := step.orderly
  by_cases hsame : f.marks = earlier
  · have hwaits := rejected.waits hsame
    cases step with
    | stopping stop | exhausted => exact rejected.closes rfl
    | synced waiting | resumed waiting => exact rejected.waits_on rfl horderly (.inr (.inl rfl))
    | running waiting | completed waiting | continued waiting =>
      rw [waiting] at hwaits
      simp at hwaits
    | turned waiting turns =>
      rcases waiting with ⟨_, _, _, h⟩ | ⟨_, _, _, _, h⟩ <;> rw [h] at hwaits <;> simp at hwaits
  · cases step with
    | stopping stop | exhausted => exact rejected.closes rfl
    | synced waiting | resumed waiting | continued waiting =>
      exact rejected.grows hsame horderly (append_nil _).symm
    | completed waiting | running waiting code next => exact rejected.grows hsame horderly rfl
    | turned waiting turns =>
      cases turns with
      | stopping stop | exhausted => exact rejected.closes rfl
      | pausing open_ | completing may => exact rejected.grows hsame horderly rfl

theorem Rejected.ready (rejected : Rejected earlier f) (readying : Readying f f') :
    Rejected earlier f' := by
  have horderly := readying.orderly
  cases readying with
  | stopping stop => exact rejected.closes rfl
  | @syncing update due =>
    exact rejected.waits_on (append_nil _) horderly (.inr (.inr ⟨_, update, rfl⟩))
  | asking request driverState =>
    by_cases hsame : f.marks = earlier
    · exact rejected_of_first hsame horderly rfl (.inl rfl)
    · exact rejected.grows hsame horderly rfl

/-- A block that no tool of it made terminal, and whose value the schema rejects. -/
structure Rejects (host : RlmHost T) (schema : T.Json) (response : ExecResponse T.Json) : Prop where
  open_ : ∀ record ∈ response.toolCalls, terminalOutcomeFromToolResult host record = none
  invalid : ∃ value error, response.terminalFinish = some value ∧
    validateFinishValue host value schema = .error error

/-- A rejected value completes nothing. -/
theorem decided_of_rejects {response : ExecResponse T.Json} (rejects : Rejects host schema response)
    (same : Matches m f) (typed : host.decodeRlmTerminationOptions m.config.termination =
      .ok (.finishRequired (some schema))) (waiting : WaitingExecState (rlmProtocol T)) :
    Turns m f (fun _ => False)
      (decided m f (RlmDrivers.handleExecResult host m.driverContext waiting (.ok response))) := by
  obtain ⟨value, error, hfinish, hinvalid⟩ := rejects.invalid
  have hopen : response.toolCalls.findSome? (terminalOutcomeFromToolResult host) = none :=
    findSome?_eq_none_iff.mpr rejects.open_
  unfold RlmDrivers.handleExecResult
  split
  · exact turns_runtimeError _ _ _ _
  · rename_i state _
    simp only [hopen]
    have hterminal : (state.takeResponse response).terminalFinish = some value := by
      simp [RlmDriverState.takeResponse, hfinish]
    have hdecode : host.decodeRlmTerminationOptions m.driverContext.termination =
        .ok (.finishRequired (some schema)) := typed
    have herror : finishValueError host value (.finishRequired (some schema)) = some error := by
      simp only [finishValueError, hinvalid]
    simp only [afterExecution, hterminal, finishActions, hdecode, herror]
    exact turns_nonterminal (by simp) same _ _ _

theorem rejected_of_turns (turns : Turns m f (fun _ => False) f') : Rejected f.marks f' := by
  have horderly := turns.orderly
  cases turns with
  | stopping stop => exact rejected_of_first rfl horderly rfl (.inr ⟨stop, rfl⟩)
  | exhausted => exact rejected_of_first rfl horderly rfl (.inr ⟨.maxTurns, rfl⟩)
  | pausing open_ =>
    have hmarks : (({ counted f with termination := ⟨lastIteration m f⟩ } : Footing _).start
        (.waitingCheckpoint · .afterWork .prepareIteration) []).marks = f.marks :=
      append_nil _
    exact ⟨horderly, ⟨[], by rw [hmarks, append_nil], by simp⟩, fun _ => .inl ⟨_, rfl⟩⟩
  | completing may => exact may.elim

theorem rejected_run {first : TurnMachine (rlmProtocol T)}
    (driver : first.config.protocolDriver = rlmDriver host)
    {done : List (MachineEntry (rlmProtocol T))} (undue : first.activeEffectRedelivery = false)
    (rejected : Rejected earlier (course done first))
    (inputs : List (Option (Response (rlmProtocol T)))) :
    let reached := Runs.perform MachineRuns.step (inputs.map hostCall) (done, first)
    Rejected earlier (course reached.1 reached.2) := by
  refine (@rlm_run T host first driver done undue (fun _ f => Rejected earlier f) rejected ?_ ?_ ?_
    ?_ ?_ inputs).2
  · exact fun _ _ rejected => rejected.orderly
  · exact fun _ _ _ rejected => rejected
  · exact fun _ _ _ rejected _ readying => rejected.ready readying
  · exact fun _ _ _ _ rejected _ => rejected
  · exact fun _ _ _ _ _ _ rejected _ _ step => rejected.step step

end Rejections

theorem mem_marksOf_outcome {effects : List (Effect (rlmProtocol T))}
    (h : .emit (.turnOutcome outcome) ∈ effects) : .ended outcome ∈ marksOf effects :=
  List.mem_filterMap.mpr ⟨_, h, rfl⟩

/-- A typed turn finishes with a value its schema accepts, or with the value of a tool that
ended it by itself; prose never finishes it. After a value that the schema rejects, and
that no tool went ahead of, the model is asked again before anything else, or the turn is
stopped. -/
theorem typed_turns_are_sound (host : RlmHost T) (config : TurnMachineConfig (rlmProtocol T))
    (driver : config.protocolDriver = rlmDriver host) (schema : T.Json)
    (typed : host.decodeRlmTerminationOptions config.termination =
      .ok (.finishRequired (some schema)))
    (messages : List Message) (events : List (SessionEventRecord (rlmProtocol T)))
    (offset : Nat) (causes : List TurnCause)
    (inputs : List (Option (Response (rlmProtocol T)))) :
    let start := newSharedWithTurnCauses config messages events offset causes
    let (history, m) := MachineRuns.after (inputs.map hostCall) start
    (∀ finish, .emit (.turnOutcome (.finished finish)) ∈ emitted history m →
      (∃ value, finish = .finalValue value ∧ validateFinishValue host value schema = .ok ()) ∨
        ∃ tool value, finish = .toolValue tool value ∧ EndedByTool host history tool value) ∧
    (∀ text, .emit (.turnOutcome (.finished (.assistantMessage text))) ∉ emitted history m) ∧
    ∀ id response, Awaits m (.execResult id (.ok response)) → Rejects host schema response →
      ∀ later : List (Option (Response (rlmProtocol T))),
        let (history', m') := MachineRuns.after
          ((inputs ++ some (.execResult id (.ok response)) :: later).map hostCall) start
        RetriedSince (marksOf (emitted history m)) (marksOf (emitted history' m')) := by
  intro start
  obtain ⟨hunderway, hlaw⟩ := typed_run driver typed messages events offset causes inputs
  have hsplit (answer : Option (Response (rlmProtocol T)))
      (later : List (Option (Response (rlmProtocol T)))) :
      after ((inputs ++ answer :: later).map hostCall) start =
        Runs.perform MachineRuns.step (later.map hostCall)
          (Runs.perform MachineRuns.step [hostCall answer]
            (after (inputs.map hostCall) start)) := by
    rw [MachineRuns.after, map_append, Runs.perform_append]
    rfl
  simp only [hsplit]
  revert hunderway hlaw
  change Underway start (after (inputs.map hostCall) start).2 → _
  generalize after (inputs.map hostCall) start = reached
  obtain ⟨history, m⟩ := reached
  intro hunderway hlaw
  have hearned (finish : TurnFinish (rlmProtocol T))
      (h : .emit (.turnOutcome (.finished finish)) ∈ emitted history m) :
      Earned host schema history finish := by
    refine hlaw.ended (.finished finish) ?_
    rw [marks_course]
    exact mem_marksOf_outcome h
  refine ⟨fun finish h => ?_, fun text h => ?_, fun id response awaits rejects later => ?_⟩
  · cases hearned finish h with
    | valid accepted => exact .inl ⟨_, rfl, accepted⟩
    | tool ended => exact .inr ⟨_, _, rfl, ended⟩
  · cases hearned _ h
  · have hdriver : m.config.protocolDriver = rlmDriver host := hunderway.driver.trans driver
    have hoptions : m.config.termination = config.termination :=
      congrArg (fun kept => kept.1.termination) hunderway.lasting
    have hstep : (MachineRuns.step (hostCall (some (.execResult id (.ok response)))) m).2 =
        m.answer (.execResult id (.ok response)) :=
      StandardRuns.handleResponse_undue (m := m) hunderway.undue (.execResult id (.ok response))
    have hanswers := @course_answer _ m history _ awaits
    have hrejected : Rejected (course history m).marks
        (course (responseEntry (.execResult id (.ok response)) m :: history)
          (m.answer (.execResult id (.ok response)))) := by
      generalize course (responseEntry (.execResult id (.ok response)) m :: history)
        (m.answer (.execResult id (.ok response))) = f' at hanswers
      cases hanswers with
      | stopping stop => exact rejected_of_first rfl trivial rfl (.inr ⟨stop, rfl⟩)
      | ran result waiting =>
        rw [hdriver, handleExecResult_rlmDriver]
        exact rejected_of_turns (decided_of_rejects rejects (matches_course history)
          (by rw [hoptions]; exact typed) _)
    have hundue : (m.answer (.execResult id (.ok response))).activeEffectRedelivery = false := by
      obtain ⟨new, hworked⟩ := works_answer_of_awaits awaits
      exact hworked.redelivery.trans hunderway.undue
    have hdriver' : (m.answer (.execResult id (.ok response))).config.protocolDriver =
        rlmDriver host := by
      obtain ⟨new, hworked⟩ := works_answer_of_awaits awaits
      exact (driver_of_fixed hworked.lasting).trans hdriver
    have hrun := rejected_run hdriver' hundue hrejected later
    rw [marks_course] at hrun
    have hperform : Runs.perform MachineRuns.step
        [hostCall (some (.execResult id (.ok response)))] (history, m) =
          (responseEntry (.execResult id (.ok response)) m :: history,
            m.answer (.execResult id (.ok response))) := by
      simp only [Runs.perform]
      rw [hstep]
      rfl
    rw [hperform]
    have hretried := hrun.retried
    rw [marks_course] at hretried
    exact hretried

/-- A tool of the cell ends the turn with a value of its own. -/
def finishingTool : ExecResponse String where
  observations := []
  toolCalls := [⟨"finish_result", ⟨.success .null, some (.finish .null)⟩⟩]
  printedImages := []
  error := none
  terminalFinish := none

def finishedByTool : List (Option (Response (rlmProtocol plainTypes))) :=
  [none, none,
    some (.llmComplete 1 (.ok (replyOf "<lashlang>\nfinish_result()\n</lashlang>")) true),
    none, some (.execResult 2 (.ok finishingTool)), none,
    some (.checkpoint 3 nothingDelivered), none, none]

/-- The schema accepts `1` alone, and the turn is finished with another value. -/
theorem typed_turn_finishes_unchecked :
    let reached := MachineRuns.after (finishedByTool.map hostCall)
      (rlmMachine none (.finishRequired (some "1")))
    (∃ value, validateFinishValue plainRlmHost value "1" ≠ .ok () ∧
      ((marksOf (emitted reached.1 reached.2)).any fun
        | .ended (.finished (.toolValue _ found)) => decide (found = value)
        | _ => false) = true) ∧ reached.2.isDone = true :=
  ⟨⟨"tool value", by decide, by decide⟩, by decide⟩

/-- The first value is rejected, and the model is asked again. -/
def rejectedValue : ExecResponse String where
  observations := []
  toolCalls := []
  printedImages := []
  error := none
  terminalFinish := some "2"

def finishesWithTwo : List (Option (Response (rlmProtocol plainTypes))) :=
  [none, none, some (.llmComplete 1 (.ok (replyOf "<lashlang>\nfinish 2\n</lashlang>")) true), none]

theorem typed_turns_are_sound_rejected :
    let reached := MachineRuns.after (finishesWithTwo.map hostCall)
      (rlmMachine none (.finishRequired (some "1")))
    Awaits reached.2 (.execResult 2 (.ok rejectedValue)) ∧
      ∀ text, .emit (.turnOutcome (.finished (.assistantMessage text))) ∉
        emitted reached.1 reached.2 :=
  ⟨by decide, (typed_turns_are_sound plainRlmHost
    (rlmConfig none (.finishRequired (some "1"))) rfl "1" rfl [] [] 0 [] finishesWithTwo).2.1⟩

end RlmOutcomes
