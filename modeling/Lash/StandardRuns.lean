import Lash.StandardSteps

/-!
# Runs on the standard driver

A poll takes the head of the queue, after the machine has prepared an iteration
if there was nothing to take. So a run is a sequence of preparations and of
answers to awaited responses, and what each of the two keeps holds after every
run.
-/

namespace StandardRuns

open TurnProtocols TurnMachines TurnMachine MachineSteps MachineRuns EffectOrder
open StandardDrivers StandardSteps

variable {M : TurnProtocol} {host : DriverHost M} {m m' : TurnMachine M}
  {history : List (MachineEntry M)}

/-- What an idle machine does when it is polled: it asks for the environment, or the
model. -/
inductive Prepared (m m' : TurnMachine M) : Prop
  | syncing {id : EffectId} {update : Bool}
      (after : standing m' = { standing m with
        state := .waitingExecutionEnvironment id update })
      (due : m.state = .preparingProtocol ∨
        m.syncedProtocolIteration ≠ some m.protocolIteration)
  | asking {id : EffectId}
      (after : standing m' = { standing m with
        state := .waitingLlm id (m.projectLlmRequest true) none
        requests := requestsOf m.pendingEffects ++ [m.projectLlmRequest true] })

theorem prepared_prepareProtocolIteration
    (driver : m.config.protocolDriver = standardDriver host) :
    Prepared m m.prepareProtocolIteration := by
  unfold TurnMachine.prepareProtocolIteration
  split
  · rename_i hsync
    exact .syncing (standing_startSync true) (.inr hsync.2)
  · rw [driver]
    exact .asking (standing_startLlmRequest _ none)

theorem prepared_prepareProtocol (driver : m.config.protocolDriver = standardDriver host)
    (state : m.state = .preparingProtocol) : Prepared m m.prepareProtocol := by
  unfold prepareProtocol
  split
  · exact .syncing (standing_startSync false) (.inl state)
  · exact prepared_prepareProtocolIteration driver

/-- What a poll takes its effect from: the machine as it is, or the machine prepared. -/
inductive Source (m : TurnMachine M) : TurnMachine M → Prop
  | same (busy : m.pendingEffects ≠ [] ∨ m.isDone = true ∨ m.state.outstandingEffect.isSome) :
      Source m m
  | ready {m' : TurnMachine M} (queue : m.pendingEffects = [])
      (idle : m.state = .preparingProtocol ∨ m.state = .prepareIteration)
      (works : Works m m') (prepared : Prepared m m') : Source m m'

/-- A poll takes an effect from the machine as it is, or prepares an idle machine first. -/
theorem pollEffect_cases (undue : m.activeEffectRedelivery = false) :
    (m.pollEffect = m.popFront ∧
        (m.pendingEffects ≠ [] ∨ m.isDone = true ∨ m.state.outstandingEffect.isSome)) ∨
      (m.pendingEffects = [] ∧
        (m.state = .preparingProtocol ∧ m.pollEffect = m.prepareProtocol.popFront ∨
          m.state = .prepareIteration ∧ m.pollEffect = m.prepareProtocolIteration.popFront)) := by
  cases hqueue : m.pendingEffects with
  | cons effect rest =>
    refine .inl ⟨?_, .inl (List.cons_ne_nil _ _)⟩
    rw [pollEffect_cons hqueue, popFront_cons hqueue]
  | nil =>
    have hpoll := pollEffect_prepare hqueue fun h => by rw [undue] at h; cases h
    rw [settled_eq undue] at hpoll
    have hsame (hprepare : m.prepare = (none, m)) : m.pollEffect = m.popFront := by
      rw [hpoll, hprepare, popFront_nil hqueue]
    cases hstate : m.state with
    | preparingProtocol =>
      refine .inr ⟨rfl, .inl ⟨rfl, ?_⟩⟩
      rw [hpoll]
      simp only [prepare, hstate]
    | prepareIteration =>
      refine .inr ⟨rfl, .inr ⟨rfl, ?_⟩⟩
      rw [hpoll]
      simp only [prepare, hstate]
    | finished =>
      exact .inl ⟨hsame (by simp only [prepare, hstate]), .inr (.inl (isDone_iff.mpr hstate))⟩
    | _ => exact .inl ⟨hsame (by simp only [prepare, hstate]), .inr (.inr rfl)⟩

theorem source_of_poll (undue : m.activeEffectRedelivery = false)
    (driver : m.config.protocolDriver = standardDriver host) :
    ∃ reached, Source m reached ∧ m.pollEffect = reached.popFront := by
  rcases pollEffect_cases undue with ⟨hpoll, busy⟩ | ⟨queue, ⟨hstate, hpoll⟩ | ⟨hstate, hpoll⟩⟩
  · exact ⟨m, .same busy, hpoll⟩
  · exact ⟨m.prepareProtocol, .ready queue (.inl hstate) works_prepareProtocol
      (prepared_prepareProtocol driver hstate), hpoll⟩
  · exact ⟨m.prepareProtocolIteration, .ready queue (.inr hstate)
      works_prepareProtocolIteration (prepared_prepareProtocolIteration driver), hpoll⟩

def pollEntry (m : TurnMachine M) : MachineEntry M := Runs.entryAt MachineRuns.step .poll m

def responseEntry (response : Response M) (m : TurnMachine M) : MachineEntry M :=
  Runs.entryAt MachineRuns.step (.respond response) m

/-- The requests of a run: those of the model calls it delivered or queued. -/
def asked (history : List (MachineEntry M)) (m : TurnMachine M) : List M.LlmRequest :=
  requestsOf (emitted history m)

variable {reached : TurnMachine M}

theorem emitted_pollEntry (poll : m.pollEffect = reached.popFront) :
    emitted (pollEntry m :: history) m.pollEffect.2 =
      delivered history ++ reached.pendingEffects := by
  have hqueue := popFront_queue reached
  rw [← poll] at hqueue
  change delivered history ++ m.pollEffect.1.toList ++ m.pollEffect.2.pendingEffects = _
  rw [List.append_assoc, hqueue]

theorem emitted_responseEntry (response : Response M) (m m' : TurnMachine M) :
    emitted (responseEntry response m :: history) m' = delivered history ++ m'.pendingEffects := by
  change delivered history ++ [] ++ m'.pendingEffects = _
  rw [List.append_nil]

/-- Where the turn stands, with the requests of the whole run. -/
def course (history : List (MachineEntry M)) (m : TurnMachine M) : Standing M :=
  { standing m with requests := asked history m }

/-- Taking an effect from the queue leaves the rest alone. -/
theorem popFront_standing (m : TurnMachine M) :
    { standing m.popFront.2 with requests := requestsOf m.pendingEffects } = standing m := by
  unfold popFront
  split <;> rfl

theorem course_pollEntry (poll : m.pollEffect = reached.popFront) :
    course (pollEntry m :: history) m.pollEffect.2 = { standing reached with
        requests := requestsOf (delivered history ++ reached.pendingEffects) } := by
  have hpopped := popFront_standing reached
  unfold course asked
  rw [emitted_pollEntry poll, ← hpopped, ← poll]

/-- A poll leaves the turn where it stands, or prepares an iteration. -/
theorem course_poll (source : Source m reached) (poll : m.pollEffect = reached.popFront) :
    course (pollEntry m :: history) m.pollEffect.2 = course history m ∨
      ((m.state = .preparingProtocol ∨ m.state = .prepareIteration) ∧ ((∃ id update,
            course (pollEntry m :: history) m.pollEffect.2 = { course history m with
              state := .waitingExecutionEnvironment id update } ∧
            (m.state = .preparingProtocol ∨ m.syncedProtocolIteration ≠ some m.protocolIteration)) ∨
          ∃ id, course (pollEntry m :: history) m.pollEffect.2 = { course history m with
            state := .waitingLlm id (m.projectLlmRequest true) none
            requests := asked history m ++ [m.projectLlmRequest true] })) := by
  rw [course_pollEntry poll]
  cases source with
  | same busy => exact .inl rfl
  | ready queue idle works prepared =>
    refine .inr ⟨idle, ?_⟩
    have hasked : asked history m = requestsOf (delivered history) := by
      simp only [asked, emitted, queue, List.append_nil]
    cases prepared with
    | @syncing id update after due =>
      refine .inl ⟨id, update, ?_, due⟩
      have hrequests : requestsOf reached.pendingEffects = [] := by
        rw [show requestsOf reached.pendingEffects = _ from congrArg Standing.requests after]
        simp [standing, queue, requestsOf]
      rw [requestsOf_append, hrequests, List.append_nil, ← hasked, after]
      rfl
    | @asking id after =>
      refine .inr ⟨id, ?_⟩
      have hrequests : requestsOf reached.pendingEffects = [m.projectLlmRequest true] := by
        rw [show requestsOf reached.pendingEffects = _ from congrArg Standing.requests after]
        simp [queue, requestsOf]
      rw [requestsOf_append, hrequests, ← hasked, after]
      rfl

variable {response : Response M}

/-- An answer asks the model nothing. -/
theorem Answered.requests (done : Answered host m response m') :
    requestsOf m'.pendingEffects = requestsOf m.pendingEffects := by
  cases done with
  | ending ended => exact ended.requests
  | synced _ after | completing _ _ after | calling _ _ after | worked _ _ after
  | rested _ _ after | continued _ _ _ _ after => exact congrArg Standing.requests after

theorem asked_answer (done : Answered host m response m') :
    asked (responseEntry response m :: history) m' = asked history m := by
  unfold asked
  rw [emitted_responseEntry, requestsOf_append, Answered.requests done, ← requestsOf_append]
  rfl

/-- What every machine of a run shares with the new one, and what its state can be. -/
structure Hosted (start m : TurnMachine M) : Prop where
  undue : m.activeEffectRedelivery = false
  lasting : fixed m = fixed start
  orderly : Orderly m.state

theorem Hosted.driver {start : TurnMachine M} (hosted : Hosted start m)
    (driver : start.config.protocolDriver = standardDriver host) :
    m.config.protocolDriver = standardDriver host :=
  (driver_of_fixed hosted.lasting).trans driver

theorem Source.orderly (source : Source m reached) (orderly : Orderly m.state) :
    Orderly reached.state := by
  cases source with
  | same => exact orderly
  | ready queue idle works prepared =>
    cases prepared with
    | syncing after | asking after =>
      rw [show reached.state = _ from congrArg Standing.state after]
      trivial

theorem Answered.orderly (done : Answered host m response m') : Orderly m'.state := by
  cases done with
  | ending ended =>
    rw [ended.state]
    trivial
  | completing waiting spoke after =>
    rw [show m'.state = _ from congrArg Standing.state after]
    exact ⟨_, rfl⟩
  | worked waiting more after =>
    rw [show m'.state = _ from congrArg Standing.state after]
    exact rfl
  | synced _ after | calling _ _ after | rested _ _ after | continued _ _ _ _ after =>
    rw [show m'.state = _ from congrArg Standing.state after]
    trivial

theorem handleResponse_undue (undue : m.activeEffectRedelivery = false)
    (response : Response M) : m.handleResponse response = m.answer response := by
  have hsettled : settled m = m := settled_eq undue
  exact congrArg (fun machine => machine.answer response) hsettled

/-- The rule for runs: what a new machine satisfies, and polls, responses that are
passed over and answers keep. -/
theorem hosted_run {config : TurnMachineConfig M}
    (driver : config.protocolDriver = standardDriver host) {messages : List Message}
    {events : List (SessionEventRecord M)} {offset : Nat} {causes : List TurnCause}
    {P : List (MachineEntry M) → TurnMachine M → Prop}
    (new : P [] (newSharedWithTurnCauses config messages events offset causes))
    (poll : ∀ history m reached,
      Hosted (newSharedWithTurnCauses config messages events offset causes) m → P history m →
      Source m reached → m.pollEffect = reached.popFront →
      P (pollEntry m :: history) m.pollEffect.2)
    (stale : ∀ history m response, P history m → ¬ Awaits m response →
      P (responseEntry response m :: history) m)
    (answer : ∀ history m response,
      Hosted (newSharedWithTurnCauses config messages events offset causes) m → P history m →
      Awaits m response → Answered host m response (m.answer response) →
      P (responseEntry response m :: history) (m.answer response))
    (inputs : List (Option (Response M))) :
    let start := newSharedWithTurnCauses config messages events offset causes
    Hosted start (after (inputs.map hostCall) start).2 ∧
      P (after (inputs.map hostCall) start).1 (after (inputs.map hostCall) start).2 := by
  intro start
  have hstart : Ordered start (delivered ([] : List (MachineEntry M)))
      (accepted ([] : List (MachineEntry M))) start :=
    ordered_after config messages events offset causes []
  suffices h : ∀ (history : List (MachineEntry M)) (m : TurnMachine M),
      Ordered start (delivered history) (accepted history) m → Orderly m.state → P history m →
      Hosted start (Runs.perform MachineRuns.step (inputs.map hostCall) (history, m)).2 ∧
        P (Runs.perform MachineRuns.step (inputs.map hostCall) (history, m)).1
          (Runs.perform MachineRuns.step (inputs.map hostCall) (history, m)).2 from
    h [] start hstart trivial new
  induction inputs with
  | nil => exact fun _ _ law orderly holds => ⟨⟨law.undue, law.lasting, orderly⟩, holds⟩
  | cons input inputs ih =>
    intro history m law orderly holds
    have hosted : Hosted start m := ⟨law.undue, law.lasting, orderly⟩
    have hnext := law.step input
    suffices h : Orderly (MachineRuns.step (hostCall input) m).2.state ∧
        P (Runs.entryAt MachineRuns.step (hostCall input) m :: history)
          (MachineRuns.step (hostCall input) m).2 from ih _ _ hnext h.1 h.2
    cases input with
    | none =>
      obtain ⟨reached, hsource, hpoll⟩ := source_of_poll law.undue (hosted.driver driver)
      refine ⟨?_, poll history m reached hosted holds hsource hpoll⟩
      change Orderly m.pollEffect.2.state
      rw [hpoll, show reached.popFront.2.state = reached.state from
        congrArg Standing.state (popFront_standing reached)]
      exact hsource.orderly orderly
    | some response =>
      have hstep : (MachineRuns.step (hostCall (some response)) m).2 = m.answer response :=
        handleResponse_undue law.undue response
      rw [hstep]
      by_cases hawaits : Awaits m response
      · have hanswered := answered hawaits orderly (hosted.driver driver)
        exact ⟨Answered.orderly hanswered, answer history m response hosted holds hawaits hanswered⟩
      · rw [answer_of_not_awaits hawaits]
        exact ⟨orderly, stale history m response holds hawaits⟩

/-- A host whose JSON is the text itself. -/
def plainHost : DriverHost unitProtocol where
  freshMessageId := fun ctx taken =>
    "m" ++ toString ctx.protocolIteration ++ "_" ++ toString taken
  fromStr := some
  emptyObject := "\x7b\x7d"
  toJsonValue := fun _ => "value"
  failureToJsonValue := fun _ => "failure"

def standardConfig (maxTurns : Option Nat) : TurnMachineConfig unitProtocol :=
  { scripted [] [] with
    protocolDriver := standardDriver plainHost
    maxTurns := maxTurns
    turnLimitFinalMessage := turnLimitExhaustedMessage }

def standardMachine (maxTurns : Option Nat) : TurnMachine unitProtocol :=
  newSharedWithTurnCauses (standardConfig maxTurns) [] [] 0 []

/-- A response with these parts, and nothing else to report. -/
def responseOf (parts : List LlmOutputPart) : LlmResponse unitProtocol where
  fullText := ""
  parts := parts
  usage := ⟨0, 0, 0, 0⟩
  terminalReason := .stop
  terminalDiagnostic := none
  providerUsage := none
  requestBody := none

def userInput (text : String) : CheckpointDelivery where
  messages := [⟨.user, text, none, []⟩]
  transientMessages := []
  turnCauses := []

end StandardRuns
