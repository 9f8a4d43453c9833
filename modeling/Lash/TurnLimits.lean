import Lash.StandardRuns

/-!
# The turn limit

An iteration of the standard driver asks the model once and takes at most four
responses; the next one begins only after it was counted. When the count reaches
the limit the notice is scheduled, once, and the iteration after it is the last.
So both the calls of the model and the responses of a turn are bounded, whatever
the responses are.
-/

namespace TurnLimits

open TurnProtocols TurnMachines TurnMachine MachineSteps MachineRuns EffectOrder
open StandardDrivers StandardSteps StandardRuns

variable {M : TurnProtocol} {host : DriverHost M} {m m' : TurnMachine M}
  {history : List (MachineEntry M)}

/-- The model calls the current iteration has made. -/
def callsMade : MachineState M → Nat
  | .waitingLlm _ _ _ => 1
  | .waitingTools _ _ => 1
  | .waitingCheckpoint _ .beforeCompletion _ => 1
  | _ => 0

/-- The most responses the current iteration can still take. A pause after work
counts the next iteration as the current one. -/
def responsesOpen (s : Standing M) : Nat :=
  match s.state with
  | .preparingProtocol => 4
  | .waitingExecutionEnvironment _ _ => 4
  | .prepareIteration =>
    if s.syncedProtocolIteration = some s.protocolIteration then 3 else 4
  | .waitingLlm _ _ _ => 3
  | .waitingTools _ _ => 2
  | .waitingExec _ _ _ _ => 1
  | .waitingCheckpoint _ .beforeCompletion _ => 1
  | .waitingCheckpoint _ .afterWork _ => 5
  | .finished => 0

/-- A turn that goes on, between its first iteration and the one after the limit. -/
structure Running (offset maxTurns : Nat) (notice : String → Nat → Message)
    (s : Standing M) : Prop where
  begun : offset ≤ s.protocolIteration
  within : s.protocolIteration ≤ offset + maxTurns
  grace : s.termination.turnLimitFinalScheduled = true ↔
    s.protocolIteration = offset + maxTurns
  made : s.requests.length = s.protocolIteration - offset + callsMade s.state
  noticed : s.termination.turnLimitFinalScheduled = true →
    ∃ noticeId, notice noticeId maxTurns ∈ s.messages

/-- The bounds on the calls of the model and on the responses taken in, of a turn
that goes on or is over. -/
structure Budget (offset maxTurns : Nat) (notice : String → Nat → Message) (taken : Nat)
    (s : Standing M) : Prop where
  before : s.termination.turnLimitFinalScheduled = false → s.requests.length ≤ maxTurns
  reached : s.termination.turnLimitFinalScheduled = true →
    maxTurns ≤ s.requests.length ∧ s.requests.length ≤ maxTurns + 1
  responses : taken ≤ 4 * (maxTurns + 1)
  running : s.state ≠ .finished → Running offset maxTurns notice s ∧
    taken + responsesOpen s + 4 * (offset + maxTurns - s.protocolIteration) ≤ 4 * (maxTurns + 1)

variable {offset maxTurns taken : Nat} {notice : String → Nat → Message} {s s' : Standing M}

theorem callsMade_le (state : MachineState M) : callsMade state ≤ 1 := by
  unfold callsMade
  split <;> omega

theorem Budget.of_running (running : Running offset maxTurns notice s)
    (left : taken + responsesOpen s + 4 * (offset + maxTurns - s.protocolIteration) ≤
      4 * (maxTurns + 1)) : Budget offset maxTurns notice taken s where
  before := by
    intro hopen
    have hmade := running.made
    have hcalls := callsMade_le s.state
    have hwithin := running.within
    have hbegun := running.begun
    have hbelow : s.protocolIteration ≠ offset + maxTurns := by
      intro h
      rw [running.grace.mpr h] at hopen
      cases hopen
    omega
  reached := by
    intro hgrace
    have hmade := running.made
    have hcalls := callsMade_le s.state
    have hlast := running.grace.mp hgrace
    omega
  responses := by omega
  running := fun _ => ⟨running, left⟩

/-- A turn that ends keeps its bounds. -/
theorem Budget.ending (budget : Budget offset maxTurns notice taken s)
    (done : s'.state = .finished) (requests : s'.requests = s.requests)
    (termination : s'.termination = s.termination) (room : taken + 1 ≤ 4 * (maxTurns + 1)) :
    Budget offset maxTurns notice (taken + 1) s' where
  before := by
    rw [requests, termination]
    exact budget.before
  reached := by
    rw [requests, termination]
    exact budget.reached
  responses := room
  running := fun unfinished => absurd done unfinished

theorem budget_new (config : TurnMachineConfig M) (messages : List Message)
    (events : List (SessionEventRecord M)) (offset : Nat) (causes : List TurnCause)
    (positive : 1 ≤ maxTurns) :
    Budget offset maxTurns notice 0
      (course [] (newSharedWithTurnCauses config messages events offset causes)) := by
  refine .of_running ⟨Nat.le_refl _, Nat.le_add_right _ _, ?_, ?_, ?_⟩ ?_
  · constructor
    · intro h
      cases h
    · intro h
      have hoffset : offset = offset + maxTurns := h
      omega
  · change 0 = offset - offset + 0
    omega
  · intro h
    cases h
  · change 0 + 4 + 4 * (offset + maxTurns - offset) ≤ _
    omega

theorem turnsExhausted_of_limit (limit : m.config.maxTurns = some maxTurns) :
    turnsExhausted m.driverContext =
      if m.protocolRunOffset + maxTurns ≤ m.protocolIteration + 1 then some maxTurns
      else none := by
  simp only [turnsExhausted, driverContext, limit]
  by_cases h : m.protocolRunOffset + maxTurns ≤ m.protocolIteration + 1
  · simp [h, Option.filter]
  · simp [h, Option.filter]

/-- Preparing an iteration takes no response; the call it makes is the first of the
iteration. -/
theorem Budget.poll {reached : TurnMachine M}
    (budget : Budget offset maxTurns notice taken (course history m))
    (source : Source m reached) (poll : m.pollEffect = reached.popFront) :
    Budget offset maxTurns notice taken (course (pollEntry m :: history) m.pollEffect.2) := by
  rcases @course_poll M m history reached source poll with
    hsame | ⟨hidle, ⟨id, update, hcourse, hdue⟩ | ⟨id, hcourse⟩⟩
  · rw [hsame]
    exact budget
  all_goals
    have hunfinished : m.state ≠ .finished := by rcases hidle with h | h <;> rw [h] <;> simp
    obtain ⟨running, hleft⟩ := budget.running hunfinished
    have hmade : (asked history m).length = m.protocolIteration - offset + callsMade m.state :=
      running.made
    have hnone : callsMade m.state = 0 := by rcases hidle with h | h <;> rw [h] <;> rfl
    rw [hcourse]
  · refine .of_running ⟨running.begun, running.within, running.grace, ?_, running.noticed⟩ ?_
    · rw [hnone] at hmade
      exact hmade
    · have hopen : responsesOpen (course history m) = 4 := by
        rcases hidle with h | h
        · simp only [responsesOpen, course, standing, h]
        · have hsynced : m.syncedProtocolIteration ≠ some m.protocolIteration :=
            hdue.resolve_left (by rw [h]; simp)
          simp only [responsesOpen, course, standing, h, if_neg hsynced]
      rw [hopen] at hleft
      exact hleft
  · refine .of_running ⟨running.begun, running.within, running.grace, ?_, running.noticed⟩ ?_
    · change (asked history m ++ [_]).length = m.protocolIteration - offset + 1
      rw [List.length_append, hmade, hnone]
      rfl
    · have hopen : 3 ≤ responsesOpen (course history m) := by
        rcases hidle with h | h
        · simp only [responsesOpen, course, standing, h]
          omega
        · simp only [responsesOpen, course, standing, h]
          split <;> omega
      change taken + 3 + 4 * (offset + maxTurns - m.protocolIteration) ≤ _
      have hleft' : taken + responsesOpen (course history m) +
          4 * (offset + maxTurns - m.protocolIteration) ≤ 4 * (maxTurns + 1) := hleft
      omega

theorem responsesOpen_pos (unfinished : s.state ≠ .finished) : 1 ≤ responsesOpen s := by
  unfold responsesOpen
  split <;> first | contradiction | omega | (split <;> omega)

theorem responsesOpen_ready (ready : s.state = .prepareIteration) : responsesOpen s ≤ 4 := by
  simp only [responsesOpen, ready]
  split <;> omega

/-- Within an iteration only the state and the messages change. -/
theorem Running.stays (running : Running offset maxTurns notice s)
    (iteration : s'.protocolIteration = s.protocolIteration)
    (termination : s'.termination = s.termination) (requests : s'.requests = s.requests)
    (calls : callsMade s'.state = callsMade s.state)
    (messages : ∀ message ∈ s.messages, message ∈ s'.messages) :
    Running offset maxTurns notice s' where
  begun := iteration ▸ running.begun
  within := iteration ▸ running.within
  grace := by
    rw [iteration, termination]
    exact running.grace
  made := by
    rw [iteration, requests, calls]
    exact running.made
  noticed := by
    rw [termination]
    intro h
    obtain ⟨noticeId, hmem⟩ := running.noticed h
    exact ⟨noticeId, messages _ hmem⟩

/-- The next iteration begins once the current one has made its call. -/
theorem Running.advances (running : Running offset maxTurns notice s)
    (below : s.protocolIteration < offset + maxTurns) (called : callsMade s.state = 1)
    (iteration : s'.protocolIteration = s.protocolIteration + 1)
    (requests : s'.requests = s.requests) (calls : callsMade s'.state = 0)
    (grace : s'.termination.turnLimitFinalScheduled = true ↔
      s.protocolIteration + 1 = offset + maxTurns)
    (noticed : s'.termination.turnLimitFinalScheduled = true →
      ∃ noticeId, notice noticeId maxTurns ∈ s'.messages) :
    Running offset maxTurns notice s' where
  begun := by
    rw [iteration]
    exact Nat.le_succ_of_le running.begun
  within := by
    rw [iteration]
    exact below
  grace := by
    rw [iteration]
    exact grace
  made := by
    have hmade := running.made
    have hbegun := running.begun
    rw [iteration, requests, calls, hmade, called]
    omega
  noticed := noticed

/-- A response within an iteration is one of those that were left. -/
theorem Budget.stays (budget : Budget offset maxTurns notice taken s)
    (unfinished : s.state ≠ .finished) (iteration : s'.protocolIteration = s.protocolIteration)
    (termination : s'.termination = s.termination) (requests : s'.requests = s.requests)
    (calls : callsMade s'.state = callsMade s.state)
    (messages : ∀ message ∈ s.messages, message ∈ s'.messages)
    (opens : responsesOpen s' + 1 ≤ responsesOpen s) :
    Budget offset maxTurns notice (taken + 1) s' := by
  obtain ⟨running, hleft⟩ := budget.running unfinished
  refine .of_running (running.stays iteration termination requests calls messages) ?_
  rw [iteration]
  omega

/-- The next iteration brings the responses that it can take. -/
theorem Budget.advances (budget : Budget offset maxTurns notice taken s)
    (unfinished : s.state ≠ .finished) (below : s.protocolIteration < offset + maxTurns)
    (called : callsMade s.state = 1) (iteration : s'.protocolIteration = s.protocolIteration + 1)
    (requests : s'.requests = s.requests) (calls : callsMade s'.state = 0)
    (grace : s'.termination.turnLimitFinalScheduled = true ↔
      s.protocolIteration + 1 = offset + maxTurns)
    (noticed : s'.termination.turnLimitFinalScheduled = true →
      ∃ noticeId, notice noticeId maxTurns ∈ s'.messages)
    (opens : responsesOpen s' ≤ responsesOpen s + 3) :
    Budget offset maxTurns notice (taken + 1) s' := by
  obtain ⟨running, hleft⟩ := budget.running unfinished
  refine .of_running (running.advances below called iteration requests calls grace noticed) ?_
  rw [iteration]
  omega

variable {response : Response M}

theorem course_answer {t : Standing M} (done : Answered host m response m')
    (after : standing m' = t) :
    course (responseEntry response m :: history) m' = { t with requests := asked history m } := by
  rw [course, asked_answer done, after]

theorem responsesOpen_course {state : MachineState M} (waiting : m.state = state) :
    responsesOpen (course history m) = responsesOpen { course history m with state := state } :=
  congrArg (fun state => responsesOpen { course history m with state := state }) waiting

section

variable (budget : Budget offset maxTurns notice taken (course history m))
include budget

/-- After tools an iteration begins only below the limit. -/
theorem Budget.worked (exhausted : turnsExhausted m.driverContext =
      if offset + maxTurns ≤ m.protocolIteration + 1 then some maxTurns else none)
    {id effectId : EffectId} {calls : List (PendingToolCall M)}
    (waiting : m.state = .waitingTools id calls) (more : turnsExhausted m.driverContext = none)
    (messages : List Message) :
    Budget offset maxTurns notice (taken + 1) { course history m with
      state := .waitingCheckpoint effectId .afterWork .prepareIteration
      messages := messages
      protocolIteration := m.protocolIteration + 1
      syncedProtocolIteration := none } := by
  have hbelow : m.protocolIteration + 1 < offset + maxTurns := by
    by_contra h
    rw [more, if_pos (by omega)] at exhausted
    cases exhausted
  have hunfinished : m.state ≠ .finished := by simp [waiting]
  have hgrace : ¬ m.termination.turnLimitFinalScheduled = true := by
    intro h
    have hlast : m.protocolIteration = offset + maxTurns :=
      (budget.running hunfinished).1.grace.mp h
    omega
  have hcalled : callsMade (course history m).state = 1 := congrArg callsMade waiting
  refine budget.advances hunfinished (Nat.lt_of_succ_lt hbelow) hcalled rfl rfl rfl
    ⟨fun h => absurd h hgrace, fun h => ?_⟩ (fun h => absurd h hgrace) ?_
  · have hlast : m.protocolIteration + 1 = offset + maxTurns := h
    omega
  · rw [responsesOpen_course waiting]
    exact Nat.le_refl 5

/-- The last iteration begins with the notice. -/
theorem Budget.continued {id : EffectId} {onEmpty : CheckpointResumeAction M}
    (waiting : m.state = .waitingCheckpoint id .beforeCompletion onEmpty)
    (grace : m.termination.turnLimitFinalScheduled = false) (messages : List Message)
    (noticeId : String) (exhausted : Option Nat) (last : exhausted =
      if offset + maxTurns ≤ m.protocolIteration + 1 then some maxTurns else none) :
    Budget offset maxTurns notice (taken + 1) { course history m with
      state := .prepareIteration
      messages := messages ++ exhausted.toList.map (notice noticeId)
      protocolIteration := m.protocolIteration + 1
      termination := ⟨exhausted.isSome⟩ } := by
  have hunfinished : m.state ≠ .finished := by simp [waiting]
  have running := (budget.running hunfinished).1
  have hbelow : m.protocolIteration < offset + maxTurns := by
    have hne : m.protocolIteration ≠ offset + maxTurns := by
      intro h
      have hset : m.termination.turnLimitFinalScheduled = true := running.grace.mpr h
      rw [hset] at grace
      cases grace
    exact Nat.lt_of_le_of_ne running.within hne
  have hcalled : callsMade (course history m).state = 1 := congrArg callsMade waiting
  have hopens {t : Standing M} (ready : t.state = .prepareIteration) :
      responsesOpen t ≤ responsesOpen (course history m) + 3 := by
    rw [responsesOpen_course waiting]
    exact responsesOpen_ready ready
  rw [last]
  by_cases hlast : offset + maxTurns ≤ m.protocolIteration + 1
  · rw [if_pos hlast]
    refine budget.advances hunfinished hbelow hcalled rfl rfl rfl ?_ ?_ (hopens rfl)
    · have hnow : m.protocolIteration + 1 = offset + maxTurns := by omega
      exact ⟨fun _ => hnow, fun _ => rfl⟩
    · intro _
      exact ⟨noticeId, List.mem_append_right _ (List.mem_singleton_self _)⟩
  · rw [if_neg hlast]
    refine budget.advances hunfinished hbelow hcalled rfl rfl rfl ?_ ?_ (hopens rfl)
    · refine ⟨fun h => (by cases h), fun h => ?_⟩
      have hnow : m.protocolIteration + 1 = offset + maxTurns := h
      omega
    · intro h
      cases h

/-- An answer ends the turn or takes one of the responses that were left. -/
theorem Budget.answer (limit : m.config.maxTurns = some maxTurns)
    (begun : m.protocolRunOffset = offset) (same : m.config.turnLimitFinalMessage = notice)
    (unfinished : m.state ≠ .finished) (done : Answered host m response m') :
    Budget offset maxTurns notice (taken + 1)
      (course (responseEntry response m :: history) m') := by
  have hexhausted := turnsExhausted_of_limit limit
  rw [begun] at hexhausted
  cases id done with
  | ending ended =>
    have hleft := (budget.running unfinished).2
    have hpos : 1 ≤ responsesOpen (course history m) := responsesOpen_pos unfinished
    exact budget.ending ended.state (asked_answer done) ended.termination (by omega)
  | synced waiting after =>
    rw [course_answer done after]
    refine budget.stays unfinished rfl rfl rfl (congrArg callsMade waiting).symm
      (fun _ h => h) ?_
    rw [responsesOpen_course waiting]
    simp [responsesOpen, standing]
  | completing waiting spoke after =>
    rw [course_answer done after]
    refine budget.stays unfinished rfl rfl rfl (congrArg callsMade waiting).symm
      (fun _ h => h) ?_
    rw [responsesOpen_course waiting]
    simp [responsesOpen]
  | calling waiting called after =>
    rw [course_answer done after]
    refine budget.stays unfinished rfl rfl rfl (congrArg callsMade waiting).symm
      (fun _ h => List.mem_append_left _ h) ?_
    rw [responsesOpen_course waiting]
    simp [responsesOpen]
  | rested waiting others after =>
    rw [course_answer done after]
    refine budget.stays unfinished rfl rfl rfl (congrArg callsMade waiting).symm
      (fun _ h => List.mem_append_left _ h) ?_
    rw [responsesOpen_course waiting]
    exact Nat.succ_le_succ (responsesOpen_ready rfl)
  | worked waiting more after =>
    rw [course_answer done after]
    exact budget.worked hexhausted waiting more _
  | continued waiting delivered grace others after =>
    rw [course_answer done after, same]
    exact budget.continued waiting grace _ _ _ hexhausted

end

/-- The effect the machine waits for has been queued. -/
def Shown (history : List (MachineEntry M)) (m : TurnMachine M) : Prop :=
  ∀ effect, m.state.outstandingEffect = some effect → effect ∈ emitted history m

theorem idle_outstanding (idle : m.state = .preparingProtocol ∨ m.state = .prepareIteration) :
    m.state.outstandingEffect = none := by
  rcases idle with h | h <;> rw [h] <;> rfl

theorem shown_of_works {new : List (Effect M)} (worked : Worked m m' new)
    (idle : m.state.outstandingEffect = none) :
    ∀ effect, m'.state.outstandingEffect = some effect → effect ∈ new := by
  intro effect heffect
  rcases worked.waits with h | h | ⟨e, he, h⟩
  · rw [h, idle] at heffect
    cases heffect
  · rw [h] at heffect
    cases heffect
  · rw [h] at heffect
    exact Option.some.inj heffect ▸ he

theorem Shown.poll {reached : TurnMachine M} (shown : Shown history m)
    (source : Source m reached) (poll : m.pollEffect = reached.popFront) :
    Shown (pollEntry m :: history) m.pollEffect.2 := by
  have hstate : m.pollEffect.2.state = reached.state := by
    rw [poll]
    exact congrArg Standing.state (popFront_standing reached)
  intro effect heffect
  rw [hstate] at heffect
  rw [emitted_pollEntry poll]
  cases source with
  | same busy => exact shown effect heffect
  | ready queue idle works prepared =>
    obtain ⟨new, worked⟩ := works
    rw [worked.queued, queue]
    exact List.mem_append_right _
      (shown_of_works worked (idle_outstanding idle) effect heffect)

theorem Shown.answer (awaited : Awaits m response) :
    Shown (responseEntry response m :: history) (m.answer response) := by
  obtain ⟨new, worked⟩ := works_answer_of_awaits awaited
  intro effect heffect
  rw [emitted_responseEntry, worked.queued]
  exact List.mem_append_right _
    (List.mem_append_right _ (shown_of_works worked rfl effect heffect))

/-- An unfinished machine has an effect to deliver, or waits for an answer to one that
it has delivered. -/
theorem poll_or_delivered (driver : m.config.protocolDriver = standardDriver host)
    (undue : m.activeEffectRedelivery = false) (shown : Shown history m)
    (unfinished : m.isDone = false) :
    m.pollEffect.1.isSome ∨
      ∃ effect ∈ delivered history, m.state.outstandingEffect = some effect := by
  have htake {reached : TurnMachine M} (hpoll : m.pollEffect = reached.popFront)
      (hqueue : reached.pendingEffects ≠ []) : m.pollEffect.1.isSome := by
    obtain ⟨effect, rest, hcons⟩ := List.exists_cons_of_ne_nil hqueue
    rw [hpoll, popFront_cons hcons]
    rfl
  obtain ⟨reached, hsource, hpoll⟩ := source_of_poll undue driver
  cases hsource with
  | same busy =>
    by_cases hqueue : m.pendingEffects = []
    · rcases busy with h | h | h
      · exact absurd hqueue h
      · rw [unfinished] at h
        cases h
      · obtain ⟨effect, heffect⟩ := Option.isSome_iff_exists.mp h
        have hmem := shown effect heffect
        rw [emitted, hqueue, List.append_nil] at hmem
        exact .inr ⟨effect, hmem, heffect⟩
    · exact .inl (htake hpoll hqueue)
  | ready queue idle works prepared =>
    obtain ⟨new, worked⟩ := works
    have hwaits : reached.state.outstandingEffect.isSome := by
      cases prepared with
      | syncing after | asking after =>
        rw [show reached.state = _ from congrArg Standing.state after]
        rfl
    obtain ⟨effect, heffect⟩ := Option.isSome_iff_exists.mp hwaits
    have hnew := shown_of_works worked (idle_outstanding idle) effect heffect
    refine .inl (htake hpoll ?_)
    rw [worked.queued, queue]
    exact List.ne_nil_of_mem (List.mem_append_right _ hnew)

theorem limited_run {config : TurnMachineConfig M}
    (driver : config.protocolDriver = standardDriver host)
    (limit : config.maxTurns = some maxTurns) (positive : 1 ≤ maxTurns)
    (messages : List Message) (events : List (SessionEventRecord M)) (offset : Nat)
    (causes : List TurnCause) (inputs : List (Option (Response M))) :
    let start := newSharedWithTurnCauses config messages events offset causes
    let reached := after (inputs.map hostCall) start
    Hosted start reached.2 ∧
      Budget offset maxTurns config.turnLimitFinalMessage (accepted reached.1).length
        (course reached.1 reached.2) ∧ Shown reached.1 reached.2 := by
  refine hosted_run (P := fun history m =>
      Budget offset maxTurns config.turnLimitFinalMessage (accepted history).length
        (course history m) ∧ Shown history m) driver ?_ ?_ ?_ ?_ inputs
  · exact ⟨budget_new config messages events offset causes positive, by simp [Shown,
      newSharedWithTurnCauses, MachineState.outstandingEffect]⟩
  · intro history m reached hosted law source poll
    exact ⟨law.1.poll source poll, law.2.poll source poll⟩
  · intro history m response law stale
    have htaken : accepted (responseEntry response m :: history) = accepted history :=
      if_neg stale
    have hemitted : emitted (responseEntry response m :: history) m = emitted history m :=
      emitted_responseEntry response m m
    rw [htaken, course, asked, Shown, hemitted]
    exact law
  · intro history m response hosted law awaited done
    have htaken : accepted (responseEntry response m :: history) =
        responseId response :: accepted history := if_pos awaited
    have hunfinished := state_ne_finished_of_awaits awaited
    rw [htaken]
    refine ⟨law.1.answer ?_ (congrArg Prod.snd hosted.lasting) ?_ hunfinished done, .answer awaited⟩
    · exact (congrArg (fun kept => kept.1.maxTurns) hosted.lasting).trans limit
    · exact congrArg (fun kept => kept.1.turnLimitFinalMessage) hosted.lasting

variable (start : TurnMachine M)

variable (stream : Nat → Option (Response M))

/-- The history and the machine after the first inputs of an endless sequence. -/
def afterFirst (count : Nat) : List (MachineEntry M) × TurnMachine M :=
  after (((List.range count).map stream).map hostCall) start

/-- Time and again the host answers what the machine waits for, unless the turn is
over. -/
def KeepsAnswering : Prop :=
  ∀ k, ∃ later, k ≤ later ∧ ((afterFirst start stream later).2.isDone = true ∨
    ∃ response, stream later = some response ∧ Awaits (afterFirst start stream later).2 response)

theorem afterFirst_succ (k : Nat) : afterFirst start stream (k + 1) =
      (Runs.entryAt MachineRuns.step (hostCall (stream k)) (afterFirst start stream k).2 ::
          (afterFirst start stream k).1,
        (MachineRuns.step (hostCall (stream k)) (afterFirst start stream k).2).2) := by
  simp only [afterFirst, after, List.range_succ, List.map_append, Runs.perform_append]
  rfl

theorem accepted_length_mono {k later : Nat} (h : k ≤ later) :
    (accepted (afterFirst start stream k).1).length ≤
      (accepted (afterFirst start stream later).1).length := by
  induction h with
  | refl => exact Nat.le_refl _
  | step _ ih =>
    refine Nat.le_trans ih ?_
    rw [afterFirst_succ]
    simp only [accepted]
    split
    · split
      · exact Nat.le_succ _
      · exact Nat.le_refl _
    · exact Nat.le_refl _

theorem accepted_length_succ {start : TurnMachine M} {stream : Nat → Option (Response M)} {k : Nat}
    (given : stream k = some response) (awaited : Awaits (afterFirst start stream k).2 response) :
    (accepted (afterFirst start stream (k + 1)).1).length =
      (accepted (afterFirst start stream k).1).length + 1 := by
  rw [afterFirst_succ, given]
  have htaken : accepted (responseEntry response (afterFirst start stream k).2 ::
      (afterFirst start stream k).1) = responseId response ::
        accepted (afterFirst start stream k).1 := if_pos awaited
  exact congrArg List.length htaken

/-- If the responses a turn takes are bounded, a host that keeps answering finishes it. -/
theorem finishes_of_bounded {start : TurnMachine M} {stream : Nat → Option (Response M)}
    {bound : Nat} (bounded : ∀ k, (accepted (afterFirst start stream k).1).length ≤ bound)
    (keeps : KeepsAnswering start stream) :
    ∃ k, (afterFirst start stream k).2.isDone = true := by
  by_contra hnever
  have hmore (n : Nat) : ∃ k, n ≤ (accepted (afterFirst start stream k).1).length := by
    induction n with
    | zero => exact ⟨0, Nat.zero_le _⟩
    | succ n ih =>
      obtain ⟨k, hk⟩ := ih
      obtain ⟨later, hlater, hdone | ⟨response, hgiven, hawaits⟩⟩ := keeps k
      · exact absurd ⟨later, hdone⟩ hnever
      · have hmono := accepted_length_mono start stream hlater
        have hsucc := accepted_length_succ hgiven hawaits
        exact ⟨later + 1, by omega⟩
  obtain ⟨k, hk⟩ := hmore (bound + 1)
  have hbound := bounded k
  omega

/-- A turn with a limit calls the model at most once more than the limit says, and
that only after the notice; it takes a bounded number of responses, is never
stuck, and a host that keeps answering finishes it. -/
theorem turn_ends_within_limit (host : DriverHost M) (config : TurnMachineConfig M)
    (driver : config.protocolDriver = standardDriver host) (maxTurns : Nat)
    (limit : config.maxTurns = some maxTurns) (positive : 1 ≤ maxTurns)
    (messages : List Message) (events : List (SessionEventRecord M)) (offset : Nat)
    (causes : List TurnCause) :
    let start := newSharedWithTurnCauses config messages events offset causes
    (∀ inputs : List (Option (Response M)), let (history, m) := after (inputs.map hostCall) start
      (asked history m).length ≤ maxTurns + 1 ∧ (m.termination.turnLimitFinalScheduled = false →
          (asked history m).length ≤ maxTurns) ∧
        (m.termination.turnLimitFinalScheduled = true →
          maxTurns ≤ (asked history m).length ∧ (m.isDone = false →
            ∃ noticeId, config.turnLimitFinalMessage noticeId maxTurns ∈ m.messages)) ∧
        (accepted history).length ≤ 4 * (maxTurns + 1) ∧ (m.isDone = false → m.pollEffect.1.isSome ∨
          ∃ effect ∈ delivered history, m.state.outstandingEffect = some effect)) ∧
      ∀ stream, KeepsAnswering start stream → ∃ k, (afterFirst start stream k).2.isDone = true := by
  intro start
  have hrun := limited_run driver limit positive messages events offset causes
  constructor
  · intro inputs
    have law := hrun inputs
    revert law
    simp only
    generalize after (inputs.map hostCall)
      (newSharedWithTurnCauses config messages events offset causes) = reached
    obtain ⟨history, m⟩ := reached
    rintro ⟨hosted, budget, shown⟩
    have hstate (unfinished : m.isDone = false) : m.state ≠ .finished := by
      intro h
      rw [isDone_iff.mpr h] at unfinished
      cases unfinished
    refine ⟨?_, budget.before, fun hset => ⟨(budget.reached hset).1, fun unfinished => ?_⟩,
      budget.responses, poll_or_delivered (hosted.driver driver) hosted.undue shown⟩
    · cases hset : m.termination.turnLimitFinalScheduled with
      | false => exact Nat.le_succ_of_le (budget.before hset)
      | true => exact (budget.reached hset).2
    · exact (budget.running (hstate unfinished)).1.noticed hset
  · intro stream keeps
    exact finishes_of_bounded (fun k => (hrun ((List.range k).map stream)).2.1.responses) keeps

/-- The model says something, the user goes on, and the model is asked again. -/
def continuedTurn : List (Option (Response unitProtocol)) :=
  [none, none, some (.llmComplete 1 (.ok (responseOf [.text "hello" none])) true),
    some (.checkpoint 2 (userInput "more")), none, none, none, none, none, none]

theorem continued_turn_within_limit :
    let reached := after (continuedTurn.map hostCall) (standardMachine (some 1))
    (asked reached.1 reached.2).length = 2 ∧ (asked reached.1 reached.2).length ≤ 1 + 1 :=
  ⟨by decide, ((turn_ends_within_limit plainHost (standardConfig (some 1)) rfl 1 rfl
    (Nat.le_refl 1) [] [] 0 []).1 continuedTurn).1⟩

end TurnLimits
