import Lash.Runs
import Lash.TurnMachines

/-!
# What a call does to a turn machine

Whatever a driver answers, a call only adds effects behind those that are
queued, takes fresh ids in order, and reports the session events in order. This
is said once, of one call; the runs of the machine, with any checkpoints and
restarts in between, inherit it.
-/

namespace MachineSteps

open TurnInputs TurnProtocols TurnMachines TurnMachine List TurnMachine

variable {M : TurnProtocol} {m m' m'' : TurnMachine M} {new later : List (Effect M)}

theorem isDone_iff : m.isDone = true ↔ m.state = .finished := by
  unfold isDone
  cases m.state <;> simp

/-- The session events an effect reports to the host. -/
def eventDeltaOf : Effect M → List (SessionEventRecord M)
  | .progress _ eventDelta _ => eventDelta
  | .done _ eventDelta _ => eventDelta
  | _ => []

variable (effects : List (Effect M))

def eventDeltas : List (SessionEventRecord M) :=
  effects.flatMap eventDeltaOf

def effectIds : List EffectId :=
  effects.filterMap Effect.id

def isDoneEffect : Effect M → Bool
  | .done _ _ _ => true
  | _ => false

@[simp] theorem eventDeltas_append (xs ys : List (Effect M)) :
    eventDeltas (xs ++ ys) = eventDeltas xs ++ eventDeltas ys :=
  List.flatMap_append

@[simp] theorem eventDeltas_nil : eventDeltas ([] : List (Effect M)) = [] := rfl

@[simp] theorem eventDeltas_cons (effect : Effect M) (effects : List (Effect M)) :
    eventDeltas (effect :: effects) = eventDeltaOf effect ++ eventDeltas effects := rfl

@[simp] theorem effectIds_append (xs ys : List (Effect M)) :
    effectIds (xs ++ ys) = effectIds xs ++ effectIds ys :=
  List.filterMap_append

@[simp] theorem effectIds_nil : effectIds ([] : List (Effect M)) = [] := rfl

theorem mem_effectIds {effects : List (Effect M)} {id : EffectId} :
    id ∈ effectIds effects ↔ ∃ e ∈ effects, e.id = some id :=
  List.mem_filterMap

theorem eventDelta_eq (m : TurnMachine M) : m.eventDelta = m.events.drop m.progressEventCursor := by
  unfold eventDelta
  split
  · rename_i hpast
    exact (drop_eq_nil_of_le hpast).symm
  · rfl

/-- What no call changes: the configuration but for the prompt and the tools, and
the iteration the run began with. -/
def fixed (m : TurnMachine M) : TurnMachineConfig M × Nat :=
  ({ m.config with
      systemPrompt := ""
      toolSpecs := [] }, m.protocolRunOffset)

/-- `m'` is `m` after work that queued `new`, and nothing else happened to the
queue, to the ids or to the events and their cursor. -/
structure Advance (m m' : TurnMachine M) (new : List (Effect M)) : Prop where
  lasting : fixed m' = fixed m
  queued : m'.pendingEffects = m.pendingEffects ++ new
  redelivery : m'.activeEffectRedelivery = m.activeEffectRedelivery
  grows : m.nextEffectId ≤ m'.nextEffectId
  ids : effectIds new = List.range' m.nextEffectId (m'.nextEffectId - m.nextEffectId)
  waits : m'.state.outstandingEffect = m.state.outstandingEffect ∨
    m'.state.outstandingEffect = none ∨ ∃ e ∈ new, m'.state.outstandingEffect = some e
  extended : m.events <+: m'.events
  reported : m.progressEventCursor ≤ m.events.length →
    m'.progressEventCursor ≤ m'.events.length ∧
      eventDeltas new ++ m'.events.drop m'.progressEventCursor =
        m'.events.drop m.progressEventCursor

theorem Advance.refl (m : TurnMachine M) : Advance m m [] where
  lasting := rfl
  queued := (List.append_nil _).symm
  redelivery := rfl
  grows := Nat.le_refl _
  ids := by simp
  waits := .inl rfl
  extended := List.prefix_refl _
  reported := fun h => ⟨h, rfl⟩

theorem Advance.trans (first : Advance m m' new) (second : Advance m' m'' later) :
    Advance m m'' (new ++ later) where
  lasting := second.lasting.trans first.lasting
  queued := by rw [second.queued, first.queued, List.append_assoc]
  redelivery := second.redelivery.trans first.redelivery
  grows := Nat.le_trans first.grows second.grows
  ids := by
    have hgrows := first.grows
    have hgrows' := second.grows
    rw [effectIds_append, first.ids, second.ids]
    have hstart : m'.nextEffectId = m.nextEffectId + (m'.nextEffectId - m.nextEffectId) := by
      omega
    have hcount : m''.nextEffectId - m.nextEffectId =
        (m'.nextEffectId - m.nextEffectId) + (m''.nextEffectId - m'.nextEffectId) := by
      omega
    rw [hcount, ← range'_append_1, ← hstart]
  waits := by
    rcases second.waits with h | h | ⟨e, he, h⟩
    · rcases first.waits with h' | h' | ⟨e, he, h'⟩
      · exact .inl (h.trans h')
      · exact .inr (.inl (h.trans h'))
      · exact .inr (.inr ⟨e, mem_append_left _ he, h.trans h'⟩)
    · exact .inr (.inl h)
    · exact .inr (.inr ⟨e, mem_append_right _ he, h⟩)
  extended := first.extended.trans second.extended
  reported := by
    intro hcursor
    obtain ⟨hcursor', hfirst⟩ := first.reported hcursor
    obtain ⟨hcursor'', hsecond⟩ := second.reported hcursor'
    obtain ⟨appended, happended⟩ := first.extended
    obtain ⟨appended', happended'⟩ := second.extended
    refine ⟨hcursor'', ?_⟩
    have hlength : m.progressEventCursor ≤ m'.events.length := by
      rw [← happended, length_append]
      omega
    calc eventDeltas (new ++ later) ++ m''.events.drop m''.progressEventCursor
        = eventDeltas new ++ m''.events.drop m'.progressEventCursor := by
          rw [eventDeltas_append, append_assoc, hsecond]
      _ = (eventDeltas new ++ m'.events.drop m'.progressEventCursor) ++ appended' := by
          rw [← happended', drop_append_of_le_length hcursor', append_assoc]
      _ = m''.events.drop m.progressEventCursor := by
          rw [hfirst, ← happended', drop_append_of_le_length hlength]

/-- Work that touches none of what `Advance` speaks of. -/
theorem Advance.of_frame (lasting : fixed m' = fixed m)
    (queued : m'.pendingEffects = m.pendingEffects)
    (redelivery : m'.activeEffectRedelivery = m.activeEffectRedelivery)
    (ids : m'.nextEffectId = m.nextEffectId)
    (waits : m'.state.outstandingEffect = m.state.outstandingEffect ∨
      m'.state.outstandingEffect = none)
    (events : m'.events = m.events)
    (cursor : m'.progressEventCursor = m.progressEventCursor) : Advance m m' [] where
  lasting := lasting
  queued := by rw [queued, List.append_nil]
  redelivery := redelivery
  grows := Nat.le_of_eq ids.symm
  ids := by simp [ids]
  waits := waits.imp id .inl
  extended := by rw [events]
  reported := by
    intro hcursor
    rw [events, cursor]
    exact ⟨hcursor, rfl⟩

/-- The handlers empty the state before they do anything else. -/
theorem Advance.of_finished (done : Advance (m.withState .finished) m' new) : Advance m m' new where
  lasting := done.lasting
  queued := done.queued
  redelivery := done.redelivery
  grows := done.grows
  ids := done.ids
  waits := .inr (done.waits.elim .inl id)
  extended := done.extended
  reported := done.reported

theorem advance_push {effect : Effect M} (hid : effect.id = none)
    (hdelta : eventDeltaOf effect = []) : Advance m (m.push effect) [effect] where
  lasting := rfl
  queued := rfl
  redelivery := rfl
  grows := Nat.le_refl _
  ids := by simp [effectIds, hid, push]
  waits := .inl rfl
  extended := List.prefix_refl _
  reported := fun h => ⟨h, by simp [push, hdelta]⟩

variable (event : SessionEvent M)

theorem advance_emit : Advance m (m.emit event) [.emit event] :=
  advance_push rfl rfl

theorem advance_emitProgress :
    Advance m m.emitProgress [.progress m.messages m.eventDelta m.protocolIteration] where
  lasting := rfl
  queued := rfl
  redelivery := rfl
  grows := Nat.le_refl _
  ids := by simp [effectIds, Effect.id, emitProgress, nextEventDelta, push]
  waits := .inl rfl
  extended := List.prefix_refl _
  reported := by
    intro _
    simp [emitProgress, nextEventDelta, push, eventDeltaOf, eventDelta_eq]

def finishEffects (m : TurnMachine M) (outcome : TurnOutcome M) : List (Effect M) :=
  [.emit (.turnOutcome outcome), .emit .done,
    .done m.messages m.eventDelta m.protocolIteration]

theorem finish_eq (m : TurnMachine M) (outcome : TurnOutcome M) : m.finish outcome = { m with
        pendingEffects := m.pendingEffects ++ finishEffects m outcome
        messages := []
        progressEventCursor := m.events.length
        state := .finished } := by
  simp [finish, finishEffects, emit, push, nextEventDelta, eventDelta, withState]

variable (outcome : TurnOutcome M)

theorem advance_finish : Advance m (m.finish outcome) (finishEffects m outcome) where
  lasting := by rw [finish_eq]; rfl
  queued := by rw [finish_eq]
  redelivery := by rw [finish_eq]
  grows := by rw [finish_eq]
  ids := by simp [finish_eq, finishEffects, effectIds, Effect.id]
  waits := .inr (.inl (by rw [finish_eq]; rfl))
  extended := by simp [finish_eq]
  reported := by
    intro _
    simp [finish_eq, finishEffects, eventDeltaOf, eventDelta_eq]

theorem advance_start {state : EffectId → MachineState M} {effect : EffectId → Effect M}
    (hid : ∀ id, (effect id).id = some id) (hdelta : ∀ id, eventDeltaOf (effect id) = [])
    (hstate : ∀ id, (state id).outstandingEffect = some (effect id)) :
    Advance m (m.start state effect) [effect m.nextEffectId] where
  lasting := rfl
  queued := rfl
  redelivery := rfl
  grows := Nat.le_succ _
  ids := by simp [start, push, effectIds, hid]
  waits := .inr (.inr ⟨_, List.mem_singleton_self _, hstate _⟩)
  extended := List.prefix_refl _
  reported := fun h => ⟨h, by simp [start, push, hdelta]⟩

theorem advance_startSync (updateMachineConfig : Bool) : Advance m (m.startSync updateMachineConfig)
      [.syncExecutionEnvironment m.nextEffectId updateMachineConfig] := by
  unfold startSync
  exact advance_start (fun _ => rfl) (fun _ => rfl) (fun _ => rfl)

theorem advance_startLlmRequest (request : M.LlmRequest) (driverState : Option M.DriverState) :
    Advance m (m.startLlmRequest request driverState)
      [.emit (.llmRequest m.protocolIteration m.messages.length
        (String.intercalate ", " (m.config.toolSpecs.map LlmToolSpec.name))),
        .llmCall m.nextEffectId request] := by
  unfold startLlmRequest
  refine (advance_emit _).trans ?_
  exact advance_start (fun _ => rfl) (fun _ => rfl) (fun _ => rfl)

theorem advance_appendEvent (event : SessionEventRecord M) :
    Advance m (m.appendEvent event) [] := by
  cases event <;>
  exact
    { lasting := rfl
      queued := (append_nil _).symm
      redelivery := rfl
      grows := Nat.le_refl _
      ids := by simp [appendEvent]
      waits := .inl rfl
      extended := prefix_append _ _
      reported := fun h => ⟨by simp [appendEvent]; omega, rfl⟩ }

/-- Work done item by item is an advance if the work on each item is one. -/
theorem advance_foldl {A : Type*} {work : TurnMachine M → A → TurnMachine M}
    {effects : A → List (Effect M)}
    (each : ∀ m a, Advance m (work m a) (effects a)) (items : List A) (m : TurnMachine M) :
    Advance m (items.foldl work m) (items.flatMap effects) := by
  induction items generalizing m with
  | nil => exact .refl m
  | cons a items ih => exact (each m a).trans (ih (work m a))

/-- What the work on no item touches stays as it is. -/
theorem foldl_frame {A B : Type*} {work : TurnMachine M → A → TurnMachine M}
    (field : TurnMachine M → B) (each : ∀ m a, field (work m a) = field m) (items : List A)
    (m : TurnMachine M) : field (items.foldl work m) = field m := by
  induction items generalizing m with
  | nil => rfl
  | cons a items ih => exact (ih (work m a)).trans (each m a)

theorem advance_appendEvents (events : List (SessionEventRecord M)) :
    Advance m (events.foldl appendEvent m) [] := by
  have h := advance_foldl (fun m event => advance_appendEvent (m := m) event) events m
  rwa [flatMap_eq_nil_iff.mpr fun _ _ => rfl] at h

/-- No `done` among them, or a single one at the end, after which the machine is
finished. -/
def Closes (new : List (Effect M)) (m' : TurnMachine M) : Prop :=
  (∀ e ∈ new, isDoneEffect e = false) ∨
    ∃ earlier last, new = earlier ++ [last] ∧ (∀ e ∈ earlier, isDoneEffect e = false) ∧
      isDoneEffect last = true ∧ m'.state = .finished

theorem Closes.after {earlier : List (Effect M)} (open_ : ∀ e ∈ earlier, isDoneEffect e = false)
    (closes : Closes new m') : Closes (earlier ++ new) m' := by
  rcases closes with h | ⟨middle, last, rfl, hmiddle, hlast, hstate⟩
  · exact .inl fun e he => (mem_append.mp he).elim (open_ e) (h e)
  · refine .inr ⟨earlier ++ middle, last, (append_assoc ..).symm, ?_, hlast, hstate⟩
    exact fun e he => (mem_append.mp he).elim (open_ e) (hmiddle e)

theorem closes_finish : Closes (finishEffects m outcome) (m.finish outcome) :=
  .inr ⟨[.emit (.turnOutcome outcome), .emit .done], _, rfl, by simp [isDoneEffect], rfl, rfl⟩

/-- Every event is behind the cursor. -/
def Flushed (m : TurnMachine M) : Prop := m.progressEventCursor = m.events.length

theorem Advance.flushed (done : Advance m m' new) (same : m'.events = m.events)
    (flushed : Flushed m) : Flushed m' := by
  obtain ⟨hcursor, hreported⟩ := done.reported (Nat.le_of_eq flushed)
  have hnone : m'.events.drop m.progressEventCursor = [] :=
    drop_eq_nil_of_le (by rw [same, flushed])
  have hrest := (append_eq_nil_iff.mp (hreported.trans hnone)).2
  exact Nat.le_antisymm hcursor (drop_eq_nil_iff.mp hrest)

/-- The work of one call: an advance that closes and leaves no event unreported. -/
structure Worked (m m' : TurnMachine M) (new : List (Effect M)) : Prop extends
    Advance m m' new where
  closes : Closes new m'
  flushes : Flushed m → Flushed m'

def Works (m m' : TurnMachine M) : Prop := ∃ new, Worked m m' new

theorem Works.of_open (done : Advance m m' new) (same : m'.events = m.events)
    (open_ : ∀ e ∈ new, isDoneEffect e = false) : Works m m' :=
  ⟨new, { done with closes := .inl open_, flushes := done.flushed same }⟩

theorem Works.refl (m : TurnMachine M) : Works m m := .of_open (.refl m) rfl (by simp)

theorem Works.after (done : Advance m m' new) (same : m'.events = m.events)
    (open_ : ∀ e ∈ new, isDoneEffect e = false) (works : Works m' m'') : Works m m'' := by
  obtain ⟨later, worked⟩ := works
  exact ⟨new ++ later, { done.trans worked.toAdvance with
      closes := worked.closes.after open_
      flushes := fun h => worked.flushes (done.flushed same h) }⟩

theorem Works.of_finished (works : Works (m.withState .finished) m') : Works m m' := by
  obtain ⟨new, worked⟩ := works
  exact ⟨new, { worked.toAdvance.of_finished with
    closes := worked.closes
    flushes := worked.flushes }⟩

theorem flushed_finish : Flushed (m.finish outcome) := by
  rw [finish_eq]
  rfl

theorem works_finish : Works m (m.finish outcome) :=
  ⟨_, { advance_finish outcome with
    closes := closes_finish outcome
    flushes := fun _ => flushed_finish outcome }⟩

theorem works_failTurn : Works m (m.failTurn event) :=
  .after (advance_emit event) rfl (by simp [isDoneEffect]) (works_finish _)

theorem works_emitProgress : Works m m.emitProgress :=
  .of_open advance_emitProgress rfl (by simp [isDoneEffect])

variable (progressDirty : Bool)

theorem works_flushProgress_finish (outcome : TurnOutcome M) :
    Works m ((flushProgress progressDirty m).finish outcome) := by
  cases progressDirty with
  | false => exact works_finish outcome
  | true => exact .after advance_emitProgress rfl (by simp [isDoneEffect]) (works_finish outcome)

theorem works_flushProgress : Works m (flushProgress progressDirty m) := by
  cases progressDirty with
  | false => exact .refl m
  | true => exact works_emitProgress

/-- The effects that an action other than `finish` queues. -/
def actionEffects (m : TurnMachine M) : DriverAction M → List (Effect M)
  | .emit event => [.emit event]
  | .startLlm request _ =>
    [.emit (.llmRequest m.protocolIteration m.messages.length
      (String.intercalate ", " (m.config.toolSpecs.map LlmToolSpec.name))),
      .llmCall m.nextEffectId request]
  | .startTools calls => [.toolCalls m.nextEffectId calls]
  | .startExec language code _ => [.execCode m.nextEffectId language code]
  | .startCheckpoint checkpoint _ => [.checkpoint m.nextEffectId checkpoint]
  | _ => []

variable (action : DriverAction M)

theorem actionEffects_open : ∀ e ∈ actionEffects m action, isDoneEffect e = false := by
  cases action <;> simp [actionEffects, isDoneEffect]

/-- The machine after an action other than `finish`. -/
def applyAction (m : TurnMachine M) : DriverAction M → TurnMachine M
  | .emit event => m.emit event
  | .appendEvents events => events.foldl appendEvent m
  | .startLlm request driverState => m.startLlmRequest request driverState
  | .startTools calls => m.startToolCalls calls
  | .startExec language code driverState => m.startExec language code driverState
  | .startCheckpoint checkpoint onEmpty => m.requestCheckpoint checkpoint onEmpty
  | .advanceProtocolIteration =>
    { m with
      protocolIteration := m.protocolIteration + 1
      syncedProtocolIteration := none }
  | .scheduleTurnLimitFinal message => (m.scheduleTurnLimitFinal message).2
  | .finish _ => m

theorem advance_scheduleTurnLimitFinal (message : Message) :
    Advance m (m.scheduleTurnLimitFinal message).2 [] := by
  unfold scheduleTurnLimitFinal
  cases m.turnLimitFinalToSchedule with
  | none => exact .refl m
  | some _ => exact .of_frame rfl rfl rfl rfl (.inl rfl) rfl rfl

theorem advance_applyAction : Advance m (applyAction m action) (actionEffects m action) := by
  cases action with
  | emit event => exact advance_emit event
  | appendEvents events => exact advance_appendEvents events
  | startLlm request driverState => exact advance_startLlmRequest request driverState
  | startTools calls =>
    simp only [applyAction, startToolCalls]
    exact advance_start (fun _ => rfl) (fun _ => rfl) (fun _ => rfl)
  | startExec language code driverState =>
    simp only [applyAction, startExec]
    exact advance_start (fun _ => rfl) (fun _ => rfl) (fun _ => rfl)
  | startCheckpoint checkpoint onEmpty =>
    simp only [applyAction, requestCheckpoint]
    exact advance_start (fun _ => rfl) (fun _ => rfl) (fun _ => rfl)
  | advanceProtocolIteration => exact .of_frame rfl rfl rfl rfl (.inl rfl) rfl rfl
  | scheduleTurnLimitFinal message => exact advance_scheduleTurnLimitFinal message
  | finish _ => exact .refl m

/-- Whether there is something to report after the action. -/
def dirtyAfter (m : TurnMachine M) : DriverAction M → Bool
  | .appendEvents events => if events.isEmpty then progressDirty else true
  | .advanceProtocolIteration => true
  | .scheduleTurnLimitFinal message => progressDirty || (m.scheduleTurnLimitFinal message).1
  | _ => progressDirty

def isFinish : DriverAction M → Bool
  | .finish _ => true
  | _ => false

theorem applyActionsFrom_cons {action : DriverAction M} (hopen : isFinish action = false)
    (actions : List (DriverAction M)) :
    applyActionsFrom progressDirty m (action :: actions) =
      applyActionsFrom (dirtyAfter progressDirty m action) (applyAction m action) actions := by
  cases action with
  | appendEvents events => cases events <;> rfl
  | finish outcome => simp [isFinish] at hopen
  | _ => rfl

/-- An induction over the actions that are carried out: nothing left, a `finish`,
or any other action first. -/
theorem applyActionsFrom_induct {P : Bool → TurnMachine M → List (DriverAction M) → Prop}
    (empty : ∀ dirty m, P dirty m [])
    (finish : ∀ dirty m outcome actions, P dirty m (.finish outcome :: actions))
    (other : ∀ dirty m action actions, isFinish action = false →
      P (dirtyAfter dirty m action) (applyAction m action) actions →
      P dirty m (action :: actions)) (dirty : Bool) (m : TurnMachine M)
    (actions : List (DriverAction M)) : P dirty m actions := by
  induction actions generalizing dirty m with
  | nil => exact empty dirty m
  | cons action actions ih =>
    cases hfinish : isFinish action with
    | false => exact other dirty m action actions hfinish (ih _ _)
    | true =>
      cases action <;> simp only [isFinish, Bool.false_eq_true] at hfinish
      exact finish dirty m _ actions

variable (actions : List (DriverAction M))

/-- Advancing and closing alone, which a list of actions does also when it starts
with unreported events. -/
theorem advance_applyActionsFrom :
    ∃ new, Advance m (applyActionsFrom progressDirty m actions) new ∧
      Closes new (applyActionsFrom progressDirty m actions) := by
  induction progressDirty, m, actions using applyActionsFrom_induct with
  | empty dirty m =>
    obtain ⟨new, worked⟩ := works_flushProgress (m := m) dirty
    exact ⟨new, worked.toAdvance, worked.closes⟩
  | finish dirty m outcome actions =>
    obtain ⟨new, worked⟩ := works_flushProgress_finish (m := m) dirty outcome
    exact ⟨new, worked.toAdvance, worked.closes⟩
  | other dirty m action actions hopen ih =>
    rw [applyActionsFrom_cons dirty hopen]
    obtain ⟨new, hdone, hcloses⟩ := ih
    exact ⟨_, (advance_applyAction action).trans hdone, hcloses.after (actionEffects_open action)⟩

theorem flushed_applyAction {progressDirty : Bool} {action : DriverAction M}
    (flushed : progressDirty = false → Flushed m)
    (clean : dirtyAfter progressDirty m action = false) : Flushed (applyAction m action) := by
  have hsame : (applyAction m action).events = m.events := by
    cases action with
    | appendEvents events =>
      cases events with
      | nil => rfl
      | cons event events => simp [dirtyAfter] at clean
    | scheduleTurnLimitFinal message =>
      simp only [applyAction, scheduleTurnLimitFinal]
      split <;> rfl
    | _ => rfl
  have hclean : progressDirty = false := by
    cases action with
    | appendEvents events =>
      cases events with
      | nil => exact clean
      | cons event events => simp [dirtyAfter] at clean
    | advanceProtocolIteration => simp [dirtyAfter] at clean
    | scheduleTurnLimitFinal message => exact (Bool.or_eq_false_iff.mp clean).1
    | _ => exact clean
  exact (advance_applyAction action).flushed hsame (flushed hclean)

theorem flushed_applyActionsFrom {progressDirty : Bool} {actions : List (DriverAction M)}
    (flushed : progressDirty = false → Flushed m) :
    Flushed (applyActionsFrom progressDirty m actions) := by
  induction progressDirty, m, actions using applyActionsFrom_induct with
  | empty dirty m =>
    cases dirty with
    | false => exact flushed rfl
    | true => rfl
  | finish dirty m outcome actions => exact flushed_finish outcome
  | other dirty m action actions hopen ih =>
    rw [applyActionsFrom_cons dirty hopen]
    exact ih fun hclean => flushed_applyAction flushed hclean

theorem works_applyActions : Works m (m.applyActions actions) := by
  obtain ⟨new, hdone, hcloses⟩ := advance_applyActionsFrom (m := m) false actions
  exact ⟨new, { hdone with
    closes := hcloses
    flushes := fun h => flushed_applyActionsFrom fun _ => h }⟩

theorem works_prepareProtocolIteration : Works m m.prepareProtocolIteration := by
  unfold prepareProtocolIteration
  split
  · exact .of_open (advance_startSync true) rfl (by simp [isDoneEffect])
  · exact works_applyActions _

theorem works_prepareProtocol : Works m m.prepareProtocol := by
  unfold prepareProtocol
  split
  · exact .of_open (advance_startSync false) rfl (by simp [isDoneEffect])
  · exact works_prepareProtocolIteration

theorem advance_appendCheckpointMessages (pluginMessages : List PluginMessage) (transient : Bool) :
    Advance m (m.appendCheckpointMessages pluginMessages transient) [] := by
  have heach (m : TurnMachine M) (message : PluginMessage) :
      Advance m (appendCheckpointMessage transient m message) [] :=
    .of_frame rfl rfl rfl rfl (.inl rfl) rfl rfl
  have h := advance_foldl heach (pluginMessages.filter fromUserOrSystem) m
  rwa [flatMap_eq_nil_iff.mpr fun _ _ => rfl] at h

theorem advance_appendTurnCause (cause : TurnCause) : Advance m (m.appendTurnCause cause) [] := by
  unfold appendTurnCause
  split
  · exact .refl m
  · exact .of_frame rfl rfl rfl rfl (.inl rfl) rfl rfl

theorem advance_appendTurnCauses (causes : List TurnCause) :
    Advance m (m.appendTurnCauses causes) [] := by
  have h := advance_foldl (fun m cause => advance_appendTurnCause (m := m) cause) causes m
  rwa [flatMap_eq_nil_iff.mpr fun _ _ => rfl] at h

variable (delivery : CheckpointDelivery)

theorem advance_acceptDelivery : Advance m (m.acceptDelivery delivery) [] :=
  ((advance_appendCheckpointMessages _ false).trans
    (advance_appendCheckpointMessages _ true)).trans (advance_appendTurnCauses _)

theorem acceptDelivery_events : (m.acceptDelivery delivery).events = m.events := by
  have hcause (m : TurnMachine M) (cause : TurnCause) :
      (m.appendTurnCause cause).events = m.events := by
    unfold appendTurnCause
    split <;> rfl
  have hmessages (m : TurnMachine M) (messages : List PluginMessage) (transient : Bool) :
      (m.appendCheckpointMessages messages transient).events = m.events :=
    @foldl_frame M PluginMessage _ (appendCheckpointMessage transient) events
      (fun _ _ => rfl) _ m
  calc (m.acceptDelivery delivery).events = _ := foldl_frame events hcause _ _
    _ = _ := hmessages _ _ _
    _ = m.events := hmessages _ _ _

theorem scheduleConfiguredTurnLimitFinal_events :
    m.scheduleConfiguredTurnLimitFinal.events = m.events := by
  unfold scheduleConfiguredTurnLimitFinal
  split <;> rfl

theorem advance_scheduleConfiguredTurnLimitFinal :
    Advance m m.scheduleConfiguredTurnLimitFinal [] := by
  unfold scheduleConfiguredTurnLimitFinal
  cases m.turnLimitFinalToSchedule with
  | none => exact .refl m
  | some _ => exact .of_frame rfl rfl rfl rfl (.inl rfl) rfl rfl

/-- The machine goes on to the next iteration and reports what it holds. -/
theorem works_resume : Works m (m.withState .prepareIteration).emitProgress := by
  have hstate : Advance m (m.withState .prepareIteration) [] :=
    .of_frame rfl rfl rfl rfl (.inr rfl) rfl rfl
  exact .after hstate rfl (by simp) works_emitProgress

theorem works_resumeAfterDelivery (checkpoint : CheckpointKind) :
    Works m (m.resumeAfterDelivery checkpoint) := by
  cases checkpoint with
  | afterWork => exact works_resume
  | beforeCompletion =>
    have hcounted : Advance m m.countIteration [] := .of_frame rfl rfl rfl rfl (.inl rfl) rfl rfl
    refine .after hcounted rfl (by simp) ?_
    simp only [resumeAfterDelivery]
    split
    · exact .after advance_emitProgress rfl (by simp [isDoneEffect]) (works_finish _)
    · exact .after advance_scheduleConfiguredTurnLimitFinal
        scheduleConfiguredTurnLimitFinal_events (by simp) works_resume

variable (id : EffectId)

theorem works_handleCheckpoint (delivery : CheckpointDelivery) :
    Works m (m.handleCheckpoint id delivery) := by
  unfold handleCheckpoint
  split
  · split
    · exact .refl m
    · split
      · split
        · exact .of_open (.of_frame rfl rfl rfl rfl (.inr rfl) rfl rfl) rfl (by simp)
        · exact .of_finished (works_finish _)
      · exact .of_finished
          (.after (advance_acceptDelivery delivery) (acceptDelivery_events delivery) (by simp)
            (works_resumeAfterDelivery _))
  · exact .refl m

theorem works_handleExecutionEnvironmentSynced
    (result : Except String (Option (ExecutionEnvironmentSync M))) :
    Works m (m.handleExecutionEnvironmentSynced id result) := by
  unfold handleExecutionEnvironmentSynced
  split
  · split
    · exact .refl m
    · split
      · rename_i update
        have hfixed : fixed (m.acceptSync update) = fixed m := by cases update <;> rfl
        exact .of_open (.of_frame hfixed rfl rfl rfl (.inr rfl) rfl rfl) rfl (by simp)
      · exact .of_finished (works_failTurn _)
  · exact .refl m

theorem works_recordLlmUsage {response : LlmResponse M}
    (works : Works (m.recordLlmUsage response) m') : Works m m' := by
  have hcounted : Advance m (m.countUsage (tokenUsageFromLlmUsage response.usage)) [] :=
    .of_frame rfl rfl rfl rfl (.inl rfl) rfl rfl
  refine .after (hcounted.trans (advance_emit
    (.tokenUsage m.protocolIteration (tokenUsageFromLlmUsage response.usage)
      (m.countUsage (tokenUsageFromLlmUsage response.usage)).cumulativeUsage)))
    rfl (by simp [isDoneEffect]) ?_
  simp only [recordLlmUsage] at works
  split at works
  · exact .after (advance_push rfl rfl) rfl (by simp [isDoneEffect]) works
  · exact works

theorem works_emitLlmError (error : LlmCallError) : Works m (m.emitLlmError error) := by
  unfold emitLlmError recordLlmError
  split
  · exact .after (advance_push rfl rfl) rfl (by simp [isDoneEffect])
      (.after (advance_emit _) rfl (by simp [isDoneEffect]) (works_finish _))
  · exact .after (advance_emit _) rfl (by simp [isDoneEffect]) (works_finish _)

theorem works_emitTerminalLlmResponse (response : LlmResponse M) (textStreamed : Bool)
    (outcome : TurnOutcome M) :
    Works m (m.emitTerminalLlmResponse response textStreamed outcome) := by
  unfold emitTerminalLlmResponse
  split
  · exact .after (advance_emit _) rfl (by simp [isDoneEffect])
      (.after (advance_emit _) rfl (by simp [isDoneEffect])
        (.after (advance_emit _) rfl (by simp [isDoneEffect]) (works_finish _)))
  · exact .after (advance_emit _) rfl (by simp [isDoneEffect])
      (.after (advance_emit _) rfl (by simp [isDoneEffect]) (works_finish _))

theorem works_acceptLlmResponse (waiting : WaitingLlmState M) (response : LlmResponse M)
    (textStreamed : Bool) : Works m (m.acceptLlmResponse waiting response textStreamed) := by
  have hrefined := @works_recordLlmUsage M m (m.acceptLlmResponse waiting response textStreamed)
    (refineTerminalReasonForContextWindow response m.config.maxContextTokens)
  apply hrefined
  simp only [acceptLlmResponse]
  split
  · exact works_emitTerminalLlmResponse _ _ _
  · exact works_applyActions _

theorem works_handleLlmComplete (result : Except LlmCallError (LlmResponse M))
    (textStreamed : Bool) :
    Works m (m.handleLlmComplete id result textStreamed) := by
  unfold handleLlmComplete
  split
  · split
    · exact .refl m
    · split
      · exact .of_finished (works_emitLlmError _)
      · exact .of_finished (works_acceptLlmResponse _ _ _)
  · exact .refl m

variable (completed : List (CompletedToolCall M))

theorem works_acceptToolResults : Works m (m.acceptToolResults completed) := by
  have hemitted : Advance m (completed.foldl emitToolCall m) _ :=
    advance_foldl (fun m outcome => advance_emit (m := m)
      (.toolCall (some outcome.callId) outcome.toolName outcome.args outcome.output
        outcome.durationMs)) completed m
  have hevents : (completed.foldl emitToolCall m).events = m.events :=
    @foldl_frame M (CompletedToolCall M) _ emitToolCall events (fun _ _ => rfl)
      completed m
  refine .after hemitted hevents ?_ (works_applyActions _)
  intro e he
  obtain ⟨outcome, _, he⟩ := mem_flatMap.mp he
  rw [mem_singleton.mp he]
  rfl

theorem works_handleToolResults : Works m (m.handleToolResults id completed) := by
  unfold handleToolResults
  split
  · split
    · exact .refl m
    · exact .of_finished (works_acceptToolResults completed)
  · exact .refl m

theorem works_handleExecResult (result : Except String M.ExecResponse) :
    Works m (m.handleExecResult id result) := by
  unfold handleExecResult
  split
  · split
    · exact .refl m
    · exact .of_finished (works_applyActions _)
  · exact .refl m

theorem works_answer (response : Response M) : Works m (m.answer response) := by
  cases response with
  | executionEnvironmentSynced id result =>
    exact works_handleExecutionEnvironmentSynced id result
  | llmComplete id result textStreamed => exact works_handleLlmComplete id result textStreamed
  | toolResults id results => exact works_handleToolResults id results
  | execResult id result => exact works_handleExecResult id result
  | checkpoint id delivery => exact works_handleCheckpoint id delivery

end MachineSteps
