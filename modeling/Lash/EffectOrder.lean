import Lash.MachineRuns

/-!
# The order of effects

Ids are issued one by one, the effect that ends the turn is the last one, and a
finished machine stays as it is. How many effects wait for a response at once is
up to the driver: the machine waits for the last one that was started, so two
starts in one list of actions leave the first without an answer for good.
-/

namespace EffectOrder

open TurnInputs TurnProtocols TurnMachines TurnMachine MachineSteps MachineRuns List Option
open MachineState

variable {M : TurnProtocol} {m m' : TurnMachine M} {history : List (MachineEntry M)}

def isStart : DriverAction M → Bool
  | .startLlm _ _ => true
  | .startTools _ => true
  | .startExec _ _ _ => true
  | .startCheckpoint _ _ => true
  | _ => false

/-- How many effects the actions start before the first `finish`. -/
def starts : List (DriverAction M) → Nat
  | [] => 0
  | action :: actions =>
    if isFinish action then 0 else (if isStart action then 1 else 0) + starts actions

/-- Whatever it is asked, the driver starts at most one effect. -/
structure StartsOnce (driver : ProtocolDriver M) : Prop where
  prepare : ∀ ctx, starts (driver.prepareProtocolIteration ctx) ≤ 1
  llm : ∀ ctx waiting response textStreamed,
    starts (driver.handleLlmSuccess ctx waiting response textStreamed) ≤ 1
  tools : ∀ ctx completed, starts (driver.handleToolResults ctx completed) ≤ 1
  exec : ∀ ctx waiting result, starts (driver.handleExecResult ctx waiting result) ≤ 1

/-- No effect was started, or one that the machine now waits for unless it has
finished since. -/
def SingleStart (m m' : TurnMachine M) : Prop :=
  m'.nextEffectId = m.nextEffectId ∨
    (m'.nextEffectId = m.nextEffectId + 1 ∧
      (m'.isDone = true ∨ m'.state.outstandingEffectId = some m.nextEffectId))

variable {action : DriverAction M}

theorem applyAction_of_start (hstart : isStart action = true) :
    (applyAction m action).nextEffectId = m.nextEffectId + 1 ∧
      (applyAction m action).state.outstandingEffectId = some m.nextEffectId := by
  cases action <;> first | exact ⟨rfl, rfl⟩ | simp [isStart] at hstart

theorem applyAction_of_not_start (hstart : isStart action = false) :
    (applyAction m action).nextEffectId = m.nextEffectId ∧
      (applyAction m action).state = m.state := by
  have hevent (m : TurnMachine M) (event : SessionEventRecord M) :
      (m.appendEvent event).nextEffectId = m.nextEffectId ∧
        (m.appendEvent event).state = m.state := by
    cases event <;> exact ⟨rfl, rfl⟩
  cases action with
  | appendEvents events =>
    exact ⟨foldl_frame nextEffectId (fun m e => (hevent m e).1) events m,
      foldl_frame state (fun m e => (hevent m e).2) events m⟩
  | scheduleTurnLimitFinal message =>
    simp only [applyAction, scheduleTurnLimitFinal]
    split <;> exact ⟨rfl, rfl⟩
  | emit | advanceProtocolIteration | finish => exact ⟨rfl, rfl⟩
  | _ => simp [isStart] at hstart

theorem finish_nextEffectId (outcome : TurnOutcome M) :
    (m.finish outcome).nextEffectId = m.nextEffectId := by
  rw [finish_eq]

theorem flushProgress_finish_nextEffectId (progressDirty : Bool) (outcome : TurnOutcome M) :
    ((flushProgress progressDirty m).finish outcome).nextEffectId = m.nextEffectId := by
  rw [finish_nextEffectId]
  cases progressDirty <;> rfl

theorem starts_cons (hopen : isFinish action = false) (actions : List (DriverAction M)) :
    starts (action :: actions) = (if isStart action then 1 else 0) + starts actions := by
  simp [starts, hopen]

variable {progressDirty : Bool} {actions : List (DriverAction M)}

theorem applyActionsFrom_of_no_start (none : starts actions = 0) :
    (applyActionsFrom progressDirty m actions).nextEffectId = m.nextEffectId ∧
      ((applyActionsFrom progressDirty m actions).isDone = true ∨
        (applyActionsFrom progressDirty m actions).state = m.state) := by
  induction progressDirty, m, actions using applyActionsFrom_induct with
  | empty dirty m => cases dirty <;> exact ⟨rfl, .inr rfl⟩
  | finish dirty m outcome actions =>
    refine ⟨flushProgress_finish_nextEffectId dirty outcome, .inl ?_⟩
    simp only [applyActionsFrom, finish_eq]
    rfl
  | other dirty m action actions hopen ih =>
    rw [starts_cons hopen] at none
    have hstart : isStart action = false := by
      by_contra h
      simp [Bool.not_eq_false _ ▸ h] at none
    obtain ⟨hid, hstate⟩ := applyAction_of_not_start (m := m) hstart
    rw [applyActionsFrom_cons dirty hopen]
    obtain ⟨hid', hstate'⟩ := ih (by omega)
    exact ⟨hid'.trans hid, hstate'.imp id (·.trans hstate)⟩

theorem applyActionsFrom_of_one_start (once : starts actions ≤ 1) :
    SingleStart m (applyActionsFrom progressDirty m actions) := by
  induction progressDirty, m, actions using applyActionsFrom_induct with
  | empty dirty m => cases dirty <;> exact .inl rfl
  | finish dirty m outcome actions =>
    exact .inl (flushProgress_finish_nextEffectId dirty outcome)
  | other dirty m action actions hopen ih =>
    rw [starts_cons hopen] at once
    rw [applyActionsFrom_cons dirty hopen]
    cases hstart : isStart action with
    | true =>
      rw [hstart, if_pos rfl] at once
      obtain ⟨hid, hwaits⟩ := applyAction_of_start (m := m) hstart
      obtain ⟨hid', hstate'⟩ := @applyActionsFrom_of_no_start M (applyAction m action)
        (dirtyAfter dirty m action) actions (by omega)
      refine .inr ⟨hid'.trans hid, hstate'.imp id fun hsame => ?_⟩
      rw [hsame, hwaits]
    | false =>
      rw [hstart] at once
      obtain ⟨hid, _⟩ := applyAction_of_not_start (m := m) hstart
      have hrest := ih (by simpa using once)
      rcases hrest with hrest | ⟨hrest, hwaits⟩
      · exact .inl (hrest.trans hid)
      · exact .inr ⟨by rw [hrest, hid], by rwa [hid] at hwaits⟩

theorem singleStart_applyActions (once : starts actions ≤ 1) :
    SingleStart m (m.applyActions actions) :=
  applyActionsFrom_of_one_start once

theorem SingleStart.of_same (first : m'.nextEffectId = m.nextEffectId)
    {m'' : TurnMachine M} (then_ : SingleStart m' m'') : SingleStart m m'' := by
  unfold SingleStart at *
  rwa [first] at then_

theorem singleStart_prepareProtocolIteration (once : StartsOnce m.config.protocolDriver) :
    SingleStart m m.prepareProtocolIteration := by
  unfold prepareProtocolIteration
  split
  · exact .inr ⟨rfl, .inr rfl⟩
  · exact singleStart_applyActions (once.prepare _)

theorem singleStart_prepareProtocol (once : StartsOnce m.config.protocolDriver) :
    SingleStart m m.prepareProtocol := by
  unfold prepareProtocol
  split
  · exact .inr ⟨rfl, .inr rfl⟩
  · exact singleStart_prepareProtocolIteration once

theorem acceptDelivery_nextEffectId (delivery : CheckpointDelivery) :
    (m.acceptDelivery delivery).nextEffectId = m.nextEffectId := by
  have hcause (m : TurnMachine M) (cause : TurnCause) :
      (m.appendTurnCause cause).nextEffectId = m.nextEffectId := by
    unfold appendTurnCause
    split <;> rfl
  have hmessages (m : TurnMachine M) (messages : List PluginMessage) (transient : Bool) :
      (m.appendCheckpointMessages messages transient).nextEffectId = m.nextEffectId :=
    @foldl_frame M PluginMessage _ (appendCheckpointMessage transient)
      nextEffectId (fun _ _ => rfl) _ m
  calc (m.acceptDelivery delivery).nextEffectId = _ := foldl_frame nextEffectId hcause _ _
    _ = _ := hmessages _ _ _
    _ = m.nextEffectId := hmessages _ _ _

theorem resumeAfterDelivery_nextEffectId (checkpoint : CheckpointKind) :
    (m.resumeAfterDelivery checkpoint).nextEffectId = m.nextEffectId := by
  cases checkpoint with
  | afterWork => rfl
  | beforeCompletion =>
    simp only [resumeAfterDelivery]
    split
    · rw [finish_nextEffectId]
      rfl
    · change m.countIteration.scheduleConfiguredTurnLimitFinal.nextEffectId = _
      unfold scheduleConfiguredTurnLimitFinal
      split <;> rfl

theorem handleCheckpoint_nextEffectId (id : EffectId) (delivery : CheckpointDelivery) :
    (m.handleCheckpoint id delivery).nextEffectId = m.nextEffectId := by
  unfold handleCheckpoint
  split
  · split
    · rfl
    · split
      · split
        · rfl
        · rw [finish_nextEffectId]
          rfl
      · rw [resumeAfterDelivery_nextEffectId, acceptDelivery_nextEffectId]
        rfl
  · rfl

theorem handleExecutionEnvironmentSynced_nextEffectId (id : EffectId)
    (result : Except String (Option (ExecutionEnvironmentSync M))) :
    (m.handleExecutionEnvironmentSynced id result).nextEffectId = m.nextEffectId := by
  unfold handleExecutionEnvironmentSynced
  split
  · split
    · rfl
    · split
      · rfl
      · unfold failTurn
        rw [finish_nextEffectId]
        rfl
  · rfl

theorem recordLlmUsage_frame (response : LlmResponse M) :
    (m.recordLlmUsage response).nextEffectId = m.nextEffectId ∧
      (m.recordLlmUsage response).config = m.config := by
  simp only [recordLlmUsage]
  split <;> exact ⟨rfl, rfl⟩

section

variable (once : StartsOnce m.config.protocolDriver)
include once

variable (id : EffectId)

theorem singleStart_handleLlmComplete (result : Except LlmCallError (LlmResponse M))
    (textStreamed : Bool) : SingleStart m (m.handleLlmComplete id result textStreamed) := by
  unfold handleLlmComplete
  split
  · split
    · exact .inl rfl
    · split
      · left
        unfold emitLlmError recordLlmError
        rw [finish_nextEffectId]
        split <;> rfl
      · rename_i response
        have hframe := recordLlmUsage_frame (m := m.withState .finished)
          (refineTerminalReasonForContextWindow response m.config.maxContextTokens)
        refine .of_same hframe.1 ?_
        simp only [acceptLlmResponse]
        split
        · left
          simp only [emitTerminalLlmResponse]
          rw [finish_nextEffectId]
          split <;> rfl
        · refine singleStart_applyActions ?_
          have hdriver := congrArg TurnMachineConfig.protocolDriver hframe.2
          exact (hdriver ▸ once :).llm _ _ _ _
  · exact .inl rfl

theorem singleStart_handleToolResults (completed : List (CompletedToolCall M)) :
    SingleStart m (m.handleToolResults id completed) := by
  unfold handleToolResults
  split
  · split
    · exact .inl rfl
    · have hids := @foldl_frame M (CompletedToolCall M) _ emitToolCall
        nextEffectId (fun _ _ => rfl) completed (m.withState .finished)
      have hconfig := @foldl_frame M (CompletedToolCall M) _ emitToolCall
        config (fun _ _ => rfl) completed (m.withState .finished)
      refine .of_same hids (singleStart_applyActions ?_)
      have hdriver := congrArg TurnMachineConfig.protocolDriver hconfig
      exact (hdriver ▸ once :).tools _ _
  · exact .inl rfl

theorem singleStart_handleExecResult (result : Except String M.ExecResponse) :
    SingleStart m (m.handleExecResult id result) := by
  unfold handleExecResult
  split
  · split
    · exact .inl rfl
    · exact singleStart_applyActions (once.exec _ _ _)
  · exact .inl rfl

theorem singleStart_answer (response : Response M) : SingleStart m (m.answer response) := by
  cases response with
  | executionEnvironmentSynced id result =>
    exact .inl (handleExecutionEnvironmentSynced_nextEffectId id result)
  | llmComplete id result textStreamed =>
    exact singleStart_handleLlmComplete once id result textStreamed
  | toolResults id results => exact singleStart_handleToolResults once id results
  | execResult id result => exact singleStart_handleExecResult once id result
  | checkpoint id delivery => exact .inl (handleCheckpoint_nextEffectId id delivery)

end

/-- A host that polls, or hands over a response. -/
def hostCall : Option (Response M) → Call M
  | none => .poll
  | some response => .respond response

def responseId : Response M → EffectId
  | .executionEnvironmentSynced id _ => id
  | .llmComplete id _ _ => id
  | .toolResults id _ => id
  | .execResult id _ => id
  | .checkpoint id _ => id

/-- The ids of the effects whose response the machine took in. -/
def accepted : List (MachineEntry M) → List EffectId
  | [] => []
  | entry :: older =>
    match entry.input with
    | .respond response =>
      if awaits entry.before.state response then responseId response :: accepted older
      else accepted older
    | _ => accepted older

/-- The delivered effects that need a response and have not had it. -/
def unanswered (history : List (MachineEntry M)) : List EffectId :=
  (effectIds (delivered history)).filter fun id => decide (id ∉ accepted history)

/-- What was delivered, then what is queued. -/
def emitted (history : List (MachineEntry M)) (m : TurnMachine M) : List (Effect M) :=
  delivered history ++ m.pendingEffects

variable {response : Response M}

theorem outstandingEffectId_of_awaits (h : Awaits m response) :
    m.state.outstandingEffectId = some (responseId response) ∧ m.isDone = false := by
  unfold Awaits at h
  cases hstate : m.state <;> cases response <;>
    simp_all [awaits, outstandingEffectId, responseId, isDone]

theorem state_ne_finished_of_awaits (h : Awaits m response) : m.state ≠ .finished := by
  intro hstate
  rw [Awaits, hstate] at h
  cases h

/-- An awaited response is handled by the machine with its state emptied. -/
theorem works_answer_of_awaits (h : Awaits m response) :
    Works (m.withState .finished) (m.answer response) := by
  unfold Awaits at h
  cases hstate : m.state <;> cases response <;> rw [hstate] at h <;>
    simp only [awaits, Bool.false_eq_true, beq_iff_eq] at h <;> subst h
  case waitingExecutionEnvironment.executionEnvironmentSynced result =>
    simp only [answer, handleExecutionEnvironmentSynced, hstate, ne_eq, not_true_eq_false, if_false]
    cases result with
    | ok update =>
      have hfixed : fixed (m.acceptSync update) = fixed (m.withState .finished) := by
        cases update <;> rfl
      exact .of_open (.of_frame hfixed rfl rfl rfl (.inr rfl) rfl rfl) rfl (by simp)
    | error error => exact works_failTurn _
  case waitingLlm.llmComplete result _ =>
    simp only [answer, handleLlmComplete, hstate, ne_eq, not_true_eq_false, if_false]
    cases result with
    | error error => exact works_emitLlmError error
    | ok response => exact works_acceptLlmResponse _ _ _
  case waitingTools.toolResults results =>
    simp only [answer, handleToolResults, hstate, ne_eq, not_true_eq_false, if_false]
    exact works_acceptToolResults results
  case waitingExec.execResult result =>
    simp only [answer, handleExecResult, hstate, ne_eq, not_true_eq_false, if_false]
    exact works_applyActions _
  case waitingCheckpoint.checkpoint checkpoint onEmpty delivery =>
    simp only [answer, handleCheckpoint, hstate, ne_eq, not_true_eq_false, if_false]
    split
    · cases onEmpty with
      | prepareIteration =>
        have hresumed : Advance (m.withState .finished) (m.withState .prepareIteration) [] :=
          .of_frame rfl rfl rfl rfl (.inl rfl) rfl rfl
        exact .of_open hresumed rfl (by simp)
      | finish outcome => exact works_finish outcome
    · exact .after (advance_acceptDelivery delivery) (acceptDelivery_events delivery) (by simp)
        (works_resumeAfterDelivery checkpoint)

/-- What holds of a machine that a host only polled and answered: `effects` were
delivered, and the responses to `taken` were taken in. -/
structure Ordered (start : TurnMachine M) (effects : List (Effect M)) (taken : List EffectId)
    (m : TurnMachine M) : Prop where
  undue : m.activeEffectRedelivery = false
  lasting : fixed m = fixed start
  issued : 1 ≤ m.nextEffectId
  ids : effectIds (effects ++ m.pendingEffects) = List.range' 1 (m.nextEffectId - 1)
  closes : Closes (effects ++ m.pendingEffects) m
  single : StartsOnce start.config.protocolDriver → ∃ last : Option EffectId,
    (∀ id ∈ effectIds (effects ++ m.pendingEffects), id ∈ taken ∨ last = some id) ∧
      (m.isDone = false → last = m.state.outstandingEffectId)

section Steps

variable {start : TurnMachine M} {effects new : List (Effect M)} {taken : List EffectId}

theorem driver_of_fixed (h : fixed m = fixed start) :
    m.config.protocolDriver = start.config.protocolDriver :=
  congrArg (fun kept => kept.1.protocolDriver) h

variable {state : MachineState M}

theorem outstandingEffect_eq_none (h : state.outstandingEffectId = none) :
    state.outstandingEffect = none := by
  rw [← not_isSome_iff_eq_none, ← outstandingEffectId_isSome, h]
  simp

/-- Of work that starts at most one effect, the effect it started is the one the
machine waits for. -/
theorem last_of_single (worked : Worked m m' new) (idle : m.state.outstandingEffect = none)
    (single : SingleStart m m') :
    ∃ last : Option EffectId, (∀ id ∈ effectIds new, last = some id) ∧
      (m'.isDone = false → last = m'.state.outstandingEffectId) := by
  have hids := worked.ids
  rcases single with hsame | ⟨hnext, hwaits⟩
  · rw [hsame, Nat.sub_self, range'_zero] at hids
    refine ⟨none, by simp [hids], fun _ => ?_⟩
    have hnone : m'.state.outstandingEffect = none := by
      rcases worked.waits with h | h | ⟨e, he, h⟩
      · exact h.trans idle
      · exact h
      · exfalso
        obtain ⟨id, hid⟩ := isSome_iff_exists.mp
          (by rw [outstandingEffectId_isSome, h]; rfl : m'.state.outstandingEffectId.isSome = true)
        have heid : e.id = some id := by
          rw [← hid, ← outstandingEffect_id, h]
          rfl
        have hmem := mem_effectIds.mpr ⟨e, he, heid⟩
        rw [hids] at hmem
        exact not_mem_nil hmem
    rw [← outstandingEffect_id, hnone]
    rfl
  · have hone : m'.nextEffectId - m.nextEffectId = 1 := by omega
    rw [hone, range'_one] at hids
    refine ⟨some m.nextEffectId, fun id hid => ?_, fun hopen => ?_⟩
    · rw [hids] at hid
      rw [mem_singleton.mp hid]
    · rcases hwaits with hdone | hwaits
      · rw [hdone] at hopen
        exact absurd hopen (by decide)
      · exact hwaits.symm

section

variable (law : Ordered start effects taken m)
include law

/-- Work from a state that waits for nothing, all earlier responses taken in. -/
theorem Ordered.works {taken' : List EffectId}
    (open_ : ∀ e ∈ effects ++ m.pendingEffects, isDoneEffect e = false)
    (idle : state.outstandingEffect = none) (works : Works (m.withState state) m')
    (single : StartsOnce start.config.protocolDriver → SingleStart m m')
    (all : StartsOnce start.config.protocolDriver →
      ∀ id ∈ effectIds (effects ++ m.pendingEffects), id ∈ taken') :
    Ordered start effects taken' m' := by
  obtain ⟨new, worked⟩ := works
  have hqueue : effects ++ m'.pendingEffects = effects ++ m.pendingEffects ++ new := by
    rw [worked.queued, append_assoc]
    rfl
  have hgrows : m.nextEffectId ≤ m'.nextEffectId := worked.grows
  have hids : effectIds new = range' m.nextEffectId (m'.nextEffectId - m.nextEffectId) := worked.ids
  refine ⟨worked.redelivery.trans law.undue, worked.lasting.trans law.lasting,
    Nat.le_trans law.issued hgrows, ?_, ?_, fun once => ?_⟩
  · have hissued := law.issued
    have hstart : m.nextEffectId = 1 + (m.nextEffectId - 1) := by omega
    have hcount : m'.nextEffectId - 1 =
        (m.nextEffectId - 1) + (m'.nextEffectId - m.nextEffectId) := by omega
    rw [hqueue, effectIds_append, law.ids, hids, hcount, ← range'_append_1, ← hstart]
  · rw [hqueue]
    exact worked.closes.after open_
  · obtain ⟨last, hnew, hlast⟩ := last_of_single worked idle (single once)
    refine ⟨last, fun id hid => ?_, hlast⟩
    rw [hqueue, effectIds_append] at hid
    exact (mem_append.mp hid).imp (all once id) (hnew id)

/-- An unfinished machine has not emitted `done`. -/
theorem Ordered.open_ (unfinished : m.isDone = false) :
    ∀ e ∈ effects ++ m.pendingEffects, isDoneEffect e = false := by
  rcases law.closes with h | ⟨_, _, _, _, _, hstate⟩
  · exact h
  · rw [isDone_iff.mpr hstate] at unfinished
    cases unfinished

theorem Ordered.popFront : Ordered start (effects ++ m.popFront.1.toList) taken m.popFront.2 := by
  cases hqueue : m.pendingEffects with
  | nil => simpa [popFront_nil hqueue] using law
  | cons effect rest =>
    have hemitted : effects ++ [effect] ++ rest = effects ++ m.pendingEffects := by
      simp [hqueue]
    rw [popFront_cons hqueue]
    refine ⟨law.undue, law.lasting, law.issued, ?_, ?_, ?_⟩
    · exact (congrArg effectIds hemitted).trans law.ids
    · exact hemitted ▸ law.closes
    · exact hemitted ▸ law.single

theorem Ordered.poll : Ordered start (effects ++ m.pollEffect.1.toList) taken m.pollEffect.2 := by
  cases hqueue : m.pendingEffects with
  | cons effect rest =>
    have hpop := law.popFront
    rwa [popFront_cons hqueue, ← pollEffect_cons hqueue] at hpop
  | nil =>
    have hpoll := pollEffect_prepare hqueue fun h => by rw [law.undue] at h; cases h
    rw [settled_eq law.undue] at hpoll
    rw [hpoll]
    have hwork {m' : TurnMachine M} (hidle : m.state.outstandingEffectId = none)
        (hopen : m.isDone = false) (works : Works m m')
        (single : StartsOnce m.config.protocolDriver → SingleStart m m') :
        Ordered start effects taken m' := by
      refine law.works (law.open_ hopen) (outstandingEffect_eq_none hidle) works
        (driver_of_fixed law.lasting ▸ single) fun once id hid => ?_
      obtain ⟨last, hall, hlast⟩ := law.single once
      rw [hlast hopen, hidle] at hall
      simpa using hall id hid
    cases hstate : m.state with
    | preparingProtocol =>
      have hprepared := hwork (by rw [hstate]; rfl) (by simp [isDone, hstate])
        works_prepareProtocol singleStart_prepareProtocol
      simpa only [prepare, hstate] using hprepared.popFront
    | prepareIteration =>
      have hprepared := hwork (by rw [hstate]; rfl) (by simp [isDone, hstate])
        works_prepareProtocolIteration singleStart_prepareProtocolIteration
      simpa only [prepare, hstate] using hprepared.popFront
    | _ => simpa [prepare, hstate] using law

theorem Ordered.answered (h : Awaits m response) :
    Ordered start effects (responseId response :: taken) (m.handleResponse response) := by
  obtain ⟨hid, hopen⟩ := outstandingEffectId_of_awaits h
  have hsettled : m.handleResponse response = m.answer response := by
    unfold handleResponse
    rw [show ({ m with activeEffectRedelivery := false } : TurnMachine M) = m from
      settled_eq law.undue]
  rw [hsettled]
  refine law.works (law.open_ hopen) rfl (works_answer_of_awaits h)
    (fun once => singleStart_answer (driver_of_fixed law.lasting ▸ once) response)
    fun once id hmem => ?_
  obtain ⟨last, hall, hlast⟩ := law.single once
  rw [hlast hopen, hid] at hall
  rcases hall id hmem with h | h
  · exact mem_cons_of_mem _ h
  · rw [some.inj h]
    exact mem_cons_self

end

theorem Ordered.step (law : Ordered start (delivered history) (accepted history) m)
    (input : Option (Response M)) :
    Ordered start (delivered (Runs.entryAt MachineRuns.step (hostCall input) m :: history))
      (accepted (Runs.entryAt MachineRuns.step (hostCall input) m :: history))
      (MachineRuns.step (hostCall input) m).2 := by
  cases input with
  | none => exact law.poll
  | some response =>
    have hdelivered : delivered (Runs.entryAt MachineRuns.step (hostCall (some response)) m ::
        history) = delivered history := append_nil _
    rw [hdelivered]
    by_cases h : Awaits m response
    · have htaken : accepted (Runs.entryAt MachineRuns.step (hostCall (some response)) m ::
          history) = responseId response :: accepted history := if_pos h
      rw [htaken]
      exact law.answered h
    · have htaken : accepted (Runs.entryAt MachineRuns.step (hostCall (some response)) m ::
          history) = accepted history := if_neg h
      rw [htaken]
      have hsame := handleResponse_of_not_awaits h
      rw [settled_eq law.undue] at hsame
      rw [show (MachineRuns.step (hostCall (some response)) m).2 = m from hsame]
      exact law

end Steps

section Finished

variable {later : List (Option (Response M))}

/-- A finished machine gives away what is queued and does nothing else. -/
structure Frozen (first second : List (MachineEntry M) × TurnMachine M) : Prop where
  state : second.2.state = first.2.state
  messages : second.2.messages = first.2.messages
  events : second.2.events = first.2.events
  undue : second.2.activeEffectRedelivery = first.2.activeEffectRedelivery
  emitted : emitted second.1 second.2 = emitted first.1 first.2

theorem frozen_step (undue : m.activeEffectRedelivery = false) (done : m.isDone = true)
    (input : Option (Response M)) :
    Frozen (history, m) (Runs.entryAt MachineRuns.step (hostCall input) m :: history,
      (MachineRuns.step (hostCall input) m).2) := by
  have hstate : m.state = .finished := isDone_iff.mp done
  cases input with
  | some response =>
    have hstale : ¬ Awaits m response := by simp [Awaits, hstate, awaits]
    have hsame : (MachineRuns.step (hostCall (some response)) m).2 = m := by
      have hsettled := handleResponse_of_not_awaits hstale
      rwa [settled_eq undue] at hsettled
    rw [hsame]
    refine ⟨rfl, rfl, rfl, rfl, ?_⟩
    simp only [emitted, delivered, Runs.entryAt, MachineRuns.step, hostCall,
      toList_none, append_nil]
  | none =>
    have hpop : m.pollEffect = m.popFront := by
      cases hqueue : m.pendingEffects with
      | cons effect rest => rw [pollEffect_cons hqueue, popFront_cons hqueue]
      | nil =>
        have hpoll := pollEffect_prepare hqueue fun h => by rw [undue] at h; cases h
        rw [hpoll, settled_eq undue, popFront_nil hqueue]
        simp only [prepare, hstate]
    have hqueue := popFront_queue m
    rw [← hpop] at hqueue
    have hfields : m.pollEffect.2.state = m.state ∧ m.pollEffect.2.messages = m.messages ∧
        m.pollEffect.2.events = m.events ∧
        m.pollEffect.2.activeEffectRedelivery = m.activeEffectRedelivery := by
      rw [hpop]
      unfold popFront
      split <;> exact ⟨rfl, rfl, rfl, rfl⟩
    refine ⟨hfields.1, hfields.2.1, hfields.2.2.1, hfields.2.2.2, ?_⟩
    simp only [emitted, delivered, Runs.entryAt, MachineRuns.step, hostCall, append_assoc, hqueue]

theorem frozen_perform (undue : m.activeEffectRedelivery = false) (done : m.isDone = true) :
    Frozen (history, m)
      (Runs.perform MachineRuns.step (later.map hostCall) (history, m)) := by
  induction later generalizing history m with
  | nil => exact ⟨rfl, rfl, rfl, rfl, rfl⟩
  | cons input later ih =>
    have hone := @frozen_step M m history undue done input
    have hdone : (MachineRuns.step (hostCall input) m).2.isDone = true :=
      isDone_iff.mpr (hone.state.trans (isDone_iff.mp done))
    have hrest := @ih (MachineRuns.step (hostCall input) m).2
      (Runs.entryAt MachineRuns.step (hostCall input) m :: history)
      (hone.undue.trans undue) hdone
    exact ⟨hrest.state.trans hone.state, hrest.messages.trans hone.messages,
      hrest.events.trans hone.events, hrest.undue.trans hone.undue,
      hrest.emitted.trans hone.emitted⟩

end Finished

theorem ordered_after (config : TurnMachineConfig M) (messages : List Message)
    (events : List (SessionEventRecord M)) (offset : Nat) (causes : List TurnCause)
    (inputs : List (Option (Response M))) :
    let start := newSharedWithTurnCauses config messages events offset causes
    Ordered start (delivered (after (inputs.map hostCall) start).1)
      (accepted (after (inputs.map hostCall) start).1)
      (after (inputs.map hostCall) start).2 := by
  intro start
  have hnew : Ordered start (delivered ([] : List (MachineEntry M)))
      (accepted ([] : List (MachineEntry M))) start :=
    ⟨rfl, rfl, Nat.le_refl _, rfl, .inl (by simp [delivered, start, newSharedWithTurnCauses]),
      fun _ => ⟨none, by simp [delivered, start, newSharedWithTurnCauses], fun _ => rfl⟩⟩
  suffices h : ∀ (history : List (MachineEntry M)) (m : TurnMachine M),
      Ordered start (delivered history) (accepted history) m → Ordered start
        (delivered (Runs.perform MachineRuns.step (inputs.map hostCall) (history, m)).1)
        (accepted (Runs.perform MachineRuns.step (inputs.map hostCall) (history, m)).1)
        (Runs.perform MachineRuns.step (inputs.map hostCall) (history, m)).2 from
    h [] start hnew
  induction inputs with
  | nil => exact fun _ _ law => law
  | cons input inputs ih => exact fun history m law => ih _ _ (law.step input)

/-- Elements of a list without repetitions that all equal the same one. -/
theorem length_le_one_of_all_eq {A : Type*} {items : List A} {last : Option A}
    (nodup : items.Nodup) (all : ∀ a ∈ items, last = some a) : items.length ≤ 1 := by
  match items with
  | [] => exact Nat.zero_le _
  | [_] => exact Nat.le_refl _
  | a :: b :: rest =>
    have ha := all a (by simp)
    have hb := all b (by simp)
    have hsame : a = b := some.inj (ha.symm.trans hb)
    simp [hsame] at nodup

theorem done_is_last {effects older newer : List (Effect M)} {e : Effect M}
    (closes : Closes effects m) (shape : effects = older ++ e :: newer)
    (done : isDoneEffect e = true) : newer = [] ∧ m.isDone = true := by
  rcases closes with h | ⟨earlier, last, hshape, hearlier, _, hstate⟩
  · have hopen := h e (by rw [shape]; simp)
    rw [done] at hopen
    cases hopen
  · refine ⟨?_, isDone_iff.mpr hstate⟩
    rw [shape] at hshape
    rcases eq_nil_or_concat newer with hnil | ⟨front, final, hfront⟩
    · exact hnil
    · rw [hfront, concat_eq_append, ← cons_append, ← append_assoc] at hshape
      have hfirst := (append_inj' hshape rfl).1
      have hopen := hearlier e (by rw [← hfirst]; simp)
      rw [done] at hopen
      cases hopen

theorem Ordered.unanswered_le_one {start : TurnMachine M}
    (law : Ordered start (delivered history) (accepted history) m)
    (once : StartsOnce start.config.protocolDriver) : (unanswered history).length ≤ 1 := by
  obtain ⟨last, hall, _⟩ := law.single once
  have hids := law.ids
  rw [effectIds_append] at hids hall
  have hnodup := (nodup_append.mp (hids ▸ nodup_range')).1
  have hlast : ∀ id ∈ unanswered history, last = some id := by
    intro id hid
    obtain ⟨hmem, hopen⟩ := mem_filter.mp hid
    exact (hall id (mem_append_left _ hmem)).resolve_left (of_decide_eq_true hopen)
  exact length_le_one_of_all_eq (hnodup.filter _) hlast

/-- In every run of polls and responses, whatever the driver: ids increase, `done`
comes last, a finished machine changes no more, and if the driver starts at most
one effect at a time then at most one effect waits for its response. -/
theorem effects_in_order (config : TurnMachineConfig M) (messages : List Message)
    (events : List (SessionEventRecord M)) (offset : Nat) (causes : List TurnCause)
    (inputs : List (Option (Response M))) :
    let (history, m) := after (inputs.map hostCall)
      (newSharedWithTurnCauses config messages events offset causes)
    (effectIds (emitted history m)).Pairwise (· < ·) ∧
      (∀ older e newer, emitted history m = older ++ e :: newer → isDoneEffect e = true →
        newer = [] ∧ m.isDone = true) ∧
      (StartsOnce config.protocolDriver → (unanswered history).length ≤ 1) ∧
      (m.isDone = true → ∀ later : List (Option (Response M)),
        let (history', m') := Runs.perform step (later.map hostCall) (history, m)
        m'.state = m.state ∧ m'.messages = m.messages ∧ m'.events = m.events ∧
          emitted history' m' = emitted history m) := by
  have law := ordered_after config messages events offset causes inputs
  revert law
  simp only
  generalize after (inputs.map hostCall)
    (newSharedWithTurnCauses config messages events offset causes) = reached
  obtain ⟨history, m⟩ := reached
  intro law
  refine ⟨?_, fun older e newer hsplit hdone => done_is_last law.closes hsplit hdone,
    law.unanswered_le_one, fun done later => ?_⟩
  · have hids : effectIds (emitted history m) = _ := law.ids
    exact hids ▸ pairwise_lt_range' _
  · have hfrozen := @frozen_perform M m history later law.undue done
    exact ⟨hfrozen.state, hfrozen.messages, hfrozen.events, hfrozen.emitted⟩

/-- A driver that asks the model and runs a tool in one go. -/
def twoStarts : List (DriverAction unitProtocol) := [.startLlm "prompt" none, .startTools []]

/-- Both effects are delivered and need a response. -/
theorem two_effects_outstanding :
    unanswered (after ([none, none, none].map hostCall) (scriptedMachine twoStarts [])).1 =
      [1, 2] := by
  decide

end EffectOrder
