import Lash.MachineRuns

/-!
# A restored machine follows the original

A checkpoint leaves the outstanding effect out of the queue it saves, and the
restored machine delivers it once more after that queue. After that the two
machines are the same. A host that answers before it has drained the queue of
the original sees no difference either: handling a response only adds effects
behind those that are queued.
-/

namespace MachineRestores

open TurnInputs TurnProtocols TurnMachines TurnMachine MachineSteps MachineRuns List Option
open MachineState

variable {M : TurnProtocol} {queue : List (Effect M)} {m m' : TurnMachine M}

/-- Poll that many times. -/
def pollMany : Nat → TurnMachine M → List (Option (Effect M)) × TurnMachine M
  | 0, m => ([], m)
  | n + 1, m =>
    (m.pollEffect.1 :: (pollMany n m.pollEffect.2).1, (pollMany n m.pollEffect.2).2)

/-- The machine with everything delivered. -/
def drained (m : TurnMachine M) : TurnMachine M :=
  { m with
    pendingEffects := []
    activeEffectRedelivery := false }

/-- The machine with these effects queued before its own. -/
def behind (queue : List (Effect M)) (m : TurnMachine M) : TurnMachine M :=
  { m with pendingEffects := queue ++ m.pendingEffects }

section Queues

variable (queue m)

theorem behind_push (effect : Effect M) :
    (behind queue m).push effect = behind queue (m.push effect) := by
  simp [behind, push, append_assoc]

variable (event : SessionEvent M)

theorem behind_emit : (behind queue m).emit event = behind queue (m.emit event) :=
  behind_push queue m _

theorem behind_emitProgress : (behind queue m).emitProgress = behind queue m.emitProgress := by
  simp [behind, emitProgress, nextEventDelta, eventDelta_eq, push, append_assoc]

theorem behind_finish (outcome : TurnOutcome M) :
    (behind queue m).finish outcome = behind queue (m.finish outcome) := by
  rw [finish_eq, finish_eq]
  simp [behind, finishEffects, eventDelta_eq, append_assoc]

theorem behind_failTurn : (behind queue m).failTurn event = behind queue (m.failTurn event) := by
  unfold failTurn
  rw [behind_emit, behind_finish]

theorem behind_start (state : EffectId → MachineState M) (effect : EffectId → Effect M) :
    (behind queue m).start state effect = behind queue (m.start state effect) := by
  simp [behind, start, push, append_assoc]

theorem behind_startLlmRequest (request : M.LlmRequest) (driverState : Option M.DriverState) :
    (behind queue m).startLlmRequest request driverState =
      behind queue (m.startLlmRequest request driverState) := by
  unfold startLlmRequest
  rw [← behind_start, ← behind_emit]
  rfl

theorem behind_foldl {A : Type*} {work : TurnMachine M → A → TurnMachine M}
    (each : ∀ m a, work (behind queue m) a = behind queue (work m a)) (items : List A) :
    items.foldl work (behind queue m) = behind queue (items.foldl work m) := by
  induction items generalizing m with
  | nil => rfl
  | cons a items ih => rw [foldl_cons, each, ih, foldl_cons]

theorem behind_appendEvent (event : SessionEventRecord M) :
    (behind queue m).appendEvent event = behind queue (m.appendEvent event) := by
  cases event <;> rfl

theorem behind_scheduleTurnLimitFinal (message : Message) :
    (behind queue m).scheduleTurnLimitFinal message = ((m.scheduleTurnLimitFinal message).1,
        behind queue (m.scheduleTurnLimitFinal message).2) := by
  have hschedule : (behind queue m).turnLimitFinalToSchedule = m.turnLimitFinalToSchedule := rfl
  unfold scheduleTurnLimitFinal
  rw [hschedule]
  cases m.turnLimitFinalToSchedule <;> rfl

variable (action : DriverAction M)

theorem behind_applyAction :
    applyAction (behind queue m) action = behind queue (applyAction m action) := by
  cases action with
  | emit event => exact behind_emit queue m event
  | appendEvents events => exact behind_foldl queue m (behind_appendEvent queue) events
  | startLlm request driverState => exact behind_startLlmRequest queue m request driverState
  | startTools calls =>
    exact behind_start queue m (.waitingTools · calls) (.toolCalls · calls)
  | startExec language code driverState =>
    exact behind_start queue m (.waitingExec · language code driverState)
      (.execCode · language code)
  | startCheckpoint checkpoint onEmpty =>
    exact behind_start queue m (.waitingCheckpoint · checkpoint onEmpty)
      (.checkpoint · checkpoint)
  | advanceProtocolIteration | finish _ => rfl
  | scheduleTurnLimitFinal message =>
    exact congrArg Prod.snd (behind_scheduleTurnLimitFinal queue m message)

variable (dirty : Bool)

theorem behind_dirtyAfter :
    dirtyAfter dirty (behind queue m) action = dirtyAfter dirty m action := by
  cases action with
  | scheduleTurnLimitFinal message =>
    simp only [dirtyAfter, behind_scheduleTurnLimitFinal]
  | _ => rfl

theorem behind_flushProgress :
    flushProgress dirty (behind queue m) = behind queue (flushProgress dirty m) := by
  cases dirty with
  | false => rfl
  | true => exact behind_emitProgress queue m

variable (actions : List (DriverAction M))

theorem behind_applyActionsFrom :
    applyActionsFrom dirty (behind queue m) actions =
      behind queue (applyActionsFrom dirty m actions) := by
  induction dirty, m, actions using applyActionsFrom_induct with
  | empty dirty m => exact behind_flushProgress queue m dirty
  | finish dirty m outcome actions =>
    simp only [applyActionsFrom]
    rw [behind_flushProgress, behind_finish]
  | other dirty m action actions hopen ih =>
    rw [applyActionsFrom_cons dirty hopen, applyActionsFrom_cons dirty hopen,
      behind_dirtyAfter, behind_applyAction]
    exact ih

theorem behind_applyActions :
    (behind queue m).applyActions actions = behind queue (m.applyActions actions) :=
  behind_applyActionsFrom queue m false actions

variable (id : EffectId)

theorem behind_handleExecutionEnvironmentSynced
    (result : Except String (Option (ExecutionEnvironmentSync M))) :
    (behind queue m).handleExecutionEnvironmentSynced id result =
      behind queue (m.handleExecutionEnvironmentSynced id result) := by
  have hstate : (behind queue m).state = m.state := rfl
  unfold handleExecutionEnvironmentSynced
  rw [hstate]
  cases m.state with
  | waitingExecutionEnvironment effectId updateMachineConfig =>
    simp only
    split
    · rfl
    · cases result with
      | ok update => rfl
      | error error => exact behind_failTurn queue (m.withState .finished) _
  | _ => rfl

variable (delivery : CheckpointDelivery)

theorem behind_acceptDelivery :
    (behind queue m).acceptDelivery delivery = behind queue (m.acceptDelivery delivery) := by
  have hmessages (m : TurnMachine M) (messages : List PluginMessage) (transient : Bool) :
      (behind queue m).appendCheckpointMessages messages transient =
        behind queue (m.appendCheckpointMessages messages transient) :=
    behind_foldl queue m (fun _ _ => rfl) _
  have hcause (m : TurnMachine M) (cause : TurnCause) :
      (behind queue m).appendTurnCause cause = behind queue (m.appendTurnCause cause) := by
    have hcauses : (behind queue m).turnCauses = m.turnCauses := rfl
    unfold appendTurnCause
    rw [hcauses]
    split <;> rfl
  unfold acceptDelivery appendTurnCauses
  rw [hmessages, hmessages, behind_foldl queue _ hcause]

theorem behind_resumeAfterDelivery (checkpoint : CheckpointKind) :
    (behind queue m).resumeAfterDelivery checkpoint =
      behind queue (m.resumeAfterDelivery checkpoint) := by
  cases checkpoint with
  | afterWork => exact behind_emitProgress queue (m.withState .prepareIteration)
  | beforeCompletion =>
    have hcount : (behind queue m).countIteration = behind queue m.countIteration := rfl
    have hpolicy : (behind queue m.countIteration).termination = m.countIteration.termination := rfl
    have hschedule : (behind queue m.countIteration).turnLimitFinalToSchedule =
        m.countIteration.turnLimitFinalToSchedule := rfl
    simp only [resumeAfterDelivery, hcount, hpolicy]
    split
    · rw [behind_emitProgress, behind_finish]
    · rw [← behind_emitProgress]
      congr 1
      unfold scheduleConfiguredTurnLimitFinal
      rw [hschedule]
      cases m.countIteration.turnLimitFinalToSchedule <;> rfl

theorem behind_handleCheckpoint :
    (behind queue m).handleCheckpoint id delivery =
      behind queue (m.handleCheckpoint id delivery) := by
  have hstate : (behind queue m).state = m.state := rfl
  unfold handleCheckpoint
  rw [hstate]
  cases m.state with
  | waitingCheckpoint effectId checkpoint onEmpty =>
    simp only
    split
    · rfl
    · split
      · cases onEmpty with
        | prepareIteration => rfl
        | finish outcome => exact behind_finish queue (m.withState .finished) outcome
      · rw [← behind_resumeAfterDelivery, ← behind_acceptDelivery]
        rfl
  | _ => rfl

variable (response : LlmResponse M)

theorem behind_recordLlmUsage :
    (behind queue m).recordLlmUsage response = behind queue (m.recordLlmUsage response) := by
  have hcount : (behind queue m).countUsage (tokenUsageFromLlmUsage response.usage) =
      behind queue (m.countUsage (tokenUsageFromLlmUsage response.usage)) := rfl
  simp only [recordLlmUsage, hcount, behind_emit]
  split
  · rename_i htrace
    exact (behind_push queue _ _).trans (congrArg (behind queue) (if_pos htrace).symm)
  · rename_i htrace
    exact congrArg (behind queue) (if_neg htrace).symm

theorem behind_emitLlmError (error : LlmCallError) :
    (behind queue m).emitLlmError error = behind queue (m.emitLlmError error) := by
  have hconfig : (behind queue m).config = m.config := rfl
  unfold emitLlmError
  rw [← behind_finish, ← behind_emit]
  congr 2
  unfold recordLlmError
  rw [hconfig]
  split
  · exact behind_push queue m _
  · rfl

theorem behind_emitTerminalLlmResponse (textStreamed : Bool) (outcome : TurnOutcome M) :
    (behind queue m).emitTerminalLlmResponse response textStreamed outcome =
      behind queue (m.emitTerminalLlmResponse response textStreamed outcome) := by
  simp only [emitTerminalLlmResponse]
  split
  · simp only [behind_emit, behind_finish]
    rfl
  · simp only [behind_emit, behind_finish]
    rfl

theorem behind_acceptLlmResponse (waiting : WaitingLlmState M) (response : LlmResponse M)
    (textStreamed : Bool) :
    (behind queue m).acceptLlmResponse waiting response textStreamed =
      behind queue (m.acceptLlmResponse waiting response textStreamed) := by
  have hconfig : (behind queue m).config = m.config := rfl
  simp only [acceptLlmResponse, behind_recordLlmUsage, hconfig]
  split
  · exact behind_emitTerminalLlmResponse queue _ _ _ _
  · exact behind_applyActions queue _ _

theorem behind_handleLlmComplete (result : Except LlmCallError (LlmResponse M))
    (textStreamed : Bool) :
    (behind queue m).handleLlmComplete id result textStreamed =
      behind queue (m.handleLlmComplete id result textStreamed) := by
  have hstate : (behind queue m).state = m.state := rfl
  unfold handleLlmComplete
  rw [hstate]
  cases m.state with
  | waitingLlm effectId request driverState =>
    simp only
    split
    · rfl
    · cases result with
      | error error => exact behind_emitLlmError queue (m.withState .finished) error
      | ok response =>
        exact behind_acceptLlmResponse queue (m.withState .finished) _ response textStreamed
  | _ => rfl

variable (completed : List (CompletedToolCall M))

theorem behind_acceptToolResults :
    (behind queue m).acceptToolResults completed =
      behind queue (m.acceptToolResults completed) := by
  have hemit (m : TurnMachine M) (outcome : CompletedToolCall M) :
      (behind queue m).emitToolCall outcome = behind queue (m.emitToolCall outcome) :=
    behind_emit queue m _
  simp only [acceptToolResults, behind_foldl queue m hemit]
  exact behind_applyActions queue _ _

theorem behind_handleToolResults :
    (behind queue m).handleToolResults id completed =
      behind queue (m.handleToolResults id completed) := by
  have hstate : (behind queue m).state = m.state := rfl
  unfold TurnMachine.handleToolResults
  rw [hstate]
  cases m.state with
  | waitingTools effectId calls =>
    simp only
    split
    · rfl
    · exact behind_acceptToolResults queue (m.withState .finished) completed
  | _ => rfl

theorem behind_handleExecResult (result : Except String M.ExecResponse) :
    (behind queue m).handleExecResult id result = behind queue (m.handleExecResult id result) := by
  have hstate : (behind queue m).state = m.state := rfl
  unfold TurnMachine.handleExecResult
  rw [hstate]
  cases m.state with
  | waitingExec effectId language code driverState =>
    simp only
    split
    · rfl
    · exact behind_applyActions queue (m.withState .finished) _
  | _ => rfl

theorem behind_answer (response : Response M) :
    (behind queue m).answer response = behind queue (m.answer response) := by
  cases response with
  | executionEnvironmentSynced id result =>
    exact behind_handleExecutionEnvironmentSynced queue m id result
  | llmComplete id result textStreamed =>
    exact behind_handleLlmComplete queue m id result textStreamed
  | toolResults id results => exact behind_handleToolResults queue m id results
  | execResult id result => exact behind_handleExecResult queue m id result
  | checkpoint id delivery => exact behind_handleCheckpoint queue m id delivery

end Queues

theorem behind_drained (m : TurnMachine M) : behind m.pendingEffects (drained m) = settled m := by
  simp [behind, drained, settled]

/-- Responses have the same consequences whether or not what was queued before
them has been delivered. -/
theorem answers_behind (queue : List (Effect M)) (m : TurnMachine M)
    (response : Response M) (responses : List (Response M)) :
    (response :: responses).foldl handleResponse (behind queue m) =
      behind queue ((response :: responses).foldl handleResponse m) := by
  have hone (m : TurnMachine M) (response : Response M) :
      (behind queue m).handleResponse response = behind queue (m.handleResponse response) :=
    behind_answer queue (settled m) response
  exact behind_foldl queue m hone _

/-- What is queued is in the order of its ids, all of them issued, and a queued
effect with the outstanding id is the outstanding effect. -/
structure Tidy (m : TurnMachine M) : Prop where
  sorted : (effectIds m.pendingEffects).Pairwise (· < ·)
  below : ∀ id ∈ effectIds m.pendingEffects, id < m.nextEffectId
  ahead : ∀ id, m.state.outstandingEffectId = some id → id < m.nextEffectId
  matching : ∀ e ∈ m.pendingEffects, ∀ id, e.id = some id →
    m.state.outstandingEffectId = some id → m.state.outstandingEffect = some e

variable {state : MachineState M}

theorem outstandingEffectId_of_eq {effect : Effect M} (h : state.outstandingEffect = some effect) :
    state.outstandingEffectId = effect.id := by
  rw [← state.outstandingEffect_id, h]
  rfl

theorem outstandingEffectId_of_none (h : state.outstandingEffect = none) :
    state.outstandingEffectId = none := by
  rw [← state.outstandingEffect_id, h]
  rfl

theorem outstandingEffect_of_id {id : EffectId} (h : state.outstandingEffectId = some id) :
    ∃ effect, state.outstandingEffect = some effect ∧ effect.id = some id := by
  cases houtstanding : state.outstandingEffect with
  | none => simp [outstandingEffectId_of_none houtstanding] at h
  | some effect => exact ⟨effect, rfl, (outstandingEffectId_of_eq houtstanding).symm.trans h⟩

/-- Effects with the same id are the same where the ids increase. -/
theorem eq_of_effectIds {effects : List (Effect M)} {e e' : Effect M} {id : EffectId}
    (sorted : (effectIds effects).Pairwise (· < ·)) (he : e ∈ effects) (he' : e' ∈ effects)
    (hid : e.id = some id) (hid' : e'.id = some id) : e = e' := by
  induction effects with
  | nil => simp at he
  | cons head rest ih =>
    have htail : (effectIds rest).Pairwise (· < ·) := by
      cases hhead : head.id with
      | none => simpa [effectIds, hhead] using sorted
      | some _ => exact (pairwise_cons.mp (by simpa [effectIds, hhead] using sorted)).2
    have hfirst (hhead : head.id = some id) : id ∉ effectIds rest := by
      intro hmem
      have hcons : (id :: effectIds rest).Pairwise (· < ·) := by
        simpa [effectIds, hhead] using sorted
      exact Nat.lt_irrefl _ ((pairwise_cons.mp hcons).1 id hmem)
    rcases mem_cons.mp he with rfl | he
    · rcases mem_cons.mp he' with rfl | he'
      · rfl
      · exact absurd (mem_effectIds.mpr ⟨e', he', hid'⟩) (hfirst hid)
    · rcases mem_cons.mp he' with hhead | he'
      · exact absurd (mem_effectIds.mpr ⟨e, he, hid⟩) (hfirst (hhead ▸ hid'))
      · exact ih htail he he'

theorem Tidy.works (tidy : Tidy m) (works : Works m m') : Tidy m' := by
  obtain ⟨new, worked⟩ := works
  have hfresh (id : Nat) (h : id ∈ effectIds new) : m.nextEffectId ≤ id ∧ id < m'.nextEffectId := by
    rw [worked.ids, mem_range'_1] at h
    have hgrows := worked.grows
    omega
  have hsorted : (effectIds m'.pendingEffects).Pairwise (· < ·) := by
    rw [worked.queued, effectIds_append, pairwise_append]
    refine ⟨tidy.sorted, worked.ids ▸ pairwise_lt_range' _, ?_⟩
    intro a ha b hb
    exact Nat.lt_of_lt_of_le (tidy.below a ha) (hfresh b hb).1
  refine ⟨hsorted, ?_, ?_, ?_⟩
  · intro id hid
    rw [worked.queued, effectIds_append] at hid
    rcases mem_append.mp hid with hid | hid
    · exact Nat.lt_of_lt_of_le (tidy.below id hid) worked.grows
    · exact (hfresh id hid).2
  · intro id hid
    rcases worked.waits with hsame | hnone | ⟨e, he, hnew⟩
    · have hold : m.state.outstandingEffectId = some id := by
        rw [← outstandingEffect_id, ← hsame, outstandingEffect_id, hid]
      exact Nat.lt_of_lt_of_le (tidy.ahead id hold) worked.grows
    · simp [outstandingEffectId_of_none hnone] at hid
    · exact (hfresh id (mem_effectIds.mpr
        ⟨e, he, (outstandingEffectId_of_eq hnew).symm.trans hid⟩)).2
  · intro e he id hid houtstanding
    rcases worked.waits with hsame | hnone | ⟨started, hstarted, hnew⟩
    · have hold : m.state.outstandingEffectId = some id := by
        rw [← outstandingEffect_id, ← hsame, outstandingEffect_id, houtstanding]
      rw [worked.queued] at he
      rcases mem_append.mp he with he | he
      · exact hsame.trans (tidy.matching e he id hid hold)
      · have hle := (hfresh id (mem_effectIds.mpr ⟨e, he, hid⟩)).1
        exact absurd (tidy.ahead id hold) (Nat.not_lt.mpr hle)
    · simp [outstandingEffectId_of_none hnone] at houtstanding
    · have hid' := (outstandingEffectId_of_eq hnew).symm.trans houtstanding
      have hmem : started ∈ m'.pendingEffects := by
        rw [worked.queued]
        exact mem_append_right _ hstarted
      rw [eq_of_effectIds hsorted he hmem hid hid']
      exact hnew

theorem Tidy.settled (tidy : Tidy m) : Tidy (settled m) :=
  ⟨tidy.sorted, tidy.below, tidy.ahead, tidy.matching⟩

/-- Effects may leave the queue. -/
theorem Tidy.fewer {rest : List (Effect M)} (tidy : Tidy m)
    (fewer : rest.Sublist m.pendingEffects) : Tidy { m with pendingEffects := rest } where
  sorted := tidy.sorted.sublist (fewer.filterMap _)
  below := fun id h => tidy.below id ((fewer.filterMap _).subset h)
  ahead := tidy.ahead
  matching := fun e he => tidy.matching e (fewer.subset he)

theorem Tidy.popFront (tidy : Tidy m) : Tidy m.popFront.2 := by
  cases hqueue : m.pendingEffects with
  | nil => rwa [popFront_nil hqueue]
  | cons effect rest =>
    rw [popFront_cons hqueue]
    exact tidy.fewer (by rw [hqueue]; exact sublist_cons_self _ _)

theorem Tidy.polled {output : Option (Effect M)} (tidy : Tidy m) (poll : Polled m output m') :
    Tidy m' := by
  cases poll with
  | @queued effect rest queue =>
    exact tidy.fewer (by rw [queue]; exact sublist_cons_self _ _)
  | due | idle => exact tidy.settled
  | prepared _ _ _ works => exact (tidy.settled.works works).popFront

theorem Tidy.restarted (tidy : Tidy m) : Tidy (restarted m) := by
  have hfewer : Tidy { m with pendingEffects := m.checkpoint.pendingEffects } :=
    tidy.fewer filter_sublist
  exact ⟨hfewer.sorted, hfewer.below, hfewer.ahead, hfewer.matching⟩

theorem Tidy.step (tidy : Tidy m) (call : Call M) : Tidy (step call m).2 := by
  by_cases hpoll : call = .poll
  · subst hpoll
    exact tidy.polled (MachineRuns.polled m)
  by_cases hrestart : call = .restart
  · subst hrestart
    exact tidy.restarted
  exact (works_step (m := m) hpoll hrestart).2.elim tidy.works tidy.settled.works

variable (config : TurnMachineConfig M)

theorem tidy_after (messages : List Message) (events : List (SessionEventRecord M)) (offset : Nat)
    (causes : List TurnCause) (calls : List (Call M)) :
    Tidy (after calls (newSharedWithTurnCauses config messages events offset causes)).2 :=
  (run_after calls _).reachable.invariant
    ⟨List.Pairwise.nil, by simp [newSharedWithTurnCauses], by
      simp [newSharedWithTurnCauses, outstandingEffectId], by
      simp [newSharedWithTurnCauses]⟩ fun _ call tidy => tidy.step call

/-- What the restored machine delivers: the saved queue, then the outstanding
effect. -/
def owed (m : TurnMachine M) : List (Effect M) :=
  m.checkpoint.pendingEffects ++ m.state.outstandingEffect.toList

/-- The outstanding effect, if it has left the queue. -/
def unanswered (m : TurnMachine M) : List (Effect M) :=
  m.state.outstandingEffect.toList.filter fun e => decide (e.id ∉ m.pendingEffects.map Effect.id)

/-- The outstanding effect, if the machine itself was restored and is still to
deliver it again. -/
def dueAgain (m : TurnMachine M) : List (Effect M) :=
  if m.activeEffectRedelivery then m.state.outstandingEffect.toList else []

theorem pollMany_add (k n : Nat) (m : TurnMachine M) : pollMany (k + n) m =
      ((pollMany k m).1 ++ (pollMany n (pollMany k m).2).1, (pollMany n (pollMany k m).2).2) := by
  induction k generalizing m with
  | zero => simp [pollMany]
  | succ k ih =>
    rw [Nat.add_right_comm]
    simp [pollMany, ih]

/-- The machine with its queue delivered. -/
def emptied (m : TurnMachine M) : TurnMachine M := { m with pendingEffects := [] }

theorem pollMany_queue (m : TurnMachine M) :
    pollMany m.pendingEffects.length m = (m.pendingEffects.map some, emptied m) := by
  generalize hqueue : m.pendingEffects = queue
  induction queue generalizing m with
  | nil =>
    cases m
    cases hqueue
    rfl
  | cons effect rest ih =>
    have hrest := ih { m with pendingEffects := rest } rfl
    simp only [length_cons, pollMany, pollEffect_cons hqueue, hrest, map_cons]
    rfl

/-- Polling a machine empties its queue and then delivers the outstanding effect,
if that is due again. -/
theorem pollMany_dueAgain (m : TurnMachine M) : pollMany (m.pendingEffects ++ dueAgain m).length m =
      ((m.pendingEffects ++ dueAgain m).map some, { emptied m with
          activeEffectRedelivery :=
            m.activeEffectRedelivery && m.state.outstandingEffect.isNone }) := by
  rw [length_append, pollMany_add, pollMany_queue, map_append]
  by_cases hdue : m.activeEffectRedelivery = true → m.state.outstandingEffect = none
  · have hnothing : dueAgain m = [] := by
      unfold dueAgain
      split
      · rename_i hflag
        rw [hdue hflag]
        rfl
      · rfl
    have hflag : (m.activeEffectRedelivery && m.state.outstandingEffect.isNone) =
        m.activeEffectRedelivery := by
      cases hflag : m.activeEffectRedelivery with
      | false => rfl
      | true => simp [hdue hflag]
    rw [hnothing, hflag]
    simp only [length_nil, pollMany, map_nil]
    rfl
  · obtain ⟨hflag, hsome⟩ := Classical.not_imp.mp hdue
    obtain ⟨effect, houtstanding⟩ := ne_none_iff_exists'.mp hsome
    have hagain : dueAgain m = [effect] := by simp [dueAgain, hflag, houtstanding]
    have hpoll : (emptied m).pollEffect = (some effect, settled (emptied m)) :=
      pollEffect_due rfl hflag houtstanding
    rw [hagain]
    simp only [length_singleton, pollMany, hpoll, map_singleton]
    simp [settled, houtstanding]

theorem restore_redelivery (m : TurnMachine M) :
    (restoreFromCheckpoint config m.checkpoint).activeEffectRedelivery =
      m.state.outstandingEffect.isSome := by
  rw [← outstandingEffectId_isSome]
  cases hid : m.state.outstandingEffectId with
  | none => simp [restoreFromCheckpoint, checkpoint, hid]
  | some id =>
    simp only [restoreFromCheckpoint, checkpoint, hid, isSome_some, Bool.true_and,
      Bool.not_eq_true', List.any_eq_false, List.mem_filter, decide_eq_true_eq]
    exact fun _ h => h.2

theorem restore_delivers_owed (m : TurnMachine M) :
    pollMany (owed m).length (restoreFromCheckpoint config m.checkpoint) =
      ((owed m).map some, { drained m with config := config }) := by
  have hdue : dueAgain (restoreFromCheckpoint config m.checkpoint) =
      m.state.outstandingEffect.toList := by
    unfold dueAgain
    rw [restore_redelivery]
    cases houtstanding : m.state.outstandingEffect with
    | none => rfl
    | some effect => exact congrArg toList houtstanding
  have hpolls := pollMany_dueAgain (restoreFromCheckpoint config m.checkpoint)
  rw [hdue, restore_redelivery] at hpolls
  have hflag : (m.state.outstandingEffect.isSome &&
      (restoreFromCheckpoint config m.checkpoint).state.outstandingEffect.isNone) = false := by
    change (m.state.outstandingEffect.isSome && m.state.outstandingEffect.isNone) = false
    cases m.state.outstandingEffect <;> rfl
  rw [hflag] at hpolls
  exact hpolls

/-- The effects owed are those queued and the outstanding one, each once. -/
theorem owed_perm (tidy : Tidy m) : (owed m).Perm (m.pendingEffects ++ unanswered m) := by
  cases hid : m.state.outstandingEffectId with
  | none =>
    have hnone : m.state.outstandingEffect = none := by
      rw [← not_isSome_iff_eq_none, ← outstandingEffectId_isSome, hid]
      simp
    simp [owed, unanswered, checkpoint, hid, hnone]
  | some id =>
    obtain ⟨effect, houtstanding, heffect⟩ := outstandingEffect_of_id hid
    by_cases hqueued : some id ∈ m.pendingEffects.map Effect.id
    · -- Still queued: it is the only effect with its id, and only moves to the end.
      obtain ⟨queued, hmem, hqueuedId⟩ := mem_map.mp hqueued
      have hsame : queued = effect := some.inj
        ((tidy.matching queued hmem id hqueuedId hid).symm.trans houtstanding)
      subst hsame
      obtain ⟨older, newer, hsplit⟩ := append_of_mem hmem
      have hothers (e : Effect M) (he : e ∈ older ++ newer) : e.id ≠ some id := by
        intro heid
        have hsorted := tidy.sorted
        rw [hsplit, effectIds_append] at hsorted
        have hcons : effectIds (queued :: newer) = id :: effectIds newer := by
          simp [effectIds, hqueuedId]
        rw [hcons, pairwise_append] at hsorted
        rcases mem_append.mp he with he | he
        · exact Nat.lt_irrefl id (hsorted.2.2 id (mem_effectIds.mpr ⟨e, he, heid⟩) id
            mem_cons_self)
        · exact Nat.lt_irrefl id ((pairwise_cons.mp hsorted.2.1).1 id
            (mem_effectIds.mpr ⟨e, he, heid⟩))
      have hfilter : m.checkpoint.pendingEffects = older ++ newer := by
        simp only [checkpoint, hid, hsplit, filter_append, filter_cons, hqueuedId,
          ne_eq, not_true_eq_false, decide_false, Bool.false_eq_true, if_false]
        rw [filter_eq_self.mpr, filter_eq_self.mpr]
        · exact fun e he => decide_eq_true (hothers e (mem_append_right _ he))
        · exact fun e he => decide_eq_true (hothers e (mem_append_left _ he))
      have hanswered : unanswered m = [] := by
        rw [unanswered, houtstanding]
        refine filter_eq_nil_iff.mpr fun e he => ?_
        rw [mem_singleton.mp he, hqueuedId]
        exact fun hnot => of_decide_eq_true hnot hqueued
      rw [owed, hfilter, hanswered, houtstanding, hsplit, append_nil]
      exact (perm_append_singleton _ _).trans perm_middle.symm
    · have hfilter : m.checkpoint.pendingEffects = m.pendingEffects := by
        simp only [checkpoint, hid]
        refine filter_eq_self.mpr fun e he => decide_eq_true fun heid => hqueued ?_
        exact mem_map.mpr ⟨e, he, heid⟩
      have hunanswered : unanswered m = [effect] := by
        simp only [unanswered, houtstanding, toList_some, filter_cons, heffect]
        simp [hqueued]
      rw [owed, hfilter, hunanswered, houtstanding]
      rfl

/-- The outstanding effect is owed once, under its own id. -/
theorem owed_filter_outstanding {effect : Effect M}
    (houtstanding : m.state.outstandingEffect = some effect) :
    (owed m).filter (fun e => decide (e.id = effect.id)) = [effect] := by
  have hid := outstandingEffectId_of_eq houtstanding
  have hsome : effect.id.isSome := by
    rw [← hid, outstandingEffectId_isSome, houtstanding]
    rfl
  obtain ⟨id, heffect⟩ := isSome_iff_exists.mp hsome
  rw [owed, houtstanding, filter_append]
  have hqueue : m.checkpoint.pendingEffects.filter (fun e => decide (e.id = effect.id)) = [] := by
    simp only [checkpoint, hid, heffect, List.filter_filter]
    refine filter_eq_nil_iff.mpr fun e _ => ?_
    simp
  rw [hqueue]
  simp

/-- For every driver, every run and every point of it: the restored machine
delivers the queued effects and the outstanding one, each once, and is then the
drained original. The original polled that far polls and answers like it, and
answers that come earlier have the same consequences. The restart is given the
configuration the machine has by then: synced prompts and tools are in no checkpoint. -/
theorem restored_machine_follows (config : TurnMachineConfig M) (messages : List Message)
    (events : List (SessionEventRecord M)) (offset : Nat) (causes : List TurnCause)
    (calls : List (Call M)) :
    let m := (after calls (newSharedWithTurnCauses config messages events offset causes)).2
    pollMany (owed m).length (restoreFromCheckpoint m.config m.checkpoint) =
        ((owed m).map some, drained m) ∧
      (owed m).Perm (m.pendingEffects ++ unanswered m) ∧
      (∀ effect, m.state.outstandingEffect = some effect →
        (owed m).filter (fun e => decide (e.id = effect.id)) = [effect]) ∧
      (∃ s, pollMany (m.pendingEffects ++ dueAgain m).length m =
          ((m.pendingEffects ++ dueAgain m).map some, s) ∧
        s.pollEffect = (drained m).pollEffect ∧
        ∀ response, s.handleResponse response = (drained m).handleResponse response) ∧
      ∀ response responses, (response :: responses).foldl handleResponse m =
        behind m.pendingEffects ((response :: responses).foldl handleResponse (drained m)) := by
  have tidy := tidy_after config messages events offset causes calls
  intro m
  refine ⟨restore_delivers_owed m.config m, owed_perm tidy, fun effect h =>
    owed_filter_outstanding h, ⟨_, pollMany_dueAgain m, ?_, fun response => rfl⟩, ?_⟩
  · refine pollEffect_prepare rfl fun hflag => ?_
    exact isNone_iff_eq_none.mp (Bool.and_eq_true_iff.mp hflag).2
  · intro response responses
    rw [← answers_behind, behind_drained]
    rfl

end MachineRestores
