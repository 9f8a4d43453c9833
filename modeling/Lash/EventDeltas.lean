import Lash.MachineRuns

/-!
# Session events are reported once and in order

The cursor moves when a delta is queued, while the delta itself can wait in the
queue across any number of checkpoints. What was delivered and what is queued
together report exactly the events behind the first cursor, so once the queue is
empty the host has been told every event.
-/

namespace EventDeltas

open TurnProtocols TurnMachines TurnMachine MachineSteps MachineRuns List

variable {M : TurnProtocol} {m m' : TurnMachine M} {done : List (Effect M)}
  {start : List (SessionEventRecord M)}

/-- Delivered and queued deltas are the events appended since the start. -/
structure Reported (start : List (SessionEventRecord M)) (done : List (Effect M))
    (m : TurnMachine M) : Prop where
  flushed : Flushed m
  extended : start <+: m.events
  deltas : eventDeltas done ++ eventDeltas m.pendingEffects = m.events.drop start.length

theorem eventDeltaOf_eq_nil {effect : Effect M} (h : effect.id ≠ none) :
    eventDeltaOf effect = [] := by
  cases effect with
  | progress | done => exact absurd rfl h
  | _ => rfl

theorem outstandingEffect_id_ne {state : MachineState M} {effect : Effect M}
    (h : state.outstandingEffect = some effect) : effect.id ≠ none := by
  cases state <;> simp only [MachineState.outstandingEffect, reduceCtorEq, Option.some.injEq] at h
    <;> subst h <;> simp [Effect.id]

theorem Reported.works (law : Reported start done m) (works : Works m m') :
    Reported start done m' := by
  obtain ⟨new, worked⟩ := works
  have hflushed := worked.flushes law.flushed
  obtain ⟨_, hreported⟩ := worked.reported (Nat.le_of_eq law.flushed)
  obtain ⟨appended, happended⟩ := worked.extended
  have hnew : eventDeltas new = appended := by
    rw [hflushed, law.flushed, drop_length, append_nil, ← happended, drop_left] at hreported
    exact hreported
  refine ⟨hflushed, law.extended.trans worked.extended, ?_⟩
  rw [worked.queued, eventDeltas_append, hnew, ← append_assoc, law.deltas, ← happended,
    drop_append_of_le_length law.extended.length_le]

theorem Reported.settled (law : Reported start done m) : Reported start done (settled m) :=
  ⟨law.flushed, law.extended, law.deltas⟩

theorem Reported.popFront (law : Reported start done m) :
    Reported start (done ++ m.popFront.1.toList) m.popFront.2 := by
  cases hqueue : m.pendingEffects with
  | nil => simpa [popFront_nil hqueue] using law
  | cons effect rest =>
    rw [popFront_cons hqueue]
    refine ⟨law.flushed, law.extended, ?_⟩
    rw [← law.deltas, hqueue]
    simp

theorem Reported.polled {output : Option (Effect M)} (law : Reported start done m)
    (poll : Polled m output m') : Reported start (done ++ output.toList) m' := by
  cases poll with
  | @queued effect rest queue =>
    have hpop := law.popFront
    rw [popFront_cons queue] at hpop
    exact hpop
  | @due effect queue _ outstanding =>
    have hnone := eventDeltaOf_eq_nil (outstandingEffect_id_ne outstanding)
    have hdeltas := law.deltas
    exact ⟨law.flushed, law.extended, by simpa [MachineRuns.settled, hnone] using hdeltas⟩
  | prepared _ _ _ works => exact (law.settled.works works).popFront
  | idle => simpa using law.settled

/-- A checkpoint leaves out only an effect that waits for a response, and such an
effect reports nothing. -/
theorem eventDeltas_checkpoint (m : TurnMachine M) :
    eventDeltas m.checkpoint.pendingEffects = eventDeltas m.pendingEffects := by
  unfold checkpoint
  cases houtstanding : m.state.outstandingEffectId with
  | none => simp
  | some id =>
    simp only
    induction m.pendingEffects with
    | nil => rfl
    | cons effect rest ih =>
      by_cases hid : effect.id = some id
      · have hnone : eventDeltaOf effect = [] := eventDeltaOf_eq_nil (by simp [hid])
        simpa [hid, hnone] using ih
      · simpa [hid] using ih

theorem Reported.restarted (law : Reported start done m) : Reported start done (restarted m) := by
  refine ⟨law.flushed, law.extended, ?_⟩
  exact (congrArg (eventDeltas done ++ ·) (eventDeltas_checkpoint m)).trans law.deltas

theorem Reported.step (law : Reported start done m) (call : Call M) :
    Reported start (done ++ (step call m).1.toList) (step call m).2 := by
  by_cases hpoll : call = .poll
  · subst hpoll
    exact law.polled (MachineRuns.polled m)
  by_cases hrestart : call = .restart
  · subst hrestart
    simpa [MachineRuns.step] using law.restarted
  obtain ⟨hnone, hworks⟩ := works_step (m := m) hpoll hrestart
  rw [hnone]
  simp only [Option.toList_none, append_nil]
  exact hworks.elim law.works law.settled.works

variable (config : TurnMachineConfig M)

variable (messages : List Message)

theorem reported_new (events : List (SessionEventRecord M)) (offset : Nat)
    (causes : List TurnCause) :
    Reported events [] (newSharedWithTurnCauses config messages events offset causes) where
  flushed := rfl
  extended := List.prefix_refl _
  deltas := by simp [newSharedWithTurnCauses]

theorem reported_after (events : List (SessionEventRecord M)) (offset : Nat)
    (causes : List TurnCause) (calls : List (Call M)) :
    Reported events
      (delivered (after calls (newSharedWithTurnCauses config messages events offset causes)).1)
      (after calls (newSharedWithTurnCauses config messages events offset causes)).2 :=
  (run_after calls _).invariant (P := fun history m => Reported events (delivered history) m)
    (reported_new config messages events offset causes) fun _ _ call _ ih => ih.step call

/-- In every run, whatever the driver, the host and the checkpoints, the deltas
of the delivered effects followed by those still queued are the events appended
after the initial cursor; with nothing queued, the delivered deltas are. -/
theorem delivered_deltas_are_the_appended_events (config : TurnMachineConfig M)
    (messages : List Message) (events : List (SessionEventRecord M)) (offset : Nat)
    (causes : List TurnCause) (calls : List (Call M)) :
    let (history, m) := after calls
      (newSharedWithTurnCauses config messages events offset causes)
    events <+: m.events ∧ eventDeltas (delivered history) ++ eventDeltas m.pendingEffects =
        m.events.drop events.length ∧
      (m.pendingEffects = [] → eventDeltas (delivered history) = m.events.drop events.length) := by
  have law := reported_after config messages events offset causes calls
  refine ⟨law.extended, law.deltas, fun hempty => ?_⟩
  have hdeltas := law.deltas
  rwa [show (after calls _).2.pendingEffects = [] from hempty, eventDeltas_nil,
    append_nil] at hdeltas

end EventDeltas
