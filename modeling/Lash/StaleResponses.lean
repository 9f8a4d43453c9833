import Lash.MachineRestores

/-!
# Stale responses

A response that the machine does not await changes nothing but the redelivery
flag, which is cleared before the response is looked at. A restored machine that
was still to deliver its outstanding effect again therefore never does.
-/

namespace StaleResponses

open TurnProtocols TurnMachines TurnMachine MachineRuns MachineRestores

variable {M : TurnProtocol} {m : TurnMachine M}

/-- The machine is to deliver its outstanding effect once more. -/
def OwesRedelivery (m : TurnMachine M) : Prop :=
  m.activeEffectRedelivery = true ∧ m.state.outstandingEffect ≠ none

/-- As if the response had not come: the state, the outstanding effect, and what
any number of polls delivers. -/
structure Ignored (m : TurnMachine M) (response : Response M) : Prop where
  state : (m.handleResponse response).state = m.state
  outstanding :
    (m.handleResponse response).state.outstandingEffect = m.state.outstandingEffect
  polls : ∀ n, (pollMany n (m.handleResponse response)).1 = (pollMany n m).1

/-- Clearing the flag of a machine that owes nothing does not show in its polls. -/
theorem pollMany_settled (h : ¬ OwesRedelivery m) (n : Nat) :
    (pollMany n (settled m)).1 = (pollMany n m).1 := by
  have hnone (hflag : m.activeEffectRedelivery = true) : m.state.outstandingEffect = none := by
    by_contra hsome
    exact h ⟨hflag, hsome⟩
  induction n generalizing m with
  | zero => rfl
  | succ n ih =>
    cases hqueue : m.pendingEffects with
    | cons effect rest =>
      have hpoll := pollEffect_cons hqueue
      have hsettled : (settled m).pollEffect =
          (some effect, settled { m with pendingEffects := rest }) :=
        pollEffect_cons hqueue
      have hrest := @ih { m with pendingEffects := rest } h hnone
      simp only [pollMany, hpoll, hsettled, hrest]
    | nil =>
      have hpoll := pollEffect_prepare hqueue hnone
      have hsettled : (settled m).pollEffect = (settled m).prepare := by
        have hclear : (settled m).activeEffectRedelivery = true →
            (settled m).state.outstandingEffect = none := fun h => by cases h
        exact pollEffect_prepare hqueue hclear
      simp only [pollMany, hpoll, hsettled]

theorem ignored_of_not_owes {response : Response M} (stale : ¬ Awaits m response)
    (h : ¬ OwesRedelivery m) : Ignored m response := by
  have hsettled := handleResponse_of_not_awaits stale
  refine ⟨?_, ?_, fun n => ?_⟩
  · rw [hsettled]
    rfl
  · rw [hsettled]
    rfl
  · rw [hsettled]
    exact pollMany_settled h n

/-- One poll past the queue tells the two apart if a redelivery is owed. -/
theorem not_owes_of_ignored {response : Response M} (stale : ¬ Awaits m response)
    (ignored : Ignored m response) : ¬ OwesRedelivery m := by
  rintro ⟨hflag, hsome⟩
  obtain ⟨effect, houtstanding⟩ := Option.ne_none_iff_exists'.mp hsome
  have hpolls := ignored.polls (m.pendingEffects.length + 1)
  rw [handleResponse_of_not_awaits stale] at hpolls
  have hqueue := pollMany_queue m
  have hqueue' : pollMany m.pendingEffects.length (settled m) =
      (m.pendingEffects.map some, emptied (settled m)) := pollMany_queue (settled m)
  rw [pollMany_add, pollMany_add, hqueue, hqueue'] at hpolls
  have hone := List.append_cancel_left hpolls
  have hdue : (emptied m).pollEffect = (some effect, settled (emptied m)) :=
    pollEffect_due rfl hflag houtstanding
  have hidle : (emptied (settled m)).pollEffect.1 = none := by
    have hpoll : (emptied (settled m)).pollEffect = (emptied (settled m)).prepare :=
      pollEffect_prepare rfl fun h => by cases h
    rw [hpoll]
    cases hstate : m.state with
    | preparingProtocol | prepareIteration | finished =>
      simp [hstate, MachineState.outstandingEffect] at houtstanding
    | _ => simp [prepare, emptied, settled, hstate]
  simp [pollMany, hdue, hidle] at hone

theorem owes_restarted_iff : OwesRedelivery (restarted m) ↔ m.state.outstandingEffect ≠ none := by
  constructor
  · exact fun h => h.2
  · intro h
    refine ⟨?_, h⟩
    rw [restarted, restore_redelivery]
    exact Option.isSome_iff_ne_none.mpr h

/-- At every point of every run: a response the machine does not await is ignored
exactly if the machine is not to deliver its outstanding effect again. A machine
just restored is, whenever it has one. -/
theorem stale_response_ignored_iff (config : TurnMachineConfig M) (messages : List Message)
    (events : List (SessionEventRecord M)) (offset : Nat) (causes : List TurnCause)
    (calls : List (Call M)) (response : Response M)
    (stale : ¬ Awaits
      (after calls (newSharedWithTurnCauses config messages events offset causes)).2 response) :
    let m := (after calls (newSharedWithTurnCauses config messages events offset causes)).2
    (Ignored m response ↔ ¬ OwesRedelivery m) ∧
      (OwesRedelivery (restarted m) ↔ m.state.outstandingEffect ≠ none) :=
  ⟨⟨not_owes_of_ignored stale, ignored_of_not_owes stale⟩, owes_restarted_iff⟩

/-- A call of the model, delivered, and the machine restored before its answer. -/
def restoredCalls : List (Call unitProtocol) := [.poll, .poll, .restart]

def strayDelivery : Response unitProtocol := .checkpoint 7 ⟨[], [], []⟩

theorem stale_response_ignored_delivered :
    let m := (after [.poll, .poll] (scriptedMachine [.startLlm "prompt" none] [])).2
    (Ignored m strayDelivery ↔ ¬ OwesRedelivery m) ∧
      (OwesRedelivery (restarted m) ↔ m.state.outstandingEffect ≠ none) :=
  stale_response_ignored_iff (scripted [.startLlm "prompt" none] []) [] [] 0 []
    [.poll, .poll] strayDelivery (by decide)

/-- The restored machine would deliver the call again, but not after a stray
answer to a checkpoint it never asked for. -/
theorem stray_response_loses_redelivery :
    let m := (after restoredCalls (scriptedMachine [.startLlm "prompt" none] [])).2
    ¬ Awaits m strayDelivery ∧ ¬ Ignored m strayDelivery ∧
      (pollMany 1 m).1.map Option.isSome = [true] ∧
      (pollMany 1 (m.handleResponse strayDelivery)).1.map Option.isSome = [false] := by
  refine ⟨by decide, fun ignored => ?_, rfl, rfl⟩
  have hpolls := congrArg (List.map Option.isSome) (ignored.polls 1)
  exact absurd hpolls (by decide)

end StaleResponses
