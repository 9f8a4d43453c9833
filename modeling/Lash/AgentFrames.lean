import Lash.FinalCommits

/-!
# Agent frames

Frames are opened, appended, switched to and reset under ids that the caller chooses. Neither
opening nor appending asks whether a frame of that id is there already, or whether an older
frame names the new one as its predecessor.
-/

namespace AgentFrames

open ParentWalks ScriptNumbers SessionGraphs RuntimeStates TurnBoundaries FinalCommits List Option
open RuntimeSessionState

variable {Json : Type} {host : TurnHost Json} {state after : RuntimeSessionState Json}

def resetInitialAgentFrame (assignment : AgentFrameAssignment Json)
    (protocolTurnOptions : Json) (timestamp : String) (state : RuntimeSessionState Json) :
    RuntimeSessionState Json :=
  { state with
    policy := assignment.policy
    protocolTurnOptions := protocolTurnOptions
    currentAgentFrameId := defaultAgentFrameId state.sessionId
    agentFrames := [.newAt (defaultAgentFrameId state.sessionId) state.sessionId none "initial"
      none assignment protocolTurnOptions timestamp] }

inductive Operation (Json : Type) where
  | ensure (timestamp : String)
  | openFrame (frameId reason : String) (initialNodes : List (SessionNodeDraft Json))
    (causedBy : Option CausalRef) (tick : Tick)
  | append (frame : AgentFrameRecord Json)
  | switch (outcome : TurnOutcome Json) (toolCalls : List (Option (ToolControl Json)))
    (tick : Tick)
  | reset (assignment : AgentFrameAssignment Json) (protocolTurnOptions : Json)
    (timestamp : String)

def Operation.perform (host : TurnHost Json) :
    Operation Json → RuntimeSessionState Json → Option (RuntimeSessionState Json)
  | .ensure timestamp, state => some (state.ensureAgentFrameInitialized host timestamp)
  | .openFrame frameId reason initialNodes causedBy tick, state =>
    state.openAgentFrame host frameId reason initialNodes causedBy tick
  | .append frame, state => some (state.appendAgentFrame frame)
  | .switch outcome toolCalls tick, state =>
    materializeAgentFrameSwitch host outcome toolCalls tick state
  | .reset assignment protocolTurnOptions timestamp, state =>
    some (resetInitialAgentFrame assignment protocolTurnOptions timestamp state)

/-- The states after the operations that meet a condition on the state before them. -/
inductive Reached (host : TurnHost Json) (Meets : Operation Json → RuntimeSessionState Json → Prop)
    (start : RuntimeSessionState Json) : RuntimeSessionState Json → Prop
  | start : Reached host Meets start start
  | step {state after : RuntimeSessionState Json} (earlier : Reached host Meets start state)
      (operation : Operation Json) (meets : Meets operation state)
      (done : operation.perform host state = some after) : Reached host Meets start after

/-! ## Consistent frames -/

/-- The id that the frame found under an id names as its predecessor. -/
def previousFrame (frames : List (AgentFrameRecord Json)) (frameId : String) : Option String :=
  (frames.find? (·.frameId == frameId)).bind (·.previousFrameId)

/-- The frames are listed in the order in which they were opened. -/
structure Consistent (state : RuntimeSessionState Json) : Prop where
  unique : (state.agentFrames.map (·.frameId)).Nodup
  active : ∃ frame, state.currentAgentFrame = some frame ∧
    state.agentFrames.filter (·.status == .active) = [frame]
  ends : Ends (previousFrame state.agentFrames)
  acyclic : ∀ frameId, ¬ Climbs (previousFrame state.agentFrames)
    (previousFrame state.agentFrames frameId) frameId
  latest : ∀ frameId, state.agentFrames.find? (·.frameId == frameId) =
    state.agentFrames.reverse.find? (·.frameId == frameId)

variable {frame : AgentFrameRecord Json} {frames : List (AgentFrameRecord Json)}

theorem find_of_unique (unique : (frames.map (·.frameId)).Nodup) (hmem : frame ∈ frames) :
    frames.find? (·.frameId == frame.frameId) = some frame := by
  cases hfound : frames.find? (·.frameId == frame.frameId) with
  | none => simpa using find?_eq_none.mp hfound frame hmem
  | some other =>
    have hid : other.frameId = frame.frameId := by simpa using find?_some hfound
    rw [inj_on_of_nodup_map unique (mem_of_find?_eq_some hfound) hmem hid]

theorem latest_of_unique (unique : (frames.map (·.frameId)).Nodup) (frameId : String) :
    frames.find? (·.frameId == frameId) = frames.reverse.find? (·.frameId == frameId) := by
  cases hfound : frames.find? (·.frameId == frameId) with
  | none =>
    refine (find?_eq_none.mpr fun frame hmem => ?_).symm
    exact find?_eq_none.mp hfound frame (mem_reverse.mp hmem)
  | some frame =>
    have hid : frame.frameId = frameId := by simpa using find?_some hfound
    have hreversed : (frames.reverse.map (·.frameId)).Nodup := by
      rw [map_reverse]
      exact nodup_reverse.mpr unique
    have hmem := mem_reverse.mpr (mem_of_find?_eq_some hfound)
    rw [← hid, find_of_unique hreversed hmem]

theorem consistent_of_unique (unique : (state.agentFrames.map (·.frameId)).Nodup)
    (active : ∃ frame, state.currentAgentFrame = some frame ∧
      state.agentFrames.filter (·.status == .active) = [frame])
    (ends : Ends (previousFrame state.agentFrames)) : Consistent state where
  unique := unique
  active := active
  ends := ends
  acyclic := ends.acyclic
  latest := latest_of_unique unique

theorem Consistent.of_same (consistent : Consistent state)
    (frames : after.agentFrames = state.agentFrames)
    (current : after.currentAgentFrameId = state.currentAgentFrameId) : Consistent after := by
  refine consistent_of_unique ?_ ?_ ?_
  · exact frames ▸ consistent.unique
  · obtain ⟨frame, hcurrent, hactive⟩ := consistent.active
    refine ⟨frame, ?_, frames ▸ hactive⟩
    rw [currentAgentFrame, frames, current]
    exact hcurrent
  · exact frames ▸ consistent.ends

/-- One frame that is active and current and names no predecessor. -/
theorem consistent_single (frames : state.agentFrames = [frame])
    (current : state.currentAgentFrameId = frame.frameId) (active : frame.status = .active)
    (initial : frame.previousFrameId = none) : Consistent state := by
  refine consistent_of_unique ?_ ⟨frame, ?_, ?_⟩ ?_
  · rw [frames]
    exact nodup_singleton _
  · simp [currentAgentFrame, frames, current]
  · simp [frames, active]
  · intro start
    have hnone : ∀ frameId, previousFrame state.agentFrames frameId = none := by
      intro frameId
      unfold previousFrame
      rw [frames, find?_singleton]
      split
      · exact initial
      · rfl
    cases start with
    | none => exact ⟨[], .stop⟩
    | some frameId =>
      refine ⟨[frameId], .visit ?_⟩
      rw [hnone frameId]
      exact .stop

/-! ## One more frame -/

/-- The predecessor that an appended frame is given. -/
def linkOf (state : RuntimeSessionState Json) (frame : AgentFrameRecord Json) : Option String :=
  if frame.previousFrameId.isNone && !state.currentAgentFrameId.isEmpty then
    some state.currentAgentFrameId
  else frame.previousFrameId

/-- No frame has the id, and none that the links lead to names it. -/
def Fresh (state : RuntimeSessionState Json) (frameId : String) (previous : Option String) :
    Prop :=
  frameId ∉ state.agentFrames.map (·.frameId) ∧
    ¬ Climbs (previousFrame state.agentFrames) previous frameId

theorem appendAgentFrame_frames (state : RuntimeSessionState Json) (frame : AgentFrameRecord Json) :
    (state.appendAgentFrame frame).agentFrames = (state.agentFrames.map fun existing =>
        if existing.frameId = state.currentAgentFrameId then
          { existing with status := .superseded } else existing) ++
      [{ frame with status := .active, previousFrameId := linkOf state frame }] :=
  rfl

theorem find_superseded (frames : List (AgentFrameRecord Json)) (current frameId : String) :
    (frames.map fun existing =>
        if existing.frameId = current then { existing with status := .superseded }
        else existing).find? (·.frameId == frameId) =
      (frames.find? (·.frameId == frameId)).map fun existing =>
        if existing.frameId = current then { existing with status := .superseded }
        else existing := by
  rw [find?_map]
  congr 2
  funext existing
  dsimp only [Function.comp]
  split <;> rfl

theorem appended_ids (state : RuntimeSessionState Json) (frame : AgentFrameRecord Json) :
    (state.appendAgentFrame frame).agentFrames.map (·.frameId) =
      state.agentFrames.map (·.frameId) ++ [frame.frameId] := by
  rw [appendAgentFrame_frames, List.map_append, List.map_map]
  congr 1
  refine map_congr_left fun existing _ => ?_
  dsimp only [Function.comp]
  split <;> rfl

variable {frameId : String}

theorem find_of_fresh (fresh : frameId ∉ state.agentFrames.map (·.frameId)) :
    state.agentFrames.find? (·.frameId == frameId) = none := by
  refine find?_eq_none.mpr fun existing hmem => ?_
  have hne : existing.frameId ≠ frameId :=
    fun heq => fresh (mem_map.mpr ⟨existing, hmem, heq⟩)
  simpa using hne

theorem previousFrame_of_fresh (fresh : frameId ∉ state.agentFrames.map (·.frameId)) :
    previousFrame state.agentFrames frameId = none := by
  rw [previousFrame, find_of_fresh fresh]
  rfl

theorem previousFrame_appended (fresh : frame.frameId ∉ state.agentFrames.map (·.frameId)) :
    previousFrame (state.appendAgentFrame frame).agentFrames =
      Function.update (previousFrame state.agentFrames) frame.frameId (linkOf state frame) := by
  funext frameId
  rw [previousFrame, appendAgentFrame_frames, find?_append, find_superseded]
  by_cases hid : frameId = frame.frameId
  · subst hid
    simp [find_of_fresh fresh]
  · rw [Function.update_of_ne hid, previousFrame]
    have hlast : [{ frame with
        status := .active, previousFrameId := linkOf state frame }].find?
          (·.frameId == frameId) = none := by
      simp [Ne.symm hid]
    rw [hlast, or_none]
    cases state.agentFrames.find? (·.frameId == frameId) with
    | none => rfl
    | some existing =>
      rw [map_some]
      split <;> rfl

/-- Appending keeps the frames consistent exactly where the new id is free. -/
theorem appendAgentFrame_consistent_iff (consistent : Consistent state)
    (frame : AgentFrameRecord Json) :
    Consistent (state.appendAgentFrame frame) ↔ Fresh state frame.frameId (linkOf state frame) := by
  constructor
  · intro appended
    have hfresh : frame.frameId ∉ state.agentFrames.map (·.frameId) := by
      have hunique := appended.unique
      rw [appended_ids] at hunique
      exact fun hmem => (nodup_append.mp hunique).2.2 _ hmem _ (mem_singleton_self _) rfl
    have hends := appended.ends
    rw [previousFrame_appended hfresh, ends_update_iff (previousFrame_of_fresh hfresh)] at hends
    exact ⟨hfresh, hends.2⟩
  · rintro ⟨hfresh, haway⟩
    have hunique : ((state.appendAgentFrame frame).agentFrames.map (·.frameId)).Nodup := by
      rw [appended_ids]
      refine nodup_append.mpr ⟨consistent.unique, nodup_singleton _, ?_⟩
      rintro frameId hmem other hother rfl
      exact hfresh (mem_singleton.mp hother ▸ hmem)
    refine consistent_of_unique hunique ?_ ?_
    · refine ⟨{ frame with status := .active, previousFrameId := linkOf state frame }, ?_, ?_⟩
      · exact find_of_unique hunique (mem_append_right _ (mem_singleton_self _))
      · obtain ⟨current, hcurrent, hactive⟩ := consistent.active
        have hid : current.frameId = state.currentAgentFrameId := by
          simpa using find?_some hcurrent
        have hnone : (state.agentFrames.map fun existing =>
            if existing.frameId = state.currentAgentFrameId then
              { existing with status := .superseded } else existing).filter
                (·.status == .active) = [] := by
          refine filter_eq_nil_iff.mpr fun existing hmem => ?_
          obtain ⟨old, hold, rfl⟩ := mem_map.mp hmem
          split
          · simp
          next hne =>
            intro hstatus
            have hin : old ∈ state.agentFrames.filter (·.status == .active) :=
              mem_filter.mpr ⟨hold, hstatus⟩
            rw [hactive, mem_singleton] at hin
            exact hne (hin ▸ hid)
        rw [appendAgentFrame_frames, filter_append, hnone]
        simp
    · rw [previousFrame_appended hfresh]
      exact (ends_update_iff (previousFrame_of_fresh hfresh)).mpr ⟨consistent.ends, haway⟩

/-! ## Runs -/

theorem Consistent.framed (consistent : Consistent state)
    (named : state.currentAgentFrameId.isEmpty = false) : Framed state := by
  obtain ⟨frame, hcurrent, -⟩ := consistent.active
  unfold currentAgentFrame at hcurrent
  refine ⟨named, any_eq_true.mpr ⟨frame, mem_of_find?_eq_some hcurrent, ?_⟩⟩
  simpa using find?_some hcurrent

theorem appendSessionNodes_frames {drafts : List (SessionNodeDraft Json)} {tick : Tick}
    {nodeIds : List String} (framed : Framed state)
    (h : state.appendSessionNodes host drafts tick = some (nodeIds, after)) :
    after.agentFrames = state.agentFrames ∧
      after.currentAgentFrameId = state.currentAgentFrameId := by
  unfold appendSessionNodes at h
  rw [ensureAgentFrameInitialized_of_framed framed] at h
  obtain ⟨⟨ids, graph⟩, -, h⟩ := bind_eq_some_iff.mp h
  obtain ⟨normalized, hnormalized, h⟩ := bind_eq_some_iff.mp h
  obtain ⟨-, rfl⟩ := Prod.mk.inj (some.inj h)
  obtain ⟨⟨healed, graph⟩, -, rfl⟩ := map_eq_some_iff.mp hnormalized
  exact ⟨rfl, rfl⟩

/-- Where a frame may be opened under an id: it is blank, the current one or a free one. -/
def Opens (frameId : String) (state : RuntimeSessionState Json) : Prop :=
  (trimText frameId).isEmpty = true ∨ state.currentAgentFrameId = frameId ∨
    Fresh state frameId (some state.currentAgentFrameId)

theorem openAgentFrame_consistent {reason : String} {initialNodes : List (SessionNodeDraft Json)}
    {causedBy : Option CausalRef} {tick : Tick} (consistent : Consistent state)
    (named : state.currentAgentFrameId.isEmpty = false) (opens : Opens frameId state)
    (h : state.openAgentFrame host frameId reason initialNodes causedBy tick = some after) :
    Consistent after := by
  unfold openAgentFrame at h
  rw [ensureAgentFrameInitialized_of_framed (consistent.framed named)] at h
  dsimp only at h
  split at h
  · cases h
    exact consistent
  next hopens =>
    rw [Bool.or_eq_true, not_or] at hopens
    have hfresh : Fresh state frameId (some state.currentAgentFrameId) := by
      rcases opens with hblank | hcurrent | hfresh
      · exact absurd hblank hopens.1
      · exact absurd (beq_iff_eq.mpr hcurrent) hopens.2
      · exact hfresh
    obtain ⟨current, hcurrent, -⟩ := consistent.active
    have hid : current.frameId = state.currentAgentFrameId := by
      unfold currentAgentFrame at hcurrent
      simpa using find?_some hcurrent
    rw [hcurrent] at h
    obtain ⟨⟨nodeIds, grown⟩, hgrown, hafter⟩ := map_eq_some_iff.mp h
    have happended := (appendAgentFrame_consistent_iff consistent (.newAt frameId state.sessionId
      (some current.frameId) reason causedBy current.assignment current.protocolTurnOptions
      tick.timestamp)).mpr (by rw [← hid] at hfresh; exact hfresh)
    have hnamed : frameId.isEmpty = false := by
      refine Bool.eq_false_iff.mpr fun hempty => hopens.1 ?_
      rw [String.isEmpty_iff.mp hempty]
      decide
    obtain ⟨hframes, hcurrent⟩ := appendSessionNodes_frames (happended.framed hnamed) hgrown
    have hconsistent : Consistent grown := happended.of_same hframes hcurrent
    subst hafter
    dsimp only
    split
    · exact hconsistent
    · exact hconsistent.of_same rfl rfl

/-- What keeps an operation from doing harm. -/
def Operation.Keeps : Operation Json → RuntimeSessionState Json → Prop
  | .ensure _, state => state.currentAgentFrameId.isEmpty = false
  | .openFrame frameId _ _ _ _, state =>
    state.currentAgentFrameId.isEmpty = false ∧ Opens frameId state
  | .switch (.agentFrameSwitch frameId _) _ _, state =>
    (state.currentAgentFrameId.isEmpty = true → (trimText frameId).isEmpty = true ∨
      state.currentAgentFrameId = frameId) ∧ Opens frameId state
  | .append frame, state => Fresh state frame.frameId (linkOf state frame)
  | _, _ => True

theorem perform_consistent {operation : Operation Json} (consistent : Consistent state)
    (keeps : operation.Keeps state) (done : operation.perform host state = some after) :
    Consistent after := by
  cases operation with
  | ensure timestamp =>
    cases done
    rw [ensureAgentFrameInitialized_of_framed (consistent.framed keeps)]
    exact consistent
  | openFrame frameId reason initialNodes causedBy tick =>
    exact openAgentFrame_consistent consistent keeps.1 keeps.2 done
  | append frame =>
    cases done
    exact (appendAgentFrame_consistent_iff consistent frame).mpr keeps
  | switch outcome toolCalls tick =>
    rw [Operation.perform] at done
    unfold materializeAgentFrameSwitch at done
    split at done
    · split at done
      · cases done
        exact consistent
      next hopens =>
        rw [Bool.or_eq_true, not_or] at hopens
        have hnamed : state.currentAgentFrameId.isEmpty = false := by
          refine Bool.eq_false_iff.mpr fun hempty => ?_
          rcases keeps.1 hempty with hblank | hcurrent
          · exact hopens.1 hblank
          · exact hopens.2 (beq_iff_eq.mpr hcurrent)
        exact openAgentFrame_consistent consistent hnamed keeps.2 done
    · cases done
      exact consistent
  | reset assignment protocolTurnOptions timestamp =>
    cases done
    exact consistent_single rfl rfl rfl rfl

/-- The frames stay consistent where every operation keeps to free ids. -/
theorem frames_stay_consistent {start : RuntimeSessionState Json}
    (consistent : Consistent start) (reached : Reached host Operation.Keeps start state) :
    Consistent state := by
  induction reached with
  | start => exact consistent
  | step _ operation meets done ih => exact perform_consistent ih meets done

theorem default_consistent (host : TurnHost Json) (timestamp : String) :
    Consistent (default host timestamp) :=
  consistent_single rfl rfl rfl rfl

/-- A frame as a caller makes it, with no predecessor. -/
def madeFrame (frameId : String) : AgentFrameRecord Value :=
  .newAt frameId "root" none "continue_as" none (.fromPolicy plainHost .null) .null "now"

theorem frames_stay_consistent_appended :
    Consistent ((RuntimeSessionState.default plainHost "now").appendAgentFrame
      (madeFrame "b")) := by
  have hfresh : Fresh (default plainHost "now") "b"
      (some "root:frame:initial") := by
    refine ⟨by decide, ?_⟩
    generalize hb : "b" = b
    intro climbs
    cases climbs with
    | here => exact absurd hb (by decide)
    | up above =>
      have hnone : previousFrame (default plainHost "now").agentFrames
          "root:frame:initial" = none := by decide
      rw [hnone] at above
      cases above
  have hreached : Reached plainHost Operation.Keeps (default plainHost "now")
      ((default plainHost "now").appendAgentFrame (madeFrame "b")) :=
    .step .start (.append (madeFrame "b")) hfresh rfl
  exact frames_stay_consistent (default_consistent plainHost "now") hreached

/-! ## An older id -/

/-- Going back to the first frame of a session lists a second frame under its id. -/
theorem reopened_frame_is_listed_twice : ¬ ∀ state : RuntimeSessionState Value,
      Reached plainHost (fun _ _ => True) (RuntimeSessionState.default plainHost "now") state →
        Consistent state := by
  intro h
  have hconsistent := h _ (.step (.step .start (.openFrame "b" "continue_as" [] none ⟨"now", []⟩)
    trivial rfl) (.openFrame "root:frame:initial" "continue_as" [] none ⟨"now", []⟩) trivial rfl)
  exact absurd hconsistent.unique (by decide)

end AgentFrames
