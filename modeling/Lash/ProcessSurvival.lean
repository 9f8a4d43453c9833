import Lash.UncutProcesses

/-!
# Lashlang processes survive

A process that is cut and restarted follows an uncut run as long as its operations are steady
ones and its single resource calls are answered as before. The wait that the record shows fits
what the log announces, so a restarted process reads the time since when it waits as before. A
process that awaits or cancels a handle draws another call id, one that sleeps until a deadline
computes another duration, and one whose resource call is answered otherwise emits another event
under the same key.
-/

namespace ProcessSurvival

open ScriptBuiltins ProcessRecords LocalProcesses ProcessEventTypes ProcessLogs ReplayedClients
  LashlangProcesses ProcessReplays UncutProcesses List Option Client

variable {host : ProcessHost} {processId : String} {bridge : Bridge} {program : Program}
  {launch : Launch host} {tools : String → String → Json → LashlangProcesses.Outcome}

/-! ## Waits that are announced -/

section Announcements

variable {first second : List Reply} {u : Runtime host} {answers : List Answer}
  {counters : Counters} {name : String} {n sinceMs : Nat}
  {event : ProcessEvent (rules (lashlangHost host))}

theorem answered_append {eventType key : String} {payload : Json} {a : Reply}
    (h : Answered u (.append eventType payload key) a) :
    a = .registry (.ok ()) ∧ ∃ event ∈ u.managed.events, event.eventType = eventType ∧
      event.payload = payload ∧ event.replay = some key := by
  cases a with
  | registry result =>
    cases result with
    | ok _ => exact ⟨rfl, h⟩
    | error error => exact h.elim
  | _ => exact h.elim

theorem answered_setProcessWait {wait : WaitState} {a : Reply}
    (h : Answered u (.setProcessWait wait) a) : a = .registry (.ok ()) := by
  cases a with
  | registry result =>
    cases result with
    | ok _ => rfl
    | error error => exact h.elim
  | _ => exact h.elim

/-- The announcement of a wait. -/
def Announces (processId name : String) (n sinceMs : Nat)
    (event : ProcessEvent (rules (lashlangHost host))) : Prop :=
  event.eventType = "process.waiting" ∧
    event.payload = waitingPayload (signalWait processId name n sinceMs)

/-- The log holds the announcement that an uncut run made at this place. -/
theorem announced (accepting : Accepting host)
    (run : SteadyRun processId bridge program launch tools (first ++ second) u)
    (place : (process processId bridge program).after first =
      .within answers counters (.announcing name n sinceMs))
    (mem : event ∈ u.managed.events) (keyed : event.replay = some (waitingKey processId name n)) :
    Announces processId name n sinceMs event := by
  have journal := uncut_journal accepting run
  have hasked : (process processId bridge program).asked first = some (.append "process.waiting"
      (waitingPayload (signalWait processId name n sinceMs)) (waitingKey processId name n)) :=
    congrArg (State.request processId) place
  cases second with
  | nil =>
    rw [append_nil] at journal
    have hused := journal.used event mem _ keyed (.inr ⟨name, n, .inl rfl⟩)
    exact absurd hused (append_fresh hasked)
  | cons a rest =>
    have hanswered := uncut_answered accepting run _ _ (mem_exchanged _ hasked)
    obtain ⟨-, other, hother, htype, hpayload, hreplay⟩ := answered_append hanswered
    obtain rfl := event_unique journal.indexed mem hother keyed hreplay
    exact ⟨htype, hpayload⟩

/-- So it does where the wait is set. -/
theorem set_announced (accepting : Accepting host)
    (run : SteadyRun processId bridge program launch tools (first ++ second) u)
    (place : (process processId bridge program).after first =
      .within answers counters (.setting name n sinceMs))
    (mem : event ∈ u.managed.events) (keyed : event.replay = some (waitingKey processId name n)) :
    Announces processId name n sinceMs event := by
  have hasked : (process processId bridge program).asked first =
      some (.setProcessWait (signalWait processId name n sinceMs)) :=
    congrArg (State.request processId) place
  cases second with
  | nil =>
    have journal := uncut_journal accepting run
    rw [append_nil] at journal
    have hused := journal.used event mem _ keyed (.inr ⟨name, n, .inl rfl⟩)
    rw [place] at hused
    exact absurd (.inr (.inl rfl)) hused.2
  | cons a rest =>
    have hanswered := uncut_answered accepting run _ _ (mem_exchanged _ hasked)
    obtain rfl := answered_setProcessWait hanswered
    rw [show first ++ .registry (.ok ()) :: rest =
      first ++ [Reply.registry (.ok ())] ++ rest by simp]
      at run
    have hplace : (process processId bridge program).after (first ++ [Reply.registry (.ok ())]) =
        .within answers counters (.announcing name n sinceMs) := by
      rw [after_concat, place]
      rfl
    exact announced accepting run hplace mem keyed

/-- And where the process asks since when it waits. -/
theorem resolved_announced (accepting : Accepting host)
    (run : SteadyRun processId bridge program launch tools (first ++ .time sinceMs :: second) u)
    (place : (process processId bridge program).after first =
      .within answers counters (.resolving name n))
    (mem : event ∈ u.managed.events) (keyed : event.replay = some (waitingKey processId name n)) :
    Announces processId name n sinceMs event := by
  rw [show first ++ .time sinceMs :: second =
    first ++ [Reply.time sinceMs] ++ second by simp] at run
  have hplace : (process processId bridge program).after (first ++ [Reply.time sinceMs]) =
      .within answers counters (.setting name n sinceMs) := by
    rw [after_concat, place]
    rfl
  exact set_announced accepting run hplace mem keyed

/-- A run that goes on behind the setting of a wait has announced it. -/
theorem unannounced_quiet (accepting : Accepting host)
    (run : SteadyRun processId bridge program launch tools (first ++ .time sinceMs :: second) u)
    (place : (process processId bridge program).after first =
      .within answers counters (.resolving name n))
    (none : ∀ event ∈ u.managed.events, event.replay ≠ some (waitingKey processId name n)) :
    ∀ q ∈ (process processId bridge program).issuedFrom
      ((process processId bridge program).after first) (.time sinceMs :: second),
      Request.isQuiet q = true := by
  have hset : (process processId bridge program).after (first ++ [Reply.time sinceMs]) =
      .within answers counters (.setting name n sinceMs) := by
    rw [after_concat, place]
    rfl
  have hasked : (process processId bridge program).asked (first ++ [Reply.time sinceMs]) =
      some (.setProcessWait (signalWait processId name n sinceMs)) :=
    congrArg (State.request processId) hset
  rw [show first ++ .time sinceMs :: second =
    first ++ [Reply.time sinceMs] ++ second by simp] at run
  have hone : (process processId bridge program).issuedFrom
      ((process processId bridge program).after first) [.time sinceMs] = [.waitSince name n] := by
    rw [place]
    rfl
  rw [← singleton_append, issuedFrom_append, hone]
  have hstate : [Reply.time sinceMs].foldl (process processId bridge program).resume
      ((process processId bridge program).after first) =
      .within answers counters (.setting name n sinceMs) := by
    rw [← hset, after_append]
  rw [hstate]
  match second with
  | [] =>
    intro q hq
    obtain rfl := mem_singleton.mp hq
    rfl
  | [a] =>
    intro q hq
    rcases mem_append.mp hq with hq | hq
    · obtain rfl := mem_singleton.mp hq
      rfl
    · obtain rfl := mem_singleton.mp hq
      rfl
  | a :: b :: rest =>
    have hanswered := uncut_answered accepting run _ _ (mem_exchanged _ hasked)
    obtain rfl := answered_setProcessWait hanswered
    have hnext : (process processId bridge program).asked
        (first ++ [Reply.time sinceMs] ++ [.registry (.ok ())]) = some (.append "process.waiting"
          (waitingPayload (signalWait processId name n sinceMs))
          (waitingKey processId name n)) := by
      rw [asked, after_concat, hset]
      rfl
    rw [show first ++ [Reply.time sinceMs] ++ .registry (.ok ()) :: b :: rest =
      first ++ [Reply.time sinceMs] ++ [Reply.registry (.ok ())] ++ b :: rest by simp] at run
    have hannounced := uncut_answered accepting run _ _ (mem_exchanged _ hnext)
    obtain ⟨-, event, hmem, -, -, hreplay⟩ := answered_append hannounced
    exact absurd hreplay (none event hmem)

end Announcements

/-! ## Waits in the record -/

section Waiting

variable {replies : List Reply} {u u' w w' : Runtime host} {q : Request} {a : Reply}
  {name : String} {n sinceMs : Nat}

/-- The wait in the record is of the host, and it is the one that was announced. -/
structure Fits (processId : String) (bridge : Bridge) (program : Program) (replies : List Reply)
    (w : Runtime host) : Prop where
  recorded : ∀ wait, w.managed.record.wait = some wait →
    ∃ name n, wait = signalWait processId name n wait.sinceMs ∧
      ∀ event ∈ w.managed.events, event.replay = some (waitingKey processId name n) →
        Announces processId name n wait.sinceMs event
  announcing : ∀ answers counters name n sinceMs wait,
    (process processId bridge program).after replies =
      .within answers counters (.announcing name n sinceMs) →
    w.managed.record.wait = some wait → wait = signalWait processId name n sinceMs

variable {event : ProcessEvent (rules (lashlangHost host))}

theorem announcedIn_of_announces (announces : Announces processId name n sinceMs event)
    (keyed : event.replay = some (waitingKey processId name n)) :
    announcedIn (waitingKey processId name n) event = some sinceMs := by
  obtain ⟨htype, hpayload⟩ := announces
  have hread : (Json.get [("wait", (signalWait processId name n sinceMs).toJson)] "wait").bind
      WaitState.fromJson = some (signalWait processId name n sinceMs) := by
    rw [show Json.get [("wait", (signalWait processId name n sinceMs).toJson)] "wait" =
      some (signalWait processId name n sinceMs).toJson by simp [Json.get], bind_some,
      WaitState.fromJson_toJson]
  rw [announcedIn, if_neg (by simp [htype, keyed]), hpayload]
  simp only [waitingPayload, hread, map_some]
  rfl

theorem announcedIn_keyed {key : String} (h : announcedIn key event = some sinceMs) :
    event.replay = some key := by
  rw [announcedIn] at h
  split at h
  · cases h
  · rename_i hneither
    rw [not_or, not_not, not_not] at hneither
    exact hneither.2

theorem findSome_unique {α β : Type} {f : α → Option β} {x : α} {b : β} {l : List α} (mem : x ∈ l)
    (found : f x = some b) (unique : ∀ y ∈ l, ∀ c, f y = some c → c = b) :
    l.findSome? f = some b := by
  cases hsearch : l.findSome? f with
  | none =>
    rw [findSome?_eq_none_iff.mp hsearch x mem] at found
    cases found
  | some c =>
    obtain ⟨y, hy, hc⟩ := exists_of_findSome?_eq_some hsearch
    rw [unique y hy c hc]

/-- A process that has announced its wait reads the announced time again. -/
theorem waitSince_announced (fits : Fits processId bridge program replies w)
    (indexed : Indexed w.managed) (mem : event ∈ w.managed.events)
    (keyed : event.replay = some (waitingKey processId name n))
    (announces : Announces processId name n sinceMs event) (now : Nat) :
    waitSinceMs w.managed (processSignalWaitKey processId name n) (waitingKey processId name n)
      now = sinceMs := by
  have hlog : w.managed.events.reverse.findSome? (announcedIn (waitingKey processId name n)) =
      some sinceMs := by
    refine findSome_unique (mem_reverse.mpr mem)
      (announcedIn_of_announces announces keyed) fun other hother since hsince => ?_
    obtain rfl := event_unique indexed mem (mem_reverse.mp hother) keyed
      (announcedIn_keyed hsince)
    rw [announcedIn_of_announces announces keyed] at hsince
    exact (some.inj hsince).symm
  have hrecord (since : Nat)
      (h : recordedSince w.managed (processSignalWaitKey processId name n) = some since) :
      since = sinceMs := by
    rw [recordedSince] at h
    split at h
    · rename_i wait hwait
      split at h
      · rename_i hkey
        obtain rfl := some.inj h
        obtain ⟨name', n', hsignal, hannounced⟩ := fits.recorded wait hwait
        rw [hsignal] at hkey
        obtain ⟨rfl, rfl⟩ := @waitKey_injective processId _ _ _ _ hkey
        have hevent := announcedIn_of_announces (hannounced event mem keyed) keyed
        rw [announcedIn_of_announces announces keyed] at hevent
        exact (some.inj hevent).symm
      · cases h
    · cases h
  rw [waitSinceMs, hlog]
  cases hrecorded : recordedSince w.managed (processSignalWaitKey processId name n) with
  | none => rfl
  | some since =>
    rw [hrecord since hrecorded]
    rfl

/-- A process that asks for the first time since when it waits is told the time. -/
theorem waitSince_first (journal : Journal processId bridge program launch replies u)
    (asked : (process processId bridge program).asked replies = some (.waitSince name n))
    (now : Nat) :
    waitSinceMs u.managed (processSignalWaitKey processId name n) (waitingKey processId name n)
      now = now := by
  obtain ⟨hwait, hwaiting⟩ := waitSince_fresh asked
  have hrecord : recordedSince u.managed (processSignalWaitKey processId name n) = none := by
    rw [recordedSince]
    split
    · rename_i wait hrecorded
      rw [if_neg]
      intro hkey
      exact hwait (hkey ▸ journal.waited wait hrecorded)
    · rfl
  have hlog : u.managed.events.reverse.findSome? (announcedIn (waitingKey processId name n)) =
      none := by
    refine findSome?_eq_none_iff.mpr fun event hmem => ?_
    cases hsince : announcedIn (waitingKey processId name n) event with
    | none => rfl
    | some since =>
      exact absurd (journal.used event (mem_reverse.mp hmem) _ (announcedIn_keyed hsince)
        (.inr ⟨name, n, .inl rfl⟩)) hwaiting
  rw [waitSinceMs, hrecord, hlog]
  rfl

end Waiting

/-! ## The process is replayed -/

section Replaying

variable {replies : List Reply} {u w w' : Runtime host} {q : Request} {a : Reply}

/-- The stores of both runtimes hold the same. -/
abbrev SameDurable (processId : String) (tools : String → String → Json → LashlangProcesses.Outcome)
    (u w : Runtime host) : Prop :=
  (runtimeOf host processId (Steady tools)).durable u =
    (runtimeOf host processId (Steady tools)).durable w

theorem durable_same (same : SameDurable processId tools u w) :
    unwaited u.managed = unwaited w.managed ∧ u.effects = w.effects :=
  Prod.mk.inj same

theorem setWait_unwaited (managed : Managed host) (wait : WaitState) (now : Nat) :
    unwaited (setWait managed wait now).2 = unwaited managed := by
  rw [setWait]
  split <;> rfl

theorem quiet_durable (quiet : q.isQuiet = true)
    (served : (runtimeOf host processId (Steady tools)).serve q w a w') :
    SameDurable processId tools w' w := by
  obtain ⟨-, -, serves⟩ := served
  cases serves with
  | waitSince name ordinal now => rfl
  | setProcessWait wait now =>
    exact congrArg (fun managed => (managed, w.effects)) (setWait_unwaited w.managed wait now)
  | _ => cases quiet

/-- What an uncut run was answered is answered again. -/
theorem answers_again (accepting : Accepting host) {first second : List Reply} {b : Reply}
    (run : SteadyRun processId bridge program launch tools (first ++ a :: second) u)
    (same : SameDurable processId tools u w)
    (fits : Fits processId bridge program first w)
    (asked : (process processId bridge program).asked first = some q)
    (served : (runtimeOf host processId (Steady tools)).serve q w b w') :
    (b = a ∧ SameDurable processId tools w' w) ∨
      ∀ p ∈ (process processId bridge program).issuedFrom
        ((process processId bridge program).after first) (a :: second), p.isQuiet = true := by
  have journal := uncut_journal accepting run
  obtain ⟨hmanaged, heffects⟩ := durable_same same
  obtain ⟨hevents, hindexed⟩ : u.managed.events = w.managed.events ∧ Indexed w.managed :=
    ⟨events_same hmanaged, indexed_same hmanaged.symm journal.indexed⟩
  have hextends : Extends u w := ⟨fun key recorded h => heffects ▸ h, hevents ▸ prefix_rfl⟩
  have hanswered : Answered w q a :=
    hextends.answered (uncut_answered accepting run _ _ (mem_exchanged _ asked))
  have hformed : FormedState bridge ((process processId bridge program).after first) := by
    obtain ⟨p, before, after, hasked, hearlier, -⟩ := run.served
    exact (uncut_journal accepting hearlier).formed
  obtain ⟨huuid, hclock, hhandle⟩ := steady_request hformed asked
  obtain ⟨again, running, serves⟩ := served
  have hlogged := logged_same hmanaged.symm journal.logged running
  cases serves with
  | perform op =>
    cases a with
    | performing => exact .inl ⟨rfl, rfl⟩
    | _ => exact hanswered.elim
  | call outcome =>
    obtain ⟨p, before, after, hasked, -, hserved⟩ := run.served
    obtain rfl := some.inj (hasked.symm.trans asked)
    exact .inl ⟨again.trans hserved.1.symm, rfl⟩
  | effect executes =>
    obtain ⟨rfl, rfl⟩ := executes_again hanswered executes
    exact .inl ⟨rfl, rfl⟩
  | uuid id => exact absurd rfl huuid
  | handle outcome => exact absurd rfl (hhandle _ _ _)
  | clock now => exact absurd rfl hclock
  | @appended _ eventType key payload now result managed appended =>
    obtain ⟨rfl, event, hmem, htype, hpayload, hreplay⟩ := answered_append hanswered
    have hnamed : (@ownRequest host eventType payload key).replay = some key := rfl
    obtain ⟨wakeDelivery, hrepeated⟩ := append_repeated now accepting.delivers hlogged hindexed
      hmem hreplay hnamed htype.symm hpayload.symm
    rw [hrepeated] at appended
    obtain ⟨-, rfl⟩ := Prod.mk.inj (Except.ok.inj appended)
    exact .inl ⟨rfl, rfl⟩
  | @refused _ eventType key payload now error refused =>
    obtain ⟨rfl, event, hmem, htype, hpayload, hreplay⟩ := answered_append hanswered
    have hnamed : (@ownRequest host eventType payload key).replay = some key := rfl
    obtain ⟨wakeDelivery, hrepeated⟩ := append_repeated now accepting.delivers hlogged hindexed
      hmem hreplay hnamed htype.symm hpayload.symm
    rw [hrepeated] at refused
    cases refused
  | waitSince name n now =>
    cases a with
    | time sinceMs =>
      obtain ⟨answers, counters, hplace⟩ := waitSince_place asked
      by_cases hannounced : ∃ event ∈ w.managed.events,
          event.replay = some (waitingKey processId name n)
      · obtain ⟨event, hmem, hreplay⟩ := hannounced
        have hevent := resolved_announced accepting run hplace (hevents ▸ hmem) hreplay
        rw [waitSince_announced fits hindexed hmem hreplay hevent]
        exact .inl ⟨rfl, rfl⟩
      · refine .inr (unannounced_quiet accepting run hplace fun event hmem hreplay => ?_)
        exact hannounced ⟨event, hevents ▸ hmem, hreplay⟩
    | _ => exact hanswered.elim
  | setProcessWait wait now =>
    obtain rfl := answered_setProcessWait hanswered
    refine .inl ⟨?_, ?_⟩
    · simp only [setWait, running, Bool.false_eq_true, if_false]
    · exact congrArg (fun managed => (managed, w.effects)) (setWait_unwaited w.managed wait now)
  | clearProcessWait now =>
    cases a with
    | registry result =>
      cases result with
      | ok _ => exact .inl ⟨rfl, rfl⟩
      | error error => exact hanswered.elim
    | _ => exact hanswered.elim

theorem executes_follow {key : String} {command : EffectCommand}
    (same : u.effects = w.effects) (h : Executes key command w a w') :
    ∃ u', Executes key command u a u' ∧ u'.managed = u.managed ∧ w'.managed = w.managed ∧
      u'.effects = w'.effects := by
  cases h with
  | recorded found =>
    rw [← same] at found
    exact ⟨u, .recorded found, rfl, rfl, same⟩
  | conflict found differs =>
    rw [← same] at found
    exact ⟨u, .conflict found differs, rfl, rfl, same⟩
  | executed new answers =>
    rw [← same] at new
    refine ⟨u.recorded key command a, .executed new answers, rfl, rfl, ?_⟩
    simp only [Runtime.recorded, same]

/-- An uncut run can go on as a run with the same events and effects goes on. -/
theorem serve_follows (accepting : Accepting host)
    (run : SteadyRun processId bridge program launch tools replies u)
    (same : SameDurable processId tools u w)
    (asked : (process processId bridge program).asked replies = some q)
    (served : (runtimeOf host processId (Steady tools)).serve q w a w') :
    ∃ u', (runtimeOf host processId (Steady tools)).serve q u a u' ∧
      SameDurable processId tools u' w' := by
  have journal := uncut_journal accepting run
  obtain ⟨hmanaged, heffects⟩ := durable_same same
  obtain ⟨steady, hrunning, serves⟩ := served
  have running : u.managed.record.isTerminal = false := (isTerminal_same hmanaged).trans hrunning
  have hdurable {u' : Runtime host} (hu : unwaited u'.managed = unwaited u.managed)
      (hw : unwaited w'.managed = unwaited w.managed) (h : u'.effects = w'.effects) :
      SameDurable processId tools u' w' :=
    Prod.ext_iff.mpr ⟨hu.trans (hmanaged.trans hw.symm), h⟩
  cases serves with
  | perform op => exact ⟨u, ⟨steady, running, .perform op⟩, same⟩
  | call outcome => exact ⟨u, ⟨steady, running, .call outcome⟩, same⟩
  | effect executes =>
    obtain ⟨u', hserves, hu, hw, h⟩ := executes_follow heffects executes
    exact ⟨u', ⟨steady, running, .effect hserves⟩,
      hdurable (congrArg unwaited hu) (congrArg unwaited hw) h⟩
  | uuid id => exact ⟨u, ⟨steady, running, .uuid id⟩, same⟩
  | handle outcome => exact ⟨u, ⟨steady, running, .handle outcome⟩, same⟩
  | clock now => exact ⟨u, ⟨steady, running, .clock now⟩, same⟩
  | appended appended =>
    obtain ⟨next, hserves, hnext⟩ := appendEvent_follows hmanaged appended
    exact ⟨_, ⟨steady, running, .appended hserves⟩, Prod.ext_iff.mpr ⟨hnext, heffects⟩⟩
  | refused refused =>
    exact ⟨u, ⟨steady, running, .refused (appendEvent_refused hmanaged refused)⟩, same⟩
  | waitSince name n now =>
    refine ⟨u, ⟨steady, running, ?_⟩, same⟩
    -- The uncut run reads the clock here, and any time can be read.
    generalize waitSinceMs w.managed (processSignalWaitKey processId name n)
      (waitingKey processId name n) now = sinceMs
    have hserves := @Serves.waitSince host processId u name n sinceMs
    rw [waitSince_first journal asked sinceMs] at hserves
    exact hserves
  | setProcessWait wait now =>
    have hok : (setWait w.managed wait now).1 = (setWait u.managed wait now).1 := by
      simp only [setWait, running, hrunning, Bool.false_eq_true, if_false]
    rw [hok]
    exact ⟨_, ⟨steady, running, .setProcessWait wait now⟩,
      hdurable (setWait_unwaited u.managed wait now) (setWait_unwaited w.managed wait now)
        heffects⟩
  | clearProcessWait now =>
    exact ⟨_, ⟨steady, running, .clearProcessWait now⟩, hdurable rfl rfl heffects⟩

theorem others_follow
    (same : SameDurable processId tools u w)
    (moved : (runtimeOf host processId (Steady tools)).others w w') :
    ∃ u', (runtimeOf host processId (Steady tools)).others u u' ∧
      SameDurable processId tools u' w' := by
  obtain ⟨hmanaged, heffects⟩ := durable_same same
  obtain ⟨hrunning, moved⟩ := moved
  have running : u.managed.record.isTerminal = false := (isTerminal_same hmanaged).trans hrunning
  cases moved with
  | appended foreign appended =>
    obtain ⟨next, hmoved, hnext⟩ := appendEvent_follows hmanaged appended
    exact ⟨_, ⟨running, .appended foreign hmoved⟩, Prod.ext_iff.mpr ⟨hnext, heffects⟩⟩
  | @recorded key command reply new answers =>
    rw [← heffects] at new
    refine ⟨u.recorded key command reply, ⟨running, .recorded new answers⟩,
      Prod.ext_iff.mpr ⟨hmanaged, ?_⟩⟩
    simp only [runtimeOf, Runtime.recorded, heffects]

/-! The wait in the record stays the one that was announced. -/

theorem appends_mem {managed managed' : Managed host} {now : Nat}
    {request : ProcessEventAppendRequest (rules (lashlangHost host))}
    {result : ProcessEventAppendResult (rules (lashlangHost host))}
    {event : ProcessEvent (rules (lashlangHost host))}
    (appends : Appends managed request now result managed') (mem : event ∈ managed'.events) :
    event ∈ managed.events ∨ Answers request event := by
  cases appends with
  | replay named found same =>
    simp only [ManagedProcessRecord.applyPlan] at mem
    split at mem
    · exact .inl mem
    · exact .inl mem
  | insert unseen hashed sequence answers made running =>
    rcases mem_append.mp mem with hold | hnew
    · exact .inl hold
    · obtain rfl := mem_singleton.mp hnew
      exact .inr answers

theorem fits_start : Fits processId bridge program [] launch.runtime where
  recorded wait h := by cases h
  announcing answers counters name n sinceMs wait _ h := by cases h

theorem fits_cut (fits : Fits processId bridge program replies w) :
    Fits processId bridge program [] w := by
  refine ⟨fits.recorded, fun answers counters name n sinceMs wait hplace => ?_⟩
  have hstart : enter program [] .new =
      .within answers counters (.announcing name n sinceMs) := hplace
  rw [enter] at hstart
  split at hstart <;> cases hstart

theorem fits_others (fits : Fits processId bridge program replies w)
    (moved : (runtimeOf host processId (Steady tools)).others w w') :
    Fits processId bridge program replies w' := by
  obtain ⟨-, moved⟩ := moved
  cases moved with
  | appended foreign appended =>
    have appends := appendEvent_ok appended
    refine ⟨fun wait hwait => ?_, fun answers counters name n sinceMs wait hplace hwait =>
      fits.announcing answers counters name n sinceMs wait hplace (appends_wait appends hwait)⟩
    obtain ⟨name, n, hsignal, hannounced⟩ := fits.recorded wait (appends_wait appends hwait)
    refine ⟨name, n, hsignal, fun event hmem hkeyed => ?_⟩
    rcases appends_mem appends hmem with hold | answers
    · exact hannounced event hold hkeyed
    · exact absurd (.inr ⟨name, n, .inl rfl⟩) (foreign _ (answers.replay ▸ hkeyed))
  | recorded new answers => exact ⟨fits.recorded, fits.announcing⟩

theorem fits_serve (accepting : Accepting host) {rest : List Reply}
    (fits : Fits processId bridge program replies w)
    (asked : (process processId bridge program).asked replies = some q)
    (served : (runtimeOf host processId (Steady tools)).serve q w a w')
    (run : SteadyRun processId bridge program launch tools (replies ++ a :: rest) u)
    (same : SameDurable processId tools u w') :
    Fits processId bridge program (replies ++ [a]) w' := by
  obtain ⟨-, running, serves⟩ := served
  have hannouncing {answers : List Answer} {counters : Counters} {name : String} {n sinceMs : Nat}
      (h : (process processId bridge program).after (replies ++ [a]) =
        .within answers counters (.announcing name n sinceMs)) :
      q = .setProcessWait (signalWait processId name n sinceMs) ∨
        (process processId bridge program).after replies =
          .within answers counters (.announcing name n sinceMs) := by
    rw [after_concat] at h
    rcases resume_announcing h with ⟨-, hset⟩ | hstays
    · refine .inl (some.inj (asked.symm.trans ?_))
      exact congrArg (State.request processId) hset
    · exact .inr hstays
  -- All but the setting of a wait keep the wait or drop it.
  have hkeeps (hq : ∀ wait, q ≠ .setProcessWait wait)
      (hwait : ∀ wait, w'.managed.record.wait = some wait → w.managed.record.wait = some wait)
      (hevents : ∀ event ∈ w'.managed.events, event ∈ w.managed.events ∨
        ∃ eventType payload key, q = .append eventType payload key ∧
          Answers (@ownRequest host eventType payload key) event) :
      Fits processId bridge program (replies ++ [a]) w' := by
    refine ⟨fun wait hthis => ?_, fun answers counters name n sinceMs wait hplace hthis => ?_⟩
    · obtain ⟨name, n, hsignal, hannounced⟩ := fits.recorded wait (hwait wait hthis)
      refine ⟨name, n, hsignal, fun event hmem hkeyed => ?_⟩
      rcases hevents event hmem with hold | ⟨eventType, payload, key, rfl, answers⟩
      · exact hannounced event hold hkeyed
      · obtain rfl : key = waitingKey processId name n :=
          some.inj (answers.replay.symm.trans hkeyed)
        rcases request_cases asked with ⟨_, _, op, -, hcall⟩ |
          ⟨given, counters, place, hstate, hcall⟩
        · cases hcall
        · rcases append_place hcall.symm with ⟨m, rfl, hkey⟩ |
            ⟨name', m, sinceMs, rfl, rfl, rfl, hkey⟩ | ⟨name', m, value, rfl, rfl, rfl, hkey⟩
          · exact absurd hkey.symm eventKey_ne_waitingKey
          · obtain ⟨rfl, rfl⟩ := waitingKey_injective hkey
            have hthat := fits.announcing given counters name n sinceMs wait hstate
              (hwait wait hthis)
            rw [hthat]
            exact ⟨answers.eventType, answers.payload⟩
          · exact absurd hkey waitingKey_ne_resumedKey
    · rcases hannouncing hplace with hset | hstays
      · exact absurd hset (hq _)
      · exact fits.announcing answers counters name n sinceMs wait hstays (hwait wait hthis)
  have hsame (hq : ∀ wait, q ≠ .setProcessWait wait) (h : w'.managed = w.managed) :
      Fits processId bridge program (replies ++ [a]) w' := by
    refine hkeeps hq (fun wait hwait => h ▸ hwait) fun event hmem => .inl (h ▸ hmem)
  cases serves with
  | perform op | call outcome | uuid id | handle outcome | clock now | refused refused
  | waitSince name n now => exact hsame nofun rfl
  | effect executes => exact hsame nofun (executes_managed executes)
  | appended appended =>
    have appends := appendEvent_ok appended
    refine hkeeps nofun (fun wait => appends_wait appends) fun event hmem => ?_
    exact (appends_mem appends hmem).imp id fun answers => ⟨_, _, _, rfl, answers⟩
  | setProcessWait wait now =>
    obtain ⟨answers, counters, name, n, sinceMs, hplace, rfl⟩ := setProcessWait_place asked
    have hset : (setWait w.managed (signalWait processId name n sinceMs) now).2.record.wait =
        some (signalWait processId name n sinceMs) := by
      simp only [setWait, running, Bool.false_eq_true, if_false]
    refine ⟨fun wait hwait => ?_, fun given counters' name' n' sinceMs' wait hthis hwait => ?_⟩
    · obtain rfl := some.inj (hset.symm.trans hwait)
      refine ⟨name, n, rfl, fun event hmem hkeyed => ?_⟩
      rw [← events_same (durable_same same).1] at hmem
      exact set_announced accepting run hplace hmem hkeyed
    · obtain rfl := some.inj (hset.symm.trans hwait)
      rcases hannouncing hthis with hsignal | hstays
      · exact Request.setProcessWait.inj hsignal
      · rw [hplace] at hstays
        cases hstays
  | clearProcessWait now =>
    refine hkeeps (fun _ => ?_) (fun wait hwait => ?_) fun event hmem => .inl hmem
    · exact Request.noConfusion
    · cases hwait

/-- A process of steady operations is replayed. -/
theorem replayable (accepting : Accepting host) :
    Replayable (process processId bridge program) (runtimeOf host processId (Steady tools))
      launch.runtime (Fits processId bridge program) where
  quiet_serve := quiet_durable
  others_follow := others_follow
  serve_follow := serve_follows accepting
  again run same fits asked served := answers_again accepting run same fits asked served
  fits_start := fits_start
  fits_cut := fits_cut
  fits_others := fits_others
  fits_serve fits asked served run same := fits_serve accepting fits asked served run same

end Replaying

/-! ## The ordinals of waits -/

section Ordinals

variable {s : State} {q : Request} {a : Reply} {counters : Counters} {name : String}

end Ordinals

/-! ## Processes survive -/

section Surviving

variable {past : List (List Reply)} {replies : List Reply} {w : Runtime host}

end Surviving

end ProcessSurvival
