import Lash.LiveReplayStreams

/-!
# No silent holes in any run

Whatever calls and polls come in whatever order: a replay gives all events behind its cursor
or tells of a gap, a cursor at the tail never meets a gap, and what a subscription has given
together with what it still has to give are the events behind its cursor, a lag standing for
as many events as it says.
-/

namespace LiveReplayLaw

open BroadcastChannels SessionCursors Runs LiveReplayStores LiveReplayRuns LiveReplayStreams
open List Option

variable {Payload : Type} {config : InMemoryLiveReplayStoreConfig}
  {b : Broadcast (SessionObservationEvent Payload)} {world world' : World b}
  {op : ReplayOp Payload} {answer : ReplayAnswer Payload}
  {s : String} {i : Nat}

abbrev ReplayHistory (b : Broadcast (SessionObservationEvent Payload)) :=
  List (Entry (ReplayOp Payload) (World b) (ReplayAnswer Payload))

/-- The events of the session in the order of their appends. -/
def appendedTo (s : String) : ReplayHistory b → List (SessionObservationEvent Payload)
  | [] => []
  | e :: history => appendedTo s history ++ appendedBy s e.input e.output

/-- The items of the subscription in the order of its polls. -/
def itemsOf (i : Nat) : ReplayHistory b → List (Received (SessionObservationEvent Payload))
  | [] => []
  | e :: history => itemsOf i history ++ itemsBy i e.input e.output

variable {history newer older : ReplayHistory b}

theorem appendedTo_append (s : String) (newer older : ReplayHistory b) :
    appendedTo s (newer ++ older) = appendedTo s older ++ appendedTo s newer := by
  induction newer with
  | nil => simp [appendedTo]
  | cons e newer ih => rw [cons_append, appendedTo, appendedTo, ih, append_assoc]

/-! ## Buffers over a run -/

section Recording

/-- The event is the one of this number in its session. -/
structure Numbered (s : String) (n : Nat) (event : SessionObservationEvent Payload) : Prop where
  sessionId : event.sessionId = s
  cursor : event.cursor = .new s event.revision (positionOf (n + 1))

/-- The buffers hold the last of these events, which are numbered from one. -/
structure Records (world : World b)
    (events : String → List (SessionObservationEvent Payload)) : Prop where
  keeps : ∀ s, Keeps (events s) (bufferOf world s)
  numbered : ∀ s n event, (events s)[n]? = some event → Numbered s n event

variable {events : String → List (SessionObservationEvent Payload)}

theorem Records.unappended (records : Records world events)
    (silent : ∀ s, appendedBy s op answer = [])
    (shortens : ∀ s, Shortens (bufferOf world s) (bufferOf world' s)) :
    Records world' fun s => events s ++ appendedBy s op answer := by
  have hsame : (fun s => events s ++ appendedBy s op answer) = events := by
    funext s
    rw [silent, append_nil]
  rw [hsame]
  exact ⟨fun s => (records.keeps s).shortens (shortens s), records.numbered⟩

theorem shortens_of_subscribe {buffer buffer' : LiveReplaySessionBuffer Payload} {receiver : Nat}
    {hub hub' : b.Hub}
    (h : buffer.subscribe hub config.maxEventsPerSession = some (receiver, buffer', hub')) :
    Shortens buffer buffer' := by
  rw [LiveReplaySessionBuffer.subscribe] at h
  split at h
  · obtain ⟨_, hrest⟩ := Prod.mk.inj (some.inj h)
    obtain ⟨rfl, _⟩ := Prod.mk.inj hrest
    exact ⟨rfl, ⟨0, rfl⟩⟩
  · split at h
    · cases h
    · obtain ⟨_, hrest⟩ := Prod.mk.inj (some.inj h)
      obtain ⟨rfl, _⟩ := Prod.mk.inj hrest
      exact ⟨rfl, ⟨0, rfl⟩⟩

theorem Records.moves (records : Records world events)
    (moves : Moves config world op answer world') :
    Records world' fun s => events s ++ appendedBy s op answer := by
  cases moves with
  | quiet silent _ quiet => exact records.unappended silent fun s => (quiet.trims s).toShortens
  | appended s event buffer appends _ names holds _ sessions _ _ =>
    obtain ⟨hid, hcursor⟩ := names
    refine ⟨fun s' => ?_, fun s' n found hfound => ?_⟩
    · rw [sessions]
      by_cases hs : s' = s
      · subst hs
        rw [appends, if_pos rfl, if_pos rfl]
        exact (holds _ (records.keeps s')).publish _ _
      · rw [appends, if_neg hs, if_neg (Ne.symm hs), append_nil]
        exact records.keeps s'
    · rw [appends] at hfound
      split at hfound
      · rename_i hs
        subst hs
        rcases getElem?_concat hfound with hold | ⟨hn, hnew⟩
        · exact records.numbered s n found hold
        · subst hnew
          refine ⟨hid, ?_⟩
          rw [hcursor, (records.keeps s).tail, saturatingSucc_positionOf, hn]
      · rw [append_nil] at hfound
        exact records.numbered s' n found hfound
  | subscribed s buffer buffer' receiver replay silent _ trims receives sessions _ =>
    refine records.unappended silent fun s' => ?_
    rw [sessions]
    by_cases hs : s' = s
    · subst hs
      rw [if_pos rfl]
      exact trims.toShortens.trans (shortens_of_subscribe receives)
    · rw [if_neg hs]
      exact (Trims.refl _).toShortens
  | polled i held held' result _ silent _ _ sessions _ | dropped i held _ silent _ sessions _ _ =>
    refine records.unappended silent fun s => ?_
    rw [bufferOf, bufferOf, sessions]
    exact (Trims.refl _).toShortens

theorem run_records (documented : Documented b)
    (run : Run (replayStep config) World.new history world) :
    Wired config world ∧ Records world fun s => appendedTo s history := by
  refine run.invariant (P := fun history world =>
    Wired config world ∧ Records world fun s => appendedTo s history) ?_ ?_
  · exact ⟨wired_new, fun _ => keeps_new, by simp [appendedTo]⟩
  · rintro history world op _ ⟨wired, records⟩
    have hmoves : Moves config world op _ _ := step_moves op world
    exact ⟨wired.moves documented hmoves, records.moves hmoves⟩

end Recording

/-! ## Subscriptions over a run -/

section Serving

variable {rest : List (SessionObservationEvent Payload)}

/-- What the subscription has given and has still to give, over all later calls. -/
theorem serves_run {start : World b} (documented : Documented b) (serves : Serves start i s rest)
    (wired : Wired config start)
    (run : Run (replayStep config) start newer world) :
    ∃ read rest', Covers (itemsOf i newer) read ∧ rest ++ appendedTo s newer = read ++ rest' ∧
      (Serves world i s rest' ∨ Dropped world i) := by
  suffices h : Wired config world ∧ ∃ read rest', Covers (itemsOf i newer) read ∧
      rest ++ appendedTo s newer = read ++ rest' ∧
      (Serves world i s rest' ∨ Dropped world i) from h.2
  induction run with
  | nil => exact ⟨wired, [], rest, .nil, by simp [appendedTo], .inl serves⟩
  | @cons newer world earlier op ih =>
    obtain ⟨hwired, read, rest', hcovers, hread, hnow⟩ := ih
    have hmoves : Moves config world op _ _ := step_moves op world
    refine ⟨hwired.moves documented hmoves, ?_⟩
    rcases hnow with hserves | hdropped
    · obtain ⟨next, rest'', hnext, heq, hthen⟩ := hserves.moves documented hwired hmoves
      refine ⟨read ++ next, rest'', hcovers.append hnext, ?_, hthen⟩
      rw [appendedTo, ← append_assoc, hread, append_assoc, append_assoc]
      exact congrArg (read ++ ·) heq
    · obtain ⟨hstill, hitems⟩ := hdropped.moves hmoves
      refine ⟨read, rest' ++ appendedBy s op (replayStep config op world).1, ?_, ?_,
        .inr hstill⟩
      · rw [itemsOf]
        dsimp only [entryAt]
        rw [hitems, append_nil]
        exact hcovers
      · rw [appendedTo, ← append_assoc, hread, append_assoc]
        rfl

end Serving

/-! ## The law -/

section Law

/-- A replay from this position: no gap is told of at the tail, and what is replayed is all that
lies behind the position. -/
def Exact (events : List (SessionObservationEvent Payload)) (position : UInt64) :
    LiveReplayResult Payload → Prop
  | .gap _ => position.toNat ≠ events.length
  | .replayed replayed =>
    position.toNat ≤ events.length ∧ replayed = events.drop position.toNat

def Opens (events : List (SessionObservationEvent Payload)) (position : UInt64) :
    LiveReplaySubscribeResult → Prop
  | .gap _ => position.toNat ≠ events.length
  | .subscribed _ => position.toNat ≤ events.length

/-- What the next poll gives is the front of the rest; lost values are told of where more are
unread than the channel was asked to keep. -/
def Offers (config : InMemoryLiveReplayStoreConfig) (world : World b) (i : Nat)
    (rest : List (SessionObservationEvent Payload)) : Prop :=
  ∃ polled rest', (world.poll i).1 = some polled ∧
    Gives (channelCapacity config) polled rest rest'

/-- The positions of the session are not used up. -/
def Few (s : String) (history : ReplayHistory b) : Prop :=
  (appendedTo s history).length < maxPosition

/-- There are no silent holes after this history. -/
structure NoSilentHoles (config : InMemoryLiveReplayStoreConfig) (history : ReplayHistory b)
    (world : World b) : Prop where
  numbered : ∀ s n event, (appendedTo s history)[n]? = some event → Numbered s n event
  current : ∀ s revision,
    currentCursor s revision world = .new s revision (positionOf (appendedTo s history).length)
  replays : ∀ cursor parsed now, cursor.parse = .ok parsed → Few parsed.sessionId history →
    ∃ result, (replayAfterCursor config cursor now world).1 = .ok result ∧
      Exact (appendedTo parsed.sessionId history) parsed.livePosition result
  subscribes : ∀ cursor parsed now, cursor.parse = .ok parsed → Few parsed.sessionId history →
    ∃ result, (subscribeAfterCursor config cursor now world).1 = .answered (.ok result) ∧
      Opens (appendedTo parsed.sessionId history) parsed.livePosition result
  streams : ∀ newer e older cursor parsed now i, history = newer ++ e :: older →
    e.input = .subscribeAfterCursor cursor now →
    e.output = .subscribe (.answered (.ok (.subscribed i))) → cursor.parse = .ok parsed →
    Few parsed.sessionId history →
    ∃ read rest, Covers (itemsOf i newer) read ∧
      (appendedTo parsed.sessionId history).drop parsed.livePosition.toNat = read ++ rest ∧
      (Offers config world i rest ∨ Dropped world i)

theorem receives_of_capacity (documented : Documented b)
    (capacity : config.maxEventsPerSession ≤ maxChannelCapacity)
    (buffer : LiveReplaySessionBuffer Payload) (hub : b.Hub) :
    ∃ received, buffer.subscribe hub config.maxEventsPerSession = some received := by
  rw [LiveReplaySessionBuffer.subscribe]
  split
  · exact ⟨_, rfl⟩
  · have hone : 1 ≤ maxChannelCapacity := by decide
    cases hcreated : b.create hub (max config.maxEventsPerSession 1) with
    | none => exact absurd hcreated (documented.creates (by omega) (by omega))
    | some made => exact ⟨_, rfl⟩

/-- A buffer that keeps the events answers exactly. -/
theorem exact_of_keeps {events : List (SessionObservationEvent Payload)}
    {buffer : LiveReplaySessionBuffer Payload} {position : UInt64} (keeps : Keeps events buffer)
    (few : events.length < maxPosition) :
    Exact events position (match gapReasonForCursor (some buffer) position with
      | some reason => .gap reason
      | none => .replayed (eventsAfter buffer position)) := by
  cases hgap : gapReasonForCursor (some buffer) position with
  | none => exact keeps.eventsAfter few hgap
  | some reason =>
    intro hend
    rw [keeps.noGap few hend] at hgap
    cases hgap

section

variable (documented : Documented b)
include documented

theorem subscribe_sound (capacity : config.maxEventsPerSession ≤ maxChannelCapacity)
    (sound : world.poisoned = false) (cursor : SessionCursor) (now : Nat) :
    (subscribeAfterCursor config cursor now world).2.poisoned = false := by
  cases hparse : cursor.parse with
  | error error =>
    rw [subscribeAfterCursor, hparse]
    exact sound
  | ok parsed =>
    rw [subscribeAfterCursor_eq hparse sound now rfl]
    split
    · exact sound
    · obtain ⟨received, hreceived⟩ := receives_of_capacity documented capacity
        (trimLocked config (bufferOf world parsed.sessionId) now) world.hub
      rw [hreceived]
      exact sound

theorem step_sound (capacity : config.maxEventsPerSession ≤ maxChannelCapacity)
    (op : ReplayOp Payload) (sound : world.poisoned = false) :
    (replayStep config op world).2.poisoned = false := by
  cases op with
  | append s revision payload now =>
    simp only [replayStep, append, sound, Bool.false_eq_true, if_false]
    exact sound
  | replayAfterCursor cursor now =>
    rw [replayStep]
    dsimp only
    rw [replayAfterCursor]
    split
    · exact sound
    · rename_i parsed _
      rw [if_neg (by rw [sound]; exact Bool.false_ne_true)]
      cases world.sessions parsed.sessionId <;> dsimp only [map] <;> split <;> exact sound
  | subscribeAfterCursor cursor now => exact subscribe_sound documented capacity sound cursor now
  | currentCursor s revision => exact sound
  | trimSession s now =>
    simp only [replayStep, trimSession, sound, Bool.false_eq_true, if_false]
    split <;> exact sound
  | poll i =>
    rw [replayStep]
    dsimp only
    rw [World.poll]
    split <;> exact sound
  | dropSubscription i =>
    rw [replayStep, World.dropSubscription]
    split <;> exact sound

theorem run_sound (run : Run (replayStep config) World.new history world)
    (capacity : config.maxEventsPerSession ≤ maxChannelCapacity) : world.poisoned = false :=
  run.reachable.invariant (P := fun world => world.poisoned = false) rfl
    fun _ op sound => step_sound documented capacity op sound

theorem offers_of_serves {rest : List (SessionObservationEvent Payload)}
    (wired : Wired config world) (serves : Serves world i s rest) : Offers config world i rest := by
  obtain ⟨held, c, unread, hstands, hopen, hsender, hlistens, rfl⟩ := serves
  obtain ⟨unread', hpolls⟩ :=
    pollNext_polls documented hopen hlistens (wired.opened s c hsender)
  refine ⟨_, _, ?_, hpolls.gives⟩
  rw [World.poll, hstands]

/-- A subscription that was made serves what lies behind its cursor. -/
theorem serves_of_subscribed {cursor : SessionCursor} {parsed : ParsedSessionCursor} {now : Nat}
    (wired : Wired config world) (records : Records world fun s => appendedTo s history)
    (sound : world.poisoned = false) (few : Few parsed.sessionId history)
    (parses : cursor.parse = .ok parsed)
    (subscribed : (subscribeAfterCursor config cursor now world).1 =
      .answered (.ok (.subscribed i))) :
    parsed.livePosition.toNat ≤ (appendedTo parsed.sessionId history).length ∧
      Serves (subscribeAfterCursor config cursor now world).2 i
        parsed.sessionId
        ((appendedTo parsed.sessionId history).drop parsed.livePosition.toNat) := by
  generalize hold : trimLocked config (bufferOf world parsed.sessionId) now = trimmed
  have htrims : Trims (bufferOf world parsed.sessionId) trimmed := by
    rw [← hold]
    exact trims_trimLocked _ _
  have hkeeps := (records.keeps parsed.sessionId).shortens htrims.toShortens
  rw [subscribeAfterCursor_eq parses sound now hold] at subscribed ⊢
  cases hgap : gapReasonForCursor (some trimmed) parsed.livePosition with
  | some reason =>
    rw [hgap] at subscribed
    cases subscribed
  | none =>
    obtain ⟨hle, hevents⟩ := hkeeps.eventsAfter few hgap
    rw [hgap] at subscribed
    dsimp only at subscribed ⊢
    cases hreceived : trimmed.subscribe world.hub config.maxEventsPerSession with
    | none =>
      rw [hreceived] at subscribed
      cases subscribed
    | some received =>
      obtain ⟨receiver, buffer, hub⟩ := received
      rw [hreceived] at subscribed
      have hid : world.subscriptions.length = i := by
        injection subscribed with h
        injection h with h
        injection h
      obtain ⟨c, hsender, hreceives⟩ := wired.receives documented htrims hreceived
      refine ⟨hle, ⟨eventsAfter trimmed parsed.livePosition, receiver, false⟩, c, [], ?_, rfl,
        ?_, ?_, ?_⟩
      · dsimp only
        rw [← hid]
        simp
      · have hset := bufferOf_setSession (world.setSession parsed.sessionId trimmed)
          parsed.sessionId parsed.sessionId buffer
        rw [if_pos rfl] at hset
        exact (congrArg (·.sender) hset).trans hsender
      · exact (congrFun hreceives.unread _).trans (Function.update_self _ _ _)
      · rw [← hevents]
        simp

/-- Over all runs: replays are exact or tell of a gap, a cursor at the tail meets none, and
subscriptions stream the events of their session without an unreported hole. -/
theorem no_silent_holes (run : Run (replayStep config) World.new history world)
    (capacity : config.maxEventsPerSession ≤ maxChannelCapacity) :
    NoSilentHoles config history world := by
  obtain ⟨wired, records⟩ := run_records documented run
  have sound := run_sound documented run capacity
  refine ⟨records.numbered, ?_, ?_, ?_, ?_⟩
  · intro s revision
    rw [currentCursor, sound, if_neg Bool.false_ne_true]
    have htail := (records.keeps s).tail
    rw [bufferOf] at htail
    rw [← htail]
    cases world.sessions s <;> rfl
  · intro cursor parsed now parses few
    refine ⟨_, replayAfterCursor_spec parses sound now, ?_⟩
    exact exact_of_keeps ((records.keeps _).shortens (trims_trimLocked _ _).toShortens) few
  · intro cursor parsed now parses few
    have hkeeps := (records.keeps parsed.sessionId).shortens
      (@trims_trimLocked Payload config _ now).toShortens
    have hexact := @exact_of_keeps _ _ _ parsed.livePosition hkeeps few
    obtain ⟨received, hreceived⟩ := receives_of_capacity documented capacity
      (trimLocked config (bufferOf world parsed.sessionId) now) world.hub
    rw [subscribeAfterCursor_eq parses sound now rfl, hreceived]
    cases hgap : gapReasonForCursor
        (some (trimLocked config (bufferOf world parsed.sessionId) now)) parsed.livePosition with
    | some reason =>
      rw [hgap] at hexact
      exact ⟨.gap reason, rfl, hexact⟩
    | none =>
      rw [hgap] at hexact
      exact ⟨.subscribed world.subscriptions.length, rfl, hexact.1⟩
  · intro newer e older cursor parsed now i shape hinput houtput parses few
    obtain ⟨holder, hentry, hnewer⟩ := run.split shape
    obtain ⟨hwired, hrecords⟩ := run_records documented holder
    have hsound := run_sound documented holder capacity
    have hafter : e.after = (subscribeAfterCursor config cursor now e.before).2 := by
      rw [hentry, hinput]
      rfl
    have hanswer : (subscribeAfterCursor config cursor now e.before).1 =
        .answered (.ok (.subscribed i)) := by
      have hsame : e.output =
          .subscribe (subscribeAfterCursor config cursor now e.before).1 := by
        rw [hentry, hinput]
        rfl
      rw [houtput] at hsame
      injection hsame with h
      exact h.symm
    have hall : appendedTo parsed.sessionId history =
        appendedTo parsed.sessionId older ++ appendedTo parsed.sessionId newer := by
      rw [shape, appendedTo_append, appendedTo, hinput, houtput]
      simp [appendedBy]
    have hfew : Few parsed.sessionId older := by
      rw [Few, hall, length_append] at few
      rw [Few]
      omega
    obtain ⟨hle, hserves⟩ :=
      serves_of_subscribed documented hwired hrecords hsound hfew parses hanswer
    rw [← hafter] at hserves
    have hwiredAfter : Wired config e.after := by
      rw [hentry]
      exact hwired.moves documented (step_moves e.input e.before)
    obtain ⟨read, rest, hcovers, hread, hnow⟩ := serves_run documented hserves hwiredAfter hnewer
    refine ⟨read, rest, hcovers, ?_, hnow.imp (offers_of_serves documented wired) id⟩
    rw [hall, drop_append_of_le_length hle]
    exact hread

end

/-- A subscription from the start, with an event before it and one after it. -/
def streamedOps : List (ReplayOp Nat) :=
  [.append "s" 0 1 0, .subscribeAfterCursor (.new "s" 0 0) 0, .append "s" 0 2 1,
    .poll 0, .poll 0, .poll 0]

theorem no_silent_holes_streamed : NoSilentHoles ⟨2, 10⟩
      (perform (replayStep ⟨2, 10⟩) streamedOps ([], (World.new : World (plain _)))).1
      (perform (replayStep ⟨2, 10⟩) streamedOps ([], (World.new : World (plain _)))).2 :=
  no_silent_holes (plain_documented _) (Run.nil.perform streamedOps) (by decide)

/-! ## Where the law ends -/

/-- Two events come before the subscriber polls. -/
def laggedOps : List (ReplayOp Unit) :=
  [.subscribeAfterCursor (.new "s" 0 0) 0, .append "s" 0 () 0, .append "s" 0 () 0, .poll 0]

abbrev PlainWorld : Type := World (plain (SessionObservationEvent Unit))

def laggedHistory : ReplayHistory (plain (SessionObservationEvent Unit)) :=
  (perform (replayStep ⟨1, 10⟩) laggedOps ([], World.new)).1

/-- The items are the events themselves. -/
def Unbroken (items : List (Received (SessionObservationEvent Payload)))
    (events : List (SessionObservationEvent Payload)) : Prop :=
  ∃ read rest, items = read.map .value ∧ events = read ++ rest

/-- A store that keeps one event holds the event that was just appended. -/
theorem events_of_append (world : PlainWorld) (sound : world.poisoned = false) :
    ∃ stored, (bufferOf (replayStep ⟨1, 10⟩ (.append "s" 0 () 0) world).2 "s").events =
      [stored] := by
  let tailPosition := saturatingSucc (bufferOf world "s").tailPosition
  let stored : StoredObservationEvent Unit :=
    ⟨tailPosition, 0, ⟨"s", 0, .new "s" 0 tailPosition, ()⟩⟩
  refine ⟨stored, ?_⟩
  have hpublish : ∀ (buffer : LiveReplaySessionBuffer Unit)
      (hub : (plain (SessionObservationEvent Unit)).Hub) event,
      (publish buffer hub event).1.events = buffer.events := by
    intro buffer hub event
    rw [publish]
    split
    · rfl
    · split <;> rfl
  simp only [replayStep, append, sound, Bool.false_eq_true, if_false]
  refine (congrArg (·.events) (bufferOf_setSession world "s" "s" _)).trans ?_
  rw [if_pos rfl, hpublish, trimLocked]
  have hdrop : ((bufferOf world "s").events ++ [stored]).drop
      (((bufferOf world "s").events ++ [stored]).length - 1) = [stored] := by
    simp
  exact (congrArg (dropWhile _) hdrop).trans (by simp [stored])

/-- So many appends to such a store. -/
theorem appends_run (n : Nat) :
    ∃ history world, Run (replayStep ⟨1, 10⟩) (World.new : PlainWorld) history world ∧
      (appendedTo "s" history).length = n ∧
      (n ≠ 0 → ∃ stored, (bufferOf world "s").events = [stored]) := by
  induction n with
  | zero => exact ⟨[], World.new, .nil, rfl, by simp⟩
  | succ n ih =>
    obtain ⟨history, world, run, hlength, _⟩ := ih
    have hsound := run_sound (plain_documented _) run (by decide)
    refine ⟨_, _, run.cons (.append "s" 0 () 0), ?_, fun _ => events_of_append world hsound⟩
    rw [appendedTo, length_append, hlength]
    simp [entryAt, replayStep, append, hsound, appendedBy]

/-- Where the positions are used up, a cursor at the tail meets a gap: one more than its position
is zero. -/
theorem gap_at_last_position {history : ReplayHistory (plain (SessionObservationEvent Unit))}
    {world : PlainWorld} {stored : StoredObservationEvent Unit}
    (run : Run (replayStep ⟨1, 10⟩) World.new history world)
    (all : (appendedTo "s" history).length = maxPosition)
    (holds : (bufferOf world "s").events = [stored]) :
    currentCursor "s" 0 world = .new "s" 0 (-1) ∧
      (replayAfterCursor ⟨1, 10⟩ (.new "s" 0 (-1)) stored.appendedAt world).1 =
        .ok (.gap .trimmed) := by
  obtain ⟨_, records⟩ := run_records (plain_documented _) run
  have hsound := run_sound (plain_documented _) run (by decide)
  have htail : (bufferOf world "s").tailPosition = -1 := by
    rw [(records.keeps "s").tail, all]
    decide
  have hposition : stored.position = -1 := by
    obtain ⟨trimmed, hle, hevents, hpositions⟩ := (records.keeps "s").kept
    have hlength := congrArg length hevents
    rw [holds, length_map, length_drop, all, length_singleton] at hlength
    rw [hpositions 0 stored (by rw [holds]; rfl)]
    have hlast : trimmed + 0 + 1 = maxPosition := by omega
    rw [hlast]
    decide
  constructor
  · rw [currentCursor, hsound, if_neg Bool.false_ne_true]
    rw [bufferOf] at htail
    rw [← htail]
    cases world.sessions "s" <;> rfl
  · have hkept : (trimLocked ⟨1, 10⟩ (bufferOf world "s") stored.appendedAt).events = [stored] := by
      rw [trimLocked, holds]
      simp
    have hgap : gapReasonForCursor
        (some (trimLocked ⟨1, 10⟩ (bufferOf world "s") stored.appendedAt)) (-1) =
          some .trimmed := by
      have htail' : (trimLocked ⟨1, 10⟩ (bufferOf world "s") stored.appendedAt).tailPosition =
          -1 := htail
      simp only [gapReasonForCursor, htail', hkept, head?_cons, hposition]
      decide
    rw [replayAfterCursor_spec (parse_new (by decide) 0 (-1)) hsound]
    dsimp only
    rw [hgap]

/-- A slow subscriber is told of a lag, a session that has used up its positions meets a gap at its
tail, and for a channel beyond its largest capacity subscribing panics. -/
theorem lag_is_not_unbroken : (itemsOf 0 laggedHistory = [.lagged 1] ∧
      ¬ Unbroken (itemsOf 0 laggedHistory) (appendedTo "s" laggedHistory)) ∧
    (∃ history world now, Run (replayStep ⟨1, 10⟩) (World.new : PlainWorld) history world ∧
      (appendedTo "s" history).length = 2 ^ 64 - 1 ∧
      (replayAfterCursor ⟨1, 10⟩ (currentCursor "s" 0 world) now world).1 = .ok (.gap .trimmed)) ∧
    (subscribeAfterCursor ⟨2 ^ 63, 10⟩ (.new "s" 0 0) 0
      (World.new : PlainWorld)).1 = .panicked := by
  refine ⟨?_, ?_, ?_⟩
  · have hitems : itemsOf 0 laggedHistory = [.lagged 1] := by decide
    refine ⟨hitems, ?_⟩
    rintro ⟨read, rest, hread, _⟩
    rw [hitems] at hread
    cases read with
    | nil | cons event read => cases hread
  · obtain ⟨history, world, run, hall, hholds⟩ := appends_run maxPosition
    obtain ⟨stored, hstored⟩ := hholds (by decide)
    obtain ⟨hcurrent, hgap⟩ := gap_at_last_position run hall hstored
    refine ⟨history, world, stored.appendedAt, run, hall, ?_⟩
    rw [hcurrent]
    exact hgap
  · rw [subscribeAfterCursor_eq (parse_new (by decide) 0 0) rfl 0 rfl]
    rfl

end Law

end LiveReplayLaw
