import Lash.LiveReplayStores

/-!
# Replay has no silent holes

A buffer holds the last of the events of its session, however it was trimmed, and its tail
counts all of them. So a replay answers with all events behind the cursor or says that there
is a gap, and what a subscription gives are these events and then the later ones.
-/

namespace LiveReplayRuns

open BroadcastChannels SessionCursors LiveReplayStores List UInt64

variable {Payload : Type} {config : InMemoryLiveReplayStoreConfig}
  {b : Broadcast (SessionObservationEvent Payload)}

/-! ## What a buffer holds -/

section Buffers

variable {events : List (SessionObservationEvent Payload)} {event : SessionObservationEvent Payload}
  {buffer buffer' : LiveReplaySessionBuffer Payload} {position : UInt64}

def maxPosition : Nat := 2 ^ 64 - 1

/-- The position of the event that is this many in its session. -/
def positionOf (n : Nat) : UInt64 := UInt64.ofNat (min n maxPosition)

theorem toNat_positionOf (n : Nat) : (positionOf n).toNat = min n maxPosition := by
  rw [positionOf, toNat_ofNat']
  refine Nat.mod_eq_of_lt ?_
  rw [maxPosition]
  omega

theorem saturatingSucc_positionOf (n : Nat) :
    saturatingSucc (positionOf n) = positionOf (n + 1) := by
  have hmax : (-1 : UInt64).toNat = maxPosition := by decide
  have hone : (1 : UInt64).toNat = 1 := rfl
  refine UInt64.toNat_inj.mp ?_
  rw [saturatingSucc]
  split
  · rename_i hend
    have hat := congrArg toNat hend
    rw [toNat_positionOf, hmax] at hat
    rw [toNat_positionOf, toNat_positionOf]
    omega
  · rename_i hbelow
    have hne : min n maxPosition ≠ maxPosition := fun h => hbelow (UInt64.toNat_inj.mp (by
      rw [toNat_positionOf, hmax, h]))
    rw [UInt64.toNat_add, toNat_positionOf, toNat_positionOf, hone]
    rw [maxPosition] at *
    omega

/-- The buffer holds the last of these events and counts all of them. -/
structure Keeps (events : List (SessionObservationEvent Payload))
    (buffer : LiveReplaySessionBuffer Payload) : Prop where
  tail : buffer.tailPosition = positionOf events.length
  kept : ∃ trimmed ≤ events.length, buffer.events.map (·.event) = events.drop trimmed ∧
    ∀ j stored, buffer.events[j]? = some stored → stored.position = positionOf (trimmed + j + 1)

theorem keeps_new : Keeps [] (.new : LiveReplaySessionBuffer Payload) where
  tail := rfl
  kept := ⟨0, Nat.le_refl _, rfl, by simp [LiveReplaySessionBuffer.new]⟩

/-- The second buffer is the first one without some of its oldest events. -/
structure Shortens (buffer buffer' : LiveReplaySessionBuffer Payload) : Prop where
  tail : buffer'.tailPosition = buffer.tailPosition
  events : ∃ m, buffer'.events = buffer.events.drop m

theorem Shortens.trans {third : LiveReplaySessionBuffer Payload} (h : Shortens buffer buffer')
    (h' : Shortens buffer' third) : Shortens buffer third := by
  obtain ⟨m, hm⟩ := h.events
  obtain ⟨n, hn⟩ := h'.events
  exact ⟨by rw [h'.tail, h.tail], m + n, by rw [hn, hm, drop_drop]⟩

structure Trims (buffer buffer' : LiveReplaySessionBuffer Payload) : Prop
    extends Shortens buffer buffer' where
  sender : buffer'.sender = buffer.sender

theorem Trims.refl (buffer : LiveReplaySessionBuffer Payload) : Trims buffer buffer :=
  ⟨⟨rfl, ⟨0, rfl⟩⟩, rfl⟩

theorem trims_trimLocked (buffer : LiveReplaySessionBuffer Payload) (now : Nat) :
    Trims buffer (trimLocked config buffer now) where
  tail := rfl
  events := by
    generalize hold : buffer.events.drop (buffer.events.length - config.maxEventsPerSession) = kept
    obtain ⟨front, hfront⟩ := dropWhile_suffix
      (fun event : StoredObservationEvent Payload =>
        decide (config.maxAge < now - event.appendedAt))
      (l := kept)
    refine ⟨buffer.events.length - config.maxEventsPerSession + front.length, ?_⟩
    rw [trimLocked, hold, ← drop_drop, hold]
    nth_rewrite 2 [← hfront]
    rw [drop_left]
  sender := rfl

theorem Keeps.shortens (keeps : Keeps events buffer) (shortens : Shortens buffer buffer') :
    Keeps events buffer' := by
  obtain ⟨trimmed, hle, hevents, hpositions⟩ := keeps.kept
  obtain ⟨m, hm⟩ := shortens.events
  have hlength := congrArg length hevents
  rw [length_map, length_drop] at hlength
  refine ⟨by rw [shortens.tail, keeps.tail], trimmed + min m buffer.events.length, by omega, ?_, ?_⟩
  · rw [hm, ← drop_drop, ← hevents, ← map_drop]
    rcases Nat.le_total m buffer.events.length with hle | hge
    · rw [Nat.min_eq_left hle]
    · rw [Nat.min_eq_right hge, drop_of_length_le hge, drop_length]
  · intro j stored hstored
    rw [hm, getElem?_drop] at hstored
    have hlt := (List.getElem?_eq_some_iff.mp hstored).1
    rw [hpositions _ stored hstored, Nat.min_eq_left (by omega), Nat.add_assoc trimmed m j]

theorem Keeps.push (keeps : Keeps events buffer) (event : SessionObservationEvent Payload)
    (now : Nat) :
    Keeps (events ++ [event]) { buffer with
      tailPosition := saturatingSucc buffer.tailPosition
      events := buffer.events ++ [⟨saturatingSucc buffer.tailPosition, now, event⟩] } := by
  obtain ⟨trimmed, hle, hevents, hpositions⟩ := keeps.kept
  have hlength := congrArg length hevents
  rw [length_map, length_drop] at hlength
  have htail : saturatingSucc buffer.tailPosition = positionOf (events.length + 1) := by
    rw [keeps.tail, saturatingSucc_positionOf]
  refine ⟨by simpa using htail, trimmed, by simp; omega, ?_, fun j stored hstored => ?_⟩
  · rw [map_append, hevents, drop_append_of_le_length hle]
    rfl
  · dsimp only at hstored
    rcases Nat.lt_or_ge j buffer.events.length with hlt | hge
    · rw [getElem?_append_left hlt] at hstored
      exact hpositions j stored hstored
    · rw [getElem?_append_right hge, getElem?_singleton] at hstored
      split at hstored
      · obtain rfl := Option.some.inj hstored
        have hcount : events.length + 1 = trimmed + j + 1 := by omega
        rw [htail, hcount]
      · cases hstored

/-- A filter that drops the first elements and no others. -/
theorem filter_eq_drop {A : Type} {p : A → Bool} {items : List A} {n : Nat}
    (h : ∀ j a, items[j]? = some a → (p a = true ↔ n ≤ j)) : items.filter p = items.drop n := by
  induction items generalizing n with
  | nil => simp
  | cons a items ih =>
    have hhead := h 0 a rfl
    cases n with
    | zero =>
      rw [filter_cons_of_pos (hhead.mpr (Nat.le_refl _)), drop_zero]
      rw [ih (n := 0) fun j b hb => ?_, drop_zero]
      have hlater := h (j + 1) b hb
      simpa using hlater
    | succ n =>
      have hneg : ¬ p a = true := fun hp => absurd (hhead.mp hp) (by omega)
      rw [filter_cons_of_neg hneg, drop_succ_cons]
      refine ih fun j b hb => ?_
      have hlater := h (j + 1) b hb
      rw [hlater]
      omega

/-- Where there is no gap, the events behind the position are those that the buffer holds. -/
theorem Keeps.eventsAfter (keeps : Keeps events buffer) (few : events.length < maxPosition)
    (noGap : gapReasonForCursor (some buffer) position = none) :
    position.toNat ≤ events.length ∧ eventsAfter buffer position = events.drop position.toNat := by
  obtain ⟨trimmed, hle, hevents, hpositions⟩ := keeps.kept
  have hlength := congrArg length hevents
  rw [length_map, length_drop] at hlength
  have htail : buffer.tailPosition.toNat = events.length := by
    rw [keeps.tail, toNat_positionOf, Nat.min_eq_left few.le]
  have hmax : maxPosition = 2 ^ 64 - 1 := rfl
  rw [gapReasonForCursor] at noGap
  split at noGap
  · cases noGap
  · rename_i hahead
    have hpos : position.toNat ≤ events.length := by
      rw [← htail]
      exact UInt64.le_iff_toNat_le.mp (UInt64.not_lt.mp hahead)
    have htrimmed : trimmed ≤ position.toNat := by
      cases hhead : buffer.events.head? with
      | none =>
        rw [hhead] at noGap
        dsimp only at noGap
        split at noGap
        · cases noGap
        · rename_i hbehind
          have hge := UInt64.le_iff_toNat_le.mp (UInt64.not_lt.mp hbehind)
          omega
      | some first =>
        rw [hhead] at noGap
        dsimp only at noGap
        split at noGap
        · cases noGap
        · rename_i hbehind
          have hge := UInt64.le_iff_toNat_le.mp (UInt64.not_lt.mp hbehind)
          have hone : (1 : UInt64).toNat = 1 := rfl
          rw [head?_eq_getElem?] at hhead
          rw [hpositions 0 first hhead, toNat_positionOf, UInt64.toNat_add, hone] at hge
          have hlt := (List.getElem?_eq_some_iff.mp hhead).1
          omega
    refine ⟨hpos, ?_⟩
    have hfilter : (buffer.events.filter fun event => decide (event.position > position)) =
        buffer.events.drop (position.toNat - trimmed) := by
      refine filter_eq_drop fun j stored hstored => ?_
      have hlt := (List.getElem?_eq_some_iff.mp hstored).1
      rw [hpositions j stored hstored, decide_eq_true_eq, gt_iff_lt, lt_iff_toNat_lt,
        toNat_positionOf]
      omega
    rw [LiveReplayStores.eventsAfter, hfilter, map_drop, hevents, drop_drop]
    congr 1
    omega

/-- At the tail there is no gap. -/
theorem Keeps.noGap (keeps : Keeps events buffer) (few : events.length < maxPosition)
    (atTail : position.toNat = events.length) :
    gapReasonForCursor (some buffer) position = none := by
  obtain ⟨trimmed, hle, hevents, hpositions⟩ := keeps.kept
  have hlength := congrArg length hevents
  rw [length_map, length_drop] at hlength
  have htail : position = buffer.tailPosition := by
    refine UInt64.toNat_inj.mp ?_
    rw [keeps.tail, toNat_positionOf, Nat.min_eq_left few.le, atTail]
  have hmax : maxPosition = 2 ^ 64 - 1 := rfl
  rw [gapReasonForCursor]
  rw [if_neg (by rw [htail]; exact UInt64.lt_irrefl _)]
  cases hhead : buffer.events.head? with
  | none => rw [htail]; exact if_neg (UInt64.lt_irrefl _)
  | some first =>
    refine if_neg (UInt64.not_lt.mpr ?_)
    have hone : (1 : UInt64).toNat = 1 := rfl
    rw [head?_eq_getElem?] at hhead
    have hlt := (List.getElem?_eq_some_iff.mp hhead).1
    rw [UInt64.le_iff_toNat_le, hpositions 0 first hhead, toNat_positionOf, UInt64.toNat_add,
      hone, atTail]
    omega

end Buffers

/-! ## What a call does to the world -/

section Calls

variable {world world' : World b} {buffer : LiveReplaySessionBuffer Payload}
  {op : ReplayOp Payload} {answer : ReplayAnswer Payload} {s : String} {i : Nat}

/-- The buffer of a session, an empty one where there is none. -/
def bufferOf (world : World b) (s : String) : LiveReplaySessionBuffer Payload :=
  (world.sessions s).getD .new

theorem bufferOf_setSession (world : World b) (s s' : String)
    (buffer : LiveReplaySessionBuffer Payload) :
    bufferOf (world.setSession s buffer) s' = if s' = s then buffer else bufferOf world s' := by
  rw [bufferOf, World.setSession]
  by_cases hs : s' = s
  · subst hs
    simp
  · simp [hs, bufferOf]

/-- The event that a call appends to the session. -/
def appendedBy (s : String) (op : ReplayOp Payload) (answer : ReplayAnswer Payload) :
    List (SessionObservationEvent Payload) :=
  match op, answer with
  | .append sessionId _ _ _, .appended (.ok event) => if sessionId = s then [event] else []
  | _, _ => []

/-- What an item of a subscription says; `closed` also where the stream has ended. -/
def itemOf : Polled Payload → List (Received (SessionObservationEvent Payload))
  | .ready (some (.ok event)) => [.value event]
  | .ready (some (.error (.subscriberLagged count))) => [.lagged count]
  | .ready _ => [.closed]
  | .pending => []

/-- The item that a call takes from the subscription. -/
def itemsBy (i : Nat) (op : ReplayOp Payload) (answer : ReplayAnswer Payload) :
    List (Received (SessionObservationEvent Payload)) :=
  match op, answer with
  | .poll j, .polled (some polled) => if j = i then itemOf polled else []
  | _, _ => []

/-- Buffers are trimmed at most; nothing else happens. -/
structure Quiet (world world' : World b) : Prop where
  trims : ∀ s, Trims (bufferOf world s) (bufferOf world' s)
  hub : world'.hub = world.hub
  subscriptions : world'.subscriptions = world.subscriptions

theorem Quiet.refl (world : World b) : Quiet world world := ⟨fun _ => .refl _, rfl, rfl⟩

theorem quiet_setSession (world : World b) (s : String) (now : Nat) :
    Quiet world (world.setSession s (trimLocked config (bufferOf world s) now)) where
  trims s' := by
    rw [bufferOf_setSession]
    split
    · rename_i hs
      rw [hs]
      exact trims_trimLocked _ _
    · exact .refl _
  hub := rfl
  subscriptions := rfl

/-- What a call can do to the world. -/
inductive Moves (config : InMemoryLiveReplayStoreConfig) (world : World b)
    (op : ReplayOp Payload) (answer : ReplayAnswer Payload) (world' : World b) : Prop
  | quiet (silent : ∀ s, appendedBy s op answer = []) (idle : ∀ i, itemsBy i op answer = [])
      (quiet : Quiet world world')
  | appended (s : String) (event : SessionObservationEvent Payload)
      (buffer : LiveReplaySessionBuffer Payload)
      (appends : ∀ s', appendedBy s' op answer = if s = s' then [event] else [])
      (idle : ∀ i, itemsBy i op answer = [])
      (names : event.sessionId = s ∧ event.cursor =
        .new s event.revision (saturatingSucc (bufferOf world s).tailPosition))
      (holds : ∀ events, Keeps events (bufferOf world s) → Keeps (events ++ [event]) buffer)
      (sender : buffer.sender = (bufferOf world s).sender)
      (sessions : ∀ s', bufferOf world' s' =
        if s' = s then (publish buffer world.hub event).1 else bufferOf world s')
      (hub : world'.hub = (publish buffer world.hub event).2)
      (subscriptions : world'.subscriptions = world.subscriptions)
  | subscribed (s : String) (buffer buffer' : LiveReplaySessionBuffer Payload) (receiver : Nat)
      (replay : List (SessionObservationEvent Payload))
      (silent : ∀ s, appendedBy s op answer = []) (idle : ∀ i, itemsBy i op answer = [])
      (trims : Trims (bufferOf world s) buffer)
      (receives : buffer.subscribe world.hub config.maxEventsPerSession =
        some (receiver, buffer', world'.hub))
      (sessions : ∀ s', bufferOf world' s' = if s' = s then buffer' else bufferOf world s')
      (subscriptions : world'.subscriptions =
        world.subscriptions ++ [some ⟨replay, receiver, false⟩])
  | polled (i : Nat) (held held' : LiveReplaySubscription Payload) (result : Polled Payload)
      (stands : world.subscriptions[i]? = some (some held))
      (silent : ∀ s, appendedBy s op answer = [])
      (items : ∀ j, itemsBy j op answer = if i = j then itemOf result else [])
      (polls : pollNext held world.hub = (result, held', world'.hub))
      (sessions : world'.sessions = world.sessions)
      (subscriptions : world'.subscriptions = world.subscriptions.set i (some held'))
  | dropped (i : Nat) (held : LiveReplaySubscription Payload)
      (stands : world.subscriptions[i]? = some (some held))
      (silent : ∀ s, appendedBy s op answer = []) (idle : ∀ i, itemsBy i op answer = [])
      (sessions : world'.sessions = world.sessions)
      (hub : world'.hub = b.dropReceiver world.hub held.receiver)
      (subscriptions : world'.subscriptions = world.subscriptions.set i none)

theorem Keeps.publish {events : List (SessionObservationEvent Payload)}
    (keeps : Keeps events buffer) (hub : b.Hub) (event : SessionObservationEvent Payload) :
    Keeps events (publish buffer hub event).1 := by
  rw [LiveReplayStores.publish]
  split
  · exact keeps
  · split
    · exact keeps
    · exact ⟨keeps.tail, keeps.kept⟩

theorem append_moves (s : String) (revision : SessionRevision) (payload : Payload) (now : Nat)
    (world : World b) :
    Moves config world (.append s revision payload now)
      (replayStep config (.append s revision payload now) world).1
      (replayStep config (.append s revision payload now) world).2 := by
  cases hpoisoned : world.poisoned with
  | true =>
    have hstep : replayStep config (.append s revision payload now) world =
        (.appended (.error poisonedError), world) := by
      simp only [replayStep, append, hpoisoned, if_true]
    rw [hstep]
    exact .quiet (fun _ => rfl) (fun _ => rfl) (.refl _)
  | false =>
    let tailPosition := saturatingSucc (bufferOf world s).tailPosition
    let event : SessionObservationEvent Payload :=
      ⟨s, revision, .new s revision tailPosition, payload⟩
    let pushed : LiveReplaySessionBuffer Payload := { bufferOf world s with
      tailPosition := tailPosition
      events := (bufferOf world s).events ++ [⟨tailPosition, now, event⟩] }
    let buffer := trimLocked config pushed now
    have hstep : replayStep config (.append s revision payload now) world =
        (.appended (.ok event), { world.setSession s (publish buffer world.hub event).1 with
            hub := (publish buffer world.hub event).2 }) := by
      simp only [replayStep, append, hpoisoned, Bool.false_eq_true, if_false]
      rfl
    rw [hstep]
    refine .appended s event buffer (fun _ => rfl) (fun _ => rfl) ⟨rfl, rfl⟩ ?_ rfl ?_ rfl rfl
    · intro events keeps
      exact (keeps.push event now).shortens (trims_trimLocked _ _).toShortens
    · intro s'
      exact bufferOf_setSession world s s' _

theorem gapReasonForCursor_map (world : World b) (s : String) (now : Nat)
    (position : UInt64) :
    gapReasonForCursor ((world.sessions s).map (trimLocked config · now)) position =
      gapReasonForCursor (some (trimLocked config (bufferOf world s) now)) position := by
  rw [bufferOf]
  cases world.sessions s with
  | some buffer => rfl
  | none =>
    have hnot : ¬ position < 0 := UInt64.not_lt_zero
    simp [gapReasonForCursor, trimLocked, LiveReplaySessionBuffer.new, hnot]

variable {parsed : ParsedSessionCursor} {cursor : SessionCursor}

/-- The answer of a replay, and the buffer of the session. -/
theorem replayAfterCursor_spec (parses : cursor.parse = .ok parsed) (sound : world.poisoned = false)
    (now : Nat) :
    (replayAfterCursor config cursor now world).1 =
      .ok (match gapReasonForCursor (some (trimLocked config (bufferOf world parsed.sessionId) now))
        parsed.livePosition with
      | some reason => .gap reason
      | none => .replayed (eventsAfter
        (trimLocked config (bufferOf world parsed.sessionId) now) parsed.livePosition)) := by
  have hevents : (((world.sessions parsed.sessionId).map (trimLocked config · now)).map
      (eventsAfter · parsed.livePosition)).getD [] =
      eventsAfter (trimLocked config (bufferOf world parsed.sessionId) now)
        parsed.livePosition := by
    rw [bufferOf]
    cases world.sessions parsed.sessionId with
    | some buffer => rfl
    | none => simp [trimLocked, eventsAfter, LiveReplaySessionBuffer.new]
  cases hgap : gapReasonForCursor (some (trimLocked config (bufferOf world parsed.sessionId) now))
      parsed.livePosition with
  | some reason =>
    simp only [replayAfterCursor, parses, sound, Bool.false_eq_true, if_false,
      gapReasonForCursor_map, hgap]
  | none =>
    simp only [replayAfterCursor, parses, sound, Bool.false_eq_true, if_false,
      gapReasonForCursor_map, hgap, hevents]

theorem replayAfterCursor_quiet (cursor : SessionCursor) (now : Nat) (world : World b) :
    Quiet world (replayAfterCursor config cursor now world).2 := by
  rw [replayAfterCursor]
  split
  · exact .refl _
  · rename_i parsed _
    split
    · exact .refl _
    · cases hsession : world.sessions parsed.sessionId with
      | none =>
        dsimp only [Option.map_none]
        split <;> exact .refl _
      | some buffer =>
        have hbuffer : bufferOf world parsed.sessionId = buffer := by
          rw [bufferOf, hsession, Option.getD_some]
        have hset := @quiet_setSession _ config _ world parsed.sessionId now
        rw [hbuffer] at hset
        dsimp only [Option.map_some]
        split <;> exact hset

/-- A subscribe in the terms of the buffer of the session. -/
theorem subscribeAfterCursor_eq (parses : cursor.parse = .ok parsed)
    (sound : world.poisoned = false) (now : Nat) {trimmed : LiveReplaySessionBuffer Payload}
    (hold : trimLocked config (bufferOf world parsed.sessionId) now = trimmed) :
    subscribeAfterCursor config cursor now world =
      match gapReasonForCursor (some trimmed) parsed.livePosition with
      | some reason => (.answered (.ok (.gap reason)), world.setSession parsed.sessionId trimmed)
      | none =>
        match trimmed.subscribe world.hub config.maxEventsPerSession with
        | none => (.panicked, { world.setSession parsed.sessionId trimmed with poisoned := true })
        | some (receiver, subscribed, hub) =>
          (.answered (.ok (.subscribed world.subscriptions.length)),
            { (world.setSession parsed.sessionId trimmed).setSession parsed.sessionId
                subscribed with
              hub := hub
              subscriptions := world.subscriptions ++
                [some ⟨eventsAfter trimmed parsed.livePosition, receiver, false⟩] }) := by
  have hbuffer : (world.sessions parsed.sessionId).getD .new =
      bufferOf world parsed.sessionId := rfl
  simp only [subscribeAfterCursor, parses, sound, Bool.false_eq_true, if_false, hbuffer, hold]
  rfl

theorem subscribe_moves (cursor : SessionCursor) (now : Nat) (world : World b) :
    Moves config world (.subscribeAfterCursor cursor now)
      (replayStep config (.subscribeAfterCursor cursor now) world).1
      (replayStep config (.subscribeAfterCursor cursor now) world).2 := by
  have hquiet : ∀ answer world', Quiet world world' →
      Moves config world (.subscribeAfterCursor cursor now) answer world' :=
    fun answer world' h => .quiet (fun _ => rfl) (fun _ => rfl) h
  rw [replayStep]
  dsimp only
  cases hparse : cursor.parse with
  | error error =>
    refine hquiet _ _ ?_
    rw [subscribeAfterCursor, hparse]
    exact .refl _
  | ok parsed =>
    cases hsound : world.poisoned with
    | true =>
      refine hquiet _ _ ?_
      simp only [subscribeAfterCursor, hparse, hsound, if_true]
      exact .refl _
    | false =>
      have hset := @quiet_setSession _ config _ world parsed.sessionId now
      generalize hold : trimLocked config (bufferOf world parsed.sessionId) now = trimmed at hset
      have htrims : Trims (bufferOf world parsed.sessionId) trimmed := by
        rw [← hold]
        exact trims_trimLocked _ _
      rw [subscribeAfterCursor_eq hparse hsound now hold]
      split
      · exact hquiet _ _ hset
      · split
        · exact hquiet _ _ ⟨hset.trims, rfl, rfl⟩
        · rename_i receiver subscribed hub hreceives
          refine .subscribed parsed.sessionId trimmed subscribed receiver
            (eventsAfter trimmed parsed.livePosition) (fun _ => rfl) (fun _ => rfl) htrims
            hreceives (fun s' => ?_) rfl
          have houter := bufferOf_setSession (world.setSession parsed.sessionId trimmed)
            parsed.sessionId s' subscribed
          rw [bufferOf_setSession world] at houter
          refine Eq.trans houter ?_
          by_cases hs : s' = parsed.sessionId
          · rw [if_pos hs, if_pos hs]
          · rw [if_neg hs, if_neg hs, if_neg hs]

theorem poll_moves (i : Nat) (world : World b) :
    Moves config world (.poll i) (replayStep config (.poll i) world).1
      (replayStep config (.poll i) world).2 := by
  rw [replayStep]
  dsimp only
  rw [World.poll]
  split
  · rename_i held hstands
    exact .polled i held _ _ hstands (fun _ => rfl) (fun _ => rfl) rfl rfl rfl
  · exact .quiet (fun _ => rfl) (fun _ => rfl) (.refl _)

theorem drop_moves (i : Nat) (world : World b) :
    Moves config world (.dropSubscription i)
      (replayStep config (.dropSubscription i) world).1
      (replayStep config (.dropSubscription i) world).2 := by
  rw [replayStep, World.dropSubscription]
  split
  · rename_i held hstands
    exact .dropped i held hstands (fun _ => rfl) (fun _ => rfl) rfl rfl rfl
  · exact .quiet (fun _ => rfl) (fun _ => rfl) (.refl _)

theorem step_moves (op : ReplayOp Payload) (world : World b) :
    Moves config world op (replayStep config op world).1
      (replayStep config op world).2 := by
  cases op with
  | append s revision payload now => exact append_moves s revision payload now world
  | replayAfterCursor cursor now =>
    exact .quiet (fun _ => rfl) (fun _ => rfl) (replayAfterCursor_quiet cursor now world)
  | subscribeAfterCursor cursor now => exact subscribe_moves cursor now world
  | currentCursor s revision => exact .quiet (fun _ => rfl) (fun _ => rfl) (.refl _)
  | trimSession s now =>
    refine .quiet (fun _ => rfl) (fun _ => rfl) ?_
    rw [replayStep]
    dsimp only
    rw [trimSession]
    split
    · exact .refl _
    · split
      · rename_i buffer hsession
        have hbuffer : bufferOf world s = buffer := by rw [bufferOf, hsession, Option.getD_some]
        have hset := @quiet_setSession _ config _ world s now
        rwa [hbuffer] at hset
      · exact .refl _
  | poll i => exact poll_moves i world
  | dropSubscription i => exact drop_moves i world

end Calls

end LiveReplayRuns
