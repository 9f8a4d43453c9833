import Lash.LiveReplayRuns

/-!
# What a subscription streams

Each session has its own channel, and each subscription its own receiver. A subscription
has still to give what is left of its replay and what its receiver has not read; every event
of its session is put behind that, and every item takes from its front.
-/

namespace LiveReplayStreams

open BroadcastChannels Runs LiveReplayStores LiveReplayRuns Option Prod Function

variable {Payload : Type} {config : InMemoryLiveReplayStoreConfig}
  {b : Broadcast (SessionObservationEvent Payload)} {world world' : World b}
  {op : ReplayOp Payload} {answer : ReplayAnswer Payload}

/-! ## Sessions and their channels -/

section Publishing

variable {buffer : LiveReplaySessionBuffer Payload} {r c : Nat} {hub : b.Hub}
  {event : SessionObservationEvent Payload} {unread : List (SessionObservationEvent Payload)}

theorem publish_sender (h : (publish buffer hub event).1.sender = some c) :
    buffer.sender = some c := by
  rw [publish] at h
  split at h
  · exact h
  · split at h
    · exact h
    · cases h

variable (documented : Documented b)
include documented

/-- An event is one more to read for the receivers on the channel of its session. -/
theorem unread_publish (opened : b.capacityOf hub c ≠ none)
    (listens : b.unread hub r = some (c, unread)) (sender : buffer.sender = some c) :
    (publish buffer hub event).1 = buffer ∧
      b.unread (publish buffer hub event).2 r = some (c, unread ++ [event]) := by
  cases hsent : b.send hub c event with
  | none => exact absurd hsent (documented.sends opened listens)
  | some hub' =>
    simp only [publish, sender, hsent]
    refine ⟨trivial, ?_⟩
    rw [(documented.sent hsent).2, listens]
    simp [push]

theorem unread_publish_other (listens : b.unread hub r = some (c, unread))
    (other : buffer.sender ≠ some c) :
    b.unread (publish buffer hub event).2 r = some (c, unread) := by
  rw [publish]
  split
  · exact listens
  · rename_i c' hsender
    have hne : c ≠ c' := fun h => other (by rw [hsender, h])
    split
    · rename_i sent
      rw [(documented.sent sent).2, listens]
      simp [push, hne]
    · rw [documented.closed.2]
      exact listens

theorem capacityOf_publish {capacity : Nat} (opened : b.capacityOf hub c = some capacity)
    (stays : buffer.sender = some c → (publish buffer hub event).1.sender = some c) :
    b.capacityOf (publish buffer hub event).2 c = some capacity := by
  rw [publish] at stays ⊢
  split
  · exact opened
  · rename_i c' hsender
    simp only [hsender] at stays
    split
    · rename_i sent
      rw [(documented.sent sent).1]
      exact opened
    · rename_i sent
      have hne : c ≠ c' := fun hsame => by
        subst hsame
        simp only [sent] at stays
        exact absurd (stays trivial) (by simp)
      rw [documented.closed.1, update_of_ne hne]
      exact opened

end Publishing

section Wiring

/-- The capacity that the channels of the store are asked for. -/
def channelCapacity (config : InMemoryLiveReplayStoreConfig) : Nat :=
  max config.maxEventsPerSession 1

/-- The subscription has still to give these events of the session. -/
def Serves (world : World b) (i : Nat) (s : String)
    (rest : List (SessionObservationEvent Payload)) : Prop :=
  ∃ held c unread, world.subscriptions[i]? = some (some held) ∧ held.closed = false ∧
    (bufferOf world s).sender = some c ∧ b.unread world.hub held.receiver = some (c, unread) ∧
    rest = held.replay ++ unread

def Dropped (world : World b) (i : Nat) : Prop := world.subscriptions[i]? = some none

/-- Sessions have channels of their own that are open, subscriptions receivers of their own on
them. -/
structure Wired (config : InMemoryLiveReplayStoreConfig) (world : World b) : Prop where
  opened : ∀ s c, (bufferOf world s).sender = some c →
    b.capacityOf world.hub c = some (channelCapacity config)
  distinct : ∀ s s' c, (bufferOf world s).sender = some c →
    (bufferOf world s').sender = some c → s = s'
  serves : ∀ i held, world.subscriptions[i]? = some (some held) → ∃ s rest, Serves world i s rest
  apart : ∀ (i j : Nat) (held held' : LiveReplaySubscription Payload),
    world.subscriptions[i]? = some (some held) → world.subscriptions[j]? = some (some held') →
    held.receiver = held'.receiver → i = j

theorem wired_new : Wired config (World.new : World b) where
  opened := by simp [bufferOf, World.new, LiveReplaySessionBuffer.new]
  distinct := by simp [bufferOf, World.new, LiveReplaySessionBuffer.new]
  serves := by simp [World.new]
  apart := by simp [World.new]

variable {buffer buffer' : LiveReplaySessionBuffer Payload} {receiver : Nat} {hub hub' : b.Hub}

/-- What making a receiver does: it is a new one on the channel of the session, which is the one
that the session had, or a new one. -/
structure Receives (config : InMemoryLiveReplayStoreConfig) (hub : b.Hub) (sender : Option Nat)
    (receiver c : Nat) (hub' : b.Hub) : Prop where
  channel : sender = some c ∨ sender = none ∧ b.capacityOf hub c = none
  fresh : b.unread hub receiver = none
  unread : b.unread hub' = update (b.unread hub) receiver (some (c, []))
  opened : b.capacityOf hub' c = some (channelCapacity config)
  others : ∀ c' ≠ c, b.capacityOf hub' c' = b.capacityOf hub c'

theorem receives_of_subscribe (documented : Documented b)
    (opened : ∀ c, buffer.sender = some c → b.capacityOf hub c = some (channelCapacity config))
    (h : buffer.subscribe hub config.maxEventsPerSession = some (receiver, buffer', hub')) :
    ∃ c, buffer'.sender = some c ∧ Receives config hub buffer.sender receiver c hub' := by
  rw [LiveReplaySessionBuffer.subscribe] at h
  split at h
  · rename_i c hsender
    cases hjoined : b.subscribe hub c
    rw [hjoined] at h
    obtain ⟨rfl, hrest⟩ := mk.inj (some.inj h)
    obtain ⟨rfl, rfl⟩ := mk.inj hrest
    have hopen := opened c hsender
    obtain ⟨hfresh, hcapacity, hunread⟩ := documented.subscribed (by simp [hopen]) hjoined
    refine ⟨c, hsender, .inl hsender, hfresh, hunread, ?_, fun c' _ => ?_⟩
    · rw [hcapacity, hopen]
    · rw [hcapacity]
  · rename_i hsender
    split at h
    · cases h
    · rename_i c r made hcreated
      obtain ⟨rfl, hrest⟩ := mk.inj (some.inj h)
      obtain ⟨rfl, rfl⟩ := mk.inj hrest
      obtain ⟨hnew, hfresh, hcapacity, hunread⟩ := documented.created hcreated
      refine ⟨c, rfl, .inr ⟨hsender, hnew⟩, hfresh, hunread, ?_, fun c' hc' => ?_⟩
      · rw [hcapacity, update_self, channelCapacity]
      · rw [hcapacity, update_of_ne hc']

/-- A receiver that listened is not the new one. -/
theorem Receives.listens {sender : Option Nat} {r c c' : Nat}
    {unread : List (SessionObservationEvent Payload)}
    (receives : Receives config hub sender receiver c hub')
    (listens : b.unread hub r = some (c', unread)) : b.unread hub' r = some (c', unread) := by
  have hne : r ≠ receiver := fun h => by
    rw [h, receives.fresh] at listens
    cases listens
  rw [receives.unread, update_of_ne hne]
  exact listens

/-- What a poll can be answered with, of which the values were still to come. -/
inductive Gives (capacity : Nat) : Polled Payload → List (SessionObservationEvent Payload) →
    List (SessionObservationEvent Payload) → Prop
  | event {event : SessionObservationEvent Payload}
      {rest : List (SessionObservationEvent Payload)} :
      Gives capacity (.ready (some (.ok event))) (event :: rest) rest
  | lagged {lost rest : List (SessionObservationEvent Payload)} (missed : lost ≠ [])
      (kept : capacity ≤ rest.length) :
      Gives capacity (.ready (some (.error (.subscriberLagged lost.length)))) (lost ++ rest) rest
  | pending : Gives capacity .pending [] []

theorem Gives.covers {capacity : Nat} {polled : Polled Payload}
    {before rest : List (SessionObservationEvent Payload)} (h : Gives capacity polled before rest) :
    ∃ read, Covers (itemOf polled) read ∧ before = read ++ rest := by
  cases h with
  | @event event _ => exact ⟨[event], .value .nil, rfl⟩
  | @lagged lost _ _ _ =>
    have hcovers : Covers [.lagged lost.length] (lost ++ []) := .lagged .nil
    rw [List.append_nil] at hcovers
    exact ⟨lost, hcovers, rfl⟩
  | pending => exact ⟨[], .nil, rfl⟩

/-- What a poll does: nobody but the receiver of the subscription has anything less to read. -/
structure Polls (capacity c : Nat) (held held' : LiveReplaySubscription Payload) (hub hub' : b.Hub)
    (polled : Polled Payload) (before after : List (SessionObservationEvent Payload)) : Prop where
  closed : held'.closed = false
  receiver : held'.receiver = held.receiver
  capacityOf : b.capacityOf hub' = b.capacityOf hub
  unread : b.unread hub' = update (b.unread hub) held.receiver (some (c, after))
  gives : Gives capacity polled (held.replay ++ before) (held'.replay ++ after)

theorem pollNext_polls {held : LiveReplaySubscription Payload} {c capacity : Nat}
    {unread : List (SessionObservationEvent Payload)} (documented : Documented b)
    (listening : held.closed = false) (listens : b.unread hub held.receiver = some (c, unread))
    (opened : b.capacityOf hub c = some capacity) :
    ∃ unread', Polls capacity c held (pollNext held hub).2.1 hub (pollNext held hub).2.2
      (pollNext held hub).1 unread unread' := by
  rw [pollNext]
  split
  · rename_i event replay hreplay
    refine ⟨unread, listening, rfl, rfl, ?_, by rw [hreplay]; exact .event⟩
    rw [← listens, update_eq_self]
  · rename_i hreplay
    rw [if_neg (by rw [listening]; exact Bool.false_ne_true)]
    obtain ⟨hcapacity, rest, hreads, hunread⟩ := documented.received listens opened
    split <;> rename_i hrecv <;> rw [hrecv] at hreads hcapacity hunread
    · cases hreads
      exact ⟨[], listening, rfl, hcapacity, hunread, by rw [hreplay]; exact .pending⟩
    · cases hreads
      exact ⟨rest, listening, rfl, hcapacity, hunread, by rw [hreplay]; exact .event⟩
    · cases hreads with
      | lagged missed kept =>
        exact ⟨rest, listening, rfl, hcapacity, hunread,
          by rw [hreplay]; exact .lagged missed kept⟩
    · cases hreads

end Wiring

/-! ## What a call makes of the subscriptions -/

section Steps

variable {s : String} {i : Nat} {rest : List (SessionObservationEvent Payload)}

/-- The subscriptions that stand after one of them is set. -/
theorem getElem?_set_some {A : Type} {items : List (Option A)} {i j : Nat} {a : A} {b : Option A}
    (h : (items.set i b)[j]? = some (some a)) :
    (i = j ∧ b = some a) ∨ (i ≠ j ∧ items[j]? = some (some a)) := by
  rw [List.getElem?_set] at h
  split at h
  · split at h
    · rename_i hsame _
      exact .inl ⟨hsame, some.inj h⟩
    · cases h
  · rename_i hne
    exact .inr ⟨hne, h⟩

theorem getElem?_concat {A : Type} {items : List A} {j : Nat} {a b : A}
    (h : (items ++ [b])[j]? = some a) :
    items[j]? = some a ∨ (j = items.length ∧ b = a) := by
  rcases Nat.lt_or_ge j items.length with hlt | hge
  · rw [List.getElem?_append_left hlt] at h
    exact .inl h
  · rw [List.getElem?_append_right hge, List.getElem?_singleton] at h
    split at h
    · exact .inr ⟨by omega, some.inj h⟩
    · cases h

theorem Dropped.moves (dropped : Dropped world i)
    (moves : Moves config world op answer world') :
    Dropped world' i ∧ itemsBy i op answer = [] := by
  have hlt : i < world.subscriptions.length := (List.getElem?_eq_some_iff.mp dropped).1
  cases moves with
  | quiet _ idle quiet => exact ⟨by rw [Dropped, quiet.subscriptions]; exact dropped, idle i⟩
  | appended _ _ _ _ idle _ _ _ _ _ subscriptions =>
    exact ⟨by rw [Dropped, subscriptions]; exact dropped, idle i⟩
  | subscribed _ _ _ _ _ _ idle _ _ _ subscriptions =>
    refine ⟨?_, idle i⟩
    rw [Dropped, subscriptions, List.getElem?_append_left hlt]
    exact dropped
  | polled j held held' result stands _ items _ _ subscriptions =>
    have hne : j ≠ i := fun h => by
      rw [h, dropped] at stands
      cases stands
    refine ⟨?_, by rw [items, if_neg hne]⟩
    rw [Dropped, subscriptions, List.getElem?_set_ne hne]
    exact dropped
  | dropped j held stands _ idle _ _ subscriptions =>
    have hne : j ≠ i := fun h => by
      rw [h, dropped] at stands
      cases stands
    refine ⟨?_, idle i⟩
    rw [Dropped, subscriptions, List.getElem?_set_ne hne]
    exact dropped

variable (documented : Documented b) (wired : Wired config world)
include documented wired

/-- What a poll of one of the subscriptions does. -/
theorem Wired.polls {held held' : LiveReplaySubscription Payload} {polled : Polled Payload}
    {hub : b.Hub} (stands : world.subscriptions[i]? = some (some held))
    (polls : pollNext held world.hub = (polled, held', hub)) :
    ∃ s c unread unread', (bufferOf world s).sender = some c ∧
      b.unread world.hub held.receiver = some (c, unread) ∧
      Polls (channelCapacity config) c held held' world.hub hub polled unread unread' := by
  obtain ⟨s, rest, _, c, unread, hstands, hopen, hsender, hlistens, _⟩ :=
    wired.serves i held stands
  obtain rfl := some.inj (some.inj (hstands.symm.trans stands))
  obtain ⟨unread', hpolls⟩ :=
    pollNext_polls documented hopen hlistens (wired.opened s c hsender)
  rw [polls] at hpolls
  exact ⟨s, c, unread, unread', hsender, hlistens, hpolls⟩

/-- What a subscribe does to the hub. -/
theorem Wired.receives {buffer buffer' : LiveReplaySessionBuffer Payload} {receiver : Nat}
    {hub : b.Hub} (trims : Trims (bufferOf world s) buffer)
    (receives : buffer.subscribe world.hub config.maxEventsPerSession =
      some (receiver, buffer', hub)) :
    ∃ c, buffer'.sender = some c ∧
      Receives config world.hub (bufferOf world s).sender receiver c hub := by
  have hopened : ∀ c, buffer.sender = some c →
      b.capacityOf world.hub c = some (channelCapacity config) := by
    intro c hsender
    rw [trims.sender] at hsender
    exact wired.opened s c hsender
  rw [← trims.sender]
  exact receives_of_subscribe documented hopened receives

variable (step : Moves config world op answer world')
include step

/-- What a call makes of a subscription: it takes the read values from the front, and an appended
event goes behind the rest. -/
theorem Serves.moves (serves : Serves world i s rest) :
    ∃ read rest', Covers (itemsBy i op answer) read ∧
      rest ++ appendedBy s op answer = read ++ rest' ∧
      (Serves world' i s rest' ∨ Dropped world' i) := by
  obtain ⟨held, c, unread, hstands, hopen, hsender, hlistens, rfl⟩ := serves
  have hlt : i < world.subscriptions.length := (List.getElem?_eq_some_iff.mp hstands).1
  cases step with
  | quiet silent idle quiet =>
    refine ⟨[], _, by rw [idle]; exact .nil, by rw [silent, List.append_nil]; rfl, .inl ?_⟩
    refine ⟨held, c, unread, ?_, hopen, ?_, ?_, rfl⟩
    · rw [quiet.subscriptions]
      exact hstands
    · rw [(quiet.trims s).sender]
      exact hsender
    · rw [quiet.hub]
      exact hlistens
  | appended s' event buffer appends idle _ _ sender sessions hub subscriptions =>
    rw [appends]
    by_cases hs : s' = s
    · subst hs
      have hpublish := @unread_publish _ _ buffer _ _ _ event _ documented
        (by rw [wired.opened s' c hsender]; simp) hlistens (by rw [sender, hsender])
      refine ⟨[], _, by rw [idle]; exact .nil, rfl, .inl ?_⟩
      refine ⟨held, c, unread ++ [event], ?_, hopen, ?_, ?_, by simp⟩
      · rw [subscriptions]
        exact hstands
      · rw [sessions, if_pos rfl, hpublish.1, sender]
        exact hsender
      · rw [hub]
        exact hpublish.2
    · have hother : buffer.sender ≠ some c := by
        intro hsame
        rw [sender] at hsame
        exact hs (wired.distinct s' s c hsame hsender)
      refine ⟨[], _, by rw [idle]; exact .nil, by rw [if_neg hs, List.append_nil]; rfl, .inl ?_⟩
      refine ⟨held, c, unread, ?_, hopen, ?_, ?_, rfl⟩
      · rw [subscriptions]
        exact hstands
      · rw [sessions, if_neg (Ne.symm hs)]
        exact hsender
      · rw [hub]
        exact unread_publish_other documented hlistens hother
  | subscribed s' buffer buffer' receiver replay silent idle trims receives sessions
      subscriptions =>
    obtain ⟨c', hsender', hreceives⟩ := wired.receives documented trims receives
    refine ⟨[], _, by rw [idle]; exact .nil, by rw [silent, List.append_nil]; rfl, .inl ?_⟩
    refine ⟨held, c, unread, ?_, hopen, ?_, hreceives.listens hlistens, rfl⟩
    · rw [subscriptions, List.getElem?_append_left hlt]
      exact hstands
    · rw [sessions]
      split
      · rename_i hs
        rw [hs] at hsender
        rcases hreceives.channel with hsame | ⟨hnone, _⟩
        · rw [hsender', ← hsame, hsender]
        · rw [hnone] at hsender
          cases hsender
      · exact hsender
  | polled j other held' result stands silent items polls sessions subscriptions =>
    have hbuffer : bufferOf world' s = bufferOf world s := by rw [bufferOf, bufferOf, sessions]
    obtain ⟨_, c', unread', after, _, hlistens', hpolls⟩ := wired.polls documented stands polls
    by_cases hj : j = i
    · subst hj
      obtain rfl := some.inj (some.inj (hstands.symm.trans stands))
      obtain ⟨rfl, rfl⟩ := mk.inj (some.inj (hlistens.symm.trans hlistens'))
      obtain ⟨read, hcovers, hread⟩ := hpolls.gives.covers
      refine ⟨read, held'.replay ++ after, ?_, ?_, .inl ?_⟩
      · rw [items, if_pos rfl]
        exact hcovers
      · rw [silent, List.append_nil]
        exact hread
      · refine ⟨held', c, after, ?_, hpolls.closed, by rw [hbuffer]; exact hsender, ?_, rfl⟩
        · rw [subscriptions, List.getElem?_set_self hlt]
        · rw [hpolls.receiver, hpolls.unread, update_self]
    · have hne : held.receiver ≠ other.receiver :=
        fun heq => hj (wired.apart j i other held stands hstands heq.symm)
      refine ⟨[], _, by rw [items, if_neg hj]; exact .nil,
        by rw [silent, List.append_nil]; rfl, .inl ?_⟩
      refine ⟨held, c, unread, ?_, hopen, by rw [hbuffer]; exact hsender, ?_, rfl⟩
      · rw [subscriptions, List.getElem?_set_ne hj]
        exact hstands
      · rw [hpolls.unread, update_of_ne hne]
        exact hlistens
  | dropped j other stands silent idle sessions hub subscriptions =>
    have hbuffer : bufferOf world' s = bufferOf world s := by rw [bufferOf, bufferOf, sessions]
    refine ⟨[], _, by rw [idle]; exact .nil, by rw [silent, List.append_nil]; rfl, ?_⟩
    by_cases hj : j = i
    · subst hj
      refine .inr ?_
      rw [Dropped, subscriptions, List.getElem?_set_self hlt]
    · have hne : held.receiver ≠ other.receiver :=
        fun heq => hj (wired.apart j i other held stands hstands heq.symm)
      refine .inl ⟨held, c, unread, ?_, hopen, by rw [hbuffer]; exact hsender, ?_, rfl⟩
      · rw [subscriptions, List.getElem?_set_ne hj]
        exact hstands
      · rw [hub, documented.dropped.2, update_of_ne hne]
        exact hlistens

/-- A subscription that stands after a call stood before it with the same receiver, or it is the
last one and its receiver is new. -/
theorem Wired.stood {held : LiveReplaySubscription Payload}
    (stands : world'.subscriptions[i]? = some (some held)) :
    (∃ old, world.subscriptions[i]? = some (some old) ∧ old.receiver = held.receiver) ∨
      (i = world.subscriptions.length ∧ b.unread world.hub held.receiver = none ∧
        ∃ s, Serves world' i s held.replay) := by
  cases step with
  | quiet _ _ quiet =>
    rw [quiet.subscriptions] at stands
    exact .inl ⟨held, stands, rfl⟩
  | appended _ _ _ _ _ _ _ _ _ _ subscriptions =>
    rw [subscriptions] at stands
    exact .inl ⟨held, stands, rfl⟩
  | subscribed s buffer buffer' receiver replay _ _ trims receives sessions subscriptions =>
    have hnow := stands
    rw [subscriptions] at stands
    rcases getElem?_concat stands with hold | ⟨rfl, hnew⟩
    · exact .inl ⟨held, hold, rfl⟩
    · obtain rfl := some.inj hnew
      obtain ⟨c, hsender, hreceives⟩ := wired.receives documented trims receives
      refine .inr ⟨rfl, hreceives.fresh, s, _, c, [], hnow, rfl, ?_, ?_, by simp⟩
      · rw [sessions, if_pos rfl, hsender]
      · rw [hreceives.unread, update_self]
  | polled j old held' _ stood _ _ polls _ subscriptions =>
    obtain ⟨_, _, _, _, _, _, hpolls⟩ := wired.polls documented stood polls
    rw [subscriptions] at stands
    rcases getElem?_set_some stands with ⟨rfl, hset⟩ | ⟨_, hold⟩
    · obtain rfl := some.inj hset
      exact .inl ⟨old, stood, hpolls.receiver.symm⟩
    · exact .inl ⟨held, hold, rfl⟩
  | dropped j _ _ _ _ _ _ subscriptions =>
    rw [subscriptions] at stands
    rcases getElem?_set_some stands with ⟨_, hset⟩ | ⟨_, hold⟩
    · cases hset
    · exact .inl ⟨held, hold, rfl⟩

/-- The sender of a session after a call stands, and no other session has it. -/
theorem Wired.senders {c : Nat} (sender : (bufferOf world' s).sender = some c) :
    b.capacityOf world'.hub c = some (channelCapacity config) ∧
      ((bufferOf world s).sender = some c ∨
        b.capacityOf world.hub c = none ∧ ∀ s' ≠ s, bufferOf world' s' = bufferOf world s') := by
  cases step with
  | quiet _ _ quiet =>
    rw [(quiet.trims s).sender] at sender
    rw [quiet.hub]
    exact ⟨wired.opened s c sender, .inl sender⟩
  | appended s' event buffer _ _ _ _ hbuffer sessions hub _ =>
    have hbefore : (bufferOf world s).sender = some c := by
      rw [sessions] at sender
      split at sender
      · rename_i hs
        rw [hs, ← hbuffer]
        exact publish_sender sender
      · exact sender
    rw [hub]
    refine ⟨capacityOf_publish documented (wired.opened s c hbefore) fun hpublished => ?_,
      .inl hbefore⟩
    have hs : s = s' := wired.distinct s s' c hbefore (by rw [← hbuffer, hpublished])
    rw [sessions, if_pos hs] at sender
    exact sender
  | subscribed s' buffer buffer' receiver _ _ _ trims receives sessions _ =>
    obtain ⟨c', hsender, hreceives⟩ := wired.receives documented trims receives
    rw [sessions] at sender
    split at sender
    · rename_i hs
      subst hs
      obtain rfl := some.inj (hsender.symm.trans sender)
      refine ⟨hreceives.opened, hreceives.channel.imp id fun hnew => ⟨hnew.2, fun s' hs => ?_⟩⟩
      rw [sessions, if_neg hs]
    · refine ⟨?_, .inl sender⟩
      by_cases hc : c = c'
      · rw [hc]
        exact hreceives.opened
      · rw [hreceives.others c hc]
        exact wired.opened s c sender
  | polled i held held' _ stands _ _ polls sessions _ =>
    obtain ⟨_, _, _, _, _, _, hpolls⟩ := wired.polls documented stands polls
    rw [bufferOf, sessions, ← bufferOf] at sender
    rw [hpolls.capacityOf]
    exact ⟨wired.opened s c sender, .inl sender⟩
  | dropped _ _ _ _ _ sessions hub _ =>
    rw [bufferOf, sessions, ← bufferOf] at sender
    rw [hub, documented.dropped.1]
    exact ⟨wired.opened s c sender, .inl sender⟩

/-- Every call keeps the channels and the receivers apart. -/
theorem Wired.moves : Wired config world' := by
  have hsenders := fun {s c} => @Wired.senders _ _ _ _ _ _ _ s documented wired step c
  have hstood := fun {i held} => @Wired.stood _ _ _ _ _ _ _ i documented wired step held
  refine ⟨fun s c sender => (hsenders sender).1, ?_, ?_, ?_⟩
  · intro s s' c sender sender'
    by_contra hs
    rcases (hsenders sender).2 with hold | ⟨hnew, hothers⟩
    · rcases (hsenders sender').2 with hold' | ⟨hnew', _⟩
      · exact hs (wired.distinct s s' c hold hold')
      · rw [wired.opened s c hold] at hnew'
        cases hnew'
    · rw [hothers s' (Ne.symm hs)] at sender'
      rw [wired.opened s' c sender'] at hnew
      cases hnew
  · intro i held stands
    rcases hstood stands with ⟨old, hold, _⟩ | ⟨_, _, s, hserves⟩
    · obtain ⟨s, rest, hserves⟩ := wired.serves i old hold
      obtain ⟨_, rest', _, _, hnow⟩ := hserves.moves documented wired step
      rcases hnow with hserves' | hdropped
      · exact ⟨s, rest', hserves'⟩
      · rw [hdropped] at stands
        cases stands
    · exact ⟨s, _, hserves⟩
  · intro i j held held' stands stands' heq
    -- the receiver of a subscription that stood has its values to read
    have hlistens : ∀ (k : Nat) (old : LiveReplaySubscription Payload),
        world.subscriptions[k]? = some (some old) → b.unread world.hub old.receiver ≠ none := by
      intro k old hold
      obtain ⟨_, _, kept, c, unread, hkept, _, _, hunread, _⟩ := wired.serves k old hold
      obtain rfl := some.inj (some.inj (hkept.symm.trans hold))
      rw [hunread]
      simp
    rcases hstood stands with ⟨old, hold, hsame⟩ | ⟨hi, hfresh, _⟩
    · rcases hstood stands' with ⟨old', hold', hsame'⟩ | ⟨_, hfresh', _⟩
      · exact wired.apart i j old old' hold hold' (by rw [hsame, hsame', heq])
      · rw [← heq, ← hsame] at hfresh'
        exact absurd hfresh' (hlistens i old hold)
    · rcases hstood stands' with ⟨old', hold', hsame'⟩ | ⟨hj, _⟩
      · rw [heq, ← hsame'] at hfresh
        exact absurd hfresh (hlistens j old' hold')
      · rw [hi, hj]

end Steps

end LiveReplayStreams
