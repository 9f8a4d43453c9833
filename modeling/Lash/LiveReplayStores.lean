import Lash.BroadcastChannels
import Lash.SessionCursors
import Lash.Runs

/-!
# The in-memory live replay store

A buffer per session keeps the last events by number and by age, and a broadcast channel
carries the events that come after a subscription. The tail position counts the events of
the session and does not depend on what the buffer still holds.
-/

namespace LiveReplayStores

open BroadcastChannels SessionCursors

section Values

variable (Payload : Type)

structure SessionObservationEvent where
  sessionId : String
  revision : SessionRevision
  cursor : SessionCursor
  payload : Payload
  deriving DecidableEq

structure StoredObservationEvent where
  position : UInt64
  appendedAt : Nat
  event : SessionObservationEvent Payload

/-- The sender is a channel of the hub. -/
structure LiveReplaySessionBuffer where
  events : List (StoredObservationEvent Payload)
  tailPosition : UInt64
  sender : Option Nat

inductive LiveReplayGapReason where
  | trimmed
  | unavailable
  deriving DecidableEq

inductive LiveReplayStoreError where
  | cursor (error : SessionCursorError)
  | store (message : String)
  | subscriberLagged (count : Nat)
  | closed
  deriving DecidableEq

inductive LiveReplayResult where
  | replayed (events : List (SessionObservationEvent Payload))
  | gap (reason : LiveReplayGapReason)

/-- The receiver is one of the hub. -/
structure LiveReplaySubscription where
  replay : List (SessionObservationEvent Payload)
  receiver : Nat
  closed : Bool

/-- A subscription that was made is one of the world. -/
inductive LiveReplaySubscribeResult where
  | subscribed (subscription : Nat)
  | gap (reason : LiveReplayGapReason)
  deriving DecidableEq

/-- Instants and durations in nanoseconds. -/
structure InMemoryLiveReplayStoreConfig where
  maxEventsPerSession : Nat
  maxAge : Nat

end Values

variable {Payload : Type}

/-- The store, the channels and the subscriptions that hosts hold; a dropped one is `none`. -/
structure World (b : Broadcast (SessionObservationEvent Payload)) where
  poisoned : Bool
  sessions : String → Option (LiveReplaySessionBuffer Payload)
  hub : b.Hub
  subscriptions : List (Option (LiveReplaySubscription Payload))

variable {b : Broadcast (SessionObservationEvent Payload)}

def World.new : World b where
  poisoned := false
  sessions := fun _ => none
  hub := b.new
  subscriptions := []

def LiveReplaySessionBuffer.new : LiveReplaySessionBuffer Payload where
  events := []
  tailPosition := 0
  sender := none

section Store

variable (config : InMemoryLiveReplayStoreConfig)

/-- First the events beyond the number, then the front as far as it is too old. -/
def trimLocked (buffer : LiveReplaySessionBuffer Payload) (now : Nat) :
    LiveReplaySessionBuffer Payload :=
  { buffer with
    events :=
      (buffer.events.drop (buffer.events.length - config.maxEventsPerSession)).dropWhile
        fun event => decide (config.maxAge < now - event.appendedAt) }

/-- The sum of the comparison is the wrapping one. -/
def gapReasonForCursor (buffer : Option (LiveReplaySessionBuffer Payload))
    (cursorPosition : UInt64) : Option LiveReplayGapReason :=
  match buffer with
  | none => if cursorPosition > 0 then some .unavailable else none
  | some buffer =>
    if cursorPosition > buffer.tailPosition then some .unavailable
    else
      match buffer.events.head? with
      | none => if cursorPosition < buffer.tailPosition then some .trimmed else none
      | some first => if cursorPosition + 1 < first.position then some .trimmed else none

def saturatingSucc (position : UInt64) : UInt64 :=
  if position = -1 then position else position + 1

def poisonedError : LiveReplayStoreError := .store "live replay mutex poisoned"

variable (world : World b)

def World.setSession (sessionId : String) (buffer : LiveReplaySessionBuffer Payload) :
    World b :=
  { world with sessions := Function.update world.sessions sessionId (some buffer) }

/-- The buffer and the hub after an event is sent; a channel nobody listens to is given up. -/
def publish (buffer : LiveReplaySessionBuffer Payload)
    (hub : b.Hub) (event : SessionObservationEvent Payload) :
    LiveReplaySessionBuffer Payload × b.Hub :=
  match buffer.sender with
  | none => (buffer, hub)
  | some sender =>
    match b.send hub sender event with
    | some hub => (buffer, hub)
    | none => ({ buffer with sender := none }, b.close hub sender)

variable (sessionId : String)

variable (revision : SessionRevision)

def append (payload : Payload) (now : Nat) (world : World b) :
    Except LiveReplayStoreError (SessionObservationEvent Payload) × World b :=
  if world.poisoned then (.error poisonedError, world)
  else
    let buffer := (world.sessions sessionId).getD .new
    let tailPosition := saturatingSucc buffer.tailPosition
    let event : SessionObservationEvent Payload :=
      { sessionId := sessionId
        revision := revision
        cursor := .new sessionId revision tailPosition
        payload := payload }
    let buffer := trimLocked config
      { buffer with
        tailPosition := tailPosition
        events := buffer.events ++ [⟨tailPosition, now, event⟩] } now
    let (buffer, hub) := publish buffer world.hub event
    (.ok event, { world.setSession sessionId buffer with hub := hub })

/-- The events behind a position that the buffer holds. -/
def eventsAfter (buffer : LiveReplaySessionBuffer Payload) (position : UInt64) :
    List (SessionObservationEvent Payload) :=
  (buffer.events.filter fun event => decide (event.position > position)).map (·.event)

def replayAfterCursor (cursor : SessionCursor) (now : Nat) (world : World b) :
    Except LiveReplayStoreError (LiveReplayResult Payload) × World b :=
  match cursor.parse with
  | .error error => (.error (.cursor error), world)
  | .ok parsed =>
    if world.poisoned then (.error poisonedError, world)
    else
      let buffer := (world.sessions parsed.sessionId).map (trimLocked config · now)
      let world := match buffer with
        | some buffer => world.setSession parsed.sessionId buffer
        | none => world
      match gapReasonForCursor buffer parsed.livePosition with
      | some reason => (.ok (.gap reason), world)
      | none =>
        (.ok (.replayed ((buffer.map (eventsAfter · parsed.livePosition)).getD [])), world)

/-- A receiver on the channel of the session; `none` where making the channel panics. -/
def LiveReplaySessionBuffer.subscribe (buffer : LiveReplaySessionBuffer Payload) (hub : b.Hub)
    (channelCapacity : Nat) : Option (Nat × LiveReplaySessionBuffer Payload × b.Hub) :=
  match buffer.sender with
  | some sender =>
    let (receiver, hub) := b.subscribe hub sender
    some (receiver, buffer, hub)
  | none =>
    match b.create hub (max channelCapacity 1) with
    | none => none
    | some (sender, receiver, hub) => some (receiver, { buffer with sender := some sender }, hub)

inductive Subscribing where
  | answered (result : Except LiveReplayStoreError LiveReplaySubscribeResult)
  | panicked

/-- A panic leaves the mutex poisoned. -/
def subscribeAfterCursor (cursor : SessionCursor) (now : Nat) (world : World b) :
    Subscribing × World b :=
  match cursor.parse with
  | .error error => (.answered (.error (.cursor error)), world)
  | .ok parsed =>
    if world.poisoned then (.answered (.error poisonedError), world)
    else
      let buffer := trimLocked config ((world.sessions parsed.sessionId).getD .new) now
      let world := world.setSession parsed.sessionId buffer
      match gapReasonForCursor (some buffer) parsed.livePosition with
      | some reason => (.answered (.ok (.gap reason)), world)
      | none =>
        match buffer.subscribe world.hub config.maxEventsPerSession with
        | none => (.panicked, { world with poisoned := true })
        | some (receiver, subscribed, hub) =>
          (.answered (.ok (.subscribed world.subscriptions.length)),
            { world.setSession parsed.sessionId subscribed with
              hub := hub
              subscriptions := world.subscriptions ++
                [some ⟨eventsAfter buffer parsed.livePosition, receiver, false⟩] })

def currentCursor (world : World b) : SessionCursor :=
  let tailPosition :=
    if world.poisoned then 0
    else ((world.sessions sessionId).map (·.tailPosition)).getD 0
  .new sessionId revision tailPosition

def trimSession (now : Nat) (world : World b) :
    Except LiveReplayStoreError Unit × World b :=
  if world.poisoned then (.error poisonedError, world)
  else
    match world.sessions sessionId with
    | some buffer => (.ok (), world.setSession sessionId (trimLocked config buffer now))
    | none => (.ok (), world)

/-! ## Subscriptions -/

/-- What polling a subscription as a stream gives. -/
inductive Polled (Payload : Type) where
  | ready (item : Option (Except LiveReplayStoreError (SessionObservationEvent Payload)))
  | pending

def pollNext (subscription : LiveReplaySubscription Payload) (hub : b.Hub) :
    Polled Payload × LiveReplaySubscription Payload × b.Hub :=
  match subscription.replay with
  | event :: replay => (.ready (some (.ok event)), { subscription with replay := replay }, hub)
  | [] =>
    if subscription.closed then (.ready none, subscription, hub)
    else
      match b.recv hub subscription.receiver with
      | (.empty, hub) => (.pending, subscription, hub)
      | (.value event, hub) => (.ready (some (.ok event)), subscription, hub)
      | (.lagged count, hub) =>
        (.ready (some (.error (.subscriberLagged count))), subscription, hub)
      | (.closed, hub) =>
        (.ready (some (.error .closed)), { subscription with closed := true }, hub)

/-- Polling one of the subscriptions; `none` where it is dropped. -/
def World.poll (subscription : Nat) : Option (Polled Payload) × World b :=
  match world.subscriptions[subscription]? with
  | some (some held) =>
    let (polled, held, hub) := pollNext held world.hub
    (some polled, { world with
      hub := hub
      subscriptions := world.subscriptions.set subscription (some held) })
  | _ => (none, world)

/-- A dropped subscription drops its receiver. -/
def World.dropSubscription (subscription : Nat) : World b :=
  match world.subscriptions[subscription]? with
  | some (some held) =>
    { world with
      hub := b.dropReceiver world.hub held.receiver
      subscriptions := world.subscriptions.set subscription none }
  | _ => world

inductive ReplayOp (Payload : Type) where
  | append (sessionId : String) (revision : SessionRevision) (payload : Payload) (now : Nat)
  | replayAfterCursor (cursor : SessionCursor) (now : Nat)
  | subscribeAfterCursor (cursor : SessionCursor) (now : Nat)
  | currentCursor (sessionId : String) (revision : SessionRevision)
  | trimSession (sessionId : String) (now : Nat)
  | poll (subscription : Nat)
  | dropSubscription (subscription : Nat)

inductive ReplayAnswer (Payload : Type) where
  | appended (result : Except LiveReplayStoreError (SessionObservationEvent Payload))
  | replay (result : Except LiveReplayStoreError (LiveReplayResult Payload))
  | subscribe (result : Subscribing)
  | cursor (cursor : SessionCursor)
  | trimmed (result : Except LiveReplayStoreError Unit)
  | polled (result : Option (Polled Payload))
  | dropped

/-- The mutex makes each call one step; polls come between the calls in any order. -/
def replayStep (op : ReplayOp Payload) (world : World b) :
    ReplayAnswer Payload × World b :=
  match op with
  | .append sessionId revision payload now =>
    let (result, world) := append config sessionId revision payload now world
    (.appended result, world)
  | .replayAfterCursor cursor now =>
    let (result, world) := replayAfterCursor config cursor now world
    (.replay result, world)
  | .subscribeAfterCursor cursor now =>
    let (result, world) := subscribeAfterCursor config cursor now world
    (.subscribe result, world)
  | .currentCursor sessionId revision => (.cursor (currentCursor sessionId revision world), world)
  | .trimSession sessionId now =>
    let (result, world) := trimSession config sessionId now world
    (.trimmed result, world)
  | .poll subscription =>
    let (result, world) := world.poll subscription
    (.polled result, world)
  | .dropSubscription subscription => (.dropped, world.dropSubscription subscription)

end Store

end LiveReplayStores
