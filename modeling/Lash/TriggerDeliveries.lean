import Lash.ProcessRecords
import Lash.Runs
import Lash.ScriptNumbers
import Lash.Tickets

/-!
# Delivery of trigger occurrences

An emit records its occurrence, reserves a delivery for every matching subscription that
has none yet, and then starts the processes of its own reservations one after another.
Recording and reserving are one transaction each. An emit may stop for good anywhere, and
others may emit the same occurrence or change subscriptions at any time.
-/

namespace TriggerDeliveries

open StoreTypes ProcessRecords ScriptNumbers Runs List Option Prod

/-- The in-memory store and the one over SQLite differ in the order of their rows and in what
is left of a reservation that fails. -/
inductive Backend where
  | inMemory
  | sqlite
deriving DecidableEq

structure TriggerOccurrenceRequest (Json : Type) where
  sourceType : String
  sourceKey : String
  payload : Json
  idempotencyKey : String
  source : Option Json

structure TriggerOccurrenceRecord (Json : Type) where
  occurrenceId : String
  sourceType : String
  sourceKey : String
  payload : Json
  idempotencyKey : String
  source : Option Json
  occurredAtMs : Nat

/-- The target of a subscription, its inputs and the schema of its payload are its details. -/
structure TriggerSubscriptionDraft (Details : Type) where
  registrantScopeId : String
  registrantSessionId : Option String
  sourceType : String
  sourceKey : String
  details : Details

structure TriggerSubscriptionRecord (Details : Type) where
  subscriptionId : String
  registrantScopeId : String
  registrantSessionId : Option String
  handle : String
  sourceType : String
  sourceKey : String
  details : Details
  enabled : Bool

/-- What is computed from the data of subscriptions and occurrences: stable hashes, the checks
of a draft, and those of a payload before a process is started. -/
structure TriggerRules (Json Details : Type) where
  validateDraft : TriggerSubscriptionDraft Details → Except PluginError Unit
  requestHash : TriggerOccurrenceRequest Json → Except PluginError String
  occurrenceId : TriggerOccurrenceRequest Json → Except PluginError String
  processId : (occurrenceId subscriptionId : String) → Except PluginError String
  prepareStart : TriggerSubscriptionRecord Details → TriggerOccurrenceRecord Json →
    Except PluginError Unit

structure TriggerDeliveryReservation (Json Details : Type) where
  occurrence : TriggerOccurrenceRecord Json
  subscription : TriggerSubscriptionRecord Details
  processId : String

variable {Json Details : Type}

structure TriggerStore (Json Details : Type) where
  nextSubscriptionSeq : Nat
  subscriptions : List (TriggerSubscriptionRecord Details)
  occurrences : String → Option (TriggerOccurrenceRecord Json)
  occurrenceIdByIdempotencyKey : String → Option String
  occurrenceHashes : String → Option String
  deliveries : List (String × String)

abbrev Outcome (Json Details α : Type) := Except PluginError α × TriggerStore Json Details

def validateTriggerOccurrenceRequest (request : TriggerOccurrenceRequest Json) :
    Except PluginError Unit :=
  if (trimText request.sourceType).isEmpty then
    .error (.session "trigger occurrence requires source_type")
  else if (trimText request.sourceKey).isEmpty then
    .error (.session "trigger occurrence requires source_key")
  else if (trimText request.idempotencyKey).isEmpty then
    .error (.session "trigger occurrence requires idempotency_key")
  else .ok ()

namespace TriggerSubscriptionRecord

def before (backend : Backend) (left right : TriggerSubscriptionRecord Details) : Bool :=
  match backend with
  | .inMemory => decide (left.subscriptionId ≤ right.subscriptionId)
  | .sqlite => decide (left.registrantScopeId < right.registrantScopeId) ||
      left.registrantScopeId == right.registrantScopeId && decide (left.handle ≤ right.handle)

def matchesOccurrence (subscription : TriggerSubscriptionRecord Details)
    (occurrence : TriggerOccurrenceRecord Json) : Bool :=
  subscription.enabled && subscription.sourceType == occurrence.sourceType &&
    subscription.sourceKey == occurrence.sourceKey

end TriggerSubscriptionRecord

namespace TriggerStore

def new : TriggerStore Json Details :=
  ⟨0, [], fun _ => none, fun _ => none, fun _ => none, []⟩

def registerSubscription (rules : TriggerRules Json Details)
    (draft : TriggerSubscriptionDraft Details) (store : TriggerStore Json Details) :
    Outcome Json Details (TriggerSubscriptionRecord Details) :=
  match rules.validateDraft draft with
  | .error error => (.error error, store)
  | .ok () =>
    let seq := saturatingAdd store.nextSubscriptionSeq 1
    let record : TriggerSubscriptionRecord Details :=
      { subscriptionId := s!"subscription:{seq}"
        registrantScopeId := draft.registrantScopeId
        registrantSessionId := draft.registrantSessionId
        handle := s!"trigger:{seq}"
        sourceType := draft.sourceType
        sourceKey := draft.sourceKey
        details := draft.details
        enabled := true }
    (.ok record,
      { store with
        nextSubscriptionSeq := seq
        subscriptions := record ::
          store.subscriptions.filter (·.subscriptionId != record.subscriptionId) })

def isRegisteredAs (sessionId handle : String)
    (record : TriggerSubscriptionRecord Details) : Bool :=
  record.registrantSessionId == some sessionId && record.handle == handle

def cancelSubscription (sessionId handle : String) (store : TriggerStore Json Details) :
    Bool × TriggerStore Json Details :=
  match store.subscriptions.find? (isRegisteredAs sessionId handle) with
  | none => (false, store)
  | some record =>
    (record.enabled,
      { store with
        subscriptions := store.subscriptions.map fun other =>
          if other.subscriptionId = record.subscriptionId then { other with enabled := false }
          else other })

def deleteSessionSubscriptions (sessionId : String) (store : TriggerStore Json Details) :
    Nat × TriggerStore Json Details :=
  let kept := store.subscriptions.filter (·.registrantSessionId != some sessionId)
  (store.subscriptions.length - kept.length, { store with subscriptions := kept })

def idempotencyConflict (idempotencyKey : String) : PluginError :=
  .session s!"trigger occurrence idempotency conflict for `{idempotencyKey}`"

/-- The occurrence that was recorded under the key of the request. -/
def replayOccurrence (existingId requestHash : String) (request : TriggerOccurrenceRequest Json)
    (store : TriggerStore Json Details) : Except PluginError (TriggerOccurrenceRecord Json) :=
  if (store.occurrenceHashes existingId).getD "" ≠ requestHash then
    .error (idempotencyConflict request.idempotencyKey)
  else
    match store.occurrences existingId with
    | some existing => .ok existing
    | none => .error (.session
        s!"missing trigger occurrence `{existingId}` for idempotency key")

def insertOccurrence (occurrenceId requestHash : String)
    (request : TriggerOccurrenceRequest Json) (now : Nat) (store : TriggerStore Json Details) :
    TriggerOccurrenceRecord Json × TriggerStore Json Details :=
  let record : TriggerOccurrenceRecord Json :=
    { occurrenceId := occurrenceId
      sourceType := request.sourceType
      sourceKey := request.sourceKey
      payload := request.payload
      idempotencyKey := request.idempotencyKey
      source := request.source
      occurredAtMs := now }
  (record,
    { store with
      occurrenceIdByIdempotencyKey := fun key =>
        if key = request.idempotencyKey then some occurrenceId
        else store.occurrenceIdByIdempotencyKey key
      occurrenceHashes := fun id =>
        if id = occurrenceId then some requestHash else store.occurrenceHashes id
      occurrences := fun id =>
        if id = occurrenceId then some record else store.occurrences id })

/-- The store in memory only hashes the id of an occurrence it has to insert. -/
def recordOccurrence (backend : Backend) (rules : TriggerRules Json Details)
    (request : TriggerOccurrenceRequest Json) (now : Nat) (store : TriggerStore Json Details) :
    Outcome Json Details (TriggerOccurrenceRecord Json) :=
  match validateTriggerOccurrenceRequest request, rules.requestHash request,
      rules.occurrenceId request, store.occurrenceIdByIdempotencyKey request.idempotencyKey with
  | .error error, _, _, _ => (.error error, store)
  | .ok (), .error error, _, _ => (.error error, store)
  | .ok (), .ok _, .error error, none => (.error error, store)
  | .ok (), .ok requestHash, .error error, some existingId =>
    match backend with
    | .inMemory => (store.replayOccurrence existingId requestHash request, store)
    | .sqlite => (.error error, store)
  | .ok (), .ok requestHash, .ok _, some existingId =>
    (store.replayOccurrence existingId requestHash request, store)
  | .ok (), .ok requestHash, .ok occurrenceId, none =>
    let (record, store) := store.insertOccurrence occurrenceId requestHash request now
    (.ok record, store)

/-- Reserves a delivery for each of the subscriptions that has none. -/
def reserveEach (rules : TriggerRules Json Details) (occurrence : TriggerOccurrenceRecord Json) :
    List (TriggerSubscriptionRecord Details) → List (String × String) →
      Except PluginError (List (TriggerDeliveryReservation Json Details)) ×
        List (String × String)
  | [], deliveries => (.ok [], deliveries)
  | subscription :: subscriptions, deliveries =>
    let key := (occurrence.occurrenceId, subscription.subscriptionId)
    if key ∈ deliveries then reserveEach rules occurrence subscriptions deliveries
    else
      match rules.processId occurrence.occurrenceId subscription.subscriptionId with
      | .error error => (.error error, key :: deliveries)
      | .ok processId =>
        match reserveEach rules occurrence subscriptions (key :: deliveries) with
        | (.error error, deliveries) => (.error error, deliveries)
        | (.ok reservations, deliveries) =>
          (.ok (⟨occurrence, subscription, processId⟩ :: reservations), deliveries)

def matching (backend : Backend) (occurrence : TriggerOccurrenceRecord Json)
    (store : TriggerStore Json Details) : List (TriggerSubscriptionRecord Details) :=
  (store.subscriptions.filter (·.matchesOccurrence occurrence)).mergeSort
    (TriggerSubscriptionRecord.before backend)

def reserveMatchingDeliveries (backend : Backend) (rules : TriggerRules Json Details)
    (occurrenceId : String) (store : TriggerStore Json Details) :
    Outcome Json Details (List (TriggerDeliveryReservation Json Details)) :=
  match store.occurrences occurrenceId with
  | none => (.error (.session s!"unknown trigger occurrence `{occurrenceId}`"), store)
  | some occurrence =>
    match reserveEach rules occurrence (store.matching backend occurrence) store.deliveries with
    | (.ok reservations, deliveries) => (.ok reservations, { store with deliveries := deliveries })
    | (.error error, deliveries) =>
      match backend with
      | .inMemory => (.error error, { store with deliveries := deliveries })
      | .sqlite => (.error error, store)

end TriggerStore

/-! ## Emits -/

structure TriggerEmitReport where
  occurrenceId : String
  startedProcessIds : List String
deriving DecidableEq

inductive Phase (Json Details : Type) where
  | recording
  | recorded (occurrence : TriggerOccurrenceRecord Json)
  | starting (occurrence : TriggerOccurrenceRecord Json)
      (remaining : List (TriggerDeliveryReservation Json Details))
      (startedProcessIds startErrors : List String)
  | ended

structure Emit (Json Details : Type) where
  request : TriggerOccurrenceRequest Json
  hasProcessRegistry : Bool
  phase : Phase Json Details

/-- The store, the processes that have been started, by the occurrence and the subscription of
each, and the emits. -/
structure World (Json Details : Type) where
  store : TriggerStore Json Details
  started : List (String × String)
  emits : Nat → Option (Emit Json Details)

/-- What becomes of a process start that was handed to the effect controller. -/
inductive StartOutcome where
  | started
  | failed (message : String)
  | startedThenFailed (message : String)
deriving DecidableEq

inductive Input (Json Details : Type) where
  | register (draft : TriggerSubscriptionDraft Details)
  | cancel (sessionId handle : String)
  | deleteSession (sessionId : String)
  | emit (id : Nat) (request : TriggerOccurrenceRequest Json) (hasProcessRegistry : Bool)
  | record (id now : Nat)
  | reserve (id : Nat)
  | start (id : Nat) (outcome : StartOutcome)
  | finish (id : Nat) (driver : Except PluginError Unit)
  | crash (id : Nat)

inductive Output where
  | nothing
  | returned (result : Except PluginError TriggerEmitReport)
deriving DecidableEq

def triggerDeliveryFailureSummary : List String → Option String
  | [] => none
  | [only] => some s!"trigger delivery failed: {only}"
  | first :: rest => some
      (s!"trigger delivery failed for {rest.length + 1} matching subscriptions: {first}; " ++
        s!"{rest.length} more failed")

namespace World

def setEmit (world : World Json Details) (id : Nat) (emit : Emit Json Details) :
    World Json Details :=
  { world with emits := fun i => if i = id then some emit else world.emits i }

def setPhase (world : World Json Details) (id : Nat) (emit : Emit Json Details)
    (phase : Phase Json Details) : World Json Details :=
  world.setEmit id { emit with phase := phase }

end World

/-- Whether `start_delivery` starts the process, and the error it returns. -/
def startDelivery (rules : TriggerRules Json Details)
    (reservation : TriggerDeliveryReservation Json Details) (outcome : StartOutcome) :
    Bool × Option String :=
  match rules.prepareStart reservation.subscription reservation.occurrence with
  | .error error => (false, some error.display)
  | .ok () =>
    match outcome with
    | .started => (true, none)
    | .failed message => (false, some message)
    | .startedThenFailed message => (true, some message)

def triggerEmitFailed (message : String) : Except PluginError TriggerEmitReport :=
  .error (.session message)

/-- What an emit returns once it has tried every start. -/
def emitResult (occurrence : TriggerOccurrenceRecord Json)
    (startedProcessIds startErrors : List String) (driver : Except PluginError Unit) :
    Except PluginError TriggerEmitReport :=
  match startedProcessIds, driver with
  | _ :: _, .error error => .error error
  | _ :: _, .ok () => .ok ⟨occurrence.occurrenceId, startedProcessIds⟩
  | [], _ =>
    match triggerDeliveryFailureSummary startErrors with
    | some message => triggerEmitFailed message
    | none => .ok ⟨occurrence.occurrenceId, startedProcessIds⟩

/-- One step of an emit or of the store. An emit that is not where the step begins is left
alone. -/
def step (backend : Backend) (rules : TriggerRules Json Details) (input : Input Json Details)
    (world : World Json Details) : Output × World Json Details :=
  match input with
  | .register draft =>
    (.nothing, { world with store := (world.store.registerSubscription rules draft).2 })
  | .cancel sessionId handle =>
    (.nothing, { world with store := (world.store.cancelSubscription sessionId handle).2 })
  | .deleteSession sessionId =>
    (.nothing, { world with store := (world.store.deleteSessionSubscriptions sessionId).2 })
  | .emit id request hasProcessRegistry =>
    match world.emits id with
    | some _ => (.nothing, world)
    | none => (.nothing, world.setEmit id ⟨request, hasProcessRegistry, .recording⟩)
  | .record id now =>
    match world.emits id with
    | some ⟨request, hasRegistry, .recording⟩ =>
      match world.store.recordOccurrence backend rules request now with
      | (.ok occurrence, store) => (.nothing,
          { world with store := store }.setEmit id ⟨request, hasRegistry, .recorded occurrence⟩)
      | (.error error, store) => (.returned (.error error),
          { world with store := store }.setEmit id ⟨request, hasRegistry, .ended⟩)
    | _ => (.nothing, world)
  | .reserve id =>
    match world.emits id with
    | some ⟨request, hasRegistry, .recorded occurrence⟩ =>
      match world.store.reserveMatchingDeliveries backend rules occurrence.occurrenceId,
        hasRegistry with
      | (.error error, store), _ => (.returned (.error error),
          { world with store := store }.setEmit id ⟨request, hasRegistry, .ended⟩)
      | (.ok reservations, store), true => (.nothing,
          { world with store := store }.setEmit id
            ⟨request, hasRegistry, .starting occurrence reservations [] []⟩)
      | (.ok [], store), false => (.returned (.ok ⟨occurrence.occurrenceId, []⟩),
          { world with store := store }.setEmit id ⟨request, hasRegistry, .ended⟩)
      | (.ok (_ :: _), store), false =>
        (.returned (triggerEmitFailed "trigger delivery requires a process registry"),
          { world with store := store }.setEmit id ⟨request, hasRegistry, .ended⟩)
    | _ => (.nothing, world)
  | .start id outcome =>
    match world.emits id with
    | some ⟨request, hasRegistry, .starting occurrence (reservation :: remaining) ids errors⟩ =>
      let key := (reservation.occurrence.occurrenceId, reservation.subscription.subscriptionId)
      let (begun, error) := startDelivery rules reservation outcome
      let started := if begun then key :: world.started else world.started
      let phase := match error with
        | none => .starting occurrence remaining (ids ++ [reservation.processId]) errors
        | some message => .starting occurrence remaining ids
            (errors ++ [s!"{reservation.subscription.subscriptionId}: {message}"])
      (.nothing, { world with started := started }.setEmit id ⟨request, hasRegistry, phase⟩)
    | _ => (.nothing, world)
  | .finish id driver =>
    match world.emits id with
    | some ⟨request, hasRegistry, .starting occurrence [] ids errors⟩ =>
      (.returned (emitResult occurrence ids errors driver),
        world.setEmit id ⟨request, hasRegistry, .ended⟩)
    | _ => (.nothing, world)
  | .crash id =>
    match world.emits id with
    | some emit => (.nothing, world.setPhase id emit .ended)
    | none => (.nothing, world)

/-! ## Reservations -/

variable {backend : Backend} {rules : TriggerRules Json Details} {world : World Json Details}
variable {input : Input Json Details} {occurrence : TriggerOccurrenceRecord Json}

/-- A delivery is for an occurrence and a subscription. -/
def TriggerDeliveryReservation.key (reservation : TriggerDeliveryReservation Json Details) :
    String × String :=
  (reservation.occurrence.occurrenceId, reservation.subscription.subscriptionId)

/-- Reserving never takes a delivery back. It hands out new ones, each once, and leaves no
subscription without one. -/
structure Reserves (occurrence : TriggerOccurrenceRecord Json)
    (subscriptions : List (TriggerSubscriptionRecord Details))
    (before after : List (String × String))
    (reservations : List (TriggerDeliveryReservation Json Details)) : Prop where
  issued : reservations.map (·.key) ⊆ after
  fresh : ∀ key ∈ reservations.map (·.key), key ∉ before
  nodup : (reservations.map (·.key)).Nodup
  covers : ∀ subscription ∈ subscriptions,
    (occurrence.occurrenceId, subscription.subscriptionId) ∈ before ∨
      (occurrence.occurrenceId, subscription.subscriptionId) ∈ reservations.map (·.key)

open TriggerStore

theorem reserveEach_kept (rules : TriggerRules Json Details)
    (occurrence : TriggerOccurrenceRecord Json)
    (subscriptions : List (TriggerSubscriptionRecord Details))
    (deliveries : List (String × String)) :
    deliveries ⊆ (reserveEach rules occurrence subscriptions deliveries).2 := by
  induction subscriptions generalizing deliveries with
  | nil => exact List.Subset.refl _
  | cons subscription subscriptions ih =>
    simp only [reserveEach]
    split
    · exact ih deliveries
    · have hcons := ih ((occurrence.occurrenceId, subscription.subscriptionId) :: deliveries)
      split
      · exact subset_cons_self _ _
      · split
        · next h =>
            rw [h] at hcons
            exact List.Subset.trans (subset_cons_self _ _) hcons
        · next h =>
            rw [h] at hcons
            exact List.Subset.trans (subset_cons_self _ _) hcons

variable {reservations : List (TriggerDeliveryReservation Json Details)}

theorem reserveEach_reserves {subscriptions : List (TriggerSubscriptionRecord Details)}
    {deliveries after : List (String × String)}
    (h : reserveEach rules occurrence subscriptions deliveries = (.ok reservations, after)) :
    Reserves occurrence subscriptions deliveries after reservations := by
  induction subscriptions generalizing deliveries reservations with
  | nil =>
    cases h
    refine ⟨nil_subset _, fun key hkey => ?_, nodup_nil, fun other hother => ?_⟩
    · cases hkey
    · cases hother
  | cons subscription subscriptions ih =>
    simp only [reserveEach] at h
    split at h
    · next hreserved =>
        have hrest := ih h
        refine ⟨hrest.issued, hrest.fresh, hrest.nodup, fun other hother => ?_⟩
        rcases mem_cons.mp hother with rfl | hother
        · exact Or.inl hreserved
        · exact hrest.covers other hother
    · next hnew =>
        have hkept := reserveEach_kept rules occurrence subscriptions
          ((occurrence.occurrenceId, subscription.subscriptionId) :: deliveries)
        split at h
        · cases h
        · next processId _ =>
            split at h
            · cases h
            · next rest after' hrest =>
                cases h
                rw [hrest] at hkept
                have hspec := ih hrest
                refine ⟨?_, ?_, ?_, ?_⟩
                · exact cons_subset.mpr ⟨hkept mem_cons_self, hspec.issued⟩
                · intro key hkey
                  rcases mem_cons.mp hkey with rfl | hkey
                  · exact hnew
                  · exact fun hmem => hspec.fresh key hkey (mem_cons_of_mem _ hmem)
                · exact nodup_cons.mpr
                    ⟨fun hmem => hspec.fresh _ hmem mem_cons_self, hspec.nodup⟩
                · intro other hother
                  rcases mem_cons.mp hother with rfl | hother
                  · exact Or.inr mem_cons_self
                  · rcases hspec.covers other hother with hmem | hmem
                    · rcases mem_cons.mp hmem with heq | hmem
                      · rw [heq]
                        exact Or.inr mem_cons_self
                      · exact Or.inl hmem
                    · exact Or.inr (mem_cons_of_mem _ hmem)

/-! ## Every delivery is started once -/

/-- The deliveries an emit has reserved and not tried to start yet. -/
def Phase.pending : Phase Json Details → List (String × String)
  | starting _ remaining _ _ => remaining.map (·.key)
  | recording | recorded _ | ended => []

def World.desk (world : World Json Details) : Tickets.Desk (String × String) where
  issued := world.store.deliveries
  used := world.started
  held := fun id => ((world.emits id).map (·.phase.pending)).getD []

theorem desk_setEmit (world : World Json Details) (id : Nat) (emit : Emit Json Details) :
    (world.setEmit id emit).desk =
      ⟨world.store.deliveries, world.started, world.desk.give id emit.phase.pending⟩ := by
  simp only [World.desk, World.setEmit, Tickets.Desk.mk.injEq, true_and]
  funext i
  by_cases hi : i = id
  · simp only [Tickets.Desk.give, if_pos hi]
    rfl
  · simp only [Tickets.Desk.give, if_neg hi]

variable {id : Nat}

theorem desk_held {emit : Emit Json Details} (h : world.emits id = some emit) :
    world.desk.held id = emit.phase.pending := by
  simp only [World.desk, h]
  rfl

theorem recordOccurrence_deliveries (backend : Backend) (rules : TriggerRules Json Details)
    (request : TriggerOccurrenceRequest Json) (now : Nat) (store : TriggerStore Json Details) :
    (store.recordOccurrence backend rules request now).2.deliveries = store.deliveries := by
  unfold recordOccurrence
  split
  · rfl
  · rfl
  · rfl
  · split <;> rfl
  · rfl
  · rfl

theorem registerSubscription_deliveries (rules : TriggerRules Json Details)
    (draft : TriggerSubscriptionDraft Details) (store : TriggerStore Json Details) :
    (store.registerSubscription rules draft).2.deliveries = store.deliveries := by
  unfold registerSubscription
  split <;> rfl

theorem cancelSubscription_deliveries (sessionId handle : String)
    (store : TriggerStore Json Details) :
    (store.cancelSubscription sessionId handle).2.deliveries = store.deliveries := by
  unfold cancelSubscription
  split <;> rfl

theorem reserveMatching_kept (backend : Backend) (rules : TriggerRules Json Details)
    (occurrenceId : String) (store : TriggerStore Json Details) :
    store.deliveries ⊆
      (store.reserveMatchingDeliveries backend rules occurrenceId).2.deliveries := by
  unfold reserveMatchingDeliveries
  split
  · exact List.Subset.refl _
  · next occurrence _ =>
      have hkept := reserveEach_kept rules occurrence (store.matching backend occurrence)
        store.deliveries
      split
      · next h =>
          rw [h] at hkept
          exact hkept
      · next h =>
          rw [h] at hkept
          split
          · exact hkept
          · exact List.Subset.refl _

variable {after store : TriggerStore Json Details}

variable {occurrenceId : String}

theorem reserveMatching_reserves
    (h : store.reserveMatchingDeliveries backend rules occurrenceId = (.ok reservations, after)) :
    ∃ occurrence, store.occurrences occurrenceId = some occurrence ∧
      after = { store with deliveries := after.deliveries } ∧
      Reserves occurrence (store.matching backend occurrence) store.deliveries after.deliveries
        reservations := by
  unfold reserveMatchingDeliveries at h
  split at h
  · cases h
  · next occurrence hoccurrence =>
      split at h
      · next rs deliveries hreserve =>
          cases h
          exact ⟨occurrence, hoccurrence, rfl, reserveEach_reserves hreserve⟩
      · split at h <;> cases h

theorem desk_of_deliveries (h : store.deliveries = world.store.deliveries) :
    ({ world with store := store } : World Json Details).desk = world.desk := by
  simp only [World.desk, h]

/-- A phase that has nothing pending takes an emit's tickets from it. -/
theorem move_quiet {emit : Emit Json Details}
    (hdeliveries : store.deliveries = world.store.deliveries) (hpending : emit.phase.pending = []) :
    Tickets.Move world.desk
      (({ world with store := store } : World Json Details).setEmit id emit).desk := by
  rw [desk_setEmit, hpending]
  have hdesk : ({ world with store := store } : World Json Details).desk = world.desk :=
    desk_of_deliveries hdeliveries
  rw [hdesk]
  simp only [hdeliveries]
  exact .lose (nil_sublist _)

theorem step_move (backend : Backend) (rules : TriggerRules Json Details)
    (input : Input Json Details) (world : World Json Details) :
    Tickets.Move world.desk (step backend rules input world).2.desk := by
  cases input with
  | register draft =>
    rw [step, desk_of_deliveries (registerSubscription_deliveries rules draft world.store)]
    exact .stay
  | cancel sessionId handle =>
    rw [step, desk_of_deliveries (cancelSubscription_deliveries sessionId handle world.store)]
    exact .stay
  | deleteSession sessionId =>
    have hsame : (world.store.deleteSessionSubscriptions sessionId).2.deliveries =
        world.store.deliveries := rfl
    rw [step, desk_of_deliveries hsame]
    exact .stay
  | emit id request hasRegistry =>
    simp only [step]
    split
    · exact .stay
    · exact move_quiet rfl rfl
  | record id now =>
    simp only [step]
    split
    · next request hasRegistry _ =>
        have hsame := recordOccurrence_deliveries backend rules request now world.store
        split
        · next h =>
            rw [h] at hsame
            exact move_quiet hsame rfl
        · next h =>
            rw [h] at hsame
            exact move_quiet hsame rfl
    · exact .stay
  | reserve id =>
    simp only [step]
    split
    · next request hasRegistry occurrence hemit =>
        have hkept := reserveMatching_kept backend rules occurrence.occurrenceId world.store
        -- whatever is not handed out stays issued
        have dropped : ∀ {result store}, world.store.reserveMatchingDeliveries backend rules
            occurrence.occurrenceId = (result, store) →
            Tickets.Move world.desk (({ world with store := store } : World Json Details).setEmit
              id ⟨request, hasRegistry, .ended⟩).desk := by
          intro result store h
          rw [h] at hkept
          rw [desk_setEmit]
          exact .issue id hkept (nil_subset _) (fun _ hk => by cases hk) nodup_nil
        split
        · next h => exact dropped h
        · next reservations store h =>
            rw [h] at hkept
            obtain ⟨_, -, -, hspec⟩ := reserveMatching_reserves h
            rw [desk_setEmit]
            exact .issue id hkept hspec.issued hspec.fresh hspec.nodup
        · next h => exact dropped h
        · next h => exact dropped h
    · exact .stay
  | start id outcome =>
    simp only [step]
    split
    · next request hasRegistry occurrence reservation remaining ids errors hemit =>
        have hheld : world.desk.held id = reservation.key :: remaining.map (·.key) :=
          desk_held hemit
        rcases hstart : startDelivery rules reservation outcome with ⟨begun, error⟩
        rw [desk_setEmit]
        cases begun with
        | true =>
          cases error with
          | none | some message => exact .use hheld
        | false =>
          have hrest : (remaining.map (·.key)).Sublist (world.desk.held id) :=
            hheld ▸ sublist_cons_self _ _
          cases error with
          | none | some message => exact .lose hrest
    · exact .stay
  | finish id driver | crash id =>
    simp only [step]
    split
    · exact move_quiet rfl rfl
    · exact .stay

def World.initial : World Json Details := ⟨.new, [], fun _ => none⟩

theorem reachable_sound
    (reached : Reachable (step backend rules) .initial world) : Tickets.Sound world.desk :=
  reached.invariant (P := fun w => Tickets.Sound w.desk) (Tickets.Sound.new _ fun _ => rfl)
    fun w input hw => (step_move backend rules input w).sound hw

/-! ## No delivery is lost -/

abbrev Step (Json Details : Type) := Entry (Input Json Details) (World Json Details) Output

variable {history : List (Step Json Details)} {e : Step Json Details}

/-- The step records the occurrence for the first time. -/
def Records (backend : Backend) (rules : TriggerRules Json Details) (e : Step Json Details)
    (occurrence : TriggerOccurrenceRecord Json) : Prop :=
  ∃ id request hasRegistry now store, e.input = .record id now ∧
    e.before.emits id = some ⟨request, hasRegistry, .recording⟩ ∧
    e.before.store.occurrenceIdByIdempotencyKey request.idempotencyKey = none ∧
    e.before.store.recordOccurrence backend rules request now = (.ok occurrence, store)

/-- A delivery for a subscription that was enabled and matched the occurrence when it was first
recorded. -/
def Owed (backend : Backend) (rules : TriggerRules Json Details)
    (history : List (Step Json Details)) (key : String × String) : Prop :=
  ∃ d ∈ history, ∃ occurrence, Records backend rules d occurrence ∧
    ∃ subscription ∈ d.before.store.subscriptions,
      subscription.matchesOccurrence occurrence = true ∧
        key = (occurrence.occurrenceId, subscription.subscriptionId)

/-- Requests under different idempotency keys have occurrences of different ids. -/
def TriggerRules.NoCollisions (rules : TriggerRules Json Details) : Prop :=
  ∀ request request' id, rules.occurrenceId request = .ok id →
    rules.occurrenceId request' = .ok id → request.idempotencyKey = request'.idempotencyKey

/-- Whatever recorded occurrence the subscription matches has a delivery for it. -/
def TriggerStore.Settled (store : TriggerStore Json Details)
    (subscription : TriggerSubscriptionRecord Details) : Prop :=
  ∀ id occurrence, store.occurrences id = some occurrence →
    subscription.matchesOccurrence occurrence = true →
    (id, subscription.subscriptionId) ∈ store.deliveries

/-- An emit reserves only once every delivery reserved for its occurrence before has been started.
Every start begins its process. No subscription is cancelled, deleted or replaced while it matches
a recorded occurrence that has no delivery for it. -/
def Calm (rules : TriggerRules Json Details) (e : Step Json Details) : Prop :=
  match e.input with
  | .reserve id => ∀ request hasRegistry occurrence,
      e.before.emits id = some ⟨request, hasRegistry, .recorded occurrence⟩ →
      ∀ key ∈ e.before.store.deliveries, key.1 = occurrence.occurrenceId → key ∈ e.before.started
  | .start id outcome => ∀ request hasRegistry occurrence reservation remaining ids errors,
      e.before.emits id =
        some ⟨request, hasRegistry, .starting occurrence (reservation :: remaining) ids errors⟩ →
      rules.prepareStart reservation.subscription reservation.occurrence = .ok () ∧
        ∀ message, outcome ≠ .failed message
  | .cancel sessionId handle => ∀ record subscription,
      e.before.store.subscriptions.find? (TriggerStore.isRegisteredAs sessionId handle) =
        some record →
      subscription ∈ e.before.store.subscriptions →
      subscription.subscriptionId = record.subscriptionId → e.before.store.Settled subscription
  | .deleteSession sessionId => ∀ subscription ∈ e.before.store.subscriptions,
      subscription.registrantSessionId = some sessionId → e.before.store.Settled subscription
  | .register _ => ∀ subscription ∈ e.before.store.subscriptions,
      subscription.subscriptionId =
        s!"subscription:{saturatingAdd e.before.store.nextSubscriptionSeq 1}" →
      e.before.store.Settled subscription
  | _ => True

/-- Every occurrence is recorded by its id, under the key of a request that has this id. -/
def TriggerStore.Recorded (rules : TriggerRules Json Details) (store : TriggerStore Json Details) :
    Prop :=
  ∀ id occurrence, store.occurrences id = some occurrence →
    occurrence.occurrenceId = id ∧ ∃ request, rules.occurrenceId request = .ok id ∧
      store.occurrenceIdByIdempotencyKey request.idempotencyKey = some id

/-- What an emit on its way still has to start. -/
def Emit.Carries (owed : String × String → Prop) (world : World Json Details)
    (emit : Emit Json Details) : Prop :=
  match emit.phase with
  | .recorded occurrence => (world.store.occurrences occurrence.occurrenceId).isSome
  | .starting occurrence remaining _ _ =>
    (world.store.occurrences occurrence.occurrenceId).isSome ∧
      ∀ key, owed key → key.1 = occurrence.occurrenceId →
        key ∈ world.started ∨ key ∈ remaining.map (·.key)
  | .recording | .ended => True

/-- What is owed has a delivery or a subscription that still matches, and an emit past its
reservations sees to what is owed for its occurrence. -/
structure Kept (backend : Backend) (rules : TriggerRules Json Details)
    (history : List (Step Json Details)) (world : World Json Details) : Prop where
  recorded : world.store.Recorded rules
  known : ∀ d ∈ history, ∀ occurrence, Records backend rules d occurrence →
    world.store.occurrences occurrence.occurrenceId = some occurrence
  owed : ∀ d ∈ history, ∀ occurrence, Records backend rules d occurrence →
    ∀ subscription ∈ d.before.store.subscriptions,
      subscription.matchesOccurrence occurrence = true →
      (occurrence.occurrenceId, subscription.subscriptionId) ∈ world.store.deliveries ∨
        ∃ other ∈ world.store.subscriptions, other.subscriptionId = subscription.subscriptionId ∧
          other.matchesOccurrence occurrence = true
  emits : ∀ id emit, world.emits id = some emit →
    emit.Carries (Owed backend rules history) world

variable {d : Step Json Details}

theorem Owed.cons_of_not {key : String × String} (h : Owed backend rules (d :: history) key)
    (hnot : ∀ occurrence, ¬ Records backend rules d occurrence) :
    Owed backend rules history key := by
  obtain ⟨e, he, occurrence, hrecords, hrest⟩ := h
  rcases mem_cons.mp he with rfl | he
  · exact absurd hrecords (hnot occurrence)
  · exact ⟨e, he, occurrence, hrecords, hrest⟩

/-- A step that records nothing keeps the invariant if it takes no delivery back, settles the
subscriptions it changes, and leaves each emit with what it carries. -/
theorem Kept.next {next : World Json Details} (h : Kept backend rules history world)
    (hnot : ∀ occurrence, ¬ Records backend rules d occurrence)
    (hoccurrences : next.store.occurrences = world.store.occurrences)
    (hkeys : next.store.occurrenceIdByIdempotencyKey = world.store.occurrenceIdByIdempotencyKey)
    (hdeliveries : world.store.deliveries ⊆ next.store.deliveries)
    (hsubscriptions : ∀ subscription ∈ world.store.subscriptions, ∀ id occurrence,
      world.store.occurrences id = some occurrence →
      subscription.matchesOccurrence occurrence = true →
      (id, subscription.subscriptionId) ∈ next.store.deliveries ∨
        ∃ other ∈ next.store.subscriptions, other.subscriptionId = subscription.subscriptionId ∧
          other.matchesOccurrence occurrence = true)
    (hemits : ∀ id emit, next.emits id = some emit →
      emit.Carries (Owed backend rules history) next) : Kept backend rules (d :: history) next := by
  have older : ∀ e ∈ d :: history, ∀ occurrence, Records backend rules e occurrence →
      e ∈ history := by
    intro e he occurrence hrecords
    rcases mem_cons.mp he with rfl | he
    · exact absurd hrecords (hnot occurrence)
    · exact he
  refine
    { recorded := ?_
      known := ?_
      owed := ?_
      emits := ?_ }
  · intro id occurrence hid
    rw [hoccurrences] at hid
    rw [hkeys]
    exact h.recorded id occurrence hid
  · intro e he occurrence hrecords
    rw [hoccurrences]
    exact h.known e (older e he occurrence hrecords) occurrence hrecords
  · intro e he occurrence hrecords subscription hsub hmatches
    have hknown := h.known e (older e he occurrence hrecords) occurrence hrecords
    rcases h.owed e (older e he occurrence hrecords) occurrence hrecords subscription hsub hmatches
      with hdelivered | ⟨other, hother, hid, hothermatches⟩
    · exact Or.inl (hdeliveries hdelivered)
    · rcases hsubscriptions other hother _ occurrence hknown hothermatches with
        hdelivered | ⟨third, hthird, hthirdid, hthirdmatches⟩
      · exact Or.inl (hid ▸ hdelivered)
      · exact Or.inr ⟨third, hthird, hthirdid.trans hid, hthirdmatches⟩
  · intro id emit hemit
    have hcarries := hemits id emit hemit
    unfold Emit.Carries at hcarries ⊢
    split
    · next hphase => simpa only [hphase] using hcarries
    · next hphase =>
        simp only [hphase] at hcarries
        exact ⟨hcarries.1, fun key howed => hcarries.2 key (howed.cons_of_not hnot)⟩
    · trivial
    · trivial

theorem Emit.Carries.mono {owed : String × String → Prop} {next : World Json Details}
    {emit : Emit Json Details} (h : emit.Carries owed world)
    (hoccurrences : ∀ id, (world.store.occurrences id).isSome → (next.store.occurrences id).isSome)
    (hstarted : world.started ⊆ next.started) : emit.Carries owed next := by
  unfold Emit.Carries at h ⊢
  split
  · next hphase =>
      simp only [hphase] at h
      exact hoccurrences _ h
  · next hphase =>
      simp only [hphase] at h
      exact ⟨hoccurrences _ h.1, fun key howed hid =>
        (h.2 key howed hid).imp_left fun hmem => hstarted hmem⟩
  · trivial
  · trivial

theorem forall_setEmit {P : Emit Json Details → Prop} {emit : Emit Json Details}
    (h : ∀ i e, world.emits i = some e → P e) (hnew : P emit) :
    ∀ i e, (world.setEmit id emit).emits i = some e → P e := by
  intro i e he
  simp only [World.setEmit] at he
  split at he
  · cases he
    exact hnew
  · exact h i e he

variable {request : TriggerOccurrenceRequest Json} {now : Nat}

theorem recordOccurrence_ok
    (h : store.recordOccurrence backend rules request now = (.ok occurrence, after)) :
    (∃ occurrenceId requestHash, rules.occurrenceId request = .ok occurrenceId ∧
      store.occurrenceIdByIdempotencyKey request.idempotencyKey = none ∧
      (occurrence, after) = store.insertOccurrence occurrenceId requestHash request now) ∨
    (∃ existingId, store.occurrenceIdByIdempotencyKey request.idempotencyKey = some existingId ∧
      store.occurrences existingId = some occurrence ∧ after = store) := by
  have replayed : ∀ {existingId requestHash : String},
      (store.replayOccurrence existingId requestHash request, store) = (.ok occurrence, after) →
      store.occurrences existingId = some occurrence ∧ after = store := by
    intro existingId requestHash heq
    obtain ⟨hok, rfl⟩ := mk.inj heq
    unfold replayOccurrence at hok
    split at hok
    · cases hok
    · split at hok
      · next hexisting =>
          cases hok
          exact ⟨hexisting, rfl⟩
      · cases hok
  unfold recordOccurrence at h
  split at h
  · cases h
  · cases h
  · cases h
  · next hkey =>
      split at h
      · exact Or.inr ⟨_, hkey, replayed h⟩
      · cases h
  · next hkey => exact Or.inr ⟨_, hkey, replayed h⟩
  · next requestHash occurrenceId _ _ hid hkey =>
      refine Or.inl ⟨occurrenceId, requestHash, hid, hkey, ?_⟩
      obtain ⟨hok, hafter⟩ := mk.inj h
      cases hok
      rw [← hafter]
      rfl

theorem recordOccurrence_error {error : PluginError}
    (h : store.recordOccurrence backend rules request now = (.error error, after)) :
    after = store := by
  unfold recordOccurrence at h
  split at h
  · exact (mk.inj h).2.symm
  · exact (mk.inj h).2.symm
  · exact (mk.inj h).2.symm
  · split at h
    · exact (mk.inj h).2.symm
    · exact (mk.inj h).2.symm
  · exact (mk.inj h).2.symm
  · cases h

theorem matching_mem {subscription : TriggerSubscriptionRecord Details}
    (hmem : subscription ∈ store.subscriptions)
    (hmatches : subscription.matchesOccurrence occurrence = true) :
    subscription ∈ store.matching backend occurrence := by
  unfold matching
  rw [mem_mergeSort, mem_filter]
  exact ⟨hmem, hmatches⟩

/-- What is owed for the occurrence of an emit is started by the time it reserves, or it is the
emit itself that has to start it. -/
theorem Kept.reserved (h : Kept backend rules history world)
    (hreserve : world.store.reserveMatchingDeliveries backend rules occurrence.occurrenceId =
      (.ok reservations, after))
    (hcalm : ∀ key ∈ world.store.deliveries, key.1 = occurrence.occurrenceId →
      key ∈ world.started) {key : String × String} (howed : Owed backend rules history key)
    (hid : key.1 = occurrence.occurrenceId) :
    key ∈ world.started ∨ key ∈ reservations.map (·.key) := by
  obtain ⟨d, hd, recorded, hrecords, subscription, hsub, hmatches, rfl⟩ := howed
  obtain ⟨found, hfound, -, hspec⟩ := reserveMatching_reserves hreserve
  have hknown := h.known d hd recorded hrecords
  have hsame : recorded = found := by
    have hid' : recorded.occurrenceId = occurrence.occurrenceId := hid
    rw [hid', hfound] at hknown
    exact (some.inj hknown).symm
  subst hsame
  rcases h.owed d hd recorded hrecords subscription hsub hmatches with
    hdelivered | ⟨other, hother, hotherid, hothermatches⟩
  · exact Or.inl (hcalm _ hdelivered hid)
  · rcases hspec.covers other (matching_mem hother hothermatches) with hbefore | hnew
    · rw [hotherid] at hbefore
      exact Or.inl (hcalm _ hbefore hid)
    · rw [hotherid] at hnew
      exact Or.inr hnew

/-! ### One step -/

theorem hnot_of_input (h : ∀ id now, d.input ≠ .record id now) :
    ∀ occurrence, ¬ Records backend rules d occurrence := by
  rintro occurrence ⟨id, request, hasRegistry, now, store, hinput, -⟩
  exact h id now hinput

/-- A step that only moves an emit along keeps the invariant if the emit is left with what it
carries. -/
theorem Kept.emit {next : World Json Details} {emit : Emit Json Details}
    (h : Kept backend rules history world)
    (hnot : ∀ occurrence, ¬ Records backend rules d occurrence)
    (hoccurrences : next.store.occurrences = world.store.occurrences)
    (hkeys : next.store.occurrenceIdByIdempotencyKey = world.store.occurrenceIdByIdempotencyKey)
    (hsubscriptions : next.store.subscriptions = world.store.subscriptions)
    (hdeliveries : world.store.deliveries ⊆ next.store.deliveries)
    (hstarted : world.started ⊆ next.started) (hemits : next.emits = (world.setEmit id emit).emits)
    (hemit : emit.Carries (Owed backend rules history) next) :
    Kept backend rules (d :: history) next := by
  refine h.next hnot hoccurrences hkeys hdeliveries ?_ ?_
  · intro subscription hsub _ occurrence _ hmatches
    exact Or.inr ⟨subscription, hsubscriptions ▸ hsub, rfl, hmatches⟩
  · rw [hemits]
    refine forall_setEmit (fun i e he => ?_) hemit
    exact (h.emits i e he).mono (fun j hj => by rw [hoccurrences]; exact hj) hstarted

theorem Kept.subscriptions (h : Kept backend rules history world)
    (hnot : ∀ occurrence, ¬ Records backend rules d occurrence)
    (hoccurrences : store.occurrences = world.store.occurrences)
    (hkeys : store.occurrenceIdByIdempotencyKey = world.store.occurrenceIdByIdempotencyKey)
    (hdeliveries : store.deliveries = world.store.deliveries)
    (hsubscriptions : ∀ subscription ∈ world.store.subscriptions,
      subscription ∈ store.subscriptions ∨ world.store.Settled subscription) :
    Kept backend rules (d :: history) { world with store := store } := by
  refine h.next hnot hoccurrences hkeys (by rw [hdeliveries]; exact List.Subset.refl _) ?_ ?_
  · intro subscription hsub id occurrence hid hmatches
    rcases hsubscriptions subscription hsub with hmem | hsettled
    · exact Or.inr ⟨subscription, hmem, rfl, hmatches⟩
    · refine Or.inl ?_
      rw [hdeliveries]
      exact hsettled id occurrence hid hmatches
  · intro i e he
    exact (h.emits i e he).mono (fun j hj => by rw [hoccurrences]; exact hj)
      (List.Subset.refl _)

/-- Recording an occurrence for the first time: nothing that was owed is for its id. -/
theorem Kept.insert (hcollisions : rules.NoCollisions) (h : Kept backend rules history world)
    {hasRegistry : Bool} {requestHash : String}
    (hid : rules.occurrenceId request = .ok occurrenceId)
    (hkey : world.store.occurrenceIdByIdempotencyKey request.idempotencyKey = none)
    (hinsert : (occurrence, store) =
      world.store.insertOccurrence occurrenceId requestHash request now)
    (hbefore : d.before = world)
    (honly : ∀ other, Records backend rules d other → other = occurrence) :
    Kept backend rules (d :: history)
      (({ world with store := store } : World Json Details).setEmit id
        ⟨request, hasRegistry, .recorded occurrence⟩) := by
  obtain ⟨hoccurrence, hstore⟩ := mk.inj hinsert
  have hoccurrenceId : occurrence.occurrenceId = occurrenceId := by rw [hoccurrence]
  have hsubscriptions : store.subscriptions = world.store.subscriptions := by rw [hstore]
  have hdeliveries : store.deliveries = world.store.deliveries := by rw [hstore]
  have hfound : store.occurrences = fun i =>
      if i = occurrenceId then some occurrence else world.store.occurrences i := by
    rw [hstore, hoccurrence]
  have hkeys : store.occurrenceIdByIdempotencyKey = fun key =>
      if key = request.idempotencyKey then some occurrenceId
      else world.store.occurrenceIdByIdempotencyKey key := by
    rw [hstore]
  -- the id is new, for another request that has it would have the same key
  have hfresh : world.store.occurrences occurrenceId = none := by
    cases hold : world.store.occurrences occurrenceId with
    | none => rfl
    | some old =>
      obtain ⟨-, request', hid', hkey'⟩ := h.recorded occurrenceId old hold
      rw [← hcollisions request request' occurrenceId hid hid', hkey] at hkey'
      cases hkey'
  have holder : ∀ i other, world.store.occurrences i = some other →
      store.occurrences i = some other := by
    intro i other hother
    have hne : i ≠ occurrenceId := by
      rintro rfl
      rw [hfresh] at hother
      cases hother
    simp only [hfound, if_neg hne]
    exact hother
  refine
    { recorded := ?_
      known := ?_
      owed := ?_
      emits := ?_ }
  · intro i other hother
    show other.occurrenceId = i ∧ ∃ request, rules.occurrenceId request = .ok i ∧
      store.occurrenceIdByIdempotencyKey request.idempotencyKey = some i
    have hother' : store.occurrences i = some other := hother
    simp only [hfound] at hother'
    split at hother'
    · next hi =>
        cases hother'
        rw [hi]
        refine ⟨hoccurrenceId, request, hid, ?_⟩
        simp only [hkeys, if_true]
    · obtain ⟨hotherId, request', hid', hkey'⟩ := h.recorded i other hother'
      have hne : request'.idempotencyKey ≠ request.idempotencyKey := by
        intro heq
        rw [heq, hkey] at hkey'
        cases hkey'
      refine ⟨hotherId, request', hid', ?_⟩
      simp only [hkeys, if_neg hne]
      exact hkey'
  · intro e he other hrecords
    show store.occurrences other.occurrenceId = some other
    rcases mem_cons.mp he with rfl | he
    · rw [honly other hrecords]
      simp only [hfound, hoccurrenceId, if_true]
    · exact holder _ _ (h.known e he other hrecords)
  · intro e he other hrecords subscription hsub hmatches
    show (other.occurrenceId, subscription.subscriptionId) ∈ store.deliveries ∨
      ∃ third ∈ store.subscriptions, third.subscriptionId = subscription.subscriptionId ∧
        third.matchesOccurrence other = true
    rw [hdeliveries, hsubscriptions]
    rcases mem_cons.mp he with rfl | he
    · exact Or.inr ⟨subscription, hbefore ▸ hsub, rfl, hmatches⟩
    · exact h.owed e he other hrecords subscription hsub hmatches
  · refine forall_setEmit (fun i e he => ?_) ?_
    · have hcarries := h.emits i e he
      unfold Emit.Carries at hcarries ⊢
      split
      · next recorded hphase =>
          simp only [hphase] at hcarries
          obtain ⟨other, hother⟩ := isSome_iff_exists.mp hcarries
          exact isSome_iff_exists.mpr ⟨other, holder _ _ hother⟩
      · next started remaining _ _ hphase =>
          simp only [hphase] at hcarries
          obtain ⟨other, hother⟩ := isSome_iff_exists.mp hcarries.1
          refine ⟨isSome_iff_exists.mpr ⟨other, holder _ _ hother⟩, ?_⟩
          intro key howed hkeyId
          refine hcarries.2 key ?_ hkeyId
          obtain ⟨c, hc, recorded, hrecords, subscription, hsub, hmatches, rfl⟩ := howed
          rcases mem_cons.mp hc with rfl | hc
          · have hsame : started.occurrenceId = occurrenceId := by
              rw [← hkeyId, honly recorded hrecords]
              exact hoccurrenceId
            rw [hsame, hfresh] at hother
            cases hother
          · exact ⟨c, hc, recorded, hrecords, subscription, hsub, hmatches, rfl⟩
      · trivial
      · trivial
    · show (store.occurrences occurrence.occurrenceId).isSome
      simp only [hfound, hoccurrenceId, if_true, isSome_some]

theorem startDelivery_begins {reservation : TriggerDeliveryReservation Json Details}
    {outcome : StartOutcome}
    (hprepared : rules.prepareStart reservation.subscription reservation.occurrence = .ok ())
    (hstarted : ∀ message, outcome ≠ .failed message) :
    (startDelivery rules reservation outcome).1 = true := by
  unfold startDelivery
  rw [hprepared]
  cases outcome with
  | started | startedThenFailed message => rfl
  | failed message => exact absurd rfl (hstarted message)

theorem registerSubscription_keeps (rules : TriggerRules Json Details)
    (draft : TriggerSubscriptionDraft Details) (store : TriggerStore Json Details) :
    (store.registerSubscription rules draft).2.occurrences = store.occurrences ∧
      (store.registerSubscription rules draft).2.occurrenceIdByIdempotencyKey =
        store.occurrenceIdByIdempotencyKey ∧
      ∀ subscription ∈ store.subscriptions,
        subscription ∈ (store.registerSubscription rules draft).2.subscriptions ∨
          subscription.subscriptionId =
            s!"subscription:{saturatingAdd store.nextSubscriptionSeq 1}" := by
  unfold registerSubscription
  split
  · exact ⟨rfl, rfl, fun subscription hsub => Or.inl hsub⟩
  · refine ⟨rfl, rfl, fun subscription hsub => ?_⟩
    by_cases hid : subscription.subscriptionId =
        s!"subscription:{saturatingAdd store.nextSubscriptionSeq 1}"
    · exact Or.inr hid
    · refine Or.inl (mem_cons_of_mem _ (mem_filter.mpr ⟨hsub, ?_⟩))
      exact bne_iff_ne.mpr hid

theorem cancelSubscription_keeps (sessionId handle : String) (store : TriggerStore Json Details) :
    (store.cancelSubscription sessionId handle).2.occurrences = store.occurrences ∧
      (store.cancelSubscription sessionId handle).2.occurrenceIdByIdempotencyKey =
        store.occurrenceIdByIdempotencyKey ∧
      ∀ subscription ∈ store.subscriptions,
        subscription ∈ (store.cancelSubscription sessionId handle).2.subscriptions ∨
          ∃ record, store.subscriptions.find? (isRegisteredAs sessionId handle) =
            some record ∧ subscription.subscriptionId = record.subscriptionId := by
  unfold cancelSubscription
  split
  · exact ⟨rfl, rfl, fun subscription hsub => Or.inl hsub⟩
  · next record hfound =>
      refine ⟨rfl, rfl, fun subscription hsub => ?_⟩
      by_cases hid : subscription.subscriptionId = record.subscriptionId
      · exact Or.inr ⟨record, hfound, hid⟩
      · exact Or.inl (mem_map.mpr ⟨subscription, hsub, if_neg hid⟩)

theorem Kept.stay (h : Kept backend rules history world)
    (hnot : ∀ occurrence, ¬ Records backend rules d occurrence) :
    Kept backend rules (d :: history) world :=
  h.next hnot rfl rfl (List.Subset.refl _)
    (fun subscription hsub _ _ _ hmatches => Or.inr ⟨subscription, hsub, rfl, hmatches⟩) h.emits

theorem Kept.record (hcollisions : rules.NoCollisions) (h : Kept backend rules history world)
    (id now : Nat) :
    Kept backend rules (entryAt (step backend rules) (.record id now) world :: history)
      (step backend rules (.record id now) world).2 := by
  rcases hemit : world.emits id with _ | ⟨request, hasRegistry, phase⟩
  · simp only [step, hemit]
    refine h.stay fun occurrence hrecords => ?_
    obtain ⟨_, _, _, _, _, hinput, hphase, -⟩ := hrecords
    cases hinput
    rw [show world.emits id = some _ from hphase] at hemit
    cases hemit
  · by_cases hphase : phase = .recording
    · subst hphase
      rcases hrecord : world.store.recordOccurrence backend rules request now with
        ⟨error | occurrence, store⟩
      · have hsame := recordOccurrence_error hrecord
        subst hsame
        simp only [step, hemit, hrecord]
        refine h.emit ?_ rfl rfl rfl (List.Subset.refl _) (List.Subset.refl _) rfl trivial
        rintro occurrence ⟨_, _, _, _, _, hinput, hother, -, hok⟩
        cases hinput
        cases hemit.symm.trans (show world.emits id = some _ from hother)
        rw [show world.store.recordOccurrence backend rules request now = _ from hok] at hrecord
        cases hrecord
      · have hrecords : ∀ other, Records backend rules
            (entryAt (step backend rules) (.record id now) world) other → other = occurrence ∧
              world.store.occurrenceIdByIdempotencyKey request.idempotencyKey = none := by
          rintro other ⟨_, _, _, _, _, hinput, hother, hkey, hok⟩
          cases hinput
          cases hemit.symm.trans (show world.emits id = some _ from hother)
          rw [show world.store.recordOccurrence backend rules request now = _ from hok] at hrecord
          cases hrecord
          exact ⟨rfl, hkey⟩
        simp only [step, hemit, hrecord]
        rcases recordOccurrence_ok hrecord with
          ⟨occurrenceId, requestHash, hid, hkey, hinsert⟩ | ⟨existingId, hkey, hexisting, hsame⟩
        · exact h.insert hcollisions hid hkey hinsert rfl
            fun other hother => (hrecords other hother).1
        · subst hsame
          refine h.emit ?_ rfl rfl rfl (List.Subset.refl _) (List.Subset.refl _) rfl ?_
          · intro other hother
            rw [(hrecords other hother).2] at hkey
            cases hkey
          · show (world.store.occurrences occurrence.occurrenceId).isSome
            rw [(h.recorded existingId occurrence hexisting).1, hexisting]
            rfl
    · have hstay : (step backend rules (.record id now) world).2 = world := by
        cases phase with
        | recording => exact absurd rfl hphase
        | recorded occurrence | starting occurrence remaining ids errors | ended =>
          simp only [step, hemit]
      rw [hstay]
      refine h.stay fun occurrence hrecords => ?_
      obtain ⟨_, _, _, _, _, hinput, hother, -⟩ := hrecords
      cases hinput
      cases hemit.symm.trans (show world.emits id = some _ from hother)
      exact hphase rfl

variable {result : Outcome Json Details (List (TriggerDeliveryReservation Json Details))}

theorem reserveMatching_store
    (h : store.reserveMatchingDeliveries backend rules occurrenceId = result) :
    result.2 = { store with deliveries := result.2.deliveries } := by
  subst h
  unfold reserveMatchingDeliveries
  split
  · rfl
  · split
    · rfl
    · cases backend <;> rfl

/-- Reserving only adds deliveries: an emit that is left with what it carries keeps the rest. -/
theorem Kept.reserving {emit : Emit Json Details} (h : Kept backend rules history world)
    (hnot : ∀ occurrence, ¬ Records backend rules d occurrence)
    (hreserve : world.store.reserveMatchingDeliveries backend rules occurrenceId = result)
    (hemit : emit.Carries (Owed backend rules history)
      (({ world with store := result.2 } : World Json Details).setEmit id emit)) :
    Kept backend rules (d :: history)
      (({ world with store := result.2 } : World Json Details).setEmit id emit) := by
  have hkept := reserveMatching_kept backend rules occurrenceId world.store
  rw [hreserve] at hkept
  have hstore := reserveMatching_store hreserve
  exact h.emit hnot (congrArg (·.occurrences) hstore)
    (congrArg (·.occurrenceIdByIdempotencyKey) hstore) (congrArg (·.subscriptions) hstore) hkept
    (List.Subset.refl _) rfl hemit

theorem Kept.preserved (hcollisions : rules.NoCollisions) (h : Kept backend rules history world)
    (hcalm : Calm rules (entryAt (step backend rules) input world)) :
    Kept backend rules (entryAt (step backend rules) input world :: history)
      (step backend rules input world).2 := by
  by_cases hrecord : ∃ id now, input = .record id now
  · obtain ⟨id, now, rfl⟩ := hrecord
    exact h.record hcollisions id now
  have hnot : ∀ occurrence, ¬ Records backend rules (entryAt (step backend rules) input world)
      occurrence := hnot_of_input fun id now hinput => hrecord ⟨id, now, hinput⟩
  cases input with
  | register draft =>
    obtain ⟨hoccurrences, hkeys, hkeeps⟩ := registerSubscription_keeps rules draft world.store
    refine h.subscriptions hnot hoccurrences hkeys
      (registerSubscription_deliveries rules draft world.store) fun subscription hsub => ?_
    exact (hkeeps subscription hsub).imp_right (hcalm subscription hsub)
  | cancel sessionId handle =>
    obtain ⟨hoccurrences, hkeys, hkeeps⟩ := cancelSubscription_keeps sessionId handle world.store
    refine h.subscriptions hnot hoccurrences hkeys
      (cancelSubscription_deliveries sessionId handle world.store) fun subscription hsub => ?_
    refine (hkeeps subscription hsub).imp_right ?_
    rintro ⟨record, hfound, hid⟩
    exact hcalm record subscription hfound hsub hid
  | deleteSession sessionId =>
    refine h.subscriptions hnot rfl rfl rfl
      fun subscription hsub => ?_
    by_cases hsession : subscription.registrantSessionId = some sessionId
    · exact Or.inr (hcalm subscription hsub hsession)
    · exact Or.inl (mem_filter.mpr ⟨hsub, bne_iff_ne.mpr hsession⟩)
  | emit id request hasRegistry =>
    simp only [step]
    split
    · exact h.stay hnot
    · exact h.emit hnot rfl rfl rfl (List.Subset.refl _) (List.Subset.refl _) rfl trivial
  | record id now => exact absurd ⟨id, now, rfl⟩ hrecord
  | reserve id =>
    simp only [step]
    split
    · next request hasRegistry occurrence hemit =>
        split
        · next hreserve => exact h.reserving hnot hreserve trivial
        · next reservations store hreserve =>
            refine h.reserving hnot hreserve ⟨?_, ?_⟩
            · show (store.occurrences occurrence.occurrenceId).isSome
              rw [show store.occurrences = world.store.occurrences from
                congrArg (·.occurrences) (reserveMatching_store hreserve)]
              exact h.emits id _ hemit
            · intro key howed hid
              exact h.reserved hreserve (hcalm _ _ _ hemit) howed hid
        · next hreserve => exact h.reserving hnot hreserve trivial
        · next hreserve => exact h.reserving hnot hreserve trivial
    · exact h.stay hnot
  | start id outcome =>
    simp only [step]
    split
    · next request hasRegistry occurrence reservation remaining ids errors hemit =>
        obtain ⟨hprepared, hstarted⟩ := hcalm _ _ _ _ _ _ _ hemit
        have hbegins := startDelivery_begins hprepared hstarted
        obtain ⟨hknown, hcarried⟩ := h.emits id _ hemit
        have hrest : ∀ key, Owed backend rules history key → key.1 = occurrence.occurrenceId →
            key ∈ reservation.key :: world.started ∨ key ∈ remaining.map (·.key) := by
          intro key howed hid
          rcases hcarried key howed hid with hmem | hmem
          · exact Or.inl (mem_cons_of_mem _ hmem)
          · rcases mem_cons.mp hmem with rfl | hmem
            · exact Or.inl mem_cons_self
            · exact Or.inr hmem
        rcases hstart : startDelivery rules reservation outcome with ⟨begun, error⟩
        rw [hstart] at hbegins
        cases hbegins
        cases error with
        | none | some message =>
          exact h.emit hnot rfl rfl rfl (List.Subset.refl _)
            (subset_cons_self _ _) rfl ⟨hknown, hrest⟩
    · exact h.stay hnot
  | finish id driver | crash id =>
    simp only [step]
    split
    · exact h.emit hnot rfl rfl rfl (List.Subset.refl _) (List.Subset.refl _) rfl trivial
    · exact h.stay hnot

/-! ### Whole runs -/

variable {report : TriggerEmitReport}

theorem emitResult_ok {ids errors : List String} {driver : Except PluginError Unit}
    (h : emitResult occurrence ids errors driver = .ok report) :
    report.occurrenceId = occurrence.occurrenceId := by
  unfold emitResult at h
  split at h
  · cases h
  · cases h
    rfl
  · split at h
    · cases h
    · cases h
      rfl

theorem Kept.returned (h : Kept backend rules history world)
    (hcalm : Calm rules (entryAt (step backend rules) input world))
    (hreturned : (step backend rules input world).1 = .returned (.ok report))
    {key : String × String} (howed : Owed backend rules history key)
    (hid : key.1 = report.occurrenceId) : key ∈ world.started := by
  cases input with
  | register draft | cancel sessionId handle | deleteSession sessionId => cases hreturned
  | emit id request hasRegistry | start id outcome | crash id =>
    simp only [step] at hreturned
    split at hreturned <;> cases hreturned
  | record id now =>
    simp only [step] at hreturned
    split at hreturned
    · split at hreturned <;> cases hreturned
    · cases hreturned
  | reserve id =>
    simp only [step] at hreturned
    split at hreturned
    · next hemit =>
        split at hreturned
        · cases hreturned
        · cases hreturned
        · next hreserve =>
            cases hreturned
            rcases h.reserved hreserve (hcalm _ _ _ hemit) howed hid with hmem | hmem
            · exact hmem
            · cases hmem
        · cases hreturned
    · cases hreturned
  | finish id driver =>
    simp only [step] at hreturned
    split at hreturned
    · next hemit =>
        have hok := emitResult_ok (Output.returned.inj hreturned)
        rcases (h.emits id _ hemit).2 key howed (hid.trans hok) with hmem | hmem
        · exact hmem
        · cases hmem
    · cases hreturned

theorem kept_initial : Kept backend rules [] (.initial : World Json Details) where
  recorded := fun _ _ h => by cases h
  known := fun _ h => by cases h
  owed := fun _ h => by cases h
  emits := fun _ _ h => by cases h

/-- An emit that returns Ok leaves no delivery of its occurrence unstarted. -/
def NothingLost (backend : Backend) (rules : TriggerRules Json Details)
    (history : List (Step Json Details)) : Prop :=
  ∀ newer older e report, history = newer ++ e :: older →
    e.output = .returned (.ok report) →
    ∀ key, Owed backend rules older key → key.1 = report.occurrenceId → key ∈ e.before.started

/-- Every pair of an occurrence and a subscription has its process started at most once. In a calm
run none that was owed is lost. -/
theorem deliveries_started_once (backend : Backend) (rules : TriggerRules Json Details)
    (hcollisions : rules.NoCollisions) :
    (∀ history world, Run (step backend rules) .initial history world → world.started.Nodup) ∧
      ∀ history world, Run (step backend rules) .initial history world →
        (∀ e ∈ history, Calm rules e) → NothingLost backend rules history := by
  refine ⟨fun history world run => (reachable_sound run.reachable).nodup,
    fun history world run hcalm newer older e report hshape hreturned key howed hid => ?_⟩
  obtain ⟨hbefore, hentry, -⟩ := run.split hshape
  have holder : ∀ d ∈ older, Calm rules d := fun d hd => hcalm d (by simp [hshape, hd])
  have hkept : Kept backend rules older e.before :=
    hbefore.invariant_of (P := Kept backend rules) (Q := Calm rules) kept_initial
      (fun _ _ _ _ hstep hkept => hkept.preserved hcollisions hstep) holder
  have hlast : Calm rules e := hcalm e (by simp [hshape])
  rw [hentry] at hlast hreturned
  exact hkept.returned hlast hreturned howed hid

def exampleRules : TriggerRules String Unit where
  validateDraft := fun _ => .ok ()
  requestHash := fun request => .ok request.payload
  occurrenceId := fun request => .ok request.idempotencyKey
  processId := fun occurrenceId subscriptionId => .ok (occurrenceId ++ subscriptionId)
  prepareStart := fun _ _ => .ok ()

theorem exampleRules_noCollisions : exampleRules.NoCollisions := by
  intro request request' id hid hid'
  exact Except.ok.inj (hid.trans hid'.symm)

def exampleRequest : TriggerOccurrenceRequest String := ⟨"button", "main", "{}", "click", none⟩

/-- A subscription, and an emit that has reserved its delivery. -/
def exampleBegin : List (Input String Unit) :=
  [.register ⟨"scope", none, "button", "main", ()⟩, .emit 0 exampleRequest true, .record 0 7,
    .reserve 0]

def exampleRun : List (Step String Unit) × World String Unit :=
  perform (step .sqlite exampleRules) (exampleBegin ++ [.start 0 .started, .finish 0 (.ok ())])
    ([], .initial)

def exampleCrash : List (Step String Unit) × World String Unit :=
  perform (step .sqlite exampleRules) (exampleBegin ++
    [.crash 0, .emit 1 exampleRequest true, .record 1 8, .reserve 1, .finish 1 (.ok ())])
    ([], .initial)

theorem exampleRun_calm : ∀ e ∈ exampleRun.1, Calm exampleRules e := by
  intro e he
  rcases mem_cons.mp he with rfl | he
  · trivial
  rcases mem_cons.mp he with rfl | he
  · exact fun _ _ _ _ _ _ _ _ => ⟨rfl, nofun⟩
  rcases mem_cons.mp he with rfl | he
  · intro _ _ _ _ key hkey
    cases hkey
  rcases mem_cons.mp he with rfl | he
  · trivial
  rcases mem_cons.mp he with rfl | he
  · trivial
  rcases mem_cons.mp he with rfl | he
  · intro _ hsub
    cases hsub
  · cases he

theorem deliveries_started_once_exampleRun :
    exampleRun.2.started.Nodup ∧ NothingLost .sqlite exampleRules exampleRun.1 := by
  obtain ⟨honce, hkept⟩ := deliveries_started_once .sqlite exampleRules exampleRules_noCollisions
  exact ⟨honce _ _ (Run.perform .nil _), hkept _ _ (Run.perform .nil _) exampleRun_calm⟩

/-- The retry after a crash returns Ok, and no process is ever started. -/
theorem crashed_emit_loses_delivery : ¬ NothingLost .sqlite exampleRules exampleCrash.1 := by
  intro h
  have howed : Owed .sqlite exampleRules exampleCrash.1.tail ("click", "subscription:1") := by
    -- the first record step, five entries before the second reservation
    refine ⟨_, .tail _ (.tail _ (.tail _ (.tail _ (.tail _ (.head _))))), ?_⟩
    exact ⟨⟨"click", "button", "main", "{}", "click", none, 7⟩,
      ⟨0, exampleRequest, true, 7, _, rfl, rfl, rfl, rfl⟩,
      ⟨"subscription:1", "scope", none, "trigger:1", "button", "main", (), true⟩,
      mem_cons_self, by decide, rfl⟩
  have hlost := h [] _ _ ⟨"click", []⟩ rfl (by decide +kernel) _ howed rfl
  exact absurd hlost (by decide +kernel)

end TriggerDeliveries
