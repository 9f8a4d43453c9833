import Lash.LocalProcesses
import Lash.Runs

/-!
# The log of a process

The log of a process is numbered from one, holds one terminal event at most, and the
status of the process is what that event says. The index of the replay keys points into
the log, so an append that is repeated finds its event there, and one that uses a key for
something else is refused.
-/

namespace ProcessLogs

open ProcessRecords LocalProcesses Runs List Option
open TestLocalProcessRegistry ManagedProcessRecord ProcessStatus

variable {rules : ProcessRules}

/-! ## What one append does to a log -/

section Appending

variable {managed managed' : ManagedProcessRecord rules} {request : ProcessEventAppendRequest rules}
  {result : ProcessEventAppendResult rules} {now : Nat} {error : PluginError}

variable (events : List (ProcessEvent rules))

/-- The outcomes that the events of a log say, in their order. -/
def terminals : List (ProcessTerminalState × rules.AwaitOutput) :=
  events.filterMap (·.semantics.terminal)

/-- The status that a log gives its process: what its first terminal event says. -/
def statusOf : ProcessStatus rules :=
  match (terminals events).head? with
  | some terminal => .fromTerminal terminal
  | none => .running

/-- The log of a process and what the record says of it. -/
structure Logged (managed : ManagedProcessRecord rules) : Prop where
  sequences : managed.events.map (·.sequence) = List.range' 1 managed.events.length
  once : (terminals managed.events).length ≤ 1
  status : managed.record.status = statusOf managed.events
  waiting : managed.record.isTerminal = true → managed.record.wait = none

/-- The index of the replay keys holds the keyed events of the log under their hashes. -/
structure Indexed (managed : ManagedProcessRecord rules) : Prop where
  found : ∀ key hash event, managed.keyedEvents key = some (hash, event) →
    event ∈ managed.events ∧ event.replay = some key ∧
      rules.payloadHash event.eventType event.payload = .ok hash
  keyed : ∀ event ∈ managed.events, ∀ key, event.replay = some key →
    ∃ hash, managed.keyedEvents key = some (hash, event)

/-- The parts of an event that was made for a request. -/
structure Answers (request : ProcessEventAppendRequest rules) (event : ProcessEvent rules) :
    Prop where
  eventType : event.eventType = request.eventType
  payload : event.payload = request.payload
  replay : event.replay = request.replay

/-- The event is of a declared type, and its semantics are what that type makes of its payload. -/
def Made (record : ProcessRecord rules) (event : ProcessEvent rules) : Prop :=
  ∃ declared, record.eventTypes.find? (·.name == event.eventType) = some declared ∧
    rules.materialize record.id event.sequence event.payload declared.semantics =
      .ok (event.semantics.terminal, event.semantics.wake)

variable {plan : ProcessEventAppendPlan rules} {record : ProcessRecord rules} {payloadHash : String}

theorem planInsert_ok {sequence : Nat}
    (h : planInsert record request sequence payloadHash now = .ok plan) :
    ∃ event wakeDelivery,
      plan = .insert event payloadHash (event.semantics.terminal.map fromTerminal)
        wakeDelivery now ∧
      event.sequence = sequence ∧ Answers request event ∧ Made record event ∧
      (event.semantics.terminal.isSome = true → record.isTerminal = false) := by
  simp only [planInsert, bind, Except.bind] at h
  split at h
  · cases h
  · rename_i declared hdeclared
    split at h
    · cases h
    · split at h
      · cases h
      · split at h
        · cases h
        · rename_i made hmade
          split at h
          · cases h
          · rename_i hrunning
            split at h
            · cases h
            · cases h
              refine ⟨_, _, rfl, rfl, ⟨rfl, rfl, rfl⟩, ⟨declared, hdeclared, hmade⟩,
                fun hsome => ?_⟩
              simp only at hsome
              rw [hsome, Bool.true_and] at hrunning
              simpa using hrunning

/-- What an append does that is accepted: it answers with the event of its replay key and repairs
the status, or adds an event. -/
inductive Appends (managed : ManagedProcessRecord rules)
    (request : ProcessEventAppendRequest rules) (now : Nat) :
    ProcessEventAppendResult rules → ManagedProcessRecord rules → Prop
  | replay {key hash : String} {event : ProcessEvent rules}
      {wakeDelivery : Option rules.WakeDelivery} (named : request.replay = some key)
      (found : managed.keyedEvents key = some (hash, event))
      (same : rules.payloadHash request.eventType request.payload = .ok hash) :
      Appends managed request now ⟨event, wakeDelivery⟩
        (managed.applyPlan (.replay event
          (event.semantics.terminal.bind fun terminal =>
            if managed.record.isTerminal then none else some (ProcessStatus.fromTerminal terminal))
          wakeDelivery event.occurredAtMs)).2
  | insert {hash : String} {event : ProcessEvent rules}
      {wakeDelivery : Option rules.WakeDelivery}
      (unseen : ∀ key, request.replay = some key → managed.keyedEvents key = none)
      (hashed : rules.payloadHash request.eventType request.payload = .ok hash)
      (sequence : event.sequence = managed.events.length + 1) (answers : Answers request event)
      (made : Made managed.record event)
      (running : event.semantics.terminal.isSome = true → managed.record.isTerminal = false) :
      Appends managed request now ⟨event, wakeDelivery⟩
        (managed.applyPlan (.insert event hash
          (event.semantics.terminal.map ProcessStatus.fromTerminal) wakeDelivery now)).2

theorem planReplay_ok {key existingHash : String} {existing : ProcessEvent rules}
    (h : planReplay record request key payloadHash existingHash existing = .ok plan) :
    existingHash = payloadHash ∧ ∃ wakeDelivery, plan = .replay existing
      (existing.semantics.terminal.bind fun terminal =>
        if record.isTerminal then none else some (fromTerminal terminal))
      wakeDelivery existing.occurredAtMs := by
  rw [planReplay] at h
  split at h
  · rename_i hsame
    dsimp only at h
    split at h
    · cases h
      exact ⟨hsame, _, rfl⟩
    · cases h
  · cases h

theorem appendEvent_ok (h : managed.appendEvent request now = .ok (result, managed')) :
    Appends managed request now result managed' := by
  rw [ManagedProcessRecord.appendEvent] at h
  split at h
  · cases h
  · rename_i plan hplan
    obtain ⟨rfl, rfl⟩ := Prod.mk.inj (Except.ok.inj h)
    simp only [prepareProcessEventAppend, bind, Except.bind] at hplan
    split at hplan
    · cases hplan
    · rename_i hash hhash
      cases hreplay : request.replay with
      | none =>
        rw [hreplay] at hplan
        obtain ⟨event, wakeDelivery, rfl, hsequence, hanswers, hmade, hrunning⟩ :=
          planInsert_ok hplan
        exact .insert (fun key hkey => by cases hreplay.symm.trans hkey) hhash hsequence hanswers
          hmade hrunning
      | some key =>
        rw [hreplay, bind_some] at hplan
        cases hlookup : managed.keyedEvents key with
        | none =>
          rw [hlookup] at hplan
          obtain ⟨event, wakeDelivery, rfl, hsequence, hanswers, hmade, hrunning⟩ :=
            planInsert_ok hplan
          refine .insert (fun other hother => ?_) hhash hsequence hanswers hmade hrunning
          obtain rfl := some.inj (hreplay.symm.trans hother)
          exact hlookup
        | some found =>
          obtain ⟨existingHash, existing⟩ := found
          rw [hlookup] at hplan
          obtain ⟨rfl, wakeDelivery, rfl⟩ := planReplay_ok hplan
          exact .replay hreplay hlookup hhash

/-! ## The log stays a log -/

theorem terminals_concat (event : ProcessEvent rules) :
    terminals (events ++ [event]) = terminals events ++ event.semantics.terminal.toList := by
  rw [terminals, terminals, filterMap_append, filterMap_cons, filterMap_nil]
  cases event.semantics.terminal <;> rfl

/-- A log with a terminal event belongs to a process that has ended, and the other way round. -/
theorem Logged.isTerminal_iff (logged : Logged managed) :
    managed.record.isTerminal = true ↔ terminals managed.events ≠ [] := by
  rw [ProcessRecord.isTerminal, logged.status, statusOf]
  cases hterminals : terminals managed.events with
  | nil => simp [isTerminal]
  | cons terminal rest => simp

theorem Logged.terminals_nil (logged : Logged managed)
    (running : managed.record.isTerminal = false) : terminals managed.events = [] := by
  refine Classical.byContradiction fun hne => ?_
  rw [logged.isTerminal_iff.mpr hne] at running
  cases running

theorem keyedEvents_insert (managed : ManagedProcessRecord rules) (event : ProcessEvent rules)
    (hash : String) (status : Option (ProcessStatus rules))
    (wakeDelivery : Option rules.WakeDelivery) (key : String) :
    (managed.applyPlan (.insert event hash status wakeDelivery now)).2.keyedEvents key =
      if event.replay = some key then some (hash, event) else managed.keyedEvents key := by
  cases hreplay : event.replay with
  | none => simp [applyPlan, hreplay]
  | some other => simp [applyPlan, hreplay, eq_comm]

section Inserting

variable {hash : String} {event : ProcessEvent rules} {wakeDelivery : Option rules.WakeDelivery}

theorem Logged.insert (logged : Logged managed)
    (sequence : event.sequence = managed.events.length + 1)
    (running : event.semantics.terminal.isSome = true → managed.record.isTerminal = false) :
    Logged (managed.applyPlan (.insert event hash
      (event.semantics.terminal.map fromTerminal) wakeDelivery now)).2 := by
  have hsequences : (managed.events ++ [event]).map (·.sequence) =
      range' 1 (managed.events ++ [event]).length := by
    rw [map_append, logged.sequences, length_append, length_singleton, range'_concat]
    simp [sequence, Nat.add_comm]
  cases hterminal : event.semantics.terminal with
  | none =>
    have hsame : terminals (managed.events ++ [event]) = terminals managed.events := by
      rw [terminals_concat, hterminal]
      simp
    refine ⟨hsequences, ?_, ?_, logged.waiting⟩
    · exact (congrArg length hsame).trans_le logged.once
    · refine logged.status.trans ?_
      simp only [statusOf, applyPlan, hsame]
  | some terminal =>
    have hempty := logged.terminals_nil (running (by rw [hterminal]; rfl))
    have honly : terminals (managed.events ++ [event]) = [terminal] := by
      rw [terminals_concat, hterminal, hempty]
      rfl
    refine ⟨hsequences, ?_, ?_, fun _ => ?_⟩
    · exact (congrArg length honly).le
    · simp only [statusOf, applyPlan, honly, head?_cons]
      rfl
    · simp [applyPlan, applyProcessStatusProjection]

theorem Indexed.insert (indexed : Indexed managed)
    (unseen : ∀ key, request.replay = some key → managed.keyedEvents key = none)
    (hashed : rules.payloadHash request.eventType request.payload = .ok hash)
    (answers : Answers request event) (status : Option (ProcessStatus rules)) :
    Indexed (managed.applyPlan (.insert event hash status wakeDelivery now)).2 := by
  have hevents : (managed.applyPlan (.insert event hash status wakeDelivery now)).2.events =
      managed.events ++ [event] := rfl
  refine ⟨fun key hash' found hfound => ?_, fun found hmem key hkey => ?_⟩
  · rw [keyedEvents_insert] at hfound
    rw [hevents]
    split at hfound
    · rename_i hreplay
      obtain ⟨rfl, rfl⟩ := Prod.mk.inj (some.inj hfound)
      rw [answers.eventType, answers.payload]
      exact ⟨mem_append_right _ mem_cons_self, hreplay, hashed⟩
    · obtain ⟨hmem, hrest⟩ := indexed.found key hash' found hfound
      exact ⟨mem_append_left _ hmem, hrest⟩
  · rw [keyedEvents_insert]
    rw [hevents] at hmem
    rcases mem_append.mp hmem with hold | hnew
    · obtain ⟨hash', hfound⟩ := indexed.keyed found hold key hkey
      have hne : event.replay ≠ some key := by
        intro hsame
        rw [unseen key (by rw [← answers.replay, hsame])] at hfound
        cases hfound
      exact ⟨hash', by rw [if_neg hne, hfound]⟩
    · obtain rfl := mem_singleton.mp hnew
      exact ⟨hash, if_pos hkey⟩

end Inserting

/-- A repeated append has no status to repair. -/
theorem repair_none {key hash : String} {event : ProcessEvent rules} (logged : Logged managed)
    (indexed : Indexed managed) (found : managed.keyedEvents key = some (hash, event)) :
    (event.semantics.terminal.bind fun terminal =>
      if managed.record.isTerminal then none
      else some (fromTerminal terminal)) = none := by
  obtain ⟨hmem, _, _⟩ := indexed.found key hash event found
  cases hterminal : event.semantics.terminal with
  | none => rfl
  | some terminal =>
    have hthere : terminal ∈ terminals managed.events := mem_filterMap.mpr ⟨event, hmem, hterminal⟩
    have hended := logged.isTerminal_iff.mpr (ne_nil_of_mem hthere)
    rw [bind_some, if_pos hended]

/-- An append that is accepted keeps a log a log and its events. -/
theorem Logged.appends (logged : Logged managed) (indexed : Indexed managed)
    (appends : Appends managed request now result managed') :
    Logged managed' ∧ Indexed managed' ∧ managed.events <+: managed'.events := by
  cases appends with
  | @replay key hash event wakeDelivery named found same =>
    rw [repair_none logged indexed found]
    exact ⟨logged, indexed, prefix_rfl⟩
  | insert unseen hashed sequence answers made running =>
    exact ⟨logged.insert sequence running, indexed.insert unseen hashed answers _,
      prefix_append _ _⟩

/-! ## Appends that are repeated -/

/-- No two events have one hash. -/
def Distinguishes (rules : ProcessRules) : Prop :=
  ∀ eventType payload eventType' payload' hash, rules.payloadHash eventType payload = .ok hash →
    rules.payloadHash eventType' payload' = .ok hash → eventType = eventType' ∧ payload = payload'

/-- A wake delivery can be made for every wake: two texts can always be hashed. -/
def Delivers (rules : ProcessRules) : Prop :=
  ∀ scope processId sequence eventType replay details wake occurredAtMs, ∃ delivery,
    rules.wakeDelivery scope processId sequence eventType replay details wake occurredAtMs =
      .ok delivery

theorem prepareWakeDelivery_ok (delivers : Delivers rules) (record : ProcessRecord rules)
    (processId : String) (sequence : Nat) (eventType : String) (replay : Option String)
    (wake : Option rules.Wake) (scope : Option SessionScope) :
    ∃ delivery, prepareWakeDelivery processId record sequence eventType replay now wake scope =
      .ok delivery := by
  cases wake with
  | none => exact ⟨none, rfl⟩
  | some wake =>
    cases scope with
    | none => exact ⟨none, rfl⟩
    | some scope =>
      obtain ⟨delivery, hdelivery⟩ :=
        delivers scope processId sequence eventType replay record.details wake now
      refine ⟨some delivery, ?_⟩
      simp only [prepareWakeDelivery, hdelivery]

variable {key : String} {original : ProcessEvent rules}

/-- The same append again answers with its event and changes nothing. -/
theorem append_repeated (now : Nat) (delivers : Delivers rules) (logged : Logged managed)
    (indexed : Indexed managed) (mem : original ∈ managed.events)
    (keyed : original.replay = some key) (named : request.replay = some key)
    (eventType : request.eventType = original.eventType)
    (payload : request.payload = original.payload) :
    ∃ wakeDelivery, managed.appendEvent request now = .ok (⟨original, wakeDelivery⟩, managed) := by
  obtain ⟨hash, hfound⟩ := indexed.keyed original mem key keyed
  obtain ⟨_, _, hhash⟩ := indexed.found key hash original hfound
  obtain ⟨wakeDelivery, hwake⟩ := @prepareWakeDelivery_ok rules original.occurredAtMs delivers
    managed.record managed.record.id original.sequence original.eventType original.replay
    original.semantics.wake (request.wakeTargetScope.or managed.record.wakeTarget)
  refine ⟨wakeDelivery, ?_⟩
  rw [← eventType, ← payload] at hhash
  simp only [ManagedProcessRecord.appendEvent, prepareProcessEventAppend, bind, Except.bind, hhash,
    named, bind_some, hfound, planReplay, if_true, hwake, repair_none logged indexed hfound]
  rfl

/-- The key of an event does not go to another one. -/
theorem append_conflict (now : Nat) (distinguishes : Distinguishes rules)
    (indexed : Indexed managed)
    (mem : original ∈ managed.events) (keyed : original.replay = some key)
    (named : request.replay = some key)
    (other : request.eventType ≠ original.eventType ∨ request.payload ≠ original.payload) :
    ∃ error, managed.appendEvent request now = .error error := by
  obtain ⟨hash, hfound⟩ := indexed.keyed original mem key keyed
  obtain ⟨_, _, hhash⟩ := indexed.found key hash original hfound
  cases hrequest : rules.payloadHash request.eventType request.payload with
  | error error =>
    refine ⟨error, ?_⟩
    simp only [ManagedProcessRecord.appendEvent, prepareProcessEventAppend, bind, Except.bind,
      hrequest]
  | ok requestHash =>
    have hne : hash ≠ requestHash := by
      rintro rfl
      obtain ⟨htype, hpayload⟩ := distinguishes _ _ _ _ _ hrequest hhash
      exact other.elim (fun h => h htype) fun h => h hpayload
    simp only [ManagedProcessRecord.appendEvent, prepareProcessEventAppend, bind, Except.bind,
      hrequest, named, bind_some, hfound, planReplay, if_neg hne]
    exact ⟨_, rfl⟩

end Appending

/-! ## Registries over a run -/

section Registries

variable {registry : TestLocalProcessRegistry rules}

inductive LogOp (rules : ProcessRules) where
  | register (registration : PreparedRegistration rules) (registrationHash : String) (now : Nat)
  | appendEvent (processId : String) (request : ProcessEventAppendRequest rules) (now : Nat)
  | completeProcess (processId : String) (awaitOutput : rules.AwaitOutput) (now : Nat)
  | setProcessWait (processId : String) (wait : rules.WaitState) (now : Nat)
  | clearProcessWait (processId : String) (now : Nat)

inductive LogAnswer (rules : ProcessRules) where
  | record (result : Except PluginError (ProcessRecord rules))
  | event (result : Except PluginError (ProcessEventAppendResult rules))

variable (op : LogOp rules)

def logStep (registry : TestLocalProcessRegistry rules) :
    LogAnswer rules × TestLocalProcessRegistry rules :=
  match op with
  | .register registration registrationHash now =>
    let (result, registry) := registry.insertPrepared registration registrationHash now
    (.record result, registry)
  | .appendEvent processId request now =>
    let (result, registry) := registry.appendEvent processId request now
    (.event result, registry)
  | .completeProcess processId awaitOutput now =>
    let (result, registry) := registry.completeProcess processId awaitOutput now
    (.record result, registry)
  | .setProcessWait processId wait now =>
    let (result, registry) := registry.setProcessWait processId wait now
    (.record result, registry)
  | .clearProcessWait processId now =>
    let (result, registry) := registry.clearProcessWait processId now
    (.record result, registry)

def emptyRegistry : TestLocalProcessRegistry rules where
  managed := fun _ => none
  grants := fun _ _ => none
  leases := fun _ => none

/-- Every process of the registry has its log and its index. -/
def Sound (registry : TestLocalProcessRegistry rules) : Prop :=
  ∀ processId managed, registry.managed processId = some managed →
    Logged managed ∧ Indexed managed

/-- Every process stays, and its log only grows. -/
def Grows (registry registry' : TestLocalProcessRegistry rules) : Prop :=
  ∀ processId managed, registry.managed processId = some managed →
    ∃ managed', registry'.managed processId = some managed' ∧
      managed.events <+: managed'.events

theorem Grows.refl (registry : TestLocalProcessRegistry rules) : Grows registry registry :=
  fun _ managed h => ⟨managed, h, List.prefix_rfl⟩

theorem Grows.trans {second third : TestLocalProcessRegistry rules} (h : Grows registry second)
    (h' : Grows second third) : Grows registry third := by
  intro processId managed hmanaged
  obtain ⟨managed', hmanaged', hprefix⟩ := h processId managed hmanaged
  obtain ⟨managed'', hmanaged'', hprefix'⟩ := h' processId managed' hmanaged'
  exact ⟨managed'', hmanaged'', hprefix.trans hprefix'⟩

variable {processId : String}

/-- What a call does to the registry: nothing, or it sets one process to one whose log is sound and
has grown, if there was one. -/
theorem sound_set {managed' : ManagedProcessRecord rules} (sound : Sound registry)
    (next : Logged managed' ∧ Indexed managed')
    (grown : ∀ managed, registry.managed processId = some managed →
      managed.events <+: managed'.events) :
    Sound (registry.setManaged processId managed') ∧
      Grows registry (registry.setManaged processId managed') := by
  constructor
  · intro other found hfound
    simp only [setManaged] at hfound
    split at hfound
    · obtain rfl := some.inj hfound
      exact next
    · exact sound other found hfound
  · intro other found hfound
    simp only [setManaged]
    by_cases hsame : other = processId
    · subst hsame
      exact ⟨managed', if_pos rfl, grown found hfound⟩
    · exact ⟨found, by rw [if_neg hsame, hfound], prefix_rfl⟩

variable {managed : ManagedProcessRecord rules}

/-- A record whose log and status stay. -/
theorem Logged.withWait (logged : Logged managed) (wait : Option rules.WaitState) (now : Nat)
    (allowed : managed.record.isTerminal = true → wait = none) :
    Logged { managed with
      record := { managed.record with wait := wait, updatedAtMs := now } } :=
  ⟨logged.sequences, logged.once, logged.status, allowed⟩

/-- What a call makes of the registry. -/
inductive Moves (registry : TestLocalProcessRegistry rules) (op : LogOp rules) :
    TestLocalProcessRegistry rules → Prop
  | stays : Moves registry op registry
  | registered {registration : PreparedRegistration rules} {registrationHash : String} {now : Nat}
      (called : op = .register registration registrationHash now)
      (new : registry.managed registration.id = none) :
      Moves registry op (registry.setManaged registration.id
        { record := TestLocalProcessRegistry.fromPreparedRegistration registration
            registrationHash now
          events := [], keyedEvents := fun _ => none, ackedWakes := [] })
  | appended {processId : String} {managed managed' : ManagedProcessRecord rules}
      {request : ProcessEventAppendRequest rules} {now : Nat}
      {result : ProcessEventAppendResult rules} (found : registry.managed processId = some managed)
      (appends : Appends managed request now result managed') :
      Moves registry op (registry.setManaged processId managed')
  | waits {processId : String} {managed : ManagedProcessRecord rules}
      {wait : Option rules.WaitState} {now : Nat}
      (found : registry.managed processId = some managed)
      (allowed : managed.record.isTerminal = true → wait = none) :
      Moves registry op (registry.setManaged processId { managed with
        record := { managed.record with wait := wait, updatedAtMs := now } })

theorem appendEvent_moves (processId : String) (request : ProcessEventAppendRequest rules)
    (now : Nat) : Moves registry op (registry.appendEvent processId request now).2 := by
  rcases appendEvent_cases registry processId request now with hsame | hset
  · rw [hsame]
    exact .stays
  · obtain ⟨managed, managed', result, hmanaged, happend, hresult⟩ := hset
    rw [hresult]
    exact .appended hmanaged (appendEvent_ok happend)

theorem logStep_moves : Moves registry op (logStep op registry).2 := by
  cases op with
  | register registration registrationHash now =>
    simp only [logStep, insertPrepared]
    split
    · split <;> exact .stays
    · rename_i hnew
      exact .registered rfl hnew
  | appendEvent processId request now => exact appendEvent_moves _ processId request now
  | completeProcess processId awaitOutput now =>
    simp only [logStep, completeProcess_registry]
    exact appendEvent_moves _ processId _ now
  | setProcessWait processId wait now =>
    simp only [logStep, setProcessWait]
    split
    · exact .stays
    · rename_i managed hmanaged
      split
      · exact .stays
      · rename_i hrunning
        exact .waits hmanaged fun hended => absurd hended hrunning
  | clearProcessWait processId now =>
    simp only [logStep, clearProcessWait]
    split
    · exact .stays
    · rename_i managed hmanaged
      exact .waits hmanaged fun _ => rfl

theorem step_sound (sound : Sound registry) (op : LogOp rules) :
    Sound (logStep op registry).2 ∧ Grows registry (logStep op registry).2 := by
  generalize hnext : (logStep op registry).2 = next
  have hmoves : Moves registry op next := hnext ▸ logStep_moves op
  cases hmoves with
  | stays => exact ⟨sound, .refl registry⟩
  | registered called new =>
    refine sound_set sound ⟨⟨rfl, Nat.zero_le _, rfl, fun _ => rfl⟩, ?_⟩ fun found hfound => ?_
    · exact ⟨fun _ _ _ h => (by cases h), fun _ h => (by cases h)⟩
    · rw [new] at hfound
      cases hfound
  | @appended processId managed managed' request now result found appends =>
    obtain ⟨logged, indexed⟩ := sound processId managed found
    obtain ⟨logged', indexed', hprefix⟩ := logged.appends indexed appends
    refine sound_set sound ⟨logged', indexed'⟩ fun other hother => ?_
    obtain rfl := some.inj (found.symm.trans hother)
    exact hprefix
  | @waits processId managed wait now found allowed =>
    obtain ⟨logged, indexed⟩ := sound processId managed found
    refine sound_set sound ⟨logged.withWait wait now allowed,
      ⟨indexed.found, indexed.keyed⟩⟩ fun other hother => ?_
    obtain rfl := some.inj (found.symm.trans hother)
    exact prefix_rfl

abbrev LogHistory (rules : ProcessRules) :=
  List (Entry (LogOp rules) (TestLocalProcessRegistry rules) (LogAnswer rules))

variable {history : LogHistory rules}

/-- Over a run from a sound registry. -/
theorem run_sound {start : TestLocalProcessRegistry rules} (sound : Sound start)
    (run : Run logStep start history registry) : Sound registry ∧ Grows start registry := by
  refine run.invariant (P := fun _ registry => Sound registry ∧ Grows start registry)
    ⟨sound, .refl start⟩ ?_
  rintro history registry op _ ⟨hsound, hgrows⟩
  obtain ⟨hnext, hgrown⟩ := step_sound hsound op
  exact ⟨hnext, hgrows.trans hgrown⟩

theorem sound_empty : Sound (emptyRegistry : TestLocalProcessRegistry rules) := by
  intro processId managed hmanaged
  cases hmanaged

/-- What a log says about the status stays when the log grows. -/
theorem statusOf_prefix {events events' : List (ProcessEvent rules)} (grown : events <+: events')
    (ended : terminals events ≠ []) : statusOf events' = statusOf events := by
  obtain ⟨added, rfl⟩ := grown
  have happend : terminals (events ++ added) = terminals events ++ terminals added := by
    rw [terminals, terminals, terminals, filterMap_append]
  rw [statusOf, statusOf, happend, head?_append_of_ne_nil _ ended]

/-- The law of process logs after a history. -/
structure LogLaw (history : LogHistory rules) (registry : TestLocalProcessRegistry rules) :
    Prop where
  logged : ∀ processId managed, registry.managed processId = some managed → Logged managed
  settled : ∀ e ∈ history, ∀ processId managed, e.after.managed processId = some managed →
    managed.record.isTerminal = true →
    ∃ managed', registry.managed processId = some managed' ∧
      managed'.record.status = managed.record.status
  repeated : ∀ processId managed key original request now,
    registry.managed processId = some managed → original ∈ managed.events →
    original.replay = some key → request.replay = some key →
    request.eventType = original.eventType → request.payload = original.payload →
    ∃ wakeDelivery,
      registry.appendEvent processId request now = (.ok ⟨original, wakeDelivery⟩, registry)
  conflicting : ∀ processId managed key original request now,
    registry.managed processId = some managed → original ∈ managed.events →
    original.replay = some key → request.replay = some key →
    request.eventType ≠ original.eventType ∨ request.payload ≠ original.payload →
    ∃ error, registry.appendEvent processId request now = (.error error, registry)

theorem setManaged_self (h : registry.managed processId = some managed) :
    registry.setManaged processId managed = registry := by
  have hmanaged : (fun id => if id = processId then some managed else registry.managed id) =
      registry.managed := by
    funext id
    by_cases hid : id = processId
    · rw [if_pos hid, hid, h]
    · rw [if_neg hid]
  rw [setManaged, hmanaged]

/-- Over all runs of registrations, appends, completions and waits: logs are numbered from one, hold
one terminal event at most, which gives the status for good, a process that has ended does not wait,
and a replay key stands for one event. -/
theorem process_logs_sound (distinguishes : Distinguishes rules) (delivers : Delivers rules)
    (run : Run logStep emptyRegistry history registry) : LogLaw history registry := by
  obtain ⟨hsound, _⟩ := run_sound sound_empty run
  refine ⟨?_, ?_, ?_, ?_⟩
  · intro processId managed hmanaged
    exact (hsound processId managed hmanaged).1
  · intro e he processId managed hmanaged hended
    obtain ⟨newer, older, shape⟩ := append_of_mem he
    obtain ⟨hearlier, hentry, hnewer⟩ := run.split shape
    have hafter : Sound e.after := by
      obtain ⟨hbefore, _⟩ := run_sound sound_empty hearlier
      rw [hentry]
      exact (step_sound hbefore e.input).1
    obtain ⟨_, hgrows⟩ := run_sound hafter hnewer
    obtain ⟨managed', hmanaged', hprefix⟩ := hgrows processId managed hmanaged
    have hlog := (hafter processId managed hmanaged).1
    have hlog' := (hsound processId managed' hmanaged').1
    refine ⟨managed', hmanaged', ?_⟩
    rw [hlog'.status, hlog.status, statusOf_prefix hprefix (hlog.isTerminal_iff.mp hended)]
  · intro processId managed key original request now hmanaged hmem hkeyed hnamed htype hpayload
    obtain ⟨hlog, hindexed⟩ := hsound processId managed hmanaged
    obtain ⟨wakeDelivery, happend⟩ := append_repeated now delivers hlog hindexed hmem
      hkeyed hnamed htype hpayload
    refine ⟨wakeDelivery, ?_⟩
    simp only [TestLocalProcessRegistry.appendEvent, hmanaged, happend, setManaged_self hmanaged]
  · intro processId managed key original request now hmanaged hmem hkeyed hnamed hother
    obtain ⟨_, hindexed⟩ := hsound processId managed hmanaged
    obtain ⟨error, happend⟩ := append_conflict now distinguishes hindexed hmem hkeyed
      hnamed hother
    refine ⟨error, ?_⟩
    simp only [TestLocalProcessRegistry.appendEvent, hmanaged, happend]

/-- Payloads are one bit, and an event type ends the process as it says. -/
def bitRules : ProcessRules where
  Json := Bool
  Schema := Unit
  SemanticsSpec := Option ProcessTerminalState
  AwaitOutput := ProcessTerminalState
  Wake := Unit
  WakeDelivery := Unit
  WaitState := Unit
  ExternalRef := Unit
  Details := Unit
  payloadHash eventType payload := .ok ((if payload then "1" else "0") ++ eventType)
  validate _ _ := .ok ()
  declaresTerminal := Option.isSome
  materialize _ _ _ spec := .ok (spec.map fun state => (state, state), none)
  wakeDelivery _ _ _ _ _ _ _ _ := .ok ()
  terminalState := id
  executionFailure _ _ := .failed
  awaitOutputPayload _ := true

theorem bitRules_distinguishes : Distinguishes bitRules := by
  intro eventType payload eventType' payload' hash h h'
  have htext := Except.ok.inj (h.trans h'.symm)
  have hlist := congrArg String.toList htext
  rw [String.toList_append, String.toList_append] at hlist
  cases payload <;> cases payload' <;> simp at hlist
  · exact ⟨String.toList_inj.mp hlist, rfl⟩
  · exact ⟨String.toList_inj.mp hlist, rfl⟩

theorem bitRules_delivers : Delivers bitRules := fun _ _ _ _ _ _ _ _ => ⟨(), rfl⟩

/-- A keyed event and a wait, then the process is completed twice and the key is used again. -/
def loggedOps : List (LogOp bitRules) :=
  [.register ⟨"p", (), [⟨"note", (), none⟩, ⟨"process.completed", (), some .completed⟩], none⟩
      "h" 0,
    .appendEvent "p" ⟨"note", true, some "k", none⟩ 1, .setProcessWait "p" () 2,
    .completeProcess "p" .completed 3, .completeProcess "p" .completed 4,
    .appendEvent "p" ⟨"note", false, some "k", none⟩ 5]

theorem process_logs_sound_completed : LogLaw (perform logStep loggedOps ([], emptyRegistry)).1
      (perform logStep loggedOps ([], emptyRegistry)).2 :=
  process_logs_sound bitRules_distinguishes bitRules_delivers (Run.nil.perform loggedOps)

end Registries

end ProcessLogs
