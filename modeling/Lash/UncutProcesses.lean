import Lash.ProcessReplays

/-!
# Lashlang processes that are never cut

An uncut run appends its events under fresh keys, so none is refused and the log holds them in
the order of the requests. What it was answered can be read off the runtime behind it: the
events are in the log and the answers of the effects are recorded.
-/

namespace UncutProcesses

open ScriptBuiltins ProcessRecords LocalProcesses ProcessEventTypes ProcessLogs ReplayedClients
  LashlangProcesses ProcessReplays List Option Prod Client

/-! ## The registry -/

section Registry

variable {host : ProcessHost} {managed managed' : Managed host} {now : Nat} {key : String}
  {request : ProcessEventAppendRequest (rules (lashlangHost host))}
  {result : ProcessEventAppendResult (rules (lashlangHost host))}

/-- An append under a fresh key of a declared event that ends nothing. -/
theorem append_accepted {rules : ProcessRules} {managed : ManagedProcessRecord rules}
    {request : ProcessEventAppendRequest rules} {declared : ProcessEventType rules} {hash : String}
    {wake : Option rules.Wake} (delivers : Delivers rules)
    (hashed : rules.payloadHash request.eventType request.payload = .ok hash)
    (fresh : request.replay.bind managed.keyedEvents = none)
    (found : managed.record.eventTypes.find? (·.name == request.eventType) = some declared)
    (replay : requireEventReplay managed.record.id request declared.semantics = .ok ())
    (valid : rules.validate declared.payloadSchema request.payload = .ok ())
    (made : rules.materialize managed.record.id (managed.events.length + 1) request.payload
      declared.semantics = .ok (none, wake)) :
    ∃ answer, managed.appendEvent request now = .ok answer := by
  obtain ⟨delivery, hdelivery⟩ := @prepareWakeDelivery_ok rules now delivers managed.record
    managed.record.id (managed.events.length + 1) request.eventType request.replay wake
    (request.wakeTargetScope.or managed.record.wakeTarget)
  refine ⟨managed.applyPlan (.insert ⟨managed.record.id, managed.events.length + 1,
    request.eventType, request.payload, request.replay, ⟨none, wake⟩, now⟩ hash none delivery now),
    ?_⟩
  simp only [ManagedProcessRecord.appendEvent, prepareProcessEventAppend, bind, Except.bind, hashed,
    fresh, planInsert, found, replay, valid, made, isSome_none, Bool.false_and,
    Bool.false_eq_true, if_false, hdelivery, map_none]
  cases request.replay with
  | none | some key => rfl

/-- What the runtime relies on: any value fits the schema of lashlang events, the text of an event
is pointed to by its name, and events and wakes can be hashed. -/
structure Accepting (host : ProcessHost) : Prop where
  any : ∀ payload, host.validate host.anySchema payload = .ok ()
  text : ∀ text value,
    host.pointer (.object [("text", text), ("value", value)]) "/text" = some text
  hashes : ∀ eventType payload, ∃ hash, host.payloadHash eventType payload = .ok hash
  delivers : Delivers (rules (lashlangHost host))

/-- The wait of a process plays no part in its appends. -/
theorem appendEvent_unwaited :
    ((unwaited managed).appendEvent request now).map (Prod.map id unwaited) =
      (managed.appendEvent request now).map (Prod.map id unwaited) := by
  have hplan : prepareProcessEventAppend (unwaited managed).record request
      ((unwaited managed).events.length + 1) (request.replay.bind (unwaited managed).keyedEvents)
        now =
      prepareProcessEventAppend managed.record request (managed.events.length + 1)
        (request.replay.bind managed.keyedEvents) now := rfl
  rw [ManagedProcessRecord.appendEvent, ManagedProcessRecord.appendEvent, hplan]
  cases prepareProcessEventAppend managed.record request (managed.events.length + 1)
      (request.replay.bind managed.keyedEvents) now with
  | error error => rfl
  | ok plan =>
    cases plan with
    | insert event hash status wakeDelivery occurredAtMs
    | replay event status wakeDelivery occurredAtMs =>
      cases status with
      | none | some status => rfl

section

variable (same : unwaited managed' = unwaited managed)
include same

theorem appendEvent_same :
    (managed'.appendEvent request now).map (Prod.map id unwaited) =
      (managed.appendEvent request now).map (Prod.map id unwaited) := by
  rw [← appendEvent_unwaited, same, appendEvent_unwaited]

theorem appendEvent_follows {next : Managed host}
    (h : managed.appendEvent request now = .ok (result, next)) :
    ∃ next', managed'.appendEvent request now = .ok (result, next') ∧
      unwaited next' = unwaited next := by
  have hsame : (managed'.appendEvent request now).map (map id unwaited) =
      (managed.appendEvent request now).map (map id unwaited) := appendEvent_same same
  rw [h] at hsame
  cases hnext : managed'.appendEvent request now with
  | error error =>
    rw [hnext] at hsame
    cases hsame
  | ok answer =>
    rw [hnext] at hsame
    obtain ⟨hresult, hmanaged⟩ := mk.inj (Except.ok.inj hsame)
    exact ⟨answer.2, by rw [← show answer.1 = result from hresult], hmanaged⟩

theorem appendEvent_refused {error : PluginError}
    (h : managed.appendEvent request now = .error error) :
    managed'.appendEvent request now = .error error := by
  have hsame : (managed'.appendEvent request now).map (map id unwaited) =
      (managed.appendEvent request now).map (map id unwaited) := appendEvent_same same
  rw [h] at hsame
  cases hnext : managed'.appendEvent request now with
  | error error' =>
    rw [hnext] at hsame
    exact congrArg Except.error (Except.error.inj hsame)
  | ok answer =>
    rw [hnext] at hsame
    cases hsame

theorem isTerminal_same : managed'.record.isTerminal = managed.record.isTerminal :=
  congrArg (fun managed => managed.record.isTerminal) same

theorem events_same : managed'.events = managed.events :=
  congrArg (·.events) same

/-- A log that belongs to a process that runs is a log with any wait. -/
theorem logged_same (logged : Logged managed) (running : managed'.record.isTerminal = false) :
    Logged managed' := by
  have hevents := events_same same
  have hstatus : managed'.record.status = managed.record.status :=
    congrArg (fun managed => managed.record.status) same
  refine ⟨?_, ?_, ?_, fun hended => ?_⟩
  · rw [hevents]
    exact logged.sequences
  · rw [hevents]
    exact logged.once
  · rw [hevents, hstatus]
    exact logged.status
  · rw [running] at hended
    cases hended

theorem indexed_same (indexed : Indexed managed) : Indexed managed' := by
  have hevents := events_same same
  have hkeyed : managed'.keyedEvents = managed.keyedEvents := congrArg (·.keyedEvents) same
  constructor
  · rw [hevents, hkeyed]
    exact indexed.found
  · rw [hevents, hkeyed]
    exact indexed.keyed

end

/-- A replay key stands for one event of the log. -/
theorem event_unique {event event' : ProcessEvent (rules (lashlangHost host))}
    (indexed : Indexed managed) (mem : event ∈ managed.events) (mem' : event' ∈ managed.events)
    (keyed : event.replay = some key) (keyed' : event'.replay = some key) : event = event' := by
  obtain ⟨hash, hfound⟩ := indexed.keyed event mem key keyed
  obtain ⟨hash', hfound'⟩ := indexed.keyed event' mem' key keyed'
  exact (mk.inj (some.inj (hfound.symm.trans hfound'))).2

/-- An append keeps the wait of the process or ends it. -/
theorem appends_wait (appends : Appends managed request now result managed') {wait : WaitState}
    (h : managed'.record.wait = some wait) : managed.record.wait = some wait := by
  have hprojection {status : ProcessStatus (rules (lashlangHost host))} {time : Nat}
      (h : (applyProcessStatusProjection managed.record status time).wait = some wait) :
      managed.record.wait = some wait := by
    simp only [applyProcessStatusProjection] at h
    split at h
    · cases h
    · exact h
  cases appends with
  | @replay key hash event wakeDelivery named found same =>
    generalize (event.semantics.terminal.bind fun terminal =>
      if managed.record.isTerminal then none
      else some (ProcessStatus.fromTerminal terminal)) = status at h
    cases status with
    | none => exact h
    | some status => exact hprojection h
  | @insert hash event wakeDelivery unseen hashed sequence answers made running =>
    generalize event.semantics.terminal.map ProcessStatus.fromTerminal = status at h
    cases status with
    | none => exact h
    | some status => exact hprojection h

theorem appends_eventTypes (appends : Appends managed request now result managed') :
    managed'.record.eventTypes = managed.record.eventTypes := by
  cases appends with
  | replay named found same | insert unseen hashed sequence answers made running =>
    exact (ProcessCompletions.applyPlan_declares managed _).2

/-- An append finds its event in the log or adds one to it. -/
theorem appends_events (logged : Logged managed) (indexed : Indexed managed)
    (appends : Appends managed request now result managed') :
    (managed' = managed ∧ ∃ key found, request.replay = some key ∧
        managed.keyedEvents key = some found) ∨
      ∃ event, managed'.events = managed.events ++ [event] ∧ Answers request event := by
  cases appends with
  | replay named found same =>
    rw [repair_none logged indexed found]
    exact .inl ⟨rfl, _, _, named, found⟩
  | insert unseen hashed sequence answers made running => exact .inr ⟨_, rfl, answers⟩

end Registry

/-! ## The events of the host -/

section Own

variable {host : ProcessHost} {processId : String} {bridge : Bridge}
  (signals : List (String × host.Schema))

/-- The types that a lashlang process with these signals has declared. -/
def declaredTypes (host : ProcessHost) (signals : List (String × host.Schema)) :
    List (ProcessEventType (rules (lashlangHost host))) :=
  addMissing (lashlangProcessEventTypes ++ lashlangProcessSignalEventTypes signals)
    (defaultProcessEventTypes (lashlangHost host))

theorem declaredTypes_find (name : String) : (declaredTypes host signals).find? (·.name == name) =
      ((@lashlangProcessEventTypes host ++ lashlangProcessSignalEventTypes signals).find?
        (·.name == name)).or
        ((defaultProcessEventTypes (lashlangHost host)).find? (·.name == name)) :=
  ProcessCompletions.addMissing_find name _ _

theorem signalTypes_find {name : String} {c : Char} {rest : List Char}
    (hname : name.toList = c :: rest) (h : c ≠ 's') :
    (@lashlangProcessSignalEventTypes host signals).find? (·.name == name) = none := by
  refine find?_eq_none.mpr fun declared hmem => ?_
  obtain ⟨⟨signal, schema⟩, -, rfl⟩ := mem_map.mp hmem
  simp only [beq_iff_eq]
  intro hsame
  have hhead := congrArg (·.toList.head?) hsame
  simp only [hname] at hhead
  simp [ToString.toString] at hhead
  exact h hhead.symm

variable {eventType : String}

/-- The type that is declared for an event of the host. It takes any value and ends nothing. -/
theorem own_declared (accepting : Accepting host) {payload : Json}
    (own : OwnEvent processId bridge eventType payload) :
    ∃ declared, (declaredTypes host signals).find? (·.name == eventType) = some declared ∧
      declared.payloadSchema = host.anySchema ∧ declared.semantics.terminal = none ∧
      ∀ id sequence, ∃ wake, materializeEventSemantics (lashlangHost host) id sequence payload
        declared.semantics = .ok (none, wake) := by
  rcases own with ⟨kind, value, rfl, hpayload⟩ | ⟨wait, rfl, rfl⟩ | ⟨name, n, rfl, rfl⟩
  · cases kind with
    | yieldEvent =>
      refine ⟨⟨"process.yield", host.anySchema, ⟨none, none⟩⟩, ?_, rfl, rfl,
        fun id sequence => ⟨none, rfl⟩⟩
      rw [declaredTypes_find]
      rfl
    | wake =>
      refine ⟨⟨"process.wake", host.anySchema, ⟨none, some ⟨none, .pointer "/text",
        .eventIdentity⟩⟩⟩, ?_, rfl, rfl, fun id sequence => ?_⟩
      · rw [declaredTypes_find]
        rfl
      · simp only [processEventPayload] at hpayload
        cases hjson : bridge.valueToJson value with
        | error error =>
          rw [hjson] at hpayload
          cases hpayload
        | ok json =>
          rw [hjson] at hpayload
          cases hpayload
          have hinput := accepting.text (.string (bridge.valueText value)) json
          refine ⟨some ⟨bridge.valueText value, s!"{id}:{sequence}"⟩, ?_⟩
          simp only [materializeEventSemantics, materializeWake, selectValue, hinput, map_some]
          rfl
  · refine ⟨⟨"process.waiting", host.anySchema, ⟨none, none⟩⟩, ?_, rfl, rfl,
      fun id sequence => ⟨none, rfl⟩⟩
    rw [declaredTypes_find signals, find?_append,
      signalTypes_find signals (c := 'p') rfl (by decide)]
    rfl
  · refine ⟨⟨"process.resumed", host.anySchema, ⟨none, none⟩⟩, ?_, rfl, rfl,
      fun id sequence => ⟨none, rfl⟩⟩
    rw [declaredTypes_find signals, find?_append,
      signalTypes_find signals (c := 'p') rfl (by decide)]
    rfl

variable {signals}

/-- An event of the host under a fresh key is accepted. -/
theorem own_accepted (accepting : Accepting host) {managed : Managed host} {key : String}
    {payload : Json} (own : OwnEvent processId bridge eventType payload)
    (types : managed.record.eventTypes = declaredTypes host signals)
    (fresh : managed.keyedEvents key = none) (now : Nat) :
    ∃ answer, managed.appendEvent (ownRequest eventType payload key) now = .ok answer := by
  obtain ⟨declared, hdeclared, hschema, hends, hmade⟩ := own_declared signals accepting own
  obtain ⟨wake, hsemantics⟩ := hmade managed.record.id (managed.events.length + 1)
  obtain ⟨hash, hhash⟩ := accepting.hashes eventType payload
  have hrequires : (eventType == "process.cancel_requested") = false := by
    rcases own with ⟨kind, -, rfl, -⟩ | ⟨-, rfl, -⟩ | ⟨-, -, rfl, -⟩
    · cases kind <;> rfl
    · rfl
    · rfl
  have hreplay : requireEventReplay managed.record.id (@ownRequest host eventType payload key)
      declared.semantics = .ok () := by
    simp [requireEventReplay, ownRequest, hends, hrequires]
  exact append_accepted accepting.delivers hhash fresh (types ▸ hdeclared) hreplay
    (hschema ▸ accepting.any payload) hsemantics

end Own

/-! ## What uncut runs keep -/

/-- How a process was registered, and the effects that were recorded before. -/
structure Launch (host : ProcessHost) where
  signals : List (String × host.Schema)
  registration : ProcessRegistration (lashlangHost host)
  registrationHash : String
  registeredAt : Nat
  effects : String → Option (EffectCommand × Reply)

def Launch.runtime {host : ProcessHost} (launch : Launch host) : Runtime host where
  managed := registered launch.signals launch.registration launch.registrationHash
    launch.registeredAt
  effects := launch.effects

/-- The type, the payload and the key of an append. -/
def requestedAppend : Request → Option (String × Json × String)
  | .append eventType payload key => some (eventType, payload, key)
  | _ => none

section Journals

variable {host : ProcessHost} (processId : String) (bridge : Bridge) (program : Program)
  (launch : Launch host)

open Classical in
/-- An event that the host appended, by its key. -/
noncomputable def ownAppend (event : ProcessEvent (rules (lashlangHost host))) :
    Option (String × Json × String) :=
  event.replay.bind fun key =>
    if OwnKey processId key then some (event.eventType, event.payload, key) else none

/-- The log behind an uncut run holds the events that were requested, in their order. -/
structure Journal (replies : List Reply) (u : Runtime host) : Prop where
  logged : Logged u.managed
  indexed : Indexed u.managed
  types : u.managed.record.eventTypes = declaredTypes host launch.signals
  formed : FormedState bridge ((process processId bridge program).after replies)
  used : ∀ event ∈ u.managed.events, ∀ key, event.replay = some key → OwnKey processId key →
    Used processId ((process processId bridge program).after replies) key
  waited : ∀ wait, u.managed.record.wait = some wait →
    Used processId ((process processId bridge program).after replies) wait.key
  recorded : u.managed.events.filterMap (ownAppend processId) =
    ((process processId bridge program).issued replies).filterMap requestedAppend
  once : ((((process processId bridge program).issued replies).filterMap requestedAppend).map
    (·.2.2)).Nodup

end Journals

section Keeping

variable {host : ProcessHost} {processId : String} {bridge : Bridge} {program : Program}
  {launch : Launch host} {replies : List Reply} {u u' : Runtime host} {q : Request} {a : Reply}
  {tools : String → String → Json → LashlangProcesses.Outcome}

/-- An uncut run whose single resource calls are answered by `tools`. -/
abbrev SteadyRun (processId : String) (bridge : Bridge) (program : Program) (launch : Launch host)
    (tools : String → String → Json → LashlangProcesses.Outcome) :
    List Reply → Runtime host → Prop :=
  Uncut (process processId bridge program) (runtimeOf host processId (Steady tools)) launch.runtime

theorem enter_formed {answers : List Answer} {counters : Counters} :
    FormedState bridge (enter program answers counters) := by
  rw [enter]
  split <;> trivial

theorem Journal.start : Journal processId bridge program launch [] launch.runtime where
  logged := ⟨rfl, Nat.zero_le _, rfl, fun _ => rfl⟩
  indexed := ⟨fun _ _ _ h => (by cases h), fun _ h => (by cases h)⟩
  types := rfl
  formed := enter_formed
  used _ h := by cases h
  waited _ h := by cases h
  recorded := rfl
  once := List.nodup_nil

variable {eventType : String}

/-- A request that appends nothing. -/
theorem Journal.silent (journal : Journal processId bridge program launch replies u)
    (asked : (process processId bridge program).asked replies = some q)
    (steady : ∀ op, q = .perform op → isSteady op = true)
    (silent : requestedAppend q = none) (same : unwaited u'.managed = unwaited u.managed)
    (running : u'.managed.record.isTerminal = false)
    (waited : ∀ wait, u'.managed.record.wait = some wait →
      Used processId ((process processId bridge program).after (replies ++ [a])) wait.key) :
    Journal processId bridge program launch (replies ++ [a]) u' := by
  have hevents := events_same same
  have hissued : ((process processId bridge program).issued (replies ++ [a])).filterMap
      requestedAppend =
      ((process processId bridge program).issued replies).filterMap requestedAppend := by
    rw [issued_concat, asked, filterMap_append]
    simp [silent]
  refine ⟨logged_same same journal.logged running, indexed_same same journal.indexed, ?_, ?_, ?_,
    waited, ?_, ?_⟩
  · exact (congrArg (fun managed => managed.record.eventTypes) same).trans journal.types
  · rw [after_concat]
    exact resume_formed journal.formed asked steady
  · intro event hmem key hreplay hown
    rw [after_concat]
    rw [hevents] at hmem
    exact resume_used (journal.used event hmem key hreplay hown)
  · rw [hevents, hissued]
    exact journal.recorded
  · rw [hissued]
    exact journal.once

section Appends

variable {key : String} {payload : Json}
  (journal : Journal processId bridge program launch replies u)
  (asked : (process processId bridge program).asked replies =
    some (.append eventType payload key))

include journal asked

/-- The key of an own append is none of the keys before. -/
theorem Journal.fresh : u.managed.keyedEvents key = none := by
  cases hfound : u.managed.keyedEvents key with
  | none => rfl
  | some found =>
    obtain ⟨hmem, hreplay, -⟩ := journal.indexed.found key found.1 found.2 hfound
    have hown := (append_own journal.formed asked).1
    exact absurd (journal.used found.2 hmem key hreplay hown) (append_fresh asked)

theorem Journal.unrefused (accepting : Accepting host) (now : Nat) (error : PluginError) :
    u.managed.appendEvent (ownRequest eventType payload key) now ≠ .error error := by
  intro refused
  obtain ⟨answer, haccepted⟩ := own_accepted accepting (append_own journal.formed asked).2
    journal.types (journal.fresh asked) now
  rw [haccepted] at refused
  cases refused

variable {result : ProcessEventAppendResult (rules (lashlangHost host))} {managed : Managed host}
  {now : Nat} (appends : Appends u.managed (ownRequest eventType payload key) now result managed)

include appends

theorem Journal.added :
    ∃ event, managed.events = u.managed.events ++ [event] ∧
      Answers (ownRequest eventType payload key) event := by
  rcases appends_events journal.logged journal.indexed appends with
    ⟨-, other, found, hother, hfound⟩ | added
  · obtain rfl := some.inj hother
    rw [journal.fresh asked] at hfound
    cases hfound
  · exact added

/-- An own append that was accepted adds its event to the log. -/
theorem Journal.append :
    Journal processId bridge program launch (replies ++ [Reply.registry (.ok ())])
      { u with managed := managed } := by
  have hown := (append_own journal.formed asked).1
  have hafter (k : String) : Used processId ((process processId bridge program).after replies) k →
      Used processId
        ((process processId bridge program).after (replies ++ [Reply.registry (.ok ())]))
        k := by
    rw [after_concat]
    exact resume_used
  have hkey : Used processId
      ((process processId bridge program).after (replies ++ [Reply.registry (.ok ())])) key := by
    rw [after_concat]
    exact resume_appended journal.formed asked
  have hissued : ((process processId bridge program).issued
      (replies ++ [Reply.registry (.ok ())])).filterMap requestedAppend =
      ((process processId bridge program).issued replies).filterMap requestedAppend ++
        [(eventType, payload, key)] := by
    rw [issued_concat, asked, filterMap_append]
    rfl
  obtain ⟨hlogged, hindexed, -⟩ := journal.logged.appends journal.indexed appends
  obtain ⟨event, hevents, answers⟩ := journal.added asked appends
  have hreplay : event.replay = some key := answers.replay
  refine ⟨hlogged, hindexed, (appends_eventTypes appends).trans journal.types, ?_, ?_, ?_, ?_, ?_⟩
  · rw [after_concat]
    exact resume_formed journal.formed asked fun _ h => by cases h
  · intro other hmem k hk hownk
    simp only [hevents] at hmem
    rcases mem_append.mp hmem with hold | hnew
    · exact hafter k (journal.used other hold k hk hownk)
    · obtain rfl := mem_singleton.mp hnew
      obtain rfl := some.inj (hreplay.symm.trans hk)
      exact hkey
  · exact fun wait hwait => hafter _ (journal.waited wait (appends_wait appends hwait))
  · have hthis : ownAppend processId event = some (eventType, payload, key) := by
      simp only [ownAppend, hreplay, bind_some, if_pos hown, answers.eventType, answers.payload]
      rfl
    simp only [hevents, hissued, filterMap_append, filterMap_cons, hthis,
      filterMap_nil, journal.recorded]
  · rw [hissued, map_append, nodup_append]
    refine ⟨journal.once, nodup_singleton _, fun k hk k' hk' => ?_⟩
    rw [map_singleton, mem_singleton] at hk'
    rintro rfl
    subst hk'
    obtain ⟨⟨eventType', payload', k⟩, happend, rfl⟩ := mem_map.mp hk
    rw [← journal.recorded] at happend
    obtain ⟨old, hold, howns⟩ := mem_filterMap.mp happend
    -- The key is one of an event of the log, so it would be used already.
    obtain ⟨k', hk', hif⟩ := bind_eq_some_iff.mp howns
    split at hif
    · rename_i hownk
      obtain ⟨-, -, rfl⟩ := some.inj hif
      exact append_fresh asked (journal.used old hold _ hk' hownk)
    · cases hif

end Appends

variable {result : ProcessEventAppendResult (rules (lashlangHost host))} {managed : Managed host}

/-- An append under a key that is not the host's. -/
theorem Journal.foreign (journal : Journal processId bridge program launch replies u) {now : Nat}
    {request : ProcessEventAppendRequest (rules (lashlangHost host))}
    (foreign : ∀ key, request.replay = some key → ¬ OwnKey processId key)
    (appends : Appends u.managed request now result managed) :
    Journal processId bridge program launch replies { u with managed := managed } := by
  obtain ⟨hlogged, hindexed, -⟩ := journal.logged.appends journal.indexed appends
  rcases appends_events journal.logged journal.indexed appends with ⟨rfl, -⟩ |
    ⟨event, hevents, answers⟩
  · exact journal
  · have hnone : ownAppend processId event = none := by
      rw [ownAppend, answers.replay]
      cases hreplay : request.replay with
      | none => rfl
      | some key => exact if_neg (foreign key hreplay)
    refine ⟨hlogged, hindexed, (appends_eventTypes appends).trans journal.types, journal.formed,
      ?_, fun wait hwait => journal.waited wait (appends_wait appends hwait), ?_, journal.once⟩
    · intro other hmem key hkey hown
      simp only [hevents] at hmem
      rcases mem_append.mp hmem with hold | hnew
      · exact journal.used other hold key hkey hown
      · obtain rfl := mem_singleton.mp hnew
        exact absurd hown (foreign key (answers.replay ▸ hkey))
    · simp only [hevents, filterMap_append, filterMap_cons, hnone, filterMap_nil,
        append_nil, journal.recorded]

theorem executes_managed {key : String} {command : EffectCommand}
    (h : Executes key command u a u') : u'.managed = u.managed := by
  cases h <;> rfl

/-- Uncut runs of steady operations keep the journal. -/
theorem uncut_journal (accepting : Accepting host)
    (run : SteadyRun processId bridge program launch tools replies u) :
    Journal processId bridge program launch replies u := by
  induction run with
  | start => exact .start
  | @serve replies u u' q a earlier asked served journal =>
    obtain ⟨steady, running, serves⟩ := served
    have hsilent (silent : requestedAppend q = none) (same : u'.managed = u.managed) :
        Journal processId bridge program launch (replies ++ [a]) u' := by
      refine journal.silent asked steady.operation silent (congrArg unwaited same) ?_
        fun wait hwait => ?_
      · rw [same]
        exact running
      · rw [after_concat]
        rw [same] at hwait
        exact resume_used (journal.waited wait hwait)
    cases serves with
    | perform op | call outcome | uuid id | handle outcome | clock now
    | waitSince name ordinal now => exact hsilent rfl rfl
    | effect executes => exact hsilent rfl (executes_managed executes)
    | appended appended => exact journal.append asked (appendEvent_ok appended)
    | refused refused => exact absurd refused (journal.unrefused asked accepting _ _)
    | setProcessWait wait now =>
      simp only [setWait, running, Bool.false_eq_true, if_false]
      refine journal.silent asked (fun _ h => by cases h) rfl rfl running fun other hother => ?_
      obtain rfl := some.inj hother
      rw [after_concat]
      exact resume_waiting journal.formed asked
    | clearProcessWait now =>
      refine journal.silent asked (fun _ h => by cases h) rfl rfl running fun other hother => ?_
      cases hother
  | others earlier moved journal =>
    obtain ⟨running, moved⟩ := moved
    cases moved with
    | appended foreign appended => exact journal.foreign foreign (appendEvent_ok appended)
    | recorded new answers =>
      exact ⟨journal.logged, journal.indexed, journal.types, journal.formed, journal.used,
        journal.waited, journal.recorded, journal.once⟩

end Keeping

/-! ## What uncut runs were answered -/

section Answers

variable {host : ProcessHost} {processId : String} {bridge : Bridge} {program : Program}
  {launch : Launch host} {replies : List Reply} {u u' : Runtime host} {q : Request} {a : Reply}
  {tools : String → String → Json → LashlangProcesses.Outcome}

/-- The answer that is recorded for an effect, or the refusal of another one under its key. -/
def Recalls (effects : String → Option (EffectCommand × Reply)) (key : String)
    (command : EffectCommand) (reply : Reply) : Prop :=
  effects key = some (command, reply) ∨
    ∃ other recorded, effects key = some (other, recorded) ∧ other ≠ command ∧
      reply = command.reused key

/-- What a reply tells of the runtime behind it. -/
def Answered (u : Runtime host) : Request → Reply → Prop
  | .perform _, .performing => True
  | .call _ _ _, .outcome _ => True
  | .effect key command, reply => Recalls u.effects key command reply
  | .append eventType payload key, .registry (.ok ()) => ∃ event ∈ u.managed.events,
      event.eventType = eventType ∧ event.payload = payload ∧ event.replay = some key
  | .waitSince _ _, .time _ => True
  | .setProcessWait _, .registry (.ok ()) => True
  | .clearProcessWait, .registry (.ok ()) => True
  | _, _ => False

/-- Recorded outcomes and events stay. -/
structure Extends (u u' : Runtime host) : Prop where
  effects : ∀ key recorded, u.effects key = some recorded → u'.effects key = some recorded
  events : u.managed.events <+: u'.managed.events

theorem Extends.refl (u : Runtime host) : Extends u u := ⟨fun _ _ h => h, List.prefix_rfl⟩

variable {key : String} {command : EffectCommand}

theorem Extends.recalls (extended : Extends u u') (h : Recalls u.effects key command a) :
    Recalls u'.effects key command a := by
  rcases h with h | ⟨other, recorded, h, hother, hreply⟩
  · exact .inl (extended.effects _ _ h)
  · exact .inr ⟨other, recorded, extended.effects _ _ h, hother, hreply⟩

theorem Extends.answered (extended : Extends u u') (h : Answered u q a) : Answered u' q a := by
  unfold Answered at h
  split at h
  · trivial
  · trivial
  · exact extended.recalls h
  · obtain ⟨event, hmem, hevent⟩ := h
    exact ⟨event, extended.events.subset hmem, hevent⟩
  · trivial
  · trivial
  · trivial
  · exact h.elim

theorem recorded_self : (u.recorded key command a).effects key = some (command, a) := if_pos rfl

theorem recorded_extends (new : u.effects key = none) : Extends u (u.recorded key command a) := by
  refine ⟨fun other recorded h => ?_, prefix_rfl⟩
  simp only [Runtime.recorded]
  rw [if_neg, h]
  rintro rfl
  rw [new] at h
  cases h

theorem executes_recalls (h : Executes key command u a u') :
    Recalls u'.effects key command a ∧ Extends u u' := by
  cases h with
  | recorded found => exact ⟨.inl found, .refl u⟩
  | conflict found differs => exact ⟨.inr ⟨_, _, found, differs, rfl⟩, .refl u⟩
  | executed new answers => exact ⟨.inl recorded_self, recorded_extends new⟩

/-- An effect whose answer is recorded is not executed again. -/
theorem executes_again {b : Reply} (recalls : Recalls u.effects key command a)
    (h : Executes key command u b u') : b = a ∧ u' = u := by
  cases h with
  | recorded found =>
    rcases recalls with hfound | ⟨other, recorded, hfound, hother, -⟩
    · rw [found] at hfound
      obtain ⟨-, rfl⟩ := mk.inj (some.inj hfound)
      exact ⟨rfl, rfl⟩
    · rw [found] at hfound
      obtain ⟨rfl, -⟩ := mk.inj (some.inj hfound)
      exact absurd rfl hother
  | conflict found differs =>
    rcases recalls with hfound | ⟨other, recorded, hfound, hother, rfl⟩
    · rw [found] at hfound
      obtain ⟨rfl, -⟩ := mk.inj (some.inj hfound)
      exact absurd rfl differs
    · exact ⟨rfl, rfl⟩
  | executed new answers =>
    rcases recalls with hfound | ⟨other, recorded, hfound, -, -⟩
    · rw [new] at hfound
      cases hfound
    · rw [new] at hfound
      cases hfound

/-- Steady operations draw no ids and read no clock. -/
theorem steady_request {s : State} (hs : FormedState bridge s)
    (asked : s.request processId = some q) :
    q ≠ .uuid ∧ q ≠ .clock ∧ ∀ cancel callId handle, q ≠ .handle cancel callId handle := by
  rcases request_cases asked with ⟨answers, counters, op, rfl, rfl⟩ |
    ⟨answers, counters, place, rfl, rfl⟩
  · exact ⟨nofun, nofun, nofun⟩
  · cases place with
    | drawing cancel handle | handling cancel callId handle | reading sequence deadlineMs =>
      exact hs.elim
    | _ => exact ⟨nofun, nofun, nofun⟩

theorem serve_answered (accepting : Accepting host)
    (run : SteadyRun processId bridge program launch tools replies u)
    (asked : (process processId bridge program).asked replies = some q)
    (served : (runtimeOf host processId (Steady tools)).serve q u a u') :
    Answered u' q a ∧ Extends u u' := by
  have journal := uncut_journal accepting run
  obtain ⟨huuid, hclock, hhandle⟩ := steady_request journal.formed asked
  obtain ⟨-, running, serves⟩ := served
  cases serves with
  | perform op | call outcome | waitSince name ordinal now => exact ⟨trivial, .refl u⟩
  | effect executes => exact executes_recalls executes
  | uuid id => exact absurd rfl huuid
  | handle outcome => exact absurd rfl (hhandle _ _ _)
  | clock now => exact absurd rfl hclock
  | @appended _ eventType key payload now result managed appended =>
    have appends := appendEvent_ok appended
    obtain ⟨-, -, hprefix⟩ := journal.logged.appends journal.indexed appends
    obtain ⟨event, hevents, answers⟩ := journal.added asked appends
    refine ⟨⟨event, ?_, answers.eventType, answers.payload, answers.replay⟩, fun _ _ h => h,
      hprefix⟩
    simp only [hevents]
    exact mem_append_right _ mem_cons_self
  | refused refused => exact absurd refused (journal.unrefused asked accepting _ _)
  | setProcessWait wait now =>
    simp only [setWait, running, Bool.false_eq_true, if_false]
    exact ⟨trivial, fun _ _ h => h, prefix_rfl⟩
  | clearProcessWait now => exact ⟨trivial, fun _ _ h => h, prefix_rfl⟩

theorem others_extends (accepting : Accepting host)
    (run : SteadyRun processId bridge program launch tools replies u)
    (moved : (runtimeOf host processId (Steady tools)).others u u') : Extends u u' := by
  have journal := uncut_journal accepting run
  obtain ⟨-, moved⟩ := moved
  cases moved with
  | appended foreign appended =>
    obtain ⟨-, -, hprefix⟩ := journal.logged.appends journal.indexed (appendEvent_ok appended)
    exact ⟨fun _ _ h => h, hprefix⟩
  | recorded new answers => exact recorded_extends new

/-- The runtime behind an uncut run tells all its replies. -/
theorem uncut_answered (accepting : Accepting host)
    (run : SteadyRun processId bridge program launch tools replies u) :
    ∀ q a, (q, a) ∈ (process processId bridge program).exchanged replies → Answered u q a := by
  refine run.exchanged (P := Answered) ?_ ?_ ?_
  · intro replies u u' q a earlier asked served
    exact (serve_answered accepting earlier asked served).1
  · intro replies u u' q a p b earlier asked served h
    exact (serve_answered accepting earlier asked served).2.answered h
  · intro replies u u' p b earlier moved h
    exact (others_extends accepting earlier moved).answered h

end Answers

end UncutProcesses
