import Lash.ProcessEventTypes
import Lash.ProcessLogs

/-!
# Completing a process

A process is completed by an event under one of three names. What the event does is
what its declared type says, and a registration may declare a type of its own under such
a name. So the one who awaits the process is released exactly when that type is terminal
and selects from the completion a value that reads back as the given output.
-/

namespace ProcessCompletions

open ProcessRecords LocalProcesses ProcessEventTypes ProcessLogs Runs ScriptBuiltins
open TestLocalProcessRegistry
open List Option

variable {host : ProcessHost}

/-! ## Calls on the registry -/

inductive ProcessOp (host : ProcessHost) where
  | registerProcess (registration : ProcessRegistration host) (now : Nat)
  | appendEvent (processId : String) (request : ProcessEventAppendRequest (rules host)) (now : Nat)
  | completeProcess (processId : String) (awaitOutput : ProcessAwaitOutput host.ToolControl)
      (now : Nat)
  | setProcessWait (processId : String) (wait : host.WaitState) (now : Nat)
  | clearProcessWait (processId : String) (now : Nat)

variable (registrationHash : ProcessRegistration host → Except PluginError String)

def ProcessOp.logOp : ProcessOp host → Except PluginError (LogOp (rules host))
  | .registerProcess registration now =>
    (prepareProcessRegistration registrationHash registration).map fun (registration, hash) =>
      .register registration.prepared hash now
  | .appendEvent processId request now => .ok (.appendEvent processId request now)
  | .completeProcess processId awaitOutput now => .ok (.completeProcess processId awaitOutput now)
  | .setProcessWait processId wait now => .ok (.setProcessWait processId wait now)
  | .clearProcessWait processId now => .ok (.clearProcessWait processId now)

def processStep (op : ProcessOp host) (registry : TestLocalProcessRegistry (rules host)) :
    LogAnswer (rules host) × TestLocalProcessRegistry (rules host) :=
  match op.logOp registrationHash with
  | .error error => (.record (.error error), registry)
  | .ok op => logStep op registry

variable {registrationHash}

/-! ## Registrations that were accepted -/

/-- The type declared under a name, and the one of the runtime where there is none. -/
theorem addMissing_find (name : String) (added : List (ProcessEventType (rules host))) :
    ∀ eventTypes : List (ProcessEventType (rules host)),
      (addMissing eventTypes added).find? (·.name == name) =
        (eventTypes.find? (·.name == name)).or (added.find? (·.name == name)) := by
  induction added with
  | nil =>
    intro eventTypes
    rw [addMissing, find?_nil, or_none]
  | cons eventType rest ih =>
    intro eventTypes
    rw [addMissing, ih]
    by_cases hname : eventType.name = name
    · by_cases hdeclared : eventTypes.any (·.name == eventType.name) = true
      · obtain ⟨declared, hfound⟩ := isSome_iff_exists.mp
          (find?_isSome.mpr (any_eq_true.mp (hname ▸ hdeclared)))
        rw [if_pos hdeclared, hfound, some_or, some_or]
      · rw [if_neg hdeclared, List.find?_append, Option.or_assoc,
          find?_cons_of_pos (by simpa using hname),
          find?_cons_of_pos (by simpa using hname), some_or]
    · rw [find?_cons_of_neg (by simpa using hname)]
      split
      · rfl
      · rw [find?_append, find?_cons_of_neg (by simpa using hname), find?_nil,
          or_none]

/-- Every completion has a declared type: the registrant's, or the one of the runtime. -/
theorem prepared_declares {registration prepared : ProcessRegistration host} {hash : String}
    (h : prepareProcessRegistration registrationHash registration = .ok (prepared, hash))
    (state : ProcessTerminalState) :
    prepared.eventTypes.find? (·.name == terminalEventType state) =
      (registration.eventTypes.find?
        (·.name == terminalEventType state)).or
        (some (terminalEventType host (terminalEventType state) state)) := by
  have hprepared : prepared = ensureCoreEventTypes registration := by
    simp only [prepareProcessRegistration, bind, Except.bind] at h
    split at h
    · cases h
    · split at h
      · cases h
      · exact (Prod.mk.inj (Except.ok.inj h)).1.symm
  have hdefault : (defaultProcessEventTypes host).find?
      (·.name == terminalEventType state) =
        some (terminalEventType host (terminalEventType state) state) := by
    cases state <;> rfl
  rw [hprepared, ensureCoreEventTypes, addMissing_find, hdefault]

/-! ## The processes of a registry -/

section Processes

variable {registry : TestLocalProcessRegistry (rules host)}

/-- The log of a process, with the types its events were made by. -/
structure Kept (managed : ManagedProcessRecord (rules host)) : Prop where
  logged : Logged managed
  indexed : Indexed managed
  made : ∀ event ∈ managed.events, Made managed.record event
  declared : ∀ state, (managed.record.eventTypes.find?
    (·.name == TestLocalProcessRegistry.terminalEventType state)).isSome = true

def AllKept (registry : TestLocalProcessRegistry (rules host)) : Prop :=
  ∀ processId managed, registry.managed processId = some managed → Kept managed

/-- An append changes neither the id of a process nor its declared types. -/
theorem applyPlan_declares {rules : ProcessRules} (managed : ManagedProcessRecord rules)
    (plan : ProcessEventAppendPlan rules) :
    (managed.applyPlan plan).2.record.id = managed.record.id ∧
      (managed.applyPlan plan).2.record.eventTypes = managed.record.eventTypes := by
  cases plan with
  | insert event payloadHash statusUpdate wakeDelivery occurredAtMs =>
    cases statusUpdate <;> exact ⟨rfl, rfl⟩
  | replay event repairStatus wakeDelivery occurredAtMs =>
    cases repairStatus <;> exact ⟨rfl, rfl⟩

theorem made_congr {rules : ProcessRules} {record record' : ProcessRecord rules}
    {event : ProcessEvent rules} (made : Made record event) (id : record'.id = record.id)
    (eventTypes : record'.eventTypes = record.eventTypes) : Made record' event := by
  obtain ⟨declared, hfound, hmade⟩ := made
  exact ⟨declared, by rw [eventTypes, hfound], by rw [id, hmade]⟩

variable {managed managed' : ManagedProcessRecord (rules host)}
  {result : ProcessEventAppendResult (rules host)} {now : Nat}

theorem Kept.appends {request : ProcessEventAppendRequest (rules host)} (kept : Kept managed)
    (appends : Appends managed request now result managed') : Kept managed' := by
  obtain ⟨hlogged, hindexed, _⟩ := kept.logged.appends kept.indexed appends
  cases appends with
  | @replay key hash event wakeDelivery named found same =>
    rw [repair_none kept.logged kept.indexed found]
    exact kept
  | @insert hash event wakeDelivery unseen hashed sequence answers made running =>
    obtain ⟨hid, htypes⟩ := applyPlan_declares managed (.insert event hash
      (event.semantics.terminal.map ProcessStatus.fromTerminal) wakeDelivery now)
    refine ⟨hlogged, hindexed, fun other hother => ?_, fun state => ?_⟩
    · rcases mem_append.mp hother with hold | hnew
      · exact made_congr (kept.made other hold) hid htypes
      · obtain rfl := mem_singleton.mp hnew
        exact made_congr made hid htypes
    · rw [htypes]
      exact kept.declared state

variable {processId : String}

theorem allKept_set (all : AllKept registry) (kept : Kept managed) :
    AllKept (registry.setManaged processId managed) := by
  intro other found hfound
  simp only [setManaged] at hfound
  split at hfound
  · obtain rfl := some.inj hfound
    exact kept
  · exact all other found hfound

theorem processStep_kept (all : AllKept registry) (op : ProcessOp host) :
    AllKept (processStep registrationHash op registry).2 := by
  cases hop : op.logOp registrationHash with
  | error error => simpa only [processStep, hop] using all
  | ok logOp =>
    have hmoves : Moves registry logOp (logStep logOp registry).2 := logStep_moves logOp
    simp only [processStep, hop]
    generalize (logStep logOp registry).2 = next at hmoves
    cases hmoves with
    | stays => exact all
    | @registered registration hash now called new =>
      refine allKept_set all ⟨⟨rfl, Nat.zero_le _, rfl, fun _ => rfl⟩, ?_, ?_, fun state => ?_⟩
      · exact ⟨fun _ _ _ h => (by cases h), fun _ h => (by cases h)⟩
      · exact fun _ h => (by cases h)
      · subst called
        cases op with
        | registerProcess original registeredAt =>
          simp only [ProcessOp.logOp] at hop
          cases hprepare : prepareProcessRegistration registrationHash original with
          | error error =>
            rw [hprepare] at hop
            cases hop
          | ok prepared =>
            obtain ⟨prepared, preparedHash⟩ := prepared
            rw [hprepare] at hop
            cases hop
            refine (congrArg isSome (prepared_declares hprepare state)).trans ?_
            rw [isSome_or, isSome_some, Bool.or_true]
        | appendEvent processId request now | completeProcess processId awaitOutput now
        | setProcessWait processId wait now | clearProcessWait processId now => cases hop
    | appended found appends => exact allKept_set all ((all _ _ found).appends appends)
    | @waits processId managed wait now found allowed =>
      have hkept := all _ _ found
      exact allKept_set all ⟨hkept.logged.withWait wait now allowed,
        ⟨hkept.indexed.found, hkept.indexed.keyed⟩,
        fun event hevent => made_congr (hkept.made event hevent) rfl rfl, hkept.declared⟩

abbrev ProcessHistory (host : ProcessHost) :=
  List (Entry (ProcessOp host) (TestLocalProcessRegistry (rules host)) (LogAnswer (rules host)))

variable {history : ProcessHistory host}

theorem run_kept (run : Run (processStep registrationHash) emptyRegistry history registry) :
    AllKept registry := by
  refine run.invariant (P := fun _ registry => AllKept registry) ?_ ?_
  · intro processId managed hmanaged
    cases hmanaged
  · intro history registry op _ hkept
    exact processStep_kept hkept op

/-! ## The completion of a process -/

/-- The type is terminal and selects from the completion a value that reads back as the output. -/
def ReadsBack (declared : ProcessEventType (rules host))
    (awaitOutput : ProcessAwaitOutput host.ToolControl) : Prop :=
  ∃ terminal selector selected, declared.semantics.terminal = some terminal ∧
    terminal.awaitOutput = some selector ∧
    selectValue host (completionPayload host awaitOutput) selector = .ok selected ∧
    readSelected host terminal.state selected = awaitOutput

/-- The type declared for this completion reads it back. -/
def DeclaresCompletion (record : ProcessRecord (rules host))
    (awaitOutput : ProcessAwaitOutput host.ToolControl) : Prop :=
  ∃ declared, record.eventTypes.find?
      (·.name == TestLocalProcessRegistry.terminalEventType awaitOutput.terminalState) =
        some declared ∧
    ReadsBack declared awaitOutput

/-- One pass of the source's loop of `await_process`: no output yet, or the output. -/
def awaitProcess {rules : ProcessRules} (registry : TestLocalProcessRegistry rules)
    (processId : String) : Except PluginError (Option rules.AwaitOutput) :=
  match registry.getProcess processId with
  | none => .error (unknownProcess processId)
  | some record => .ok record.status.awaitOutput

/-- The process has ended with this output, and the next pass of an awaiter finds it. -/
structure Released (registry : TestLocalProcessRegistry (rules host)) (processId : String)
    (record : ProcessRecord (rules host)) (awaitOutput : ProcessAwaitOutput host.ToolControl) :
    Prop where
  ended : record.isTerminal = true
  output : record.status.awaitOutput = some awaitOutput
  stored : registry.getProcess processId = some record
  awaited : awaitProcess registry processId = .ok (some awaitOutput)

theorem materialize_terminal {sequence : Nat} {payload : Json} {spec : ProcessEventSemanticsSpec}
    {wake : Option ProcessWake}
    {terminal : Option (ProcessTerminalState × ProcessAwaitOutput host.ToolControl)}
    (h : materializeEventSemantics host processId sequence payload spec = .ok (terminal, wake)) :
    (spec.terminal = none ∧ terminal = none) ∨
      ∃ declared made, spec.terminal = some declared ∧ terminal = some made ∧
        materializeTerminalSemantics host payload declared = .ok made := by
  have hpair : ∀ (x : Except PluginError (Option (Option ProcessWake)))
      (made : Option (ProcessTerminalState × ProcessAwaitOutput host.ToolControl)),
      (x.bind fun wake => .ok (made, wake.join)) = .ok (terminal, wake) → terminal = made := by
    intro x made hx
    cases x with
    | error error => cases hx
    | ok wake =>
      cases hx
      rfl
  rw [materializeEventSemantics] at h
  cases hspec : spec.terminal with
  | none =>
    rw [hspec] at h
    exact Or.inl ⟨rfl, hpair _ _ h⟩
  | some declared =>
    rw [hspec, map_some] at h
    cases hmade : materializeTerminalSemantics host payload declared with
    | error error =>
      rw [hmade] at h
      cases h
    | ok made =>
      rw [hmade] at h
      exact Or.inr ⟨declared, made, rfl, hpair _ _ h, hmade⟩

/-- A completion is larger than its output, so it is not the value of it. -/
theorem completionPayload_ne (value : Json) (control : Option host.ToolControl) :
    completionPayload host (.success value control) ≠ value := by
  intro h
  have hsize := congrArg sizeOf h
  cases control with
  | none | some control => simp [completionPayload, awaitOutputJson, optionalEntry] at hsize; omega

variable {awaitOutput : ProcessAwaitOutput host.ToolControl}
  {made : ProcessTerminalState × ProcessAwaitOutput host.ToolControl}
  {terminal : ProcessTerminalSpec}

/-- What a declared terminal type makes of a completion is the output exactly when it reads back. -/
theorem materializeTerminal_iff
    (h : materializeTerminalSemantics host (completionPayload host awaitOutput) terminal =
      .ok made) :
    made.2 = awaitOutput ↔ ∃ selector selected, terminal.awaitOutput = some selector ∧
      selectValue host (completionPayload host awaitOutput) selector = .ok selected ∧
      readSelected host terminal.state selected = awaitOutput := by
  obtain ⟨state, selector⟩ := terminal
  cases selector with
  | none =>
    refine ⟨fun hmade => ?_, fun ⟨_, _, hselector, _⟩ => by cases hselector⟩
    cases state with
    | completed =>
      cases h
      have hne := @completionPayload_ne host (completionPayload host awaitOutput) none
      rw [show .success (completionPayload host awaitOutput) none = awaitOutput from hmade]
        at hne
      exact absurd rfl hne
    | failed | cancelled => cases h
  | some selector =>
    simp only [materializeTerminalSemantics] at h
    cases hselected : selectValue host (completionPayload host awaitOutput) selector with
    | error error =>
      rw [hselected] at h
      cases h
    | ok selected =>
      rw [hselected] at h
      cases h
      refine ⟨fun hread => ⟨selector, selected, rfl, hselected, hread⟩, ?_⟩
      rintro ⟨_, selected', hselector, hselected', hread⟩
      obtain rfl := some.inj hselector
      rw [hselected] at hselected'
      obtain rfl := Except.ok.inj hselected'
      exact hread

variable {record : ProcessRecord (rules host)}

/-- An event made from a completion carries the output exactly when its type reads it back. -/
theorem made_iff {event : ProcessEvent (rules host)} (made : Made record event)
    (eventType : event.eventType =
      terminalEventType awaitOutput.terminalState)
    (payload : event.payload = completionPayload host awaitOutput) :
    event.semantics.terminal.map Prod.snd = some awaitOutput ↔
      DeclaresCompletion record awaitOutput := by
  obtain ⟨declared, hdeclared, hmade⟩ := made
  rw [eventType] at hdeclared
  rw [payload] at hmade
  have hiff : event.semantics.terminal.map Prod.snd = some awaitOutput ↔
      ReadsBack declared awaitOutput := by
    rcases materialize_terminal hmade with
      ⟨hspec, hnone⟩ | ⟨spec, terminal, hspec, hsome, hterminal⟩
    · rw [hnone]
      refine ⟨fun h => (by cases h), ?_⟩
      rintro ⟨spec, _, _, hsome, _⟩
      cases hspec.symm.trans hsome
    · rw [hsome, map_some, some_inj, materializeTerminal_iff hterminal]
      constructor
      · rintro ⟨selector, selected, hselector, hselected, hread⟩
        exact ⟨spec, selector, selected, hspec, hselector, hselected, hread⟩
      · rintro ⟨spec', selector, selected, hspec', hselector, hselected, hread⟩
        obtain rfl := some.inj (hspec.symm.trans hspec')
        exact ⟨selector, selected, hselector, hselected, hread⟩
  rw [hiff]
  constructor
  · exact fun h => ⟨declared, hdeclared, h⟩
  · rintro ⟨declared', hdeclared', h⟩
    obtain rfl := some.inj (hdeclared.symm.trans hdeclared')
    exact h

/-- A completion that is accepted is an append that is accepted. -/
theorem completeProcess_ok {registry' : TestLocalProcessRegistry (rules host)}
    (found : registry.managed processId = some managed)
    (completed : registry.completeProcess processId awaitOutput now = (.ok record, registry')) :
    ∃ result managed',
      Appends managed (terminalRequest processId awaitOutput) now result
        managed' ∧
      registry' = registry.setManaged processId managed' ∧ record = managed'.record := by
  rcases happend : managed.appendEvent
    (terminalRequest processId awaitOutput) now with
    error | ⟨result, managed'⟩
  · simp only [completeProcess, appendEvent,
      found, happend] at completed
    cases completed
  · refine ⟨result, managed', appendEvent_ok happend, ?_⟩
    simp only [completeProcess, appendEvent,
      found, happend, getProcess, setManaged,
      if_true, map_some] at completed
    obtain ⟨hrecord, hregistry⟩ := Prod.mk.inj completed
    exact ⟨hregistry.symm, (Except.ok.inj hrecord).symm⟩

/-- The event of a completion gives a process that runs its output, or leaves it running. -/
theorem completed_output (distinguishes : Distinguishes (rules host)) (kept : Kept managed)
    (running : managed.record.isTerminal = false)
    (appends : Appends managed (terminalRequest processId awaitOutput) now
      result managed') :
    managed'.record.status.awaitOutput = some awaitOutput ↔
      DeclaresCompletion managed.record awaitOutput := by
  have hrunning : managed.record.status.awaitOutput = none := by
    simp only [ProcessRecord.isTerminal] at running
    cases hstatus : managed.record.status with
    | running => rfl
    | completed output | failed output | cancelled output =>
      simp [hstatus, ProcessStatus.isTerminal] at running
  cases appends with
  | @replay key hash event wakeDelivery named found same =>
    obtain ⟨hmem, _, hhash⟩ := kept.indexed.found key hash event found
    obtain ⟨htype, hpayload⟩ := distinguishes _ _ _ _ _ hhash same
    rw [← made_iff (kept.made event hmem) htype hpayload,
      repair_none kept.logged kept.indexed found]
    -- An event of a process that runs is not terminal.
    have hquiet : event.semantics.terminal = none := by
      cases hterminal : event.semantics.terminal with
      | none => rfl
      | some terminal =>
        have hthere : terminal ∈ terminals managed.events :=
          mem_filterMap.mpr ⟨event, hmem, hterminal⟩
        rw [kept.logged.terminals_nil running] at hthere
        cases hthere
    rw [hquiet]
    refine ⟨fun h => ?_, fun h => by cases h⟩
    exact absurd (hrunning.symm.trans h) (by simp)
  | @insert hash event wakeDelivery unseen hashed sequence answers made _ =>
    rw [← made_iff made answers.eventType answers.payload,
      ManagedProcessRecord.applyPlan_status]
    cases hterminal : event.semantics.terminal with
    | none =>
      refine ⟨fun h => ?_, fun h => by cases h⟩
      exact absurd (hrunning.symm.trans h) (by simp)
    | some terminal =>
      obtain ⟨state, output⟩ := terminal
      cases state <;> exact Iff.rfl

/-- Over all runs of registrations that were accepted, appends, completions and waits: completing a
process that runs releases the one who awaits it, with the given output, exactly when the type
declared for the completion reads it back. -/
theorem completion_releases_iff (distinguishes : Distinguishes (rules host))
    (run : Run (processStep registrationHash) emptyRegistry history registry) {processId : String}
    {managed : ManagedProcessRecord (rules host)}
    (found : registry.managed processId = some managed)
    (running : managed.record.isTerminal = false)
    {awaitOutput : ProcessAwaitOutput host.ToolControl} {now : Nat}
    {record : ProcessRecord (rules host)} {registry' : TestLocalProcessRegistry (rules host)}
    (completed : registry.completeProcess processId awaitOutput now = (.ok record, registry')) :
    Released registry' processId record awaitOutput ↔
      DeclaresCompletion managed.record awaitOutput := by
  have hkept := run_kept run processId managed found
  obtain ⟨result, managed', happends, rfl, rfl⟩ := completeProcess_ok found completed
  have hstored : (registry.setManaged processId managed').getProcess processId =
      some managed'.record := by
    simp only [getProcess, setManaged, if_true,
      map_some]
  rw [← completed_output distinguishes hkept running happends]
  refine ⟨fun released => released.output, fun houtput => ⟨?_, houtput, hstored, ?_⟩⟩
  · rw [ProcessRecord.isTerminal]
    cases hstatus : managed'.record.status with
    | running =>
      rw [hstatus] at houtput
      cases houtput
    | completed output | failed output | cancelled output => rfl
  · simp only [awaitProcess, hstored, houtput]

/-- The types of the runtime read an output back when its JSON does. -/
theorem readsBack_terminalEventType {name : String} {state : ProcessTerminalState}
    (pointed : host.pointer (completionPayload host awaitOutput) "/await_output" =
      some (awaitOutputJson host awaitOutput)) :
    ReadsBack (terminalEventType host name state) awaitOutput ↔
      readSelected host state (awaitOutputJson host awaitOutput) = awaitOutput := by
  have hselect : selectValue host (completionPayload host awaitOutput) (.pointer "/await_output") =
      .ok (awaitOutputJson host awaitOutput) := by
    rw [selectValue, pointed]
  constructor
  · rintro ⟨terminal, selector, selected, hterminal, hselector, hselected, hread⟩
    obtain rfl := some.inj hterminal
    obtain rfl := some.inj hselector
    obtain rfl := Except.ok.inj (hselect.symm.trans hselected)
    exact hread
  · intro hread
    exact ⟨⟨state, some (.pointer "/await_output")⟩, .pointer "/await_output",
      awaitOutputJson host awaitOutput, rfl, rfl, hselect, hread⟩

/-- A host that hashes the completion with a null value, reads a success without control, and
points to the fields of an object. -/
def nullHost : ProcessHost where
  Schema := Unit
  ToolControl := Unit
  PreparedToolCall := Unit
  SessionTurnInput := Unit
  ProcessIdentity := Unit
  ProcessProvenance := Unit
  ExecutionEnvRef := Unit
  WaitState := Unit
  ExternalRef := Unit
  WakeDelivery := Unit
  anySchema := ()
  validate _ _ := .ok ()
  controlJson _ := .null
  readOutput
    | .object [("type", .string "success"), ("value", value)] => some (.success value none)
    | _ => none
  display _ := "null"
  pointer
    | .object map, pointer => Json.get map (String.ofList pointer.toList.tail)
    | _, _ => none
  payloadHash
    | eventType,
      .object [("await_output", .object [("type", .string "success"), ("value", .null)])] =>
      .ok eventType
    | _, _ => .error (.session "not hashed")
  wakeDelivery _ _ _ _ _ _ _ _ := .ok ()

theorem nullHost_distinguishes : Distinguishes (rules nullHost) := by
  intro eventType payload eventType' payload' hash h h'
  simp only [nullHost] at h h'
  split at h
  · split at h'
    · cases h
      cases h'
      exact ⟨rfl, rfl⟩
    · cases h'
  · cases h

variable (eventTypes : List (ProcessEventType (rules nullHost)))

def externalRegistration : ProcessRegistration nullHost where
  id := "p"
  input := .external .null
  identity := ()
  eventTypes := eventTypes
  provenance := ()
  envRef := none
  wakeTarget := none

/-- The registry after the registration of one process. -/
def oneProcess : ProcessHistory nullHost × TestLocalProcessRegistry (rules nullHost) :=
  perform (processStep fun _ => .ok "h") [.registerProcess (externalRegistration eventTypes) 0]
    ([], emptyRegistry)

/-- A process that declares the types of the runtime only. -/
def corePrepared : ManagedProcessRecord (rules nullHost) where
  record := TestLocalProcessRegistry.fromPreparedRegistration
    (ensureCoreEventTypes (externalRegistration [])).prepared "h" 0
  events := []
  keyedEvents := fun _ => none
  ackedWakes := []

theorem completion_releases_core : ∃ record registry',
    (oneProcess []).2.completeProcess "p" (.success .null none) 1 = (.ok record, registry') ∧
      Released registry' "p" record (.success .null none) := by
  have hfound : (oneProcess []).2.managed "p" = some corePrepared := rfl
  refine ⟨_, _, rfl, ?_⟩
  refine (completion_releases_iff nullHost_distinguishes (Run.nil.perform _) hfound rfl rfl).mpr
    ⟨terminalEventType nullHost "process.completed" .completed, rfl, ?_⟩
  exact (readsBack_terminalEventType rfl).mpr rfl

/-- The registration declares the name of the completion for an event that ends nothing. -/
def quietCompletion : List (ProcessEventType (rules nullHost)) :=
  [⟨"process.completed", (), ⟨none, none⟩⟩]

theorem quiet_completion_stays_running :
    validateProcessRegistration (externalRegistration quietCompletion) = .ok () ∧
    ∃ record registry',
      (oneProcess quietCompletion).2.completeProcess "p" (.success .null none) 1 =
        (.ok record, registry') ∧
      record.isTerminal = false ∧ awaitProcess registry' "p" = .ok none :=
  ⟨rfl, _, _, rfl, rfl, rfl⟩

/-! ## The state in a record and its output -/

/-- The source's `terminal_state` of a status. -/
def statusState {rules : ProcessRules} : ProcessStatus rules → Option ProcessTerminalState
  | .running => none
  | .completed _ => some .completed
  | .failed _ => some .failed
  | .cancelled _ => some .cancelled

/-- The status names the state of the output that is stored with it. -/
def Agrees {rules : ProcessRules} (status : ProcessStatus rules) : Prop :=
  ∀ output, status.awaitOutput = some output →
    statusState status = some (rules.terminalState output)

variable (host) in
/-- The value a terminal type selects from a payload does not read as an output of another state
than the type declares. -/
def ReadsAlike (payload : Json) (terminal : ProcessTerminalSpec) : Prop :=
  ∀ selector selected output, terminal.awaitOutput = some selector →
    selectValue host payload selector = .ok selected → host.readOutput selected = some output →
    output.terminalState = terminal.state

theorem agrees_fromTerminal {rules : ProcessRules} (state : ProcessTerminalState)
    (output : rules.AwaitOutput) :
    Agrees (.fromTerminal (state, output)) ↔ rules.terminalState output = state := by
  constructor
  · intro agrees
    have hstate := agrees output (by cases state <;> rfl)
    cases state <;> exact (some.inj hstate).symm
  · rintro rfl other hother
    cases hstate : rules.terminalState output <;> rw [hstate] at hother <;> cases hother <;>
      exact congrArg some hstate.symm

theorem materialized_agrees {payload : Json}
    (h : materializeTerminalSemantics host payload terminal = .ok made) :
    Agrees (.fromTerminal made : ProcessStatus (rules host)) ↔
      ReadsAlike host payload terminal := by
  obtain ⟨state, _ | selector⟩ := terminal
  · cases state with
    | completed =>
      cases h
      exact iff_of_true ((agrees_fromTerminal _ _).mpr rfl) fun _ _ _ hselector => by
        cases hselector
    | failed | cancelled => cases h
  · cases hselected : selectValue host payload selector with
    | error error =>
      simp only [materializeTerminalSemantics, hselected] at h
      cases h
    | ok selected =>
      simp only [materializeTerminalSemantics, hselected] at h
      cases h
      rw [agrees_fromTerminal]
      constructor
      · intro hstate other found output hother hfound hread
        cases hother
        cases hselected.symm.trans hfound
        rwa [readSelected, hread] at hstate
      · intro alike
        cases hread : host.readOutput selected with
        | none =>
          rw [readSelected, hread]
          cases state <;> rfl
        | some output =>
          rw [readSelected, hread]
          exact alike selector selected output rfl hselected hread

/-- In every run of the registry, the state in the record of a process is the state of the
output stored with it exactly when no terminal event of the log reads as another state. -/
theorem stored_state_agrees_iff {processId : String}
    {managed : ManagedProcessRecord (rules host)}
    (run : Run (processStep registrationHash) emptyRegistry history registry)
    (found : registry.managed processId = some managed) :
    Agrees managed.record.status ↔
      ∀ event ∈ managed.events, ∀ declared terminal,
        managed.record.eventTypes.find? (·.name == event.eventType) = some declared →
        declared.semantics.terminal = some terminal →
        ReadsAlike host event.payload terminal := by
  have kept := run_kept run _ _ found
  have single : ∀ event ∈ managed.events, ∀ made, event.semantics.terminal = some made →
      managed.record.status = .fromTerminal made := by
    intro event hevent made hmade
    have hmem : made ∈ terminals managed.events := mem_filterMap.mpr ⟨event, hevent, hmade⟩
    have honce := kept.logged.once
    rw [kept.logged.status, statusOf]
    cases hterminals : terminals managed.events with
    | nil =>
      rw [hterminals] at hmem
      cases hmem
    | cons first rest =>
      rw [hterminals] at hmem honce
      cases rest with
      | nil => rw [mem_singleton.mp hmem, head?_cons]
      | cons second rest => exact absurd honce (by simp)
  constructor
  · intro agrees event hevent declared terminal hdeclared hterminal
    obtain ⟨type, htype, hmade⟩ := kept.made event hevent
    obtain rfl := some.inj (htype.symm.trans hdeclared)
    obtain ⟨hnone, -⟩ | ⟨spec, made, hspec, hevent', hmaterialized⟩ :=
      materialize_terminal hmade
    · rw [hterminal] at hnone
      cases hnone
    · obtain rfl := some.inj (hterminal.symm.trans hspec)
      rw [single event hevent made hevent'] at agrees
      exact (materialized_agrees hmaterialized).mp agrees
  · intro alike
    cases hterminals : terminals managed.events with
    | nil =>
      intro output houtput
      rw [kept.logged.status, statusOf, hterminals] at houtput
      cases houtput
    | cons made rest =>
      obtain ⟨event, hevent, hmade'⟩ := mem_filterMap.mp (hterminals ▸ mem_cons_self)
      rw [single event hevent made hmade']
      obtain ⟨declared, hdeclared, hmade⟩ := kept.made event hevent
      obtain ⟨-, hnone⟩ | ⟨spec, made', hspec, hevent', hmaterialized⟩ :=
        materialize_terminal hmade
      · rw [hmade'] at hnone
        cases hnone
      · obtain rfl := some.inj (hmade'.symm.trans hevent')
        exact (materialized_agrees hmaterialized).mpr
          (alike event hevent declared spec hdeclared hspec)

/-- The process after an event of the failure type that carries a success. -/
def failedWithSuccess : ProcessHistory nullHost × TestLocalProcessRegistry (rules nullHost) :=
  perform (processStep fun _ => .ok "h")
    [.appendEvent "p" ⟨"process.failed", completionPayload nullHost (.success .null none),
      some "k", none⟩ 1] (oneProcess [])

theorem failed_record_awaits_success : ∃ record,
    failedWithSuccess.2.getProcess "p" = some record ∧
    statusState record.status = some .failed ∧
    record.status.awaitOutput = some (.success .null none) ∧ ¬ Agrees record.status := by
  refine ⟨_, rfl, rfl, rfl, fun agrees => ?_⟩
  have hstate := agrees (.success .null none) rfl
  cases hstate

theorem stored_state_agrees_iff_failed : ∃ managed,
    failedWithSuccess.2.managed "p" = some managed ∧
    (Agrees managed.record.status ↔
      ∀ event ∈ managed.events, ∀ declared terminal,
        managed.record.eventTypes.find? (·.name == event.eventType) = some declared →
        declared.semantics.terminal = some terminal →
        ReadsAlike nullHost event.payload terminal) := by
  have registered : Run (processStep fun _ => .ok "h") emptyRegistry (oneProcess []).1
      (oneProcess []).2 := Run.nil.perform _
  have run : Run (processStep fun _ => .ok "h") emptyRegistry failedWithSuccess.1
      failedWithSuccess.2 := registered.perform _
  obtain ⟨managed, hfound⟩ : ∃ managed, failedWithSuccess.2.managed "p" = some managed :=
    ⟨_, rfl⟩
  exact ⟨managed, hfound, stored_state_agrees_iff run hfound⟩

end Processes

end ProcessCompletions
