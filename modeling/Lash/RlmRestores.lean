import Lash.RlmStates

/-!
# Restoring the script protocol twice

A restore starts from nothing only when the agent frame changes. In the frame it was in it
works on what is there: names that are projected already are refused, and without a
snapshot the globals stay, since events only set defaults. So a restore leaves what it
would leave on a new plugin exactly when nothing is in the way.
-/

namespace RlmRestores

open SessionGraphs RlmStates Runs List Option
open RlmProjectedBindings RlmRuntimeState RlmNamespace
open RlmDrivers (RlmProtocolEvent)
open SessionGraphs.SessionEventRecord (protocolEvent)

variable {Json V Ref : Type}

/-! ## Calls on the plugin -/

/-- The part of a session that is restored. -/
structure RlmSession (Json : Type) where
  currentAgentFrameId : String
  executionStateSnapshot : Option Json
  activeEvents : List (SessionEventRecord Json)

/-- The code is what it makes of the globals under the projected bindings, and nothing when it is
dropped while it runs. -/
inductive RlmOp (Json V Ref : Type) where
  | restoreSession (session : RlmSession Json)
  | appendSessionNodes (nodes : List (SessionNodeDraft Json))
  | executeCode (code : RlmProjectedBindings V Ref → Globals V → Option (Globals V))

def executeCode
    (code : RlmProjectedBindings V Ref → Globals V → Option (Globals V))
    (plugin : RlmRuntimeState V Ref) : Except String Unit × RlmRuntimeState V Ref :=
  match plugin.execution with
  | none => (.error RlmRuntimeState.busyMessage, plugin)
  | some globals =>
    match code plugin.sessionProjectedBindings globals with
    | some globals => (.ok (), { plugin with execution := some globals })
    | none => (.error "dropped", { plugin with execution := none })

variable (host : RlmHost Json V Ref)

def restoreSession (session : RlmSession Json) (plugin : RlmRuntimeState V Ref) :
    Except String Unit × RlmRuntimeState V Ref :=
  plugin.restore host session.currentAgentFrameId session.executionStateSnapshot
    session.activeEvents

def rlmStep (op : RlmOp Json V Ref) (plugin : RlmRuntimeState V Ref) :
    Except String Unit × RlmRuntimeState V Ref :=
  match op with
  | .restoreSession session => restoreSession host session plugin
  | .appendSessionNodes nodes => plugin.appendSessionNodes host nodes
  | .executeCode code => executeCode code plugin

/-! ## Defaults -/

/-- The defaults that an event sets. -/
def eventDefaults : RlmProtocolEvent Json → List (String × Json)
  | .rlmGlobalsPatch patch => patch.setDefault
  | .rlmSeed seed => seed.globals
  | .rlmTrajectoryEntry _ | .rlmDiagnostic _ => []

variable (events : List (ProtocolEvent Json))

def defaultsOf : List (String × Json) :=
  (events.filterMap host.decodeRlmProtocolEvent).flatMap eventDefaults

variable (defaults : List (String × Json))

/-- The value of the first default under a name. -/
def firstDefault (name : String) : Option V :=
  (defaults.find? (·.1 == name)).map fun entry => host.jsonToFlowValue entry.2

theorem firstDefault_append (more : List (String × Json)) (name : String) :
    firstDefault host (defaults ++ more) name =
      (firstDefault host defaults name).or (firstDefault host more name) := by
  rw [firstDefault, find?_append, firstDefault, firstDefault]
  cases defaults.find? (·.1 == name) <;> rfl

theorem get_append (globals : Globals V) (key name : String) (value : V) :
    Globals.get (globals ++ [(key, value)]) name =
      (globals.get name).or (if key = name then some value else none) := by
  simp only [Globals.get, find?_append]
  cases hfound : globals.find? (·.1 == name) with
  | some entry => rfl
  | none => by_cases hkey : key = name <;> simp [hkey]

/-- Two spaces with the same bindings: what is accepted does not depend on the globals, and the
globals only gain the defaults whose names are free. -/
theorem applyGlobalDefaults_eq (protectedNames : List String) :
    ∀ (defaults : List (String × Json)) (globals : Globals V), (∃ message, ∀ other : Globals V,
        applyGlobalDefaults host protectedNames defaults other = .error message) ∨
      ∃ next, applyGlobalDefaults host protectedNames defaults globals = .ok next ∧
        ∀ name, next.get name = (globals.get name).or (firstDefault host defaults name) := by
  intro defaults
  induction defaults with
  | nil =>
    intro globals
    refine Or.inr ⟨globals, rfl, fun name => ?_⟩
    rw [firstDefault, find?_nil, map_none, or_none]
  | cons entry rest ih =>
    obtain ⟨key, value⟩ := entry
    intro globals
    by_cases hrefused : (isReservedGlobalName key || protectedNames.contains key) = true
    · refine Or.inl ⟨readOnlyMessage key, fun other => ?_⟩
      rw [applyGlobalDefaults, if_pos hrefused]
    · have hunfold : ∀ other : Globals V, applyGlobalDefaults host protectedNames
          ((key, value) :: rest) other = applyGlobalDefaults host protectedNames rest
            (if (Globals.get other key).isNone then other ++ [(key, host.jsonToFlowValue value)]
            else other) := fun other => by rw [applyGlobalDefaults, if_neg hrefused]
      have hhead : ∀ name, firstDefault host ((key, value) :: rest) name =
          (if key = name then some (host.jsonToFlowValue value) else none).or
            (firstDefault host rest name) := by
        intro name
        by_cases hkey : key = name
        · simp [firstDefault, hkey]
        · simp [firstDefault, hkey]
      rcases ih (if (Globals.get globals key).isNone then
          globals ++ [(key, host.jsonToFlowValue value)] else globals) with
        ⟨message, hall⟩ | ⟨next, hnext, hget⟩
      · exact Or.inl ⟨message, fun other => by rw [hunfold, hall]⟩
      · refine Or.inr ⟨next, by rw [hunfold, hnext], fun name => ?_⟩
        rw [hget, hhead]
        cases hfound : Globals.get globals key with
        | none => rw [Option.isNone_none, if_pos rfl, get_append, Option.or_assoc]
        | some found =>
          rw [isNone_some, if_neg Bool.false_ne_true]
          by_cases hkey : key = name
          · rw [← hkey, hfound, some_or, some_or]
          · rw [if_neg hkey, none_or]

/-! ## Events on the same bindings -/

/-- Both calls are refused with one text, or both are accepted, leave the same bindings, and each
keeps its globals and gains the defaults whose names are free. -/
structure Alike (defaults : List (String × Json)) (space space' : RlmNamespace V Ref)
    (result result' : Except String Unit × RlmNamespace V Ref) : Prop where
  reply : result'.1 = result.1
  bindings : result'.2.bindings = result.2.bindings
  globals : result.1 = .ok () → ∀ name,
    result.2.globals.get name = (space.globals.get name).or (firstDefault host defaults name)
  globals' : result.1 = .ok () → ∀ name,
    result'.2.globals.get name = (space'.globals.get name).or (firstDefault host defaults name)

variable {space space' : RlmNamespace V Ref}

theorem patchGlobals_alike (protectedNames : List String) (defaults : List (String × Json))
    (same : space'.bindings = space.bindings) :
    Alike host defaults space space' (space.patchGlobals host protectedNames defaults)
      (space'.patchGlobals host protectedNames defaults) := by
  rcases applyGlobalDefaults_eq host protectedNames defaults space.globals with
    ⟨message, hrefused⟩ | ⟨next, hnext, hget⟩
  · simp only [patchGlobals, hrefused]
    exact ⟨rfl, same, fun h => (by cases h), fun h => (by cases h)⟩
  · rcases applyGlobalDefaults_eq host protectedNames defaults space'.globals with
      ⟨message, hrefused⟩ | ⟨next', hnext', hget'⟩
    · rw [hrefused] at hnext
      cases hnext
    · simp only [patchGlobals, hnext, hnext']
      exact ⟨rfl, same, fun _ => hget, fun _ => hget'⟩

theorem firstDefault_nil (name : String) : firstDefault host [] name = none := rfl

theorem quiet_alike (same : space'.bindings = space.bindings) :
    Alike host [] space space' (.ok (), space) (.ok (), space') := by
  refine ⟨rfl, same, fun _ name => ?_, fun _ name => ?_⟩
  · rw [firstDefault_nil, or_none]
  · rw [firstDefault_nil, or_none]

theorem applyEvent_alike (protectedNames : List String) (event : RlmProtocolEvent Json)
    (same : space'.bindings = space.bindings) :
    Alike host (eventDefaults event) space space'
      (space.applySeedOrGlobalsEvent host protectedNames event)
      (space'.applySeedOrGlobalsEvent host protectedNames event) := by
  cases event with
  | rlmTrajectoryEntry entry | rlmDiagnostic event => exact quiet_alike host same
  | rlmGlobalsPatch patch => exact patchGlobals_alike host protectedNames patch.setDefault same
  | rlmSeed seed =>
    simp only [applySeedOrGlobalsEvent, eventDefaults, same]
    split
    · exact patchGlobals_alike host protectedNames seed.globals same
    · cases hinstall : installInitialProjectedSeed host seed.projected space.bindings with
      | error message => exact ⟨rfl, same, fun h => (by cases h), fun h => (by cases h)⟩
      | ok bindings =>
        obtain ⟨hreply, hbindings, hglobals, hglobals'⟩ :=
          @patchGlobals_alike Json V Ref host ⟨bindings, space.globals⟩
            ⟨bindings, space'.globals⟩ bindings.names seed.globals rfl
        exact ⟨hreply, hbindings, hglobals, hglobals'⟩

theorem applyEvents_alike (protectedNames : List String) (events : List (ProtocolEvent Json)) :
    ∀ space space' : RlmNamespace V Ref, space'.bindings = space.bindings →
      Alike host (defaultsOf host events) space space'
        (space.applyEvents host protectedNames events)
        (space'.applyEvents host protectedNames events) := by
  induction events with
  | nil => exact fun space space' same => quiet_alike host same
  | cons event rest ih =>
    intro space space' same
    cases hdecoded : host.decodeRlmProtocolEvent event with
    | none =>
      simp only [applyEvents, hdecoded, defaultsOf, filterMap_cons]
      exact ih space space' same
    | some decoded =>
      have hdefaults : defaultsOf host (event :: rest) =
          eventDefaults decoded ++ defaultsOf host rest := by
        simp only [defaultsOf, filterMap_cons, hdecoded, flatMap_cons]
      obtain ⟨hreply, hbindings, hglobals, hglobals'⟩ :=
        applyEvent_alike host protectedNames decoded same
      simp only [applyEvents, hdecoded, hdefaults]
      rcases hfirst : space.applySeedOrGlobalsEvent host protectedNames decoded with ⟨reply, next⟩
      rcases hfirst' : space'.applySeedOrGlobalsEvent host protectedNames decoded with
        ⟨reply', next'⟩
      rw [hfirst, hfirst'] at hreply hbindings
      rw [hfirst] at hglobals hglobals'
      rw [hfirst'] at hglobals'
      simp only at hreply hbindings hglobals hglobals'
      subst hreply
      cases reply' with
      | error message => exact ⟨rfl, hbindings, fun h => (by cases h), fun h => (by cases h)⟩
      | ok _ =>
        obtain ⟨hreply', hbindings', hrest, hrest'⟩ := ih next next' hbindings
        refine ⟨hreply', hbindings', fun hok name => ?_, fun hok name => ?_⟩
        · rw [hrest hok, hglobals rfl, firstDefault_append, Option.or_assoc]
        · rw [hrest' hok, hglobals' rfl, firstDefault_append, Option.or_assoc]

/-! ## Bindings that are there already -/

theorem containsKey_insert (bindings : RlmProjectedBindings V Ref) (name key : String)
    (binding : RlmProjectedBinding V Ref) :
    (bindings.insert name binding).containsKey key = true ↔
      key = name ∨ bindings.containsKey key = true := by
  simp only [RlmProjectedBindings.containsKey, RlmProjectedBindings.insert, any_append,
    List.any_cons, List.any_filter, Bool.or_eq_true, List.any_eq_true, Bool.and_eq_true,
    decide_eq_true_eq, beq_iff_eq]
  constructor
  · rintro (⟨entry, hentry, _, rfl⟩ | rfl | ⟨entry, hentry, _, rfl⟩)
    · exact Or.inr ⟨entry, hentry, rfl⟩
    · exact Or.inl rfl
    · exact Or.inr ⟨entry, hentry, rfl⟩
  · rintro (rfl | ⟨entry, hentry, rfl⟩)
    · exact Or.inr (Or.inl rfl)
    · by_cases hbefore : entry.1 < name
      · exact Or.inl ⟨entry, hentry, hbefore, rfl⟩
      · by_cases hafter : name < entry.1
        · exact Or.inr (Or.inr ⟨entry, hentry, hafter, rfl⟩)
        · exact Or.inr (Or.inl (String.le_antisymm hbefore hafter))

theorem merge_ok {bindings merged : RlmProjectedBindings V Ref} :
    ∀ {added : RlmProjectedBindings V Ref}, bindings.merge added = .ok merged →
      ∀ key, (bindings.containsKey key = true → added.containsKey key = false) ∧
        (merged.containsKey key = true ↔
          bindings.containsKey key = true ∨ added.containsKey key = true) := by
  intro added
  induction added generalizing bindings with
  | nil =>
    intro h key
    obtain rfl := Except.ok.inj h
    exact ⟨fun _ => rfl, by simp [containsKey]⟩
  | cons entry rest ih =>
    obtain ⟨name, binding⟩ := entry
    intro h key
    rw [RlmProjectedBindings.merge] at h
    cases hbind : bindings.bind name binding with
    | error message =>
      rw [hbind] at h
      cases h
    | ok bound =>
      rw [hbind] at h
      have hfresh : bindings.containsKey name = false ∧ bound = bindings.insert name binding := by
        rw [RlmProjectedBindings.bind] at hbind
        split at hbind
        · cases hbind
        · rename_i hnew
          exact ⟨by simpa using hnew, (Except.ok.inj hbind).symm⟩
      obtain ⟨hnew, rfl⟩ := hfresh
      obtain ⟨hdisjoint, hkeys⟩ := ih h key
      have hcons : containsKey ((name, binding) :: rest) key = true ↔
          key = name ∨ containsKey rest key = true := by
        rw [containsKey, any_cons, Bool.or_eq_true, beq_iff_eq, eq_comm]
        exact Iff.rfl
      rw [containsKey_insert] at hkeys hdisjoint
      constructor
      · intro hthere
        rw [Bool.eq_false_iff, ne_eq, hcons]
        rintro (rfl | hrest)
        · rw [hnew] at hthere
          cases hthere
        · rw [hdisjoint (Or.inr hthere)] at hrest
          cases hrest
      · rw [hkeys, hcons]
        tauto

/-- The bindings that an accepted event projects. -/
def projectedBy : RlmProtocolEvent Json → RlmProjectedBindings V Ref
  | .rlmSeed seed => (RlmProjectedBindings.ofSnapshot host seed.projected []).toOption.getD []
  | _ => []

theorem patchGlobals_bindings (protectedNames : List String) (defaults : List (String × Json))
    (space : RlmNamespace V Ref) :
    (space.patchGlobals host protectedNames defaults).2.bindings = space.bindings := by
  rw [patchGlobals]
  split <;> rfl

variable {protectedNames : List String}

theorem applyEvent_ok {event : RlmProtocolEvent Json} {next : RlmNamespace V Ref}
    (h : space.applySeedOrGlobalsEvent host protectedNames event = (.ok (), next)) :
    space.bindings.merge (projectedBy host event) = .ok next.bindings := by
  cases event with
  | rlmTrajectoryEntry entry | rlmDiagnostic event =>
    cases h
    rfl
  | rlmGlobalsPatch patch =>
    have hkept := patchGlobals_bindings host protectedNames patch.setDefault space
    rw [applySeedOrGlobalsEvent] at h
    rw [h] at hkept
    rw [hkept]
    rfl
  | rlmSeed seed =>
    rw [applySeedOrGlobalsEvent] at h
    split at h
    · rename_i hempty
      have hkept := patchGlobals_bindings host protectedNames seed.globals space
      rw [h] at hkept
      rw [projectedBy, isEmpty_iff.mp hempty, hkept]
      rfl
    · cases hsnapshot : ofSnapshot host seed.projected [] with
      | error message =>
        simp only [installInitialProjectedSeed, hsnapshot] at h
        cases h
      | ok seeded =>
        rw [projectedBy, hsnapshot]
        simp only [installInitialProjectedSeed, hsnapshot] at h
        cases hreserved : rejectReservedProjectedBindingNames seeded with
        | error message =>
          simp only [hreserved] at h
          cases h
        | ok _ =>
          simp only [hreserved] at h
          change space.bindings.merge seeded = .ok next.bindings
          cases hmerge : space.bindings.merge seeded with
          | error message =>
            simp only [hmerge] at h
            cases h
          | ok bindings =>
            simp only [hmerge] at h
            have hkept := patchGlobals_bindings host bindings.names seed.globals
              { space with bindings := bindings }
            rw [h] at hkept
            exact congrArg Except.ok hkept.symm

/-- Bindings that are there already stay, and events that are accepted on top of them bind none of
their names elsewhere either. -/
theorem applyEvents_apart {protectedNames' : List String} :
    ∀ space space' : RlmNamespace V Ref, (space.applyEvents host protectedNames events).1 = .ok () →
      (space'.applyEvents host protectedNames' events).1 = .ok () →
      ∀ key, space'.bindings.containsKey key = true → space.bindings.containsKey key = false →
        (space'.applyEvents host protectedNames' events).2.bindings.containsKey key = true ∧
          (space.applyEvents host protectedNames events).2.bindings.containsKey key = false := by
  induction events with
  | nil => exact fun space space' _ _ key hthere hmissing => ⟨hthere, hmissing⟩
  | cons event rest ih =>
    intro space space' hok hok' key hthere hmissing
    cases hdecoded : host.decodeRlmProtocolEvent event with
    | none =>
      simp only [applyEvents, hdecoded] at hok hok' ⊢
      exact ih space space' hok hok' key hthere hmissing
    | some decoded =>
      simp only [applyEvents, hdecoded] at hok hok' ⊢
      rcases hfirst : space.applySeedOrGlobalsEvent host protectedNames decoded with
        ⟨message | _, next⟩
      · simp only [hfirst] at hok
        cases hok
      · rcases hfirst' : space'.applySeedOrGlobalsEvent host protectedNames' decoded with
          ⟨message | _, next'⟩
        · simp only [hfirst'] at hok'
          cases hok'
        · simp only [hfirst] at hok ⊢
          simp only [hfirst'] at hok' ⊢
          obtain ⟨_, hkeys⟩ := merge_ok (applyEvent_ok host hfirst) key
          obtain ⟨hdisjoint, hkeys'⟩ := merge_ok (applyEvent_ok host hfirst') key
          refine ih next next' hok hok' key (hkeys'.mpr (Or.inl hthere)) ?_
          rw [Bool.eq_false_iff, ne_eq, hkeys, hmissing, hdisjoint hthere]
          simp

/-! ## Restoring -/

/-- The globals that the events of a session are applied to. -/
def startGlobals (session : RlmSession Json) (protectedNames : List String)
    (globals : Globals V) : Except String (Globals V) :=
  match session.executionStateSnapshot with
  | none => .ok globals
  | some snapshot => (host.restoreRuntime snapshot).map fun restored =>
    pruneProtectedGlobals protectedNames (pruneProtectedGlobals [] restored)

/-- The events of a session, applied on a start. -/
def replayEvents (session : RlmSession Json) (bindings : RlmProjectedBindings V Ref)
    (globals : Globals V) : Except String Unit × RlmNamespace V Ref :=
  RlmNamespace.applyEvents host bindings.names
    (session.activeEvents.filterMap protocolEvent) ⟨bindings, globals⟩

/-- The restore of a plugin that has entered the frame. -/
def restoreFrom (session : RlmSession Json) (entered : RlmRuntimeState V Ref) :
    Except String Unit × RlmRuntimeState V Ref :=
  match startGlobals host session entered.sessionProjectedBindings.names
      (entered.execution.getD []) with
  | .error e => (.error e, entered)
  | .ok start =>
    ((replayEvents host session entered.sessionProjectedBindings start).1,
      entered.withNamespace (replayEvents host session entered.sessionProjectedBindings start).2)

/-- A plugin that has entered a frame it was not in. -/
def blank (frameId : String) : RlmRuntimeState V Ref where
  sessionProjectedBindings := []
  execution := some []
  activeAgentFrameId := some frameId

variable {session : RlmSession Json} {plugin : RlmRuntimeState V Ref} {globals : Globals V}

theorem restoreSession_eq (present : plugin.execution = some globals) :
    restoreSession host session plugin =
      restoreFrom host session (plugin.enterFrame session.currentAgentFrameId globals) := by
  rw [restoreSession, restore, present, restoreFrom, startGlobals]
  cases hsnapshot : session.executionStateSnapshot with
  | none => rfl
  | some snapshot =>
    simp only [map_some, getD_some, isSome_some, if_true]
    cases host.restoreRuntime snapshot <;> rfl

/-- In another frame a plugin starts from nothing. -/
theorem restoreSession_other (present : plugin.execution = some globals)
    (other : plugin.activeAgentFrameId ≠ some session.currentAgentFrameId) :
    restoreSession host session plugin =
      restoreFrom host session (blank session.currentAgentFrameId) := by
  rw [restoreSession_eq host present, enterFrame, if_neg other]
  rfl

theorem restoreSession_new : restoreSession host session (.new : RlmRuntimeState V Ref) =
    restoreFrom host session (blank session.currentAgentFrameId) :=
  restoreSession_other host rfl fun h => (by cases h)

/-- In its own frame a plugin goes on. -/
theorem restoreSession_same (present : plugin.execution = some globals)
    (same : plugin.activeAgentFrameId = some session.currentAgentFrameId) :
    restoreSession host session plugin = restoreFrom host session plugin := by
  rw [restoreSession_eq host present, enterFrame, if_pos same, ← present]

variable {entered : RlmRuntimeState V Ref}

theorem restoreFrom_start {start : Globals V}
    (started : startGlobals host session entered.sessionProjectedBindings.names
      (entered.execution.getD []) = .ok start) :
    restoreFrom host session entered =
      ((replayEvents host session entered.sessionProjectedBindings start).1, entered.withNamespace
          (replayEvents host session entered.sessionProjectedBindings start).2) := by
  rw [restoreFrom, started]

/-- A restore that is accepted has a start, and its events are accepted. -/
theorem restoreFrom_ok (h : (restoreFrom host session entered).1 = .ok ()) :
    ∃ start, startGlobals host session entered.sessionProjectedBindings.names
        (entered.execution.getD []) = .ok start ∧
      (replayEvents host session entered.sessionProjectedBindings start).1 = .ok () ∧
      (restoreFrom host session entered).2 = entered.withNamespace
        (replayEvents host session entered.sessionProjectedBindings start).2 := by
  cases hstart : startGlobals host session entered.sessionProjectedBindings.names
      (entered.execution.getD []) with
  | error message =>
    rw [restoreFrom, hstart] at h
    cases h
  | ok start =>
    rw [restoreFrom_start host hstart] at h ⊢
    exact ⟨start, rfl, h, rfl⟩

/-- The variables of the programs, by name. -/
def globalOf (plugin : RlmRuntimeState V Ref) (name : String) : Option V :=
  plugin.execution.bind fun globals => globals.get name

/-- The same projected bindings and the same globals. -/
structure SameNamespace (plugin other : RlmRuntimeState V Ref) : Prop where
  bindings : plugin.sessionProjectedBindings = other.sessionProjectedBindings
  globals : ∀ name, globalOf plugin name = globalOf other name

/-- Nothing is in the way of a restore: the plugin is not in the middle of code, and it enters
another frame, or nothing is projected in its frame and, where the session has no snapshot, its
globals are defaults that the events of the session set to the same values. -/
def Unobstructed (session : RlmSession Json) (plugin : RlmRuntimeState V Ref) : Prop :=
  ∃ globals, plugin.execution = some globals ∧
    (plugin.activeAgentFrameId ≠ some session.currentAgentFrameId ∨
      (plugin.sessionProjectedBindings = [] ∧
        (session.executionStateSnapshot.isSome = true ∨
          ∀ name value, globals.get name = some value →
            firstDefault host (defaultsOf host
              (session.activeEvents.filterMap protocolEvent)) name = some value)))

theorem globalOf_withNamespace (entered : RlmRuntimeState V Ref) (space : RlmNamespace V Ref)
    (name : String) : globalOf (entered.withNamespace space) name = space.globals.get name := rfl

/-- In the frame it was in, nothing being projected there. -/
theorem restoreFrom_iff (present : plugin.execution = some globals)
    (unbound : plugin.sessionProjectedBindings = [])
    (fresh : (restoreFrom host session
      (blank session.currentAgentFrameId : RlmRuntimeState V Ref)).1 = .ok ()) :
    ((restoreFrom host session plugin).1 = .ok () ∧
      SameNamespace (restoreFrom host session plugin).2
        (restoreFrom host session (blank session.currentAgentFrameId)).2) ↔
    (session.executionStateSnapshot.isSome = true ∨ ∀ name value, globals.get name = some value →
        firstDefault host (defaultsOf host
          (session.activeEvents.filterMap protocolEvent)) name = some value) := by
  obtain ⟨start, hstart, hreply, hfresh⟩ := restoreFrom_ok host fresh
  rw [hfresh]
  cases hsnapshot : session.executionStateSnapshot with
  | some snapshot =>
    have hsame : startGlobals host session plugin.sessionProjectedBindings.names
        (plugin.execution.getD []) = .ok start := by
      rw [unbound]
      simp only [startGlobals, hsnapshot] at hstart ⊢
      exact hstart
    rw [restoreFrom_start host hsame, unbound]
    exact iff_of_true ⟨hreply, rfl, fun name => rfl⟩ (Or.inl rfl)
  | none =>
    obtain rfl : [] = start := by
      simpa only [startGlobals, hsnapshot, blank, getD_some, Except.ok.injEq] using hstart
    have hown : startGlobals host session plugin.sessionProjectedBindings.names
        (plugin.execution.getD []) = .ok globals := by
      simp only [startGlobals, hsnapshot, present, getD_some]
    rw [restoreFrom_start host hown, unbound]
    obtain ⟨hsame, hbindings, hget, hget'⟩ := applyEvents_alike host
      (names ([] : RlmProjectedBindings V Ref))
      (session.activeEvents.filterMap protocolEvent) ⟨[], []⟩ ⟨[], globals⟩ rfl
    have hdefaults : ∀ name,
        (replayEvents host session ([] : RlmProjectedBindings V Ref) []).2.globals.get name =
          firstDefault host (defaultsOf host
            (session.activeEvents.filterMap protocolEvent)) name :=
      fun name => (hget hreply name).trans none_or
    have hglobals : ∀ name, (replayEvents host session [] globals).2.globals.get name =
        (globals.get name).or (firstDefault host (defaultsOf host
          (session.activeEvents.filterMap protocolEvent)) name) :=
      fun name => hget' hreply name
    constructor
    · rintro ⟨_, _, hleft⟩
      refine Or.inr fun name value hvalue => ?_
      have hname := hleft name
      simp only [globalOf_withNamespace, blank] at hname
      rw [hglobals, hdefaults, hvalue, some_or] at hname
      exact hname.symm
    · rintro (hthere | hall)
      · cases hthere
      · refine ⟨hsame.trans hreply, hbindings, fun name => ?_⟩
        simp only [globalOf_withNamespace, blank]
        rw [hglobals, hdefaults]
        cases hvalue : globals.get name with
        | none => rw [none_or]
        | some value => rw [some_or, hall name value hvalue]

/-- What is projected in its frame already is in the way of a restore. -/
theorem restoreFrom_bound {name : String}
    (bound : plugin.sessionProjectedBindings.containsKey name = true)
    (fresh : (restoreFrom host session
      (blank session.currentAgentFrameId : RlmRuntimeState V Ref)).1 = .ok ())
    (again : (restoreFrom host session plugin).1 = .ok ()) :
    (restoreFrom host session plugin).2.sessionProjectedBindings ≠ (restoreFrom host session
        (blank session.currentAgentFrameId :
          RlmRuntimeState V Ref)).2.sessionProjectedBindings := by
  obtain ⟨start, _, hreply, hfresh⟩ := restoreFrom_ok host fresh
  obtain ⟨start', _, hreply', hagain⟩ := restoreFrom_ok host again
  obtain ⟨hkept, hmissing⟩ := applyEvents_apart host _ _ _ hreply hreply' name bound rfl
  intro hsame
  rw [hagain, hfresh] at hsame
  have hboth := congrArg (fun bindings => bindings.containsKey name) hsame
  exact absurd (hkept.symm.trans (hboth.trans hmissing)) (by simp)

/-- A session that a new plugin accepts is accepted by any plugin, and leaves the same globals and
the same projected bindings on it, exactly when nothing is in the way. -/
theorem restoreSession_iff (plugin : RlmRuntimeState V Ref)
    (fresh : (restoreSession host session (.new : RlmRuntimeState V Ref)).1 = .ok ()) :
    ((restoreSession host session plugin).1 = .ok () ∧
      SameNamespace (restoreSession host session plugin).2 (restoreSession host session .new).2) ↔
    Unobstructed host session plugin := by
  rw [restoreSession_new] at fresh ⊢
  cases hexecution : plugin.execution with
  | none =>
    refine iff_of_false ?_ ?_
    · rintro ⟨hok, _⟩
      simp only [restoreSession, restore, hexecution] at hok
      cases hok
    · rintro ⟨globals, hpresent, _⟩
      cases hexecution.symm.trans hpresent
  | some globals =>
    have hunfold : Unobstructed host session plugin ↔
        (plugin.activeAgentFrameId ≠ some session.currentAgentFrameId ∨
          (plugin.sessionProjectedBindings = [] ∧ (session.executionStateSnapshot.isSome = true ∨
              ∀ name value, globals.get name = some value → firstDefault host (defaultsOf host
                  (session.activeEvents.filterMap protocolEvent)) name = some value))) := by
      constructor
      · rintro ⟨globals', hpresent, h⟩
        obtain rfl := some.inj (hexecution.symm.trans hpresent)
        exact h
      · exact fun h => ⟨globals, hexecution, h⟩
    rw [hunfold]
    by_cases hframe : plugin.activeAgentFrameId = some session.currentAgentFrameId
    · rw [restoreSession_same host hexecution hframe]
      cases hbindings : plugin.sessionProjectedBindings with
      | nil =>
        rw [restoreFrom_iff host hexecution hbindings fresh]
        exact ⟨fun h => Or.inr ⟨rfl, h⟩, fun h => (h.resolve_left (not_not.mpr hframe)).2⟩
      | cons entry rest =>
        refine iff_of_false ?_ ?_
        · rintro ⟨hok, hsame⟩
          have hbound : plugin.sessionProjectedBindings.containsKey entry.1 = true := by
            simp [containsKey, hbindings]
          exact restoreFrom_bound host hbound fresh hok hsame.bindings
        · rintro (hother | ⟨hempty, _⟩)
          · exact hother hframe
          · cases hempty
    · rw [restoreSession_other host hexecution hframe]
      exact iff_of_true ⟨fresh, rfl, fun _ => rfl⟩ (Or.inl hframe)

abbrev RlmHistory (Json V Ref : Type) :=
  List (Entry (RlmOp Json V Ref) (RlmRuntimeState V Ref) (Except String Unit))

variable {history : RlmHistory Json V Ref}

/-- Over all runs of restores, appends of nodes and executions of code: each restore of a session
that a new plugin accepts is accepted and leaves what it leaves on a new plugin, exactly when
nothing is in its way. -/
theorem restores_alike (run : Run (rlmStep host) .new history plugin)
    {e : Entry (RlmOp Json V Ref) (RlmRuntimeState V Ref) (Except String Unit)} (he : e ∈ history)
    (called : e.input = .restoreSession session)
    (fresh : (restoreSession host session (.new : RlmRuntimeState V Ref)).1 = .ok ()) :
    (e.output = .ok () ∧ SameNamespace e.after (restoreSession host session .new).2) ↔
      Unobstructed host session e.before := by
  obtain ⟨_, hentry⟩ := run.entry he
  rw [← restoreSession_iff host e.before fresh]
  have houtput : e.output = (restoreSession host session e.before).1 := by
    rw [hentry, called]
    rfl
  have hafter : e.after = (restoreSession host session e.before).2 := by
    rw [hentry, called]
    rfl
  rw [houtput, hafter]

/-- Values are numbers, and every event is a seed that projects its payload as `doc`. -/
def seedHost : RlmHost Nat Nat Unit where
  decodeRlmProtocolEvent event := some (.rlmSeed ⟨[], [("doc", event.payload)]⟩)
  projectionRefFromSeedValue _ := .ok none
  fromJson := id
  jsonToFlowValue := id
  restoreRuntime _ := .error "no snapshot"

/-- A session without a snapshot, with one event for each of the payloads. -/
def seededSession (frameId : String) (payloads : List Nat) : RlmSession Nat where
  currentAgentFrameId := frameId
  executionStateSnapshot := none
  activeEvents := payloads.map fun payload => .protocol ⟨"rlm", payload⟩

/-- The plugin after a session was restored and code has set a variable. -/
def usedPlugin (payloads : List Nat) : RlmHistory Nat Nat Unit × RlmRuntimeState Nat Unit :=
  perform (rlmStep seedHost) [.restoreSession (seededSession "main" payloads),
    .executeCode fun _ globals => some (globals ++ [("x", 1)])] ([], .new)

theorem restores_alike_next_frame :
    (restoreSession seedHost (seededSession "next" [7]) (usedPlugin [5]).2).1 = .ok () ∧
      SameNamespace (restoreSession seedHost (seededSession "next" [7]) (usedPlugin [5]).2).2
        (restoreSession seedHost (seededSession "next" [7]) .new).2 :=
  (restores_alike seedHost (((Run.nil.perform _).cons (.restoreSession (seededSession "next" [7]))))
    (e := entryAt (rlmStep seedHost) (.restoreSession (seededSession "next" [7]))
      (usedPlugin [5]).2)
    List.mem_cons_self rfl rfl).mpr ⟨_, rfl, Or.inl (by decide)⟩

/-- The seed of a session is refused when the session is restored again, and a variable stays in its
frame when a session without it is restored. -/
theorem restore_depends_on_plugin :
    (restoreSession seedHost (seededSession "main" [5]) .new).1 = .ok () ∧
    (restoreSession seedHost (seededSession "main" [5])
      (restoreSession seedHost (seededSession "main" [5]) .new).2).1 =
        .error "projected binding `doc` is already bound" ∧
    (restoreSession seedHost (seededSession "main" []) .new).1 = .ok () ∧
    globalOf (restoreSession seedHost (seededSession "main" []) .new).2 "x" = none ∧
    globalOf (restoreSession seedHost (seededSession "main" []) (usedPlugin []).2).2 "x" =
      some 1 := by
  decide

end RlmRestores
