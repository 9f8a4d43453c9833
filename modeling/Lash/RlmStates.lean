import Lash.RlmDrivers
import Lash.RuntimeStates

/-!
# What the script protocol keeps of a session

The globals of the programs and the bindings projected into them are made of the protocol
events of the session: of each list of nodes that is appended while the session lives, and
after a restart of a snapshot of the globals and of every event on the active path. Both take
one event after the other and stop at the first that is refused.
-/

namespace RlmStates

open SessionGraphs
open SessionEventRecord (protocolEvent)
open RlmDrivers (RlmProtocolEvent RlmGlobalsPatchPluginBody RlmSeedPluginBody)

/-- A value, or a reference that is resolved when it is read. -/
inductive RlmProjectedBinding (V Ref : Type) where
  | value (value : V)
  | lazy (reference : Ref)
  deriving DecidableEq

/-- JSON and the values of scripts come from outside. The second function reads the references
of a seed, the last one the globals of a snapshot. -/
structure RlmHost (Json V Ref : Type) where
  decodeRlmProtocolEvent : ProtocolEvent Json → Option (RlmProtocolEvent Json)
  projectionRefFromSeedValue : Json → Except String (Option Ref)
  fromJson : Json → V
  jsonToFlowValue : Json → V
  restoreRuntime : Json → Except String (List (String × V))

/-- Globals in the order of their slots. -/
abbrev Globals (V : Type) := List (String × V)

/-- Bindings in the order of their names. -/
abbrev RlmProjectedBindings (V Ref : Type) := List (String × RlmProjectedBinding V Ref)

variable {Json V Ref : Type}

namespace Globals

variable (globals : Globals V)

def get (name : String) : Option V :=
  (globals.find? (·.1 == name)).map (·.2)

/-- The last global takes the slot of the one that goes. -/
def swapRemove (slot : Nat) : Globals V :=
  match globals.getLast? with
  | none => globals
  | some last => (globals.set slot last).dropLast

def remove (name : String) : Globals V :=
  match globals.findIdx? (·.1 == name) with
  | none => globals
  | some slot => swapRemove globals slot

end Globals

/-! ## Globals -/

def isReservedGlobalName (key : String) : Bool := key == "history"

def pruneProtectedGlobals (protectedNames : List String) (globals : Globals V) : Globals V :=
  ("history" :: protectedNames).foldl Globals.remove globals

def readOnlyMessage (key : String) : String :=
  s!"`{key}` is a read-only projected host binding; " ++
    "choose a different Lashlang variable name for `set_default`"

/-- The defaults are set one after the other, all or none. -/
def applyGlobalDefaults (host : RlmHost Json V Ref) (protectedNames : List String) :
    List (String × Json) → Globals V → Except String (Globals V)
  | [], globals => .ok globals
  | (key, value) :: rest, globals =>
    if isReservedGlobalName key || protectedNames.contains key then .error (readOnlyMessage key)
    else
      applyGlobalDefaults host protectedNames rest
        (if (Globals.get globals key).isNone then globals ++ [(key, host.jsonToFlowValue value)]
        else globals)

/-! ## Projected bindings -/

namespace RlmProjectedBindings

variable (bindings : RlmProjectedBindings V Ref)

variable (name : String)

def containsKey : Bool :=
  bindings.any (·.1 == name)

def insert (binding : RlmProjectedBinding V Ref) : RlmProjectedBindings V Ref :=
  bindings.filter (·.1 < name) ++ (name, binding) :: bindings.filter (name < ·.1)

def names : List String := bindings.map (·.1)

def duplicateMessage : String := s!"projected binding `{name}` is already bound"

def bind (binding : RlmProjectedBinding V Ref) : Except String (RlmProjectedBindings V Ref) :=
  if bindings.containsKey name then .error (duplicateMessage name)
  else .ok (bindings.insert name binding)

def merge (bindings : RlmProjectedBindings V Ref) :
    RlmProjectedBindings V Ref → Except String (RlmProjectedBindings V Ref)
  | [] => .ok bindings
  | (name, binding) :: rest =>
    match bindings.bind name binding with
    | .error e => .error e
    | .ok bindings => bindings.merge rest

/-- What a seed projects, read entry by entry. -/
def ofSnapshot (host : RlmHost Json V Ref) :
    List (String × Json) → RlmProjectedBindings V Ref → Except String (RlmProjectedBindings V Ref)
  | [], bindings => .ok bindings
  | (name, value) :: rest, bindings =>
    match host.projectionRefFromSeedValue value with
    | .error source => .error s!"invalid projection ref for projected seed `{name}`: {source}"
    | .ok reference =>
      match bindings.bind name (reference.elim (.value (host.fromJson value)) .lazy) with
      | .error e => .error e
      | .ok bindings => ofSnapshot host rest bindings

end RlmProjectedBindings

def rejectReservedProjectedBindingNames (bindings : RlmProjectedBindings V Ref) :
    Except String Unit :=
  if bindings.names.any (· == "history") then
    .error "`history` is reserved as an RLM built-in binding"
  else .ok ()

variable (host : RlmHost Json V Ref)

/-- The bindings with those of a seed, or why the seed is refused. -/
def installInitialProjectedSeed (projected : List (String × Json))
    (bindings : RlmProjectedBindings V Ref) : Except String (RlmProjectedBindings V Ref) :=
  match RlmProjectedBindings.ofSnapshot host projected [] with
  | .error e => .error s!"rlm projected seed snapshot rejected: {e}"
  | .ok seeded =>
    match rejectReservedProjectedBindingNames seeded with
    | .error e => .error e
    | .ok () => bindings.merge seeded

/-! ## Events -/

/-- The two things that events change. -/
structure RlmNamespace (V Ref : Type) where
  bindings : RlmProjectedBindings V Ref
  globals : Globals V
  deriving DecidableEq

def RlmNamespace.patchGlobals (protectedNames : List String) (setDefault : List (String × Json))
    (space : RlmNamespace V Ref) : Except String Unit × RlmNamespace V Ref :=
  match applyGlobalDefaults host protectedNames setDefault space.globals with
  | .error e => (.error e, space)
  | .ok globals => (.ok (), { space with globals := globals })

/-- A seed that projects something protects all names that are projected by then. -/
def RlmNamespace.applySeedOrGlobalsEvent (protectedNames : List String)
    (event : RlmProtocolEvent Json) (space : RlmNamespace V Ref) :
    Except String Unit × RlmNamespace V Ref :=
  match event with
  | .rlmGlobalsPatch patch => space.patchGlobals host protectedNames patch.setDefault
  | .rlmSeed seed =>
    if seed.projected.isEmpty then space.patchGlobals host protectedNames seed.globals
    else
      match installInitialProjectedSeed host seed.projected space.bindings with
      | .error e => (.error e, space)
      | .ok bindings =>
        { space with bindings := bindings }.patchGlobals host bindings.names seed.globals
  | .rlmTrajectoryEntry _ | .rlmDiagnostic _ => (.ok (), space)

/-- Events of other protocols are passed over. -/
def RlmNamespace.applyEvents (host : RlmHost Json V Ref) (protectedNames : List String) :
    List (ProtocolEvent Json) → RlmNamespace V Ref → Except String Unit × RlmNamespace V Ref
  | [], space => (.ok (), space)
  | event :: rest, space =>
    match host.decodeRlmProtocolEvent event with
    | none => space.applyEvents host protectedNames rest
    | some event =>
      match space.applySeedOrGlobalsEvent host protectedNames event with
      | (.error e, space) => (.error e, space)
      | (.ok (), space) => space.applyEvents host protectedNames rest

/-! ## The state of the plugin -/

/-- The globals are away while code runs. -/
structure RlmRuntimeState (V Ref : Type) where
  sessionProjectedBindings : RlmProjectedBindings V Ref
  execution : Option (Globals V)
  activeAgentFrameId : Option String
  deriving DecidableEq

namespace RlmRuntimeState

def new : RlmRuntimeState V Ref where
  sessionProjectedBindings := []
  execution := some []
  activeAgentFrameId := none

def busyMessage : String := "RLM execution state is busy"

def withNamespace (plugin : RlmRuntimeState V Ref) (space : RlmNamespace V Ref) :
    RlmRuntimeState V Ref :=
  { plugin with
    sessionProjectedBindings := space.bindings
    execution := some space.globals }

def draftEvent (draft : SessionNodeDraft Json) : Option (ProtocolEvent Json) :=
  match draft.payload with
  | .protocolEvent event => some event
  | _ => none

def appendSessionNodes (host : RlmHost Json V Ref) (nodes : List (SessionNodeDraft Json))
    (plugin : RlmRuntimeState V Ref) : Except String Unit × RlmRuntimeState V Ref :=
  match plugin.execution with
  | none => (.error busyMessage, plugin)
  | some globals =>
    let protectedNames := plugin.sessionProjectedBindings.names
    let space : RlmNamespace V Ref :=
      ⟨plugin.sessionProjectedBindings, pruneProtectedGlobals protectedNames globals⟩
    let (reply, space) := space.applyEvents host protectedNames (nodes.filterMap draftEvent)
    (reply, plugin.withNamespace space)

/-- Another frame starts with nothing. -/
def enterFrame (frameId : String) (globals : Globals V) (plugin : RlmRuntimeState V Ref) :
    RlmRuntimeState V Ref :=
  if plugin.activeAgentFrameId = some frameId then { plugin with execution := some globals }
  else
    { sessionProjectedBindings := []
      execution := some []
      activeAgentFrameId := some frameId }

/-- Restore from a frame, its snapshot of the globals and the active events. -/
def restore (host : RlmHost Json V Ref) (frameId : String) (snapshot : Option Json)
    (activeEvents : List (SessionEventRecord Json)) (plugin : RlmRuntimeState V Ref) :
    Except String Unit × RlmRuntimeState V Ref :=
  match plugin.execution with
  | none => (.error busyMessage, plugin)
  | some globals =>
    let plugin := plugin.enterFrame frameId globals
    let globals := plugin.execution.getD []
    let protectedNames := plugin.sessionProjectedBindings.names
    match (snapshot.map host.restoreRuntime).getD (.ok globals) with
    | .error e => (.error e, plugin)
    | .ok restored =>
      let globals := if snapshot.isSome then
          pruneProtectedGlobals protectedNames (pruneProtectedGlobals [] restored)
        else restored
      let space : RlmNamespace V Ref := ⟨plugin.sessionProjectedBindings, globals⟩
      let (reply, space) :=
        space.applyEvents host protectedNames (activeEvents.filterMap protocolEvent)
      (reply, plugin.withNamespace space)

end RlmRuntimeState

end RlmStates
