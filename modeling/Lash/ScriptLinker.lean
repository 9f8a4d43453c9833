import Lash.HostCatalogs
import Lash.Questions
import Lash.ScriptPrograms

/-!
# The linker of the script language

The linker resolves the names of a program under the surface of a host. It reads the
surface only by asking for one thing at a time: an ability, a type, a module, an
operation. So it is written as a computation that asks, and the surface answers.
-/

namespace ScriptLinker

open HostCatalogs NameTables Questions ScriptPrograms ScriptSyntax ScriptTypes

/-! ## What the linker asks of a surface -/

inductive Question where
  | processes | sleep | processSignals | triggers | labelAnnotations
  | resourceType (name : String)
  | namedDataType (name : String)
  | sealedValueType (name : String)
  | triggerSource (name : String)
  | constructorOfType (name : String)
  | modulePath (path : List String)
  | valueConstructor (path : List String)
  | operation (resourceType name : String)
  | moduleOperation (resourceType aliasName name : String)
  | suggestionsForHost (hostOperation : String)
  | suggestionsBelow (path : List String) (name : String)
deriving DecidableEq

abbrev Question.Answer : Question → Type
  | .processes | .sleep | .processSignals | .triggers | .labelAnnotations => Bool
  | .resourceType _ | .sealedValueType _ => Bool
  | .namedDataType _ => Option NamedDataType
  | .triggerSource _ => Option TriggerSourceBinding
  | .constructorOfType _ | .valueConstructor _ => Option ValueConstructorBinding
  | .modulePath _ => Option ResourceRef
  | .operation _ _ => Option ResourceOperationBinding
  | .moduleOperation _ _ _ => Option ModuleOperationBinding
  | .suggestionsForHost _ | .suggestionsBelow _ _ => List String

def answer (surface : LashlangHostEnvironment) : (q : Question) → q.Answer
  | .processes => surface.abilities.processes
  | .sleep => surface.abilities.sleep
  | .processSignals => surface.abilities.processSignals
  | .triggers => surface.abilities.triggers
  | .labelAnnotations => surface.languageFeatures.labelAnnotations
  | .resourceType name => surface.resources.hasResourceType name
  | .namedDataType name => surface.resources.resolveNamedDataType name
  | .sealedValueType name => surface.resources.isKnownSealedValueType name
  | .triggerSource name => surface.resources.resolveTriggerSource name
  | .constructorOfType name => surface.resources.constructorOfType name
  | .modulePath path => surface.resources.resolveModulePath path
  | .valueConstructor path => surface.resources.resolveValueConstructor path
  | .operation resourceType name => surface.resources.resolveOperation resourceType name
  | .moduleOperation resourceType aliasName name =>
    surface.resources.resolveModuleOperation resourceType aliasName name
  | .suggestionsForHost hostOperation =>
    surface.resources.operationSuggestionsForHost hostOperation
  | .suggestionsBelow path name => surface.resources.operationSuggestionsBelow path name

abbrev Ask := Asking Question Question.Answer

def ask (q : Question) : Ask q.Answer := Asking.question q

/-! ## Errors and scopes -/

inductive LinkError where
  | duplicateDeclaration (name : String) (span : Option Span)
  | duplicateProcessParam (name : String) (span : Option Span)
  | duplicateProcessSignal (name : String) (span : Option Span)
  | unknownProcess (name : String) (span : Option Span)
  | missingProcessArgument (process arg : String) (span : Option Span)
  | unexpectedProcessArgument (process arg : String) (span : Option Span)
  | duplicateProcessArgument (arg : String) (span : Option Span)
  | unknownName (name : String) (span : Option Span)
  | unknownBuiltin (name : String) (span : Option Span)
  | unknownResource (path : String) (span : Option Span)
  | unknownType (name : String) (span : Option Span)
  | incompatibleConstructorInput (path expected actual : String) (span : Option Span)
  | incompatibleOperationInput (operation expected actual : String) (span : Option Span)
  | incompatibleProcessReturn (process expected actual : String) (span : Option Span)
  | invalidTriggerRegistration (span : Option Span)
  | invalidTriggerInputs (span : Option Span)
  | duplicateTriggerInput (input : String) (span : Option Span)
  | missingTriggerInput (process input : String) (span : Option Span)
  | unknownTriggerInput (process input : String) (span : Option Span)
  | missingTriggerEventInput (span : Option Span)
  | triggerEventOutsideInputs (span : Option Span)
  | triggerEventProjection (span : Option Span)
  | invalidTriggerList (span : Option Span)
  | invalidTriggerCancel (span : Option Span)
  | unknownTriggerEventType (sourceTy : String) (span : Option Span)
  | invalidTriggerTarget (actual : String) (span : Option Span)
  | triggerEventMismatch (event inputName input : String) (span : Option Span)
  | unresolvedReceiver (operation : String) (span : Option Span)
  | unknownResourceOperation (resourceType operation : String) (span : Option Span)
  | ambiguousModuleOperation (modulePath operation : String) (suggestions : List String)
      (span : Option Span)
  | bareToolCall (name suggestion : String) (span : Option Span)
  | incompatibleProcessArgument (process arg expected actual : String) (span : Option Span)
  | featureDisabled (feature : String) (span : Option Span)
  | processLifecycleOutsideProcess (keyword : String) (span : Option Span)
  | sealedHostDescriptorAccess (typeName access : String) (span : Option Span)
deriving DecidableEq

inductive Binding where
  | value (ty : TypeExpr)
  | resource (resourceType : String)

structure Scope where
  bindings : Table Binding
  allowUnknownGlobals : Bool
  processBody : Bool
  span : Option Span

def Scope.new (allowUnknownGlobals processBody : Bool) (span : Option Span) : Scope :=
  ⟨.empty, allowUnknownGlobals, processBody, span⟩

def Scope.bind (name : String) (binding : Binding) (scope : Scope) : Scope :=
  { scope with bindings := scope.bindings.set name binding }

def Scope.restore (name : String) (previous : Option Binding) (scope : Scope) : Scope :=
  match previous with
  | some binding => scope.bind name binding
  | none => { scope with bindings := scope.bindings.remove name }

/-- What is known here stays; the other scope adds the names that are new. -/
def Scope.mergeFrom (scope other : Scope) : Scope :=
  { scope with
    bindings := other.bindings.entries.foldl
      (fun bindings entry =>
        if bindings.has entry.1 then bindings else bindings.set entry.1 entry.2)
      scope.bindings }

def anyBinding : Binding := .value .any

def bindingType : Option Binding → TypeExpr
  | some (.value ty) => ty
  | some (.resource resourceType) => .ref resourceType
  | none => .any

structure Completion where
  finishes : List TypeExpr
  canFallthrough : Bool

def Completion.fallthrough : Completion := ⟨[], true⟩

/-- A check that asks and may fail, and one that also reads and changes the scope. -/
abbrev Check := ExceptT LinkError Ask

abbrev Link := StateT Scope Check

def fail {α : Type} (error : LinkError) : Check α := throw error

def spanOf : Link (Option Span) := do return (← get).span

/-- A pass over a copy of the scope. -/
def onClone {α : Type} (pass : Link α) : Link α := do
  let scope ← get
  let result ← pass
  set scope
  return result

def ensureFeature (enabled : Bool) (feature : String) (span : Option Span) : Check Unit :=
  if enabled then pure () else fail (.featureDisabled feature span)

/-! ## Types under a surface -/

structure Linker where
  program : Program
  processTypes : Table TypeExpr
  typeDefs : Table TypeExpr

mutual
/-- Replaces each name in a type. -/
def mapRefs (resolve : String → Ask TypeExpr) : TypeExpr → Ask TypeExpr
  | .ref name => resolve name
  | .list item => do return .list (← mapRefs resolve item)
  | .object fields => do return .object (← mapFieldRefs resolve fields)
  | .union variants => do return .union (← mapAllRefs resolve variants)
  | .process input output count => do
      let input ← mapRefs resolve input
      let output ← mapRefs resolve output
      return .process input output count
  | .triggerHandle event => do return .triggerHandle (← mapRefs resolve event)
  | .any => pure .any
  | .str => pure .str
  | .int => pure .int
  | .float => pure .float
  | .bool => pure .bool
  | .dict => pure .dict
  | .null => pure .null
  | .enum values => pure (.enum values)
def mapAllRefs (resolve : String → Ask TypeExpr) : List TypeExpr → Ask (List TypeExpr)
  | [] => pure []
  | ty :: rest => do
      let ty ← mapRefs resolve ty
      return ty :: (← mapAllRefs resolve rest)
def mapFieldRefs (resolve : String → Ask TypeExpr) :
    List (TypeField TypeExpr) → Ask (List (TypeField TypeExpr))
  | [] => pure []
  | ⟨name, ty, optional⟩ :: rest => do
      let ty ← mapRefs resolve ty
      return ⟨name, ty, optional⟩ :: (← mapFieldRefs resolve rest)
end

/-- The type a name stands for. A name met inside its own definition stands for itself, so no more
definitions are open at once than the program has. -/
def Linker.resolveName (l : Linker) : Nat → List String → String → Ask TypeExpr
  | 0, _, name => pure (.ref name)
  | depth + 1, seen, name =>
    if name ∈ seen then pure (.ref name)
    else
      match l.typeDefs.get name with
      | some ty => mapRefs (l.resolveName depth (name :: seen)) ty
      | none => do
          match ← ask (.namedDataType name) with
          | some dataType => return dataType.ty
          | none => return .ref name

variable (l : Linker)

variable (ty : TypeExpr)

def Linker.resolveTypeAliases : Ask TypeExpr :=
  mapRefs (l.resolveName (l.typeDefs.entries.length + 1) []) ty

def Linker.resourceTypeForType : Ask (Option String) := do
  match ← l.resolveTypeAliases ty with
  | .ref name => do
      if ← ask (.resourceType name) then return some name
      return none
  | _ => return none

def Linker.bindingForType : Ask Binding := do
  match ← l.resourceTypeForType ty with
  | some resourceType => return .resource resourceType
  | none => return .value ty

def Linker.isTypeAssignable (source target : TypeExpr) : Ask Bool := do
  let source ← l.resolveTypeAliases source
  let target ← l.resolveTypeAliases target
  return isResolvedTypeAssignable source target

def Linker.isKnownType (name : String) : Ask Bool := do
  if l.typeDefs.has name then return true
  if ← ask (.resourceType name) then return true
  if (← ask (.namedDataType name)).isSome then return true
  ask (.sealedValueType name)

mutual
def Linker.validateTypeRefs (l : Linker) (span : Option Span) : TypeExpr → Check Unit
  | .ref name => do
      unless ← l.isKnownType name do fail (.unknownType name span)
  | .list item => l.validateTypeRefs span item
  | .object fields => l.validateFieldRefs span fields
  | .union variants => l.validateAllRefs span variants
  | .process input output _ => do
      l.validateTypeRefs span input
      l.validateTypeRefs span output
  | .triggerHandle event => l.validateTypeRefs span event
  | .any | .str | .int | .float | .bool | .dict | .null | .enum _ => pure ()
def Linker.validateAllRefs (l : Linker) (span : Option Span) : List TypeExpr → Check Unit
  | [] => pure ()
  | ty :: rest => do
      l.validateTypeRefs span ty
      l.validateAllRefs span rest
def Linker.validateFieldRefs (l : Linker) (span : Option Span) :
    List (TypeField TypeExpr) → Check Unit
  | [] => pure ()
  | ⟨_, ty, _⟩ :: rest => do
      l.validateTypeRefs span ty
      l.validateFieldRefs span rest
end

mutual
/-- The source's helper `field_type`. -/
def fieldOf (field : String) (span : Option Span) : TypeExpr → Check TypeExpr
  | .ref name => do
      if ← ask (.sealedValueType name) then
        fail (.sealedHostDescriptorAccess name ("." ++ field) span)
      return .any
  | .object fields =>
    return ((fields.find? fun candidate => candidate.name == field).map (·.ty)).getD .any
  | .union variants => do return unionType (← fieldOfAll field span variants)
  | _ => return .any
def fieldOfAll (field : String) (span : Option Span) : List TypeExpr → Check (List TypeExpr)
  | [] => return []
  | ty :: rest => do
      let ty ← fieldOf field span ty
      return ty :: (← fieldOfAll field span rest)
end

mutual
/-- The source's helper `index_type`. -/
def itemOf (span : Option Span) : TypeExpr → Check TypeExpr
  | .list item => return item
  | .ref name => do
      if ← ask (.sealedValueType name) then
        fail (.sealedHostDescriptorAccess name "[]" span)
      return .any
  | .union variants => do return unionType (← itemOfAll span variants)
  | _ => return .any
def itemOfAll (span : Option Span) : List TypeExpr → Check (List TypeExpr)
  | [] => return []
  | ty :: rest => do
      let ty ← itemOf span ty
      return ty :: (← itemOfAll span rest)
end

def Linker.fieldType (target : TypeExpr) (field : String) (span : Option Span) :
    Check TypeExpr := do
  fieldOf field span (← l.resolveTypeAliases target)

def Linker.indexType (target : TypeExpr) (span : Option Span) : Check TypeExpr := do
  itemOf span (← l.resolveTypeAliases target)

end ScriptLinker
