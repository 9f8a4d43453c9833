import Lash.ScriptLinker

/-!
# Lowering a program

The pass over expressions: names become processes or modules, calls of constructors become
descriptors, and the receiver of each call must be a resource that has the operation. Types
are inferred on the way and, for the return types of processes, ahead of it.
-/

namespace ScriptLowering

open HostCatalogs NameTables ScriptBuiltins ScriptLinker ScriptPrograms ScriptSyntax
open ScriptTypes

/-! ## Parts of the pass that look at no expression below -/

def failLink {α : Type} (error : Option Span → LinkError) : Link α := do
  fail (error (← spanOf))

def requireFeature (enabled : Bool) (feature : String) : Link Unit := do
  ensureFeature enabled feature (← spanOf)

def resolveModuleExpr (e : Expr) : Link (Option ResourceRef) := do
  let scope ← get
  match modulePathForExpr e with
  | none => return none
  | some path =>
    if path.head?.any scope.bindings.has then return none
    ask (.modulePath path)

/-- A variable or a field that names a module is that module. -/
def resolveBareModule : Expr → Link (Option ResourceRef)
  | .variable name => resolveModuleExpr (.variable name)
  | .field target name => resolveModuleExpr (.field target name)
  | _ => return none

def rejectTriggerEventSpecialForm (e : Expr) : Link Unit := do
  if isTriggerEventProjectionExpr e then failLink .triggerEventProjection
  if isTriggerEventExpr e then failLink .triggerEventOutsideInputs

def bindScope (name : String) (binding : Binding) : Link (Option Binding) := do
  let scope ← get
  set (scope.bind name binding)
  return scope.bindings.get name

/-- Gives the names back what they were bound to, the last one bound first. -/
def restoreAll (previous : List (String × Option Binding)) : Link Unit := do
  let scope ← get
  set (previous.foldr (fun entry scope => scope.restore entry.1 entry.2) scope)

/-- Two branches from one scope, which then knows what either has bound. -/
def onBranches {α β : Type} (thenPass : Link α) (elsePass : Link β) : Link (α × β) := do
  let scope ← get
  let thenResult ← thenPass
  let thenScope ← get
  set scope
  let elseResult ← elsePass
  let elseScope ← get
  set ((scope.mergeFrom thenScope).mergeFrom elseScope)
  return (thenResult, elseResult)

/-- A loop's body, with its binding shadowed by a value of any type. -/
def onLoopBody {α : Type} (binding : String) (pass : Link α) : Link α := do
  let previous ← bindScope binding anyBinding
  let result ← pass
  restoreAll [(binding, previous)]
  return result

variable (l : Linker)

/-- The type of a name, and the process it names where nothing in scope has the name. -/
def variableBinding (name : String) : Link (Expr × Binding) := do
  let scope ← get
  match scope.bindings.get name with
  | some binding => return (.variable name, binding)
  | none =>
    match l.processTypes.get name with
    | some processTy => return (.processRef name, .value processTy)
    | none =>
      if scope.allowUnknownGlobals then return (.variable name, anyBinding)
      failLink (.unknownName name)

variable (process : String)

def processRefType : Link TypeExpr :=
  match l.processTypes.get process with
  | some processTy => return processTy
  | none => failLink (.unknownProcess process)

def validateResourceRef (resource : ResourceRef) : Link ResourceRef := do
  let pathString :=
    if resource.path.isEmpty then resource.resourceType ++ "." ++ resource.aliasName
    else ".".intercalate resource.path
  if resource.resourceType ≠ "" then
    if ← ask (.resourceType resource.resourceType) then return resource
    failLink (.unknownResource pathString)
  else
    match ← ask (.modulePath resource.path) with
    | some resolved => return resolved
    | none => failLink (.unknownResource pathString)

def validateProcessArgBinding (arg : String) (expectedTy : TypeExpr) (actual : Option Binding) :
    Link Unit := do
  match ← l.resourceTypeForType expectedTy with
  | none => return
  | some expected =>
    match actual with
    | some (.resource resourceType) =>
      if resourceType ≠ expected then
        failLink (.incompatibleProcessArgument process arg expected resourceType)
    | _ => failLink (.incompatibleProcessArgument process arg expected "value")

variable (resourceType : String)

/-- The operation of a receiver: its resource type must expose it, and so must the module that the
receiver names. -/
def operationOfReceiver (aliasName : Option String) (operation : String) :
    Link ResourceOperationBinding := do
  if let some aliasName := aliasName then
    if (← ask (.moduleOperation resourceType aliasName operation)).isNone then
      failLink (.unknownResourceOperation resourceType operation)
  match ← ask (.operation resourceType operation) with
  | some binding => return binding
  | none => failLink (.unknownResourceOperation resourceType operation)

def triggerOperation (operation : String) : Option TriggerHostOperation :=
  if isTriggerResourceType resourceType then TriggerHostOperation.ofReceiverMethod operation
  else none

def invalidTriggerCall : TriggerHostOperation → Option Span → LinkError
  | .register => .invalidTriggerRegistration
  | .list => .invalidTriggerList
  | .cancel => .invalidTriggerCancel

def triggerSourceEvent (sourceTy : TypeExpr) : Link TypeExpr := do
  let binding ← match sourceTy with
    | .ref name => ask (.triggerSource name)
    | _ => pure none
  match binding with
  | some binding => return .ref binding.eventType.name
  | none => failLink (.unknownTriggerEventType (formatTypeExpr sourceTy))

def triggerTargetParams (target : Expr) (targetTy : TypeExpr) : Link (List ProcessParam) :=
  match (triggerTargetProcessName target).bind l.program.process with
  | some process => return process.params
  | none =>
    match targetTy with
    | .process _ _ 0 => return []
    | .process (.object fields) _ count =>
      if 1 < count then return fields.map fun field => ⟨field.name, field.ty⟩
      else failLink (.invalidTriggerTarget (formatTypeExpr targetTy))
    | _ => failLink (.invalidTriggerTarget (formatTypeExpr targetTy))

/-- What an entry of a trigger listing must be. -/
def checkListFilter (name : String) (ty : TypeExpr) : Link Unit := do
  let expect (expected : TypeExpr) : Link Unit := do
    unless ← l.isTypeAssignable ty expected do
      failLink (.incompatibleOperationInput "list" (formatTypeExpr expected) (formatTypeExpr ty))
  if name = "target" then
    match ty with
    | .process _ _ _ => return
    | _ => failLink (.invalidTriggerTarget (formatTypeExpr ty))
  else if name = "enabled" then expect .bool
  else expect .str

/-- The whole event may stand for an input of its type. -/
def checkTriggerEvent (eventTy : TypeExpr) (param : ProcessParam) : Link Unit := do
  unless ← l.isTypeAssignable eventTy param.ty do
    let event ← l.resolveTypeAliases eventTy
    let input ← l.resolveTypeAliases param.ty
    failLink (.triggerEventMismatch (formatTypeExpr event) param.name (formatTypeExpr input))

def checkTriggerInputs (params : List ProcessParam) (seen : List String) (sawEvent : Bool) :
    Link Unit := do
  match params.find? fun param => !seen.contains param.name with
  | some param => failLink (.missingTriggerInput process param.name)
  | none => unless sawEvent do failLink .missingTriggerEventInput

def checkConstructorInput (path : List String) (constructor : ValueConstructorBinding)
    (actualTy : TypeExpr) : Link Unit := do
  unless ← l.isTypeAssignable actualTy constructor.inputTy do
    let expected ← l.resolveTypeAliases constructor.inputTy
    let actual ← l.resolveTypeAliases actualTy
    failLink (.incompatibleConstructorInput (modulePathKey path) (formatTypeExpr expected)
      (formatTypeExpr actual))

def checkOperationInput (operation : String) (binding : ResourceOperationBinding)
    (actualTy : TypeExpr) : Link Unit := do
  unless ← l.isTypeAssignable actualTy binding.inputTy do
    let expected ← l.resolveTypeAliases binding.inputTy
    let actual ← l.resolveTypeAliases actualTy
    failLink (.incompatibleOperationInput operation (formatTypeExpr expected)
      (formatTypeExpr actual))

def unresolvedReceiver {α : Type} (receiver : Expr) (operation : String) : Link α := do
  match modulePathForExpr receiver with
  | some path =>
    let suggestions ← ask (.suggestionsBelow path operation)
    unless suggestions.isEmpty do
      failLink (.ambiguousModuleOperation (modulePathKey path) operation suggestions)
  | none => pure ()
  failLink (.unresolvedReceiver operation)

def unknownBuiltin {α : Type} (name : String) : Link α := do
  match ← ask (.suggestionsForHost name) with
  | suggestion :: _ => failLink (.bareToolCall name suggestion)
  | [] => failLink (.unknownBuiltin name)

/-- The constructor that a call names. -/
def constructorOfCall (receiver : Expr) (operation : String) :
    Link (Option (List String × ValueConstructorBinding)) := do
  match modulePathForExpr receiver with
  | none => return none
  | some path =>
    return (← ask (.valueConstructor (path ++ [operation]))).map (path ++ [operation], ·)

/-- The event that a registration waits for, its target and the inputs the target takes. The types
of its entries are inferred one at a time. -/
def registrationTarget (entries : List (String × Expr)) (inferNamed : String → Link TypeExpr) :
    Link (TypeExpr × Expr × List ProcessParam) := do
  let eventTy ← triggerSourceEvent (← inferNamed "source")
  let target := (requiredEntry entries "target").getD .null
  let params ← triggerTargetParams l target (← inferNamed "target")
  return (eventTy, target, params)

/-! ## The pass -/

mutual
/-- The type of an expression, with nothing lowered. -/
def inferExprType (l : Linker) (e : Expr) : Link TypeExpr := do
  rejectTriggerEventSpecialForm e
  match ← resolveBareModule e with
  | some resource => return .ref resource.resourceType
  | none =>
    match e with
    | .labelAnnotated _ inner => inferExprType l inner
    | .block es => do return (← inferAll l es).getLast?.getD .null
    | .null | .bool _ | .number _ | .string _ | .breakLoop | .continueLoop | .typeLiteral _ =>
      return literalType e
    | .variable name => do return bindingType (some (← variableBinding l name).2)
    | .processRef process => processRefType l process
    | .hostDescriptorConstructor typeName _ => return .ref typeName
    | .tuple items | .list items => do return .list (unionType (← inferAll l items))
    | .listComprehension element clauses => do
        let previous ← inferClauses l clauses
        let elementTy ← inferExprType l element
        restoreAll previous
        return .list elementTy
    | .record entries => do return .object (← inferEntries l entries)
    | .assign root steps inner => do
        let ty ← inferExprType l inner
        if steps.isEmpty then
          let _ ← bindScope root (← l.bindingForType ty)
        return ty
    | .ifElse condition thenBlock elseBlock => do
        let _ ← inferExprType l condition
        let (thenTy, elseTy) ← onBranches (inferExprType l thenBlock) (inferExprType l elseBlock)
        return unionType [thenTy, elseTy]
    | .forIn binding iterable body => do
        let _ ← inferExprType l iterable
        let _ ← onLoopBody binding (inferExprType l body)
        return .null
    | .whileDo condition body => do
        let _ ← inferExprType l condition
        let _ ← inferExprType l body
        return .null
    | .startProcess _ _ => return .any
    | .resourceRef resource => return .ref resource.resourceType
    | .receiverCall receiver operation args => do
        match ← constructorOfCall receiver operation with
        | some (_, constructor) => return constructor.outputTy
        | none =>
          let (resourceType, aliasName) ← match ← resolveModuleExpr receiver with
            | some resource => pure (resource.resourceType, some resource.aliasName)
            | none => do
                let receiverTy ← inferExprType l receiver
                match ← l.resourceTypeForType receiverTy with
                | some resourceType => pure (resourceType, none)
                | none => failLink (.unresolvedReceiver operation)
          let binding ← operationOfReceiver resourceType aliasName operation
          match triggerOperation resourceType operation with
          | some trigger => validateTriggerCall l trigger args
          | none => return binding.outputTy
    | .await inner | .resultUnwrap inner | .finish inner => inferExprType l inner
    | .sleepFor _ | .sleepUntil _ => return .null
    | .waitSignal _ => return .any
    | .signalRun _ _ _ | .cancel _ | .print _ | .yieldEvent _ | .wake _ | .fail _ => return .null
    | .builtinCall name _ => return builtinReturnType name
    | .field target name => do
        let targetTy ← inferExprType l target
        l.fieldType targetTy name (← spanOf)
    | .index target _ => do
        let targetTy ← inferExprType l target
        l.indexType targetTy (← spanOf)
    | .unary op _ => return unaryReturnType op
    | .binary _ op _ => return binaryReturnType op
def inferAll (l : Linker) : List Expr → Link (List TypeExpr)
  | [] => return []
  | e :: rest => do
      let ty ← inferExprType l e
      return ty :: (← inferAll l rest)
def inferEntries (l : Linker) : List (String × Expr) → Link (List (TypeField TypeExpr))
  | [] => return []
  | (name, e) :: rest => do
      let ty ← inferExprType l e
      return ⟨name, ty, false⟩ :: (← inferEntries l rest)
/-- What the names bound by the clauses were bound to before. -/
def inferClauses (l : Linker) :
    List (ListComprehensionClause Expr) → Link (List (String × Option Binding))
  | [] => return []
  | .each name iterable :: rest => do
      let iterableTy ← inferExprType l iterable
      let itemTy ← l.indexType iterableTy (← spanOf)
      let previous ← bindScope name (← l.bindingForType itemTy)
      return (name, previous) :: (← inferClauses l rest)
  | .test condition :: rest => do
      let _ ← inferExprType l condition
      inferClauses l rest
/-- The type of the first entry with the name, inferred over a copy of the scope. -/
def inferEntryNamed (l : Linker) (name : String) : List (String × Expr) → Link TypeExpr
  | [] => return .null
  | (entry, e) :: rest =>
    if entry = name then onClone (inferExprType l e) else inferEntryNamed l name rest
def validateListEntries (l : Linker) : List (String × Expr) → Link Unit
  | [] => return
  | (name, e) :: rest => do
      checkListFilter l name (← onClone (inferExprType l e))
      validateListEntries l rest
def validateTriggerCall (l : Linker) (trigger : TriggerHostOperation) : List Expr → Link TypeExpr
  | [.record entries] =>
    match trigger with
    | .register => do
        unless isRegisterCall entries do failLink .invalidTriggerRegistration
        let (eventTy, target, params) ← registrationTarget l entries
          fun name => inferEntryNamed l name entries
        let _ ← onClone
          (lowerTriggerInputs l (triggerTargetProcessLabel target) params eventTy entries)
        return .triggerHandle eventTy
    | .list => do
        unless isListCall entries do failLink .invalidTriggerList
        validateListEntries l entries
        return TriggerHostOperation.outputTy .list
    | .cancel => do
        unless isCancelCall entries do failLink .invalidTriggerCancel
        return TriggerHostOperation.outputTy .cancel
  | _ => failLink (invalidTriggerCall trigger)
/-- The inputs of a registration, which must be written out as a record. -/
def lowerTriggerInputs (l : Linker) (process : String) (params : List ProcessParam)
    (eventTy : TypeExpr) : List (String × Expr) → Link Expr
  | [] => failLink .invalidTriggerInputs
  | (name, inputs) :: rest =>
    if name = "inputs" then
      match inputs with
      | .record entries => do
          return .record (← lowerTriggerInputRecord l process params eventTy [] false entries)
      | _ => failLink .invalidTriggerInputs
    else lowerTriggerInputs l process params eventTy rest
def lowerTriggerInputRecord (l : Linker) (process : String) (params : List ProcessParam)
    (eventTy : TypeExpr) (seen : List String) (sawEvent : Bool) :
    List (String × Expr) → Link (List (String × Expr))
  | [] => do
      checkTriggerInputs process params seen sawEvent
      return []
  | (name, value) :: rest => do
      if seen.contains name then failLink (.duplicateTriggerInput name)
      match params.find? fun param => param.name == name with
      | none => failLink (.unknownTriggerInput process name)
      | some param =>
        if isTriggerEventProjectionExpr value then failLink .triggerEventProjection
        if isTriggerEventExpr value then
          checkTriggerEvent l eventTy param
          let others ← lowerTriggerInputRecord l process params eventTy (name :: seen) true rest
          return (name, triggerEventPlaceholderExpr) :: others
        else
          let (lowered, binding) ← lowerExpr l value
          validateProcessArgBinding l process name param.ty binding
          let others ←
            lowerTriggerInputRecord l process params eventTy (name :: seen) sawEvent rest
          return (name, lowered) :: others
/-- An expression lowered, and what it is bound to where that is known. -/
def lowerExpr (l : Linker) (e : Expr) : Link (Expr × Option Binding) := do
  rejectTriggerEventSpecialForm e
  match ← resolveBareModule e with
  | some resource => return (.resourceRef resource, some (.resource resource.resourceType))
  | none =>
    match e with
    | .block es => do
        let lowered ← lowerAll l es
        return (.block (lowered.map Prod.fst), (lowered.getLast?.map Prod.snd).join)
    | .labelAnnotated label inner => do
        requireFeature (← ask .labelAnnotations) "label annotations"
        let (inner, binding) ← lowerExpr l inner
        return (.labelAnnotated label inner, binding)
    | .variable name => do
        let (lowered, binding) ← variableBinding l name
        return (lowered, some binding)
    | .null | .bool _ | .number _ | .string _ | .breakLoop | .continueLoop | .typeLiteral _ =>
      return (e, some (.value (literalType e)))
    | .tuple items => do
        let lowered ← lowerAll l items
        return (.tuple (lowered.map Prod.fst), some (.value (.list (unionType
          (lowered.map fun item => bindingType item.2)))))
    | .list items => do
        let lowered ← lowerAll l items
        return (.list (lowered.map Prod.fst), some (.value (.list (unionType
          (lowered.map fun item => bindingType item.2)))))
    | .listComprehension element clauses => do
        let (clauses, previous) ← lowerClauses l clauses
        let (element, binding) ← lowerExpr l element
        restoreAll previous
        return (.listComprehension element clauses, some (.value (.list (bindingType binding))))
    | .record entries => do
        let lowered ← lowerEntries l entries
        return (.record (lowered.map fun entry => (entry.1, entry.2.1)), some (.value (.object
          (lowered.map fun entry => ⟨entry.1, bindingType entry.2.2, false⟩))))
    | .assign root steps inner => do
        lowerSteps l steps
        let (lowered, binding) ← lowerExpr l inner
        let scope ← get
        if steps.isEmpty then
          let _ ← bindScope root (binding.getD anyBinding)
        else if !scope.bindings.has root && !scope.allowUnknownGlobals then
          failLink (.unknownName root)
        return (.assign root steps lowered, binding)
    | .ifElse condition thenBlock elseBlock => do
        let (condition, _) ← lowerExpr l condition
        let ((thenBlock, thenBinding), (elseBlock, elseBinding)) ←
          onBranches (lowerExpr l thenBlock) (lowerExpr l elseBlock)
        return (.ifElse condition thenBlock elseBlock, some (.value (unionType
          [bindingType thenBinding, bindingType elseBinding])))
    | .forIn binding iterable body => do
        let (iterable, _) ← lowerExpr l iterable
        let (body, _) ← onLoopBody binding (lowerExpr l body)
        return (.forIn binding iterable body, some (.value .null))
    | .whileDo condition body => do
        let (condition, _) ← lowerExpr l condition
        let (body, _) ← lowerExpr l body
        return (.whileDo condition body, some (.value .null))
    | .startProcess name args => do
        requireFeature (← ask .processes) "processes"
        match l.program.process name with
        | none => failLink (.unknownProcess name)
        | some process =>
          let args ← lowerStartArgs l process [] args
          return (.startProcess name args, some anyBinding)
    | .processRef process => do
        return (.processRef process, some (.value (← processRefType l process)))
    | .hostDescriptorConstructor typeName input => do
        let (input, _) ← lowerExpr l input
        return (.hostDescriptorConstructor typeName input, some (.value (.ref typeName)))
    | .resourceRef resource => do
        let resource ← validateResourceRef resource
        return (.resourceRef resource, some (.resource resource.resourceType))
    | .receiverCall receiver operation args => do
        match ← constructorOfCall receiver operation with
        | some (path, constructor) =>
          unless args.length == 1 do
            failLink (.incompatibleConstructorInput (modulePathKey path)
              (formatTypeExpr constructor.inputTy) (toString args.length ++ " arguments"))
          let lowered ← lowerAll l args
          let input := lowered.headD (.null, none)
          checkConstructorInput l path constructor (bindingType input.2)
          return (.hostDescriptorConstructor constructor.typeName input.1,
            some (.value constructor.outputTy))
        | none =>
          let (loweredReceiver, resourceType, aliasName) ←
            match ← resolveModuleExpr receiver with
            | some resource =>
              pure (.resourceRef resource, resource.resourceType, some resource.aliasName)
            | none => do
                let (lowered, binding) ← lowerExpr l receiver
                match binding with
                | some (.resource resourceType) => pure (lowered, resourceType, none)
                | _ => unresolvedReceiver receiver operation
          let binding ← operationOfReceiver resourceType aliasName operation
          match triggerOperation resourceType operation with
          | some trigger => do
              requireFeature (← ask .triggers) "triggers"
              let (args, outputTy) ← lowerTriggerCall l trigger args
              return (.receiverCall loweredReceiver operation args, some (.value outputTy))
          | none =>
            let lowered ← lowerAll l args
            checkOperationInput l operation binding
              (callInputType (lowered.map fun arg => bindingType arg.2))
            return (.receiverCall loweredReceiver operation (lowered.map Prod.fst),
              some (.value binding.outputTy))
    | .await inner => do
        let (inner, binding) ← lowerExpr l inner
        return (.await inner, binding)
    | .sleepFor inner => do
        requireFeature (← ask .sleep) "sleep"
        return (.sleepFor (← lowerExpr l inner).1, some (.value .null))
    | .sleepUntil inner => do
        requireFeature (← ask .sleep) "sleep"
        return (.sleepUntil (← lowerExpr l inner).1, some (.value .null))
    | .waitSignal name => do
        requireFeature (← ask .processSignals) "process signals"
        unless (← get).processBody do failLink (.processLifecycleOutsideProcess "wait_signal")
        return (.waitSignal name, some anyBinding)
    | .signalRun run name payload => do
        requireFeature (← ask .processSignals) "process signals"
        let (run, _) ← lowerExpr l run
        let (payload, _) ← lowerExpr l payload
        return (.signalRun run name payload, some (.value .null))
    | .resultUnwrap inner => do
        let (inner, binding) ← lowerExpr l inner
        return (.resultUnwrap inner, binding)
    | .cancel inner => do return (.cancel (← lowerExpr l inner).1, some anyBinding)
    | .print inner => do return (.print (← lowerExpr l inner).1, some (.value .null))
    | .yieldEvent inner => do return (.yieldEvent (← lowerExpr l inner).1, some (.value .null))
    | .wake inner => do return (.wake (← lowerExpr l inner).1, some (.value .null))
    | .finish inner => do
        let (inner, binding) ← lowerExpr l inner
        return (.finish inner, some (.value (bindingType binding)))
    | .fail inner => do return (.fail (← lowerExpr l inner).1, some (.value .null))
    | .builtinCall name args => do
        unless isBuiltin name do unknownBuiltin name
        let lowered ← lowerAll l args
        return (.builtinCall name (lowered.map Prod.fst), some (.value (builtinReturnType name)))
    | .field target name => do
        let (target, binding) ← lowerExpr l target
        let ty ← l.fieldType (bindingType binding) name (← spanOf)
        return (.field target name, some (.value ty))
    | .index target index => do
        let (target, binding) ← lowerExpr l target
        let (index, _) ← lowerExpr l index
        let ty ← l.indexType (bindingType binding) (← spanOf)
        return (.index target index, some (.value ty))
    | .unary op inner => do
        return (.unary op (← lowerExpr l inner).1, some (.value (unaryReturnType op)))
    | .binary left op right => do
        let (left, _) ← lowerExpr l left
        let (right, _) ← lowerExpr l right
        return (.binary left op right, some (.value (binaryReturnType op)))
def lowerAll (l : Linker) : List Expr → Link (List (Expr × Option Binding))
  | [] => return []
  | e :: rest => do
      let lowered ← lowerExpr l e
      return lowered :: (← lowerAll l rest)
def lowerEntries (l : Linker) :
    List (String × Expr) → Link (List (String × Expr × Option Binding))
  | [] => return []
  | (name, e) :: rest => do
      let lowered ← lowerExpr l e
      return (name, lowered) :: (← lowerEntries l rest)
/-- The indexes of an assigned path are checked; the path keeps them as they were written. -/
def lowerSteps (l : Linker) : List (AssignPathStep Expr) → Link Unit
  | [] => return
  | .field _ :: rest => lowerSteps l rest
  | .index e :: rest => do
      let _ ← lowerExpr l e
      lowerSteps l rest
def lowerClauses (l : Linker) : List (ListComprehensionClause Expr) →
    Link (List (ListComprehensionClause Expr) × List (String × Option Binding))
  | [] => return ([], [])
  | .each name iterable :: rest => do
      let (iterable, binding) ← lowerExpr l iterable
      let itemTy ← l.indexType (bindingType binding) (← spanOf)
      let previous ← bindScope name (← l.bindingForType itemTy)
      let (clauses, others) ← lowerClauses l rest
      return (.each name iterable :: clauses, (name, previous) :: others)
  | .test condition :: rest => do
      let (condition, _) ← lowerExpr l condition
      let (clauses, others) ← lowerClauses l rest
      return (.test condition :: clauses, others)
def lowerStartArgs (l : Linker) (process : ProcessDecl) (seen : List String) :
    List (String × Expr) → Link (List (String × Expr))
  | [] => do
      match process.params.find? fun param => !seen.contains param.name with
      | some param => failLink (.missingProcessArgument process.name param.name)
      | none => return []
  | (arg, value) :: rest => do
      if seen.contains arg then failLink (.duplicateProcessArgument arg)
      match process.params.find? fun param => param.name == arg with
      | none => failLink (.unexpectedProcessArgument process.name arg)
      | some param =>
        let (lowered, binding) ← lowerExpr l value
        validateProcessArgBinding l process.name arg param.ty binding
        return (arg, lowered) :: (← lowerStartArgs l process (arg :: seen) rest)
/-- The first entry with the name. -/
def lowerEntryNamed (l : Linker) (name : String) : List (String × Expr) → Link (Option Expr)
  | [] => return none
  | (entry, e) :: rest => do
      if entry = name then return some (← lowerExpr l e).1
      lowerEntryNamed l name rest
def lowerListEntries (l : Linker) : List (String × Expr) → Link (List (String × Expr))
  | [] => return []
  | (name, e) :: rest => do
      checkListFilter l name (← onClone (inferExprType l e))
      let (lowered, _) ← lowerExpr l e
      return (name, lowered) :: (← lowerListEntries l rest)
def lowerTriggerCall (l : Linker) (trigger : TriggerHostOperation) :
    List Expr → Link (List Expr × TypeExpr)
  | [.record entries] =>
    match trigger with
    | .register => do
        unless isRegisterCall entries do failLink .invalidTriggerRegistration
        let (eventTy, target, params) ← registrationTarget l entries
          fun name => inferEntryNamed l name entries
        let loweredSource ← lowerEntryNamed l "source" entries
        let loweredTarget ← lowerEntryNamed l "target" entries
        let inputs ←
          lowerTriggerInputs l (triggerTargetProcessLabel target) params eventTy entries
        let name ← lowerEntryNamed l "name" entries
        return ([.record ([("source", loweredSource.getD .null),
          ("target", loweredTarget.getD .null), ("inputs", inputs)]
            ++ (name.map ("name", ·)).toList)], .triggerHandle eventTy)
    | .list => do
        unless isListCall entries do failLink .invalidTriggerList
        let lowered ← lowerListEntries l entries
        return ([.record lowered], TriggerHostOperation.outputTy .list)
    | .cancel => do
        unless isCancelCall entries do failLink .invalidTriggerCancel
        let handle ← lowerEntryNamed l "handle" entries
        return ([.record [("handle", handle.getD .null)]], TriggerHostOperation.outputTy .cancel)
  | _ => failLink (invalidTriggerCall trigger)
end

/-! ## How a process ends -/

mutual
def inferCompletion (l : Linker) : Expr → Link Completion
  | .labelAnnotated _ inner => inferCompletion l inner
  | .finish value => do return ⟨[← inferExprType l value], false⟩
  | .fail _ => return ⟨[], false⟩
  | .block es => inferBlockCompletion l es
  | .ifElse condition thenBlock elseBlock => do
      let _ ← inferExprType l condition
      let (thenCompletion, elseCompletion) ←
        onBranches (inferCompletion l thenBlock) (inferCompletion l elseBlock)
      return ⟨thenCompletion.finishes ++ elseCompletion.finishes,
        thenCompletion.canFallthrough || elseCompletion.canFallthrough⟩
  | .forIn binding iterable body => do
      let _ ← inferExprType l iterable
      let completion ← onLoopBody binding (inferCompletion l body)
      return { completion with canFallthrough := true }
  | .whileDo condition body => do
      let _ ← inferExprType l condition
      let completion ← inferCompletion l body
      return { completion with canFallthrough := true }
  | .assign root [] e => do
      let ty ← inferExprType l e
      let _ ← bindScope root (← l.bindingForType ty)
      return .fallthrough
  | e => do
      let _ ← inferExprType l e
      return .fallthrough
/-- What stands behind an expression that always ends the process is not looked at. -/
def inferBlockCompletion (l : Linker) : List Expr → Link Completion
  | [] => return .fallthrough
  | e :: rest => do
      let completion ← inferCompletion l e
      if !completion.canFallthrough then return completion
      let others ← inferBlockCompletion l rest
      return ⟨completion.finishes ++ others.finishes, others.canFallthrough⟩
end

/-- The names in scope in the body of a process. -/
def bindProcessInputs (process : ProcessDecl) : Link Unit := do
  let _ ← bindScope "input" (.value (processInputType process))
  let _ ← bindScope "inputs" (.value (processInputRecordType process))

def bindParams (l : Linker) : List ProcessParam → Link Unit
  | [] => return
  | param :: rest => do
      let _ ← bindScope param.name (← l.bindingForType param.ty)
      bindParams l rest

def inferProcessOutput (process : ProcessDecl) (span : Option Span) : Check TypeExpr := do
  let pass : Link Completion := do
    bindParams l process.params
    bindProcessInputs process
    inferCompletion l process.body
  let completion ← pass.run' (.new false true span)
  return unionType
    (completion.finishes ++ if completion.canFallthrough then [.null] else [])

/-! ## Declarations -/

variable (program : Program)

/-- The declarations with their spans. -/
def declarationsWithSpans : List (Declaration × Option Span) :=
  program.declarations.zipIdx.map fun entry => (entry.1, program.declarationSpans[entry.2]?)

def ensureLabelAnnotationsEnabled : Check Unit := do
  if ← ask .labelAnnotations then return
  let labelled := (declarationsWithSpans program).find? fun entry =>
    match entry.1 with
    | .process decl => decl.label.isSome || exprHasLabelAnnotation decl.body
    | .type _ => false
  if let some entry := labelled then
    fail (.featureDisabled "label annotations" entry.2)
  if exprHasLabelAnnotation program.main then
    fail (.featureDisabled "label annotations" program.expressionSpans.head?)

/-- The types a program defines. A name is declared once among the types and once among the
processes. -/
def collectNames (types : Table TypeExpr) (processes : List String) :
    List (Declaration × Option Span) → Check (Table TypeExpr)
  | [] => return types
  | (.type decl, span) :: rest => do
      if types.has decl.name then fail (.duplicateDeclaration decl.name span)
      collectNames (types.set decl.name decl.ty) processes rest
  | (.process decl, span) :: rest => do
      ensureFeature (← ask .processes) "processes" span
      if processes.contains decl.name then fail (.duplicateDeclaration decl.name span)
      collectNames types (decl.name :: processes) rest

def validateDeclarations (l : Linker) : List Declaration → Check Unit
  | [] => return
  | .type decl :: rest => do
      l.validateTypeRefs none decl.ty
      validateDeclarations l rest
  | .process decl :: rest => do
      l.validateAllRefs none (decl.params.map (·.ty))
      l.validateAllRefs none (decl.signals.map (·.ty))
      l.validateAllRefs none decl.returnTy.toList
      validateDeclarations l rest

def processTypesOf (declarations : List Declaration) : Table TypeExpr :=
  declarations.foldl (fun types declaration =>
    match declaration with
    | .process decl => types.set decl.name (processTypeForDecl decl .any)
    | .type _ => types) .empty

/-- Infers what each process returns, one after the other; a declared return type must admit it. -/
def inferProcessTypes (l : Linker) : List (Declaration × Option Span) → Check Linker
  | [] => return l
  | (.type _, _) :: rest => inferProcessTypes l rest
  | (.process decl, span) :: rest => do
      let output ← inferProcessOutput l decl span
      if let some expected := decl.returnTy then
        unless ← l.isTypeAssignable output expected do
          let expectedTy ← l.resolveTypeAliases expected
          let actualTy ← l.resolveTypeAliases output
          fail (.incompatibleProcessReturn decl.name (formatTypeExpr expectedTy)
            (formatTypeExpr actualTy) span)
      inferProcessTypes
        { l with processTypes := l.processTypes.set decl.name (processTypeForDecl decl output) }
        rest

def collectDeclarations : Check Linker := do
  ensureLabelAnnotationsEnabled program
  let typeDefs ← collectNames .empty [] (declarationsWithSpans program)
  let l : Linker := ⟨program, .empty, typeDefs⟩
  validateDeclarations l program.declarations
  inferProcessTypes { l with processTypes := processTypesOf program.declarations }
    (declarationsWithSpans program)

def checkParams (l : Linker) (seen : List String) : List ProcessParam → Link Unit
  | [] => return
  | param :: rest => do
      if seen.contains param.name then failLink (.duplicateProcessParam param.name)
      let _ ← bindScope param.name (← l.bindingForType param.ty)
      checkParams l (param.name :: seen) rest

def checkSignals (seen : List String) : List ProcessSignalDecl → Link Unit
  | [] => return
  | signal :: rest => do
      requireFeature (← ask .processSignals) "process signals"
      if seen.contains signal.name then failLink (.duplicateProcessSignal signal.name)
      checkSignals (signal.name :: seen) rest

def lowerDeclaration : Declaration × Option Span → Check Declaration
  | (.type decl, _) => return .type decl
  | (.process decl, span) => do
      let pass : Link Expr := do
        requireFeature (← ask .processes) "processes"
        if decl.label.isSome then
          requireFeature (← ask .labelAnnotations) "label annotations"
        checkParams l [] decl.params
        checkSignals [] decl.signals
        bindProcessInputs decl
        return (← lowerExpr l decl.body).1
      return .process { decl with body := ← pass.run' (.new false true span) }

def lowerDeclarations (l : Linker) : List (Declaration × Option Span) → Check (List Declaration)
  | [] => return []
  | declaration :: rest => do
      let lowered ← lowerDeclaration l declaration
      return lowered :: (← lowerDeclarations l rest)

/-- Declarations are linked before the main expression, so their errors come first. -/
def linkProgram : Check Program := do
  let l ← collectDeclarations program
  let declarations ← lowerDeclarations l (declarationsWithSpans program)
  let main ← (lowerExpr l program.main).run' (.new true false none)
  return { program with declarations := declarations, main := main.1 }

end ScriptLowering
