import Lash.ScriptLinker

/-!
# What a program requires of its host

The requirements are collected from a linked program: which modules, operations, types,
constructors and abilities it uses. The pass follows the receivers of calls through its own
scopes and reads the catalog only by asking.
-/

namespace HostRequirementsOf

open HostCatalogs NameTables ScriptLinker ScriptPrograms ScriptSyntax

inductive RequirementBinding where
  | value
  | resource (resourceType : String) (path : Option (List String))
deriving DecidableEq

abbrev RequirementScope := Table RequirementBinding

structure CollectorState where
  requirements : HostRequirements
  scope : RequirementScope

/-- A conflict in the collected catalog is a panic of the source. -/
abbrev Collect := StateT CollectorState (ExceptT LashlangHostCatalogError Ask)

/-! ## What is recorded -/

def modifyAbilities (f : LashlangAbilities → LashlangAbilities) : Collect Unit :=
  modify fun s =>
    { s with requirements := { s.requirements with abilities := f s.requirements.abilities } }

def requireLabelAnnotations : Collect Unit :=
  modify fun s => { s with requirements := { s.requirements with languageFeatures := ⟨true⟩ } }

def modifyResources (f : LashlangHostCatalog → LashlangHostCatalog) : Collect Unit :=
  modify fun s =>
    { s with requirements := { s.requirements with resources := f s.requirements.resources } }

def tryModifyResources
    (f : LashlangHostCatalog → Except LashlangHostCatalogError LashlangHostCatalog) :
    Collect Unit := do
  match f (← get).requirements.resources with
  | .ok resources => modifyResources fun _ => resources
  | .error error => throw error

def bindScope (name : String) (binding : RequirementBinding) :
    Collect (Option RequirementBinding) := do
  let s ← get
  set { s with scope := s.scope.set name binding }
  return s.scope.get name

variable (scope : RequirementScope)

def restore (previous : String × Option RequirementBinding) : RequirementScope :=
  match previous.2 with
  | some binding => scope.set previous.1 binding
  | none => scope.remove previous.1

def restoreAll (previous : List (String × Option RequirementBinding)) : Collect Unit :=
  modify fun s =>
    { s with scope := previous.foldr (fun entry scope => restore scope entry) s.scope }

/-- The names that are new in another scope. -/
def mergeFrom (other : RequirementScope) : RequirementScope :=
  other.entries.foldl
    (fun scope entry => if scope.has entry.1 then scope else scope.set entry.1 entry.2) scope

def setScope : Collect Unit := modify fun s => { s with scope := scope }

/-! ## What is required -/

def requireResourceRef (resource : ResourceRef) : Collect Unit :=
  tryModifyResources fun catalog => catalog.addModuleInstance resource.path resource.resourceType

variable (resourceType : String)

/-- The types of an operation, of any type where the catalog does not know it. -/
def resourceOperationRequirement (operation : String) : Collect (TypeExpr × TypeExpr) := do
  match ← ask (.operation resourceType operation) with
  | some binding => return (binding.inputTy, binding.outputTy)
  | none => return (.any, .any)

def requireResourceOperation (path : Option (List String)) (operation : String) : Collect Unit := do
  let (inputTy, outputTy) ← resourceOperationRequirement resourceType operation
  let binding ← match path with
    | some path => do
        let binding ← ask (.moduleOperation resourceType (modulePathKey path) operation)
        pure (binding.map (path, ·))
    | none => pure none
  match binding with
  | some (path, binding) =>
    tryModifyResources fun catalog =>
      catalog.addModuleOperation path resourceType operation binding.hostOperation inputTy outputTy
  | none =>
    modifyResources fun catalog => catalog.addOperation resourceType operation inputTy outputTy

def requireDescriptor (typeName : String) : Collect Unit := do
  if let some constructor ← ask (.constructorOfType typeName) then
    modifyResources fun catalog =>
      catalog.addValueConstructor constructor.path constructor.inputTy constructor.outputTy
  if let some binding ← ask (.triggerSource typeName) then
    tryModifyResources fun catalog => catalog.addTriggerSourceType typeName binding.eventType

section

variable (typeNames : List String)

def collectTypeName (name : String) : Collect Unit := do
  if typeNames.contains name then return
  match ← ask (.namedDataType name) with
  | some dataType => tryModifyResources fun catalog => catalog.addNamedDataType dataType
  | none => do
      if ← ask (.resourceType name) then
        modifyResources fun catalog => catalog.ensureResourceType name

mutual
def collectType : TypeExpr → Collect Unit
  | .list item => collectType item
  | .object fields => collectFields fields
  | .union variants => collectTypes variants
  | .process input output _ => do
      collectType input
      collectType output
  | .triggerHandle event => collectType event
  | .ref name => collectTypeName typeNames name
  | .any | .str | .int | .float | .bool | .dict | .null | .enum _ => return
def collectTypes : List TypeExpr → Collect Unit
  | [] => return
  | ty :: rest => do
      collectType ty
      collectTypes rest
def collectFields : List (TypeField TypeExpr) → Collect Unit
  | [] => return
  | ⟨_, ty, _⟩ :: rest => do
      collectType ty
      collectFields rest
end

mutual
/-- What an expression is known to be bound to. -/
def collectExpr : Expr → Collect (Option RequirementBinding)
  | .block es => collectBlock none es
  | .labelAnnotated _ e => do
      requireLabelAnnotations
      collectExpr e
  | .variable name => do return (← get).scope.get name
  | .tuple es | .list es | .builtinCall _ es => do
      collectAll es
      return some .value
  | .listComprehension element clauses => do
      let previous ← collectClauses clauses
      let _ ← collectExpr element
      restoreAll previous
      return some .value
  | .record entries => do
      collectEntries entries
      return some .value
  | .assign root steps e => do
      collectSteps steps
      let binding ← collectExpr e
      if steps.isEmpty then
        let _ ← bindScope root (binding.getD .value)
      return some .value
  | .ifElse condition thenBlock elseBlock => do
      let _ ← collectExpr condition
      let scope := (← get).scope
      let _ ← collectExpr thenBlock
      let thenScope := (← get).scope
      setScope scope
      let _ ← collectExpr elseBlock
      let elseScope := (← get).scope
      setScope (mergeFrom (mergeFrom scope thenScope) elseScope)
      return some .value
  | .forIn binding iterable body => do
      let _ ← collectExpr iterable
      let previous ← bindScope binding .value
      let _ ← collectExpr body
      restoreAll [(binding, previous)]
      return some .value
  | .whileDo condition body => do
      let _ ← collectExpr condition
      let _ ← collectExpr body
      return some .value
  | .startProcess _ args => do
      modifyAbilities fun abilities => { abilities with processes := true }
      collectEntries args
      return some .value
  | .processRef _ => do
      modifyAbilities fun abilities => { abilities with processes := true }
      return some .value
  | .hostDescriptorConstructor typeName input => do
      requireDescriptor typeName
      let _ ← collectExpr input
      return some .value
  | .resourceRef resource => do
      requireResourceRef resource
      return some (.resource resource.resourceType (some resource.path))
  | .receiverCall receiver operation args => do
      if let some (.resource resourceType path) ← collectExpr receiver then
        requireResourceOperation resourceType path operation
      collectAll args
      return some .value
  | .sleepFor e | .sleepUntil e => do
      modifyAbilities fun abilities => { abilities with sleep := true }
      let _ ← collectExpr e
      return some .value
  | .waitSignal _ => do
      modifyAbilities fun abilities => { abilities with processSignals := true }
      return some .value
  | .signalRun run _ payload => do
      modifyAbilities fun abilities => { abilities with processSignals := true }
      let _ ← collectExpr run
      let _ ← collectExpr payload
      return some .value
  | .await e | .resultUnwrap e | .cancel e | .print e | .yieldEvent e | .wake e | .fail e
  | .unary _ e | .finish e | .field e _ => do
      let _ ← collectExpr e
      return some .value
  | .index a b | .binary a _ b => do
      let _ ← collectExpr a
      let _ ← collectExpr b
      return some .value
  | .typeLiteral ty => do
      collectType typeNames ty
      return some .value
  | .null | .bool _ | .number _ | .string _ | .breakLoop | .continueLoop => return some .value
def collectBlock (last : Option RequirementBinding) :
    List Expr → Collect (Option RequirementBinding)
  | [] => return last
  | e :: rest => do collectBlock (← collectExpr e) rest
def collectAll : List Expr → Collect Unit
  | [] => return
  | e :: rest => do
      let _ ← collectExpr e
      collectAll rest
def collectEntries : List (String × Expr) → Collect Unit
  | [] => return
  | (_, e) :: rest => do
      let _ ← collectExpr e
      collectEntries rest
def collectSteps : List (AssignPathStep Expr) → Collect Unit
  | [] => return
  | .field _ :: rest => collectSteps rest
  | .index e :: rest => do
      let _ ← collectExpr e
      collectSteps rest
def collectClauses :
    List (ListComprehensionClause Expr) → Collect (List (String × Option RequirementBinding))
  | [] => return []
  | .each name iterable :: rest => do
      let _ ← collectExpr iterable
      let previous ← bindScope name .value
      return (name, previous) :: (← collectClauses rest)
  | .test condition :: rest => do
      let _ ← collectExpr condition
      collectClauses rest
end

/-- A parameter of a resource type is followed as a receiver. -/
def collectParams : List ProcessParam → Collect Unit
  | [] => return
  | param :: rest => do
      collectType typeNames param.ty
      let isResource ← match param.ty with
        | .ref name =>
          if typeNames.contains name then pure none
          else do
            if ← ask (.resourceType name) then pure (some name) else pure none
        | _ => pure none
      match isResource with
      | some name => do
          modifyResources fun catalog => catalog.ensureResourceType name
          let _ ← bindScope param.name (.resource name none)
      | none => let _ ← bindScope param.name .value
      collectParams rest

def collectProcess (process : ProcessDecl) : Collect Unit := do
  modifyAbilities fun abilities => { abilities with processes := true }
  if process.label.isSome then requireLabelAnnotations
  setScope .empty
  collectParams typeNames process.params
  if let some returnTy := process.returnTy then collectType typeNames returnTy
  let _ ← bindScope "input" .value
  let _ ← bindScope "inputs" .value
  let _ ← collectExpr typeNames process.body

def collectDeclarations : List Declaration → Collect Unit
  | [] => return
  | .type decl :: rest => do
      collectType typeNames decl.ty
      collectDeclarations rest
  | .process process :: rest => do
      collectProcess typeNames process
      collectDeclarations rest

end

def declaredTypeNames (program : Program) : List String :=
  program.declarations.filterMap fun declaration =>
    match declaration with
    | .type decl => some decl.name
    | .process _ => none

/-- The source's `host_requirements_for_program_with_catalog`. -/
def hostRequirementsForProgram (program : Program) :
    ExceptT LashlangHostCatalogError Ask HostRequirements := do
  let typeNames := declaredTypeNames program
  let pass : Collect Unit := do
    collectDeclarations typeNames program.declarations
    setScope .empty
    let _ ← collectExpr typeNames program.main
  let ((), collected) ← pass.run ⟨.none, .empty⟩
  return collected.requirements

end HostRequirementsOf
