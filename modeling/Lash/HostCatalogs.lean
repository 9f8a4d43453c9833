import Lash.NameTables
import Lash.ScriptTypes

/-!
# What a host offers to scripts

The catalog of the modules, resource types, data types, constructors and trigger sources a host
offers, the abilities and language features it grants, and what a program requires of them.
-/

namespace HostCatalogs

open NameTables ScriptSyntax ScriptTypes

structure NamedDataType where
  name : String
  ty : TypeExpr

structure ResourceOperationBinding where
  inputTy : TypeExpr
  outputTy : TypeExpr

structure ResourceTypeCatalog where
  operations : Table ResourceOperationBinding

structure ModuleOperationBinding where
  hostOperation : String
deriving DecidableEq

structure ModuleInstanceCatalog where
  path : List String
  resourceType : String
  aliasName : String
  operations : Table ModuleOperationBinding

structure ValueConstructorBinding where
  path : List String
  typeName : String
  inputTy : TypeExpr
  outputTy : TypeExpr

structure TriggerSourceBinding where
  eventType : NamedDataType

structure LashlangHostCatalog where
  moduleInstances : Table ModuleInstanceCatalog
  resourceTypes : Table ResourceTypeCatalog
  namedDataTypes : Table NamedDataType
  valueConstructors : Table ValueConstructorBinding
  triggerSources : Table TriggerSourceBinding

structure LashlangAbilities where
  processes : Bool
  sleep : Bool
  processSignals : Bool
  triggers : Bool
deriving DecidableEq

structure LashlangLanguageFeatures where
  labelAnnotations : Bool
deriving DecidableEq

structure LashlangHostEnvironment where
  resources : LashlangHostCatalog
  abilities : LashlangAbilities
  languageFeatures : LashlangLanguageFeatures

structure HostRequirements where
  resources : LashlangHostCatalog
  abilities : LashlangAbilities
  languageFeatures : LashlangLanguageFeatures

inductive LashlangHostCatalogError where
  | conflictingNamedDataType (name : String)
  | conflictingModuleInstance (aliasName existing incoming : String)
  | conflictingTriggerSource (sourceType existing incoming : String)
deriving DecidableEq

def LashlangHostCatalog.new : LashlangHostCatalog :=
  ⟨.empty, .empty, .empty, .empty, .empty⟩

def LashlangAbilities.none : LashlangAbilities := ⟨false, false, false, false⟩

def HostRequirements.none : HostRequirements := ⟨.new, .none, ⟨false⟩⟩

/-- The source's `module_path_key`. -/
def modulePathKey (path : List String) : String := ".".intercalate path

/-! ## Equality of bindings -/

def NamedDataType.same (a b : NamedDataType) : Bool := a.name == b.name && a.ty.same b.ty

def ResourceOperationBinding.same (a b : ResourceOperationBinding) : Bool :=
  a.inputTy.same b.inputTy && a.outputTy.same b.outputTy

def ValueConstructorBinding.same (a b : ValueConstructorBinding) : Bool :=
  a.path == b.path && a.typeName == b.typeName && a.inputTy.same b.inputTy
    && a.outputTy.same b.outputTy

def TriggerSourceBinding.same (a b : TriggerSourceBinding) : Bool := a.eventType.same b.eventType

/-! ## Building a catalog -/

namespace LashlangHostCatalog

def ensureResourceType (resourceType : String) (catalog : LashlangHostCatalog) :
    LashlangHostCatalog :=
  if catalog.resourceTypes.has resourceType then catalog
  else { catalog with resourceTypes := catalog.resourceTypes.set resourceType ⟨.empty⟩ }

def addModuleInstance (path : List String) (resourceType : String)
    (catalog : LashlangHostCatalog) : Except LashlangHostCatalogError LashlangHostCatalog :=
  let key := modulePathKey path
  match catalog.moduleInstances.get key with
  | some existing =>
    if existing.resourceType ≠ resourceType then
      .error (.conflictingModuleInstance key existing.resourceType resourceType)
    else .ok (catalog.ensureResourceType resourceType)
  | none =>
    let opened :=
      { catalog with
        moduleInstances := catalog.moduleInstances.set key ⟨path, resourceType, key, .empty⟩ }
    .ok (opened.ensureResourceType resourceType)

def addOperation (resourceType operation : String) (inputTy outputTy : TypeExpr)
    (catalog : LashlangHostCatalog) : LashlangHostCatalog :=
  let operations := match catalog.resourceTypes.get resourceType with
    | some existing => existing.operations
    | none => .empty
  { catalog with
    resourceTypes := catalog.resourceTypes.set resourceType
      ⟨operations.set operation ⟨inputTy, outputTy⟩⟩ }

def addModuleOperation (path : List String) (resourceType operation hostOperation : String)
    (inputTy outputTy : TypeExpr) (catalog : LashlangHostCatalog) :
    Except LashlangHostCatalogError LashlangHostCatalog := do
  let opened ← catalog.addModuleInstance path resourceType
  let declared := opened.addOperation resourceType operation inputTy outputTy
  match declared.moduleInstances.get (modulePathKey path) with
  | some existing =>
    .ok { declared with
      moduleInstances := declared.moduleInstances.set (modulePathKey path)
        { existing with operations := existing.operations.set operation ⟨hostOperation⟩ } }
  | none => .ok declared

def addValueConstructor (path : List String) (inputTy outputTy : TypeExpr)
    (catalog : LashlangHostCatalog) : LashlangHostCatalog :=
  { catalog with
    valueConstructors := catalog.valueConstructors.set (modulePathKey path)
      ⟨path, formatTypeExpr outputTy, inputTy, outputTy⟩ }

def addNamedDataType (dataType : NamedDataType) (catalog : LashlangHostCatalog) :
    Except LashlangHostCatalogError LashlangHostCatalog :=
  match catalog.namedDataTypes.get dataType.name with
  | some existing =>
    if existing.same dataType then .ok catalog
    else .error (.conflictingNamedDataType dataType.name)
  | none =>
    .ok { catalog with namedDataTypes := catalog.namedDataTypes.set dataType.name dataType }

def addTriggerSourceType (sourceType : String) (eventType : NamedDataType)
    (catalog : LashlangHostCatalog) : Except LashlangHostCatalogError LashlangHostCatalog := do
  let declared ← catalog.addNamedDataType eventType
  .ok { declared with triggerSources := declared.triggerSources.set sourceType ⟨eventType⟩ }

/-! ## Looking things up -/

variable (catalog : LashlangHostCatalog)

def hasResourceType (name : String) : Bool :=
  catalog.resourceTypes.has name

def resolveNamedDataType (name : String) : Option NamedDataType :=
  catalog.namedDataTypes.get name

def resolveTriggerSource (name : String) : Option TriggerSourceBinding :=
  catalog.triggerSources.get name

/-- The source's `is_known_opaque_value_type`. -/
def isKnownSealedValueType (name : String) : Bool :=
  catalog.triggerSources.has name || catalog.valueConstructors.entries.any fun entry =>
    match entry.2.outputTy with
    | .ref typeName => typeName == name
    | _ => false

def resolveModulePath (path : List String) : Option ResourceRef :=
  (catalog.moduleInstances.get (modulePathKey path)).map fun entry =>
    ⟨entry.path, entry.resourceType, entry.aliasName⟩

def resolveOperation (resourceType operation : String) : Option ResourceOperationBinding := do
  (← catalog.resourceTypes.get resourceType).operations.get operation

def resolveModuleOperation (resourceType aliasName operation : String) :
    Option ModuleOperationBinding := do
  let entry ← catalog.moduleInstances.get aliasName
  if entry.resourceType = resourceType then entry.operations.get operation else none

def resolveValueConstructor (path : List String) : Option ValueConstructorBinding :=
  catalog.valueConstructors.get (modulePathKey path)

def constructorOfType (typeName : String) : Option ValueConstructorBinding :=
  (catalog.valueConstructors.entries.map Prod.snd).find? fun binding =>
    binding.typeName == typeName

def sortedNames (names : List String) : List String :=
  (names.foldl (fun table name => Table.set name () table) Table.empty).entries.map Prod.fst

def operationSuggestionsForHost (hostOperation : String) : List String :=
  sortedNames (catalog.moduleInstances.entries.flatMap fun entry =>
    (entry.2.operations.entries.filter fun operation =>
      operation.2.hostOperation == hostOperation).map fun operation =>
        entry.2.aliasName ++ "." ++ operation.1)

/-- The source's `operation_suggestions_for_prefix`: the modules below a path. -/
def operationSuggestionsBelow (path : List String) (operation : String) : List String :=
  let above := modulePathKey path
  sortedNames (catalog.moduleInstances.entries.filterMap fun entry =>
    if entry.2.aliasName == above || !(above ++ ".").isPrefixOf entry.2.aliasName then none
    else if (catalog.resolveOperation entry.2.resourceType operation).isSome then
      some (entry.2.aliasName ++ "." ++ operation)
    else none)

end LashlangHostCatalog

/-! ## What is satisfied -/

def LashlangAbilities.satisfies (abilities required : LashlangAbilities) : Bool :=
  (!required.processes || abilities.processes) && (!required.sleep || abilities.sleep)
    && (!required.processSignals || abilities.processSignals)
    && (!required.triggers || abilities.triggers)

def LashlangLanguageFeatures.satisfies (features required : LashlangLanguageFeatures) : Bool :=
  !required.labelAnnotations || features.labelAnnotations

/-- Each required entry is there and equal. -/
def tableSatisfies {V : Type} (same : V → V → Bool) (table required : Table V) : Bool :=
  required.entries.all fun entry =>
    match table.get entry.1 with
    | some value => same value entry.2
    | none => false

def ModuleInstanceCatalog.satisfies (offered required : ModuleInstanceCatalog) : Bool :=
  offered.path == required.path && offered.resourceType == required.resourceType
    && offered.aliasName == required.aliasName
    && tableSatisfies (· == ·) offered.operations required.operations

def ResourceTypeCatalog.satisfies (catalog required : ResourceTypeCatalog) : Bool :=
  tableSatisfies ResourceOperationBinding.same catalog.operations required.operations

def LashlangHostCatalog.satisfies (catalog required : LashlangHostCatalog) : Bool :=
  tableSatisfies ModuleInstanceCatalog.satisfies catalog.moduleInstances required.moduleInstances
    && tableSatisfies ResourceTypeCatalog.satisfies catalog.resourceTypes required.resourceTypes
    && tableSatisfies ValueConstructorBinding.same catalog.valueConstructors
      required.valueConstructors
    && tableSatisfies NamedDataType.same catalog.namedDataTypes required.namedDataTypes
    && tableSatisfies TriggerSourceBinding.same catalog.triggerSources required.triggerSources

def LashlangHostEnvironment.satisfies (surface : LashlangHostEnvironment)
    (required : HostRequirements) : Bool :=
  surface.abilities.satisfies required.abilities
    && surface.languageFeatures.satisfies required.languageFeatures
    && surface.resources.satisfies required.resources

end HostCatalogs
