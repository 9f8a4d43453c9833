import Lash.HostRequirements
import Lash.ScriptCompiler
import Lash.ScriptLowering

/-!
# Module artifacts

A linked program is kept under the hash of what it means: its declarations and its main
expression with the names of locals left out, its exports and what it requires of a host.
The hash is taken over a sequence of atoms, each written with its length.
-/

namespace ScriptArtifacts

open HostCatalogs HostRequirementsOf NameTables ScriptCompiler ScriptLinker ScriptOps
open ScriptPrograms ScriptSyntax

def lashlangSemanticHashVersion : String := "lashlang-semantic-v2"

/-! ## Names of locals -/

structure NameNormalizer where
  names : Table String
  abiNames : List String
  nextLocal : Nat

namespace NameNormalizer

def new : NameNormalizer := ⟨.empty, [], 0⟩

def bindAbi (name : String) (n : NameNormalizer) : NameNormalizer :=
  { n with abiNames := name :: n.abiNames, names := n.names.set name ("abi:" ++ name) }

def bindLocal (name : String) (n : NameNormalizer) : NameNormalizer :=
  if n.abiNames.contains name || n.names.has name then n
  else
    { n with
      nextLocal := n.nextLocal + 1
      names := n.names.set name ("local:" ++ toString n.nextLocal) }

def nameToken (n : NameNormalizer) (name : String) : String :=
  (n.names.get name).getD ("global:" ++ name)

mutual
def collectExpr : Expr → NameNormalizer → NameNormalizer
  | .assign root steps e, n => collectExpr e (collectSteps steps (n.bindLocal root))
  | .forIn binding iterable body, n => collectExpr body ((collectExpr iterable n).bindLocal binding)
  | .listComprehension element clauses, n => collectExpr element (collectClauses clauses n)
  | .block es, n | .tuple es, n | .list es, n | .builtinCall _ es, n => collectAll es n
  | .record entries, n | .startProcess _ entries, n => collectEntries entries n
  | .ifElse c t e, n => collectExpr e (collectExpr t (collectExpr c n))
  | .whileDo a b, n | .signalRun a _ b, n | .index a b, n | .binary a _ b, n =>
    collectExpr b (collectExpr a n)
  | .receiverCall r _ args, n => collectAll args (collectExpr r n)
  | .labelAnnotated _ e, n | .hostDescriptorConstructor _ e, n | .await e, n | .sleepFor e, n
  | .sleepUntil e, n | .resultUnwrap e, n | .cancel e, n | .print e, n | .yieldEvent e, n
  | .wake e, n | .finish e, n | .fail e, n | .field e _, n | .unary _ e, n => collectExpr e n
  | .null, n | .bool _, n | .number _, n | .string _, n | .variable _, n | .breakLoop, n
  | .continueLoop, n | .processRef _, n | .resourceRef _, n | .waitSignal _, n
  | .typeLiteral _, n => n
def collectAll : List Expr → NameNormalizer → NameNormalizer
  | [], n => n
  | e :: rest, n => collectAll rest (collectExpr e n)
def collectEntries : List (String × Expr) → NameNormalizer → NameNormalizer
  | [], n => n
  | (_, e) :: rest, n => collectEntries rest (collectExpr e n)
def collectSteps : List (AssignPathStep Expr) → NameNormalizer → NameNormalizer
  | [], n => n
  | .field _ :: rest, n => collectSteps rest n
  | .index e :: rest, n => collectSteps rest (collectExpr e n)
def collectClauses : List (ListComprehensionClause Expr) → NameNormalizer → NameNormalizer
  | [], n => n
  | .each binding iterable :: rest, n =>
    collectClauses rest ((collectExpr iterable n).bindLocal binding)
  | .test condition :: rest, n => collectClauses rest (collectExpr condition n)
end

end NameNormalizer

/-! ## What is hashed -/

/-- The source's `HashWriter`: each atom with its length. -/
def writtenAtoms (atoms : List String) : String :=
  atoms.foldl (fun bytes atom => bytes ++ toString atom.utf8ByteSize ++ ":" ++ atom ++ ";") ""

def boolAtom (value : Bool) : String := if value then "true" else "false"

mutual
def writeType : TypeExpr → List String
  | .any => ["type:any"]
  | .str => ["type:str"]
  | .int => ["type:int"]
  | .float => ["type:float"]
  | .bool => ["type:bool"]
  | .dict => ["type:dict"]
  | .null => ["type:null"]
  | .enum values => "type:enum" :: toString values.length :: values
  | .list item => "type:list" :: writeType item
  | .object fields => "type:object" :: toString fields.length :: writeFields fields
  | .ref name => ["type:ref", name]
  | .process input output count =>
    "type:process" :: toString count :: (writeType input ++ writeType output)
  | .triggerHandle event => "type:trigger-handle" :: writeType event
  | .union variants => "type:union" :: toString variants.length :: writeTypes variants
def writeTypes : List TypeExpr → List String
  | [] => []
  | ty :: rest => writeType ty ++ writeTypes rest
def writeFields : List (TypeField TypeExpr) → List String
  | [] => []
  | ⟨name, ty, optional⟩ :: rest => name :: boolAtom optional :: (writeType ty ++ writeFields rest)
end

def writeLabelMetadata (label : LabelMetadata) : List String :=
  "label" :: label.title :: match label.description with
    | some description => ["description", description]
    | none => ["no-description"]

def writeResourceRef (resource : ResourceRef) : List String :=
  "path" :: toString resource.path.length :: resource.path
    ++ ["handle", resource.resourceType, resource.aliasName]

def unaryOpAtom : UnaryOp → String
  | .negate => "negate"
  | .not => "not"

def binaryOpAtom : BinaryOp → String
  | .add => "add"
  | .subtract => "subtract"
  | .multiply => "multiply"
  | .divide => "divide"
  | .modulo => "modulo"
  | .equal => "equal"
  | .notEqual => "not-equal"
  | .less => "less"
  | .lessEqual => "less-equal"
  | .greater => "greater"
  | .greaterEqual => "greater-equal"
  | .and => "and"
  | .or => "or"

/-- Both zeros are one. -/
def numberAtom (value : Float) : String :=
  toString (if value == 0 then (0 : UInt64) else value.toBits)

section

variable (n : NameNormalizer)

mutual
def writeExpr : Expr → List String
  | .block es => "block" :: toString es.length :: writeExprs es
  | .labelAnnotated label e => "label-annotated" :: (writeLabelMetadata label ++ writeExpr e)
  | .null => ["null"]
  | .bool value => ["bool", boolAtom value]
  | .number value => ["number", numberAtom value]
  | .string value => ["string", value]
  | .variable name => ["variable", n.nameToken name]
  | .tuple es => "tuple" :: toString es.length :: writeExprs es
  | .list es => "list" :: toString es.length :: writeExprs es
  | .listComprehension element clauses =>
    "list-comprehension" :: toString clauses.length :: (writeClauses clauses ++ writeExpr element)
  | .record entries => "record" :: toString entries.length :: writeEntries entries
  | .assign root steps e =>
    "assign" :: n.nameToken root :: toString steps.length :: (writeSteps steps ++ writeExpr e)
  | .ifElse c t e => "if" :: (writeExpr c ++ writeExpr t ++ writeExpr e)
  | .forIn binding iterable body =>
    "for" :: n.nameToken binding :: (writeExpr iterable ++ writeExpr body)
  | .whileDo c body => "while" :: (writeExpr c ++ writeExpr body)
  | .breakLoop => ["break"]
  | .continueLoop => ["continue"]
  | .startProcess process args =>
    "start-process" :: process :: toString args.length :: writeEntries args
  | .processRef process => ["process-ref", process]
  | .hostDescriptorConstructor typeName input =>
    "host-value-constructor" :: typeName :: writeExpr input
  | .resourceRef resource => "resource-ref" :: writeResourceRef resource
  | .receiverCall receiver operation args =>
    "receiver-call" :: (writeExpr receiver ++ operation :: toString args.length :: writeExprs args)
  | .await e => "await" :: writeExpr e
  | .sleepFor e => "sleep-for" :: writeExpr e
  | .sleepUntil e => "sleep-until" :: writeExpr e
  | .waitSignal name => ["wait-signal", name]
  | .signalRun run name payload => "signal-run" :: name :: (writeExpr run ++ writeExpr payload)
  | .resultUnwrap e => "unwrap" :: writeExpr e
  | .cancel e => "cancel" :: writeExpr e
  | .print e => "print" :: writeExpr e
  | .yieldEvent e => "yield" :: writeExpr e
  | .wake e => "wake" :: writeExpr e
  | .finish e => "finish" :: writeExpr e
  | .fail e => "fail" :: writeExpr e
  | .builtinCall name args => "builtin-call" :: name :: toString args.length :: writeExprs args
  | .field target name => "field-access" :: (writeExpr target ++ [name])
  | .index target index => "index-access" :: (writeExpr target ++ writeExpr index)
  | .unary op e => "unary" :: unaryOpAtom op :: writeExpr e
  | .binary left op right => "binary" :: binaryOpAtom op :: (writeExpr left ++ writeExpr right)
  | .typeLiteral ty => "type-literal" :: writeType ty
def writeExprs : List Expr → List String
  | [] => []
  | e :: rest => writeExpr e ++ writeExprs rest
def writeEntries : List (String × Expr) → List String
  | [] => []
  | (key, e) :: rest => key :: (writeExpr e ++ writeEntries rest)
def writeSteps : List (AssignPathStep Expr) → List String
  | [] => []
  | .field name :: rest => "field" :: name :: writeSteps rest
  | .index e :: rest => "index" :: (writeExpr e ++ writeSteps rest)
def writeClauses : List (ListComprehensionClause Expr) → List String
  | [] => []
  | .each binding iterable :: rest =>
    "for" :: n.nameToken binding :: (writeExpr iterable ++ writeClauses rest)
  | .test condition :: rest => "if" :: (writeExpr condition ++ writeClauses rest)
end

end

variable (process : ProcessDecl)

def processNormalizer : NameNormalizer :=
  let inputs := process.params.foldl (fun n param => NameNormalizer.bindAbi param.name n)
    NameNormalizer.new
  NameNormalizer.collectExpr process.body ((inputs.bindAbi "input").bindAbi "inputs")

def writeProcess : List String :=
  "process-decl" :: process.name :: toString process.params.length
    :: process.params.flatMap (fun param => param.name :: writeType param.ty)
    ++ "signals" :: toString process.signals.length
    :: process.signals.flatMap (fun signal => signal.name :: writeType signal.ty)
    ++ (match process.returnTy with
      | some ty => "return" :: writeType ty
      | none => ["no-return"])
    ++ (match process.label with
      | some label => writeLabelMetadata label
      | none => [])
    ++ writeExpr (processNormalizer process) process.body

def writeDeclaration : Declaration → List String
  | .type decl => "type-decl" :: decl.name :: writeType decl.ty
  | .process process => writeProcess process

def writeProgram (program : Program) : List String :=
  "program" :: toString program.declarations.length
    :: program.declarations.flatMap writeDeclaration
    ++ writeExpr (NameNormalizer.collectExpr program.main .new) program.main

def writeExports (exports : Table ProcessRef) : List String :=
  "exports" :: toString exports.entries.length :: exports.entries.flatMap fun entry =>
    ["process-export", entry.1, entry.2.component, toString entry.2.pos]

/-- A table with how many entries it has. -/
def writeTable {V : Type} (write : String × V → List String) (table : Table V) : List String :=
  toString table.entries.length :: table.entries.flatMap write

def writeHostRequirements (requirements : HostRequirements) : List String :=
  let abilities := requirements.abilities
  let resources := requirements.resources
  ["abilities", boolAtom abilities.processes, boolAtom abilities.sleep,
    boolAtom abilities.processSignals, boolAtom abilities.triggers]
    ++ (if requirements.languageFeatures.labelAnnotations then
        ["language-features", "label-annotations"] else [])
    ++ "resources" :: "modules" :: writeTable (fun entry =>
        entry.1 :: entry.2.resourceType :: entry.2.aliasName :: "operations"
          :: writeTable (fun operation => [operation.1, operation.2.hostOperation])
            entry.2.operations) resources.moduleInstances
    ++ writeTable (fun entry =>
        entry.1 :: "operations" :: writeTable (fun operation =>
          operation.1 :: (writeType operation.2.inputTy ++ writeType operation.2.outputTy))
            entry.2.operations) resources.resourceTypes
    ++ "named-data-types" :: writeTable (fun entry => entry.1 :: writeType entry.2.ty)
        resources.namedDataTypes
    ++ "constructors" :: writeTable (fun entry =>
        entry.1 :: entry.2.typeName
          :: (writeType entry.2.inputTy ++ writeType entry.2.outputTy)) resources.valueConstructors
    ++ "trigger-sources" :: writeTable (fun entry => [entry.1, entry.2.eventType.name])
        resources.triggerSources

/-! ## Artifacts -/

structure ModuleArtifact where
  moduleRef : String
  hostRequirementsRef : String
  hostRequirements : HostRequirements
  exports : Table ProcessRef
  canonicalIr : Program

/-- Spans are no part of what is kept. -/
def canonicalProgramIr (program : Program) : Program :=
  { program with declarationSpans := [], expressionSpans := [] }

section

-- The hex digest of a text's bytes.
variable (sha256 : String → String)

def contentHash (kind : String) (atoms : List String) : String :=
  sha256 (writtenAtoms (lashlangSemanticHashVersion :: kind :: atoms))

def processComponentHash (process : ProcessDecl) : String :=
  contentHash sha256 "process" (writeProcess process)

variable (program : Program)

/-- The processes a program exports, each with its place among them. -/
def moduleExports : Table ProcessRef :=
  let processes := program.declarations.filterMap fun declaration =>
    match declaration with
    | .process process => some process
    | .type _ => none
  (processes.zipIdx.map fun entry =>
      (entry.1.name, ProcessRef.mk (processComponentHash sha256 entry.1) (.ofNat entry.2))).foldl
    (fun exports entry => exports.set entry.1 entry.2) .empty

variable (requirements : HostRequirements)

def hostRequirementsRef : String :=
  "lashlang-host-requirements:v1:sha256:"
    ++ contentHash sha256 "host-requirements" (writeHostRequirements requirements)

def moduleRef (requirementsRef : String) (exports : Table ProcessRef) : String :=
  "lashlang:v1:sha256:"
    ++ contentHash sha256 "module"
      (requirementsRef :: (writeExports exports ++ writeProgram program))

/-- The source's `from_program_with_requirements`. -/
def artifactOfProgramWithRequirements : ModuleArtifact :=
  let canonicalIr := canonicalProgramIr program
  let requirementsRef := hostRequirementsRef sha256 requirements
  let exports := moduleExports sha256 canonicalIr
  { moduleRef := moduleRef sha256 canonicalIr requirementsRef exports
    hostRequirementsRef := requirementsRef
    hostRequirements := requirements
    exports := exports
    canonicalIr := canonicalIr }

end

variable (artifact : ModuleArtifact)

def ModuleArtifact.processRef (name : String) : Option ProcessRef :=
  artifact.exports.get name

def ModuleArtifact.processNameForRef (ref : ProcessRef) : Option String :=
  (artifact.exports.entries.find? fun entry => entry.2 == ref).map Prod.fst

/-- What the compiled code of a module keeps of its artifact. -/
def ModuleArtifact.context : ModuleContext :=
  ⟨artifact.moduleRef, artifact.hostRequirementsRef, artifact.exports.entries⟩

/-! ## Linking -/

structure LinkedModule where
  artifact : ModuleArtifact
  linkedProgram : Program

/-- Why a module is not linked; a conflict is a panic of the source. -/
inductive LinkFailure where
  | rejected (error : LinkError)
  | panicked (conflict : LashlangHostCatalogError)
deriving DecidableEq

/-- The source's `LinkedModule::link`, which asks the surface for all it needs. -/
def LinkedModule.link (sha256 : String → String) (program : Program) :
    Ask (Except LinkFailure LinkedModule) := do
  match ← (ScriptLowering.linkProgram program).run with
  | .error error => return .error (.rejected error)
  | .ok linked =>
    match ← (hostRequirementsForProgram linked).run with
    | .error conflict => return .error (.panicked conflict)
    | .ok requirements =>
      return .ok ⟨artifactOfProgramWithRequirements sha256 linked requirements, linked⟩

end ScriptArtifacts
