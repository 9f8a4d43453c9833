import Lash.ScriptFolding

/-!
# The compiler of the script language

An expression becomes a run of instructions. What is emitted depends on the address
it starts at, because jumps name addresses, and on the table of known values. Slots,
names, constants, key lists, paths and batches are written into the instructions in
place of indexes into the tables of a chunk. Execution sites and source spans are
left out; of the tracking of executions there remains whether it is on.
-/

namespace ScriptCompiler

open ScriptNumbers ScriptValues ScriptOps ScriptBuiltins ScriptSyntax ScriptFolding

/-- The shape of an awaited value. Where the source takes a shape to be impossible, its compiler
stops. -/
inductive AwaitShape where
  | unreachable
  | batchLeaf (index : Nat)
  | value (index : Nat)
  | tuple (values : List AwaitShape)
  | list (values : List AwaitShape)
  | record (keys : List String) (values : List AwaitShape)

structure BatchLeaf where
  operation : String
  argc : Nat
  receiverStackIndex : Nat
  unwrap : Bool
deriving DecidableEq

structure ResourceOperationBatch where
  leaves : List BatchLeaf
  shape : AwaitShape
  stackValueCount : Nat
  aggregateUnwrap : Bool

/-- The instructions. The four that push a constant are one here, and a `break` whose loop has not
ended yet has an instruction of its own. -/
inductive Instruction where
  | pushConst (value : Value)
  | loadName (slot : String)
  | storeName (slot : String)
  | storeConst (slot : String) (constant : Value)
  | buildTuple (len : Nat)
  | buildList (len : Nat)
  | listAppend
  | buildRecord (keys : List String)
  | loadField (slot field : String)
  | loadFieldUnwrap (slot field : String)
  | field (name : String)
  | index
  | pathAssign (slot : String) (path : List CompiledAssignPathStep)
  | resultUnwrap
  | unary (op : UnaryOp)
  | binary (op : BinaryOp)
  | slotNumberBinary (slot : String) (op : BinaryOp) (right : Float)
  | slotNumberCompare (slot : String) (op : BinaryOp) (right : Float)
  | slotNumberBinaryCompare (slot : String) (binaryOp : BinaryOp) (binaryRight : Float)
      (compareOp : BinaryOp) (compareRight : Float)
  | toBool
  | jump (target : Nat)
  | breakJump
  | jumpIfFalse (target : Nat)
  | jumpIfCompareFalse (op : BinaryOp) (target : Nat)
  | jumpIfSlotNumberCompareFalse (slot : String) (op : BinaryOp) (right : Float) (target : Nat)
  | jumpIfSlotNumberBinaryCompareFalse (slot : String) (binaryOp : BinaryOp) (binaryRight : Float)
      (compareOp : BinaryOp) (compareRight : Float) (target : Nat)
  | jumpIfTrue (target : Nat)
  | resourceCall (operation : String) (argc : Nat)
  | resourceCallUnwrap (operation : String) (argc : Nat)
  | resourceOperationBatch (batch : ResourceOperationBatch)
  | startProcess (process : String) (keys : List String) (site : Bool)
  | awaitHandle
  | awaitHandleUnwrap
  | sleepFor
  | sleepUntil
  | processWaitSignal (name : String)
  | processSignalRun (name : String)
  | cancelHandle
  | intrinsic (op : IntrinsicOp)
  | validateCompiled (schema : Value)
  | pushAssign (slot : String)
  | formatCompiled (template : CompiledFormatTemplate)
  | formatCompiledSlotNumber (template : CompiledFormatTemplate) (slot : String)
  | formatCompiledSlotNumberBinary (template : CompiledFormatTemplate) (slot : String)
      (op : BinaryOp) (right : Float)
  | addAssign (slot : String)
  | addAssignNumber (slot : String) (right : Float)
  | addAssignSlot (slot right : String)
  | addAssignIndexNumber (slot : String) (right : Float)
  | addAssignIndexSlotNumber (slot index : String) (right : Float)
  | appendAssign (slot : String)
  | print
  | processYield
  | processWake
  | finish
  | processFail
  | observeStep
  | pop
  | beginIter (binding : String)
  | beginRangeIter (binding : String) (argc : Nat)
  | iterNext (target : Nat)
  | endIter
  | resolveTypeRef (slot : String)
  | wrapTypeLiteral
  | wrapHostDescriptor (typeName : String)

abbrev Code := List Instruction

/-- Writes the end of a loop into the breaks out of it. -/
def patchBreak (target : Nat) : Instruction → Instruction
  | .breakJump => .jump target
  | instruction => instruction

structure ProcessRef where
  component : String
  pos : UInt32
deriving DecidableEq

structure ModuleContext where
  moduleRef : String
  hostRequirementsRef : String
  processRefs : List (String × ProcessRef)

def ModuleContext.processRef (context : ModuleContext) (name : String) : Option ProcessRef :=
  (context.processRefs.find? fun entry => entry.1 == name).map Prod.snd

/-- What an expression is compiled for: its value, its effect, or the jump of a condition. -/
inductive Mode where
  | value
  | effect
  | test
deriving DecidableEq

/-- What a compilation is given besides the program. The source always folds; the compiler that
does not is the one its folding is compared with. -/
structure CompileContext where
  moduleContext : Option ModuleContext
  tracked : Bool
  folding : Bool

namespace CompileContext

def known (cx : CompileContext) (κ : Consts) : Consts := if cx.folding then κ else noConsts

def fold (cx : CompileContext) (κ : Consts) (e : Expr) : Option Value :=
  if cx.folding then foldCompileTimeExpr κ e else none

def foldType (cx : CompileContext) (κ : Consts) (ty : TypeExpr) : Option Value :=
  foldTypeExpr (cx.known κ) ty

/-- The value an expression is replaced by. -/
def foldedValue (cx : CompileContext) (κ : Consts) (e : Expr) : Option Value :=
  if containsTypeLiteral e then none else cx.fold κ e

/-- A labelled statement is not replaced. -/
def foldFor (cx : CompileContext) (mode : Mode) (κ : Consts) (e : Expr) : Option Value :=
  if mode = .effect ∧ isLabel e then none else cx.foldedValue κ e

def foldNumber (cx : CompileContext) (κ : Consts) (e : Expr) : Option Float :=
  match cx.fold κ e with
  | some (.number value) => some value
  | _ => none

end CompileContext

/-! ## Pieces of code -/

structure Fragment where
  code : Code
  consts : Consts

/-- What an expression becomes, given where it starts and what is known there. -/
abbrev Emitter := Nat → Consts → Fragment

def emit (code : Code) : Emitter := fun _ κ => ⟨code, κ⟩

def emitNothing : Emitter := emit []

def emitSeq (first second : Emitter) : Emitter := fun a κ =>
  let f := first a κ
  let s := second (a + f.code.length) f.consts
  ⟨f.code ++ s.code, s.consts⟩

def updateConsts (f : Consts → Consts) : Emitter := fun _ κ => ⟨[], f κ⟩

def clearConsts : Emitter := updateConsts fun _ => noConsts

/-- The body of a loop over an iterator, its breaks patched. -/
def emitIterLoop (body : Nat → Emitter) : Emitter := fun a κ =>
  let f := body a (a + 1) κ
  let stop := a + 1 + f.code.length + 1
  ⟨.iterNext stop :: (f.code.map (patchBreak stop) ++ [.jump a, .endIter]), noConsts⟩

/-- A statement whose own code leaves nothing, followed by `null` where a value is asked for. -/
def emitNullIf (mode : Mode) : Emitter :=
  match mode with
  | .effect => emitNothing
  | _ => emit [.pushConst .null]

/-- An expression whose own code leaves its value, dropped where only its effect is asked for. -/
def emitDiscard (mode : Mode) : Emitter :=
  match mode with
  | .effect => emit [.pop]
  | _ => emitNothing

/-! ## Fused forms -/

inductive SlotOperand where
  | plain (slot : String) (right : Float)
  | arithmetic (slot : String) (binaryOp : BinaryOp) (binaryRight right : Float)

/-- The comparisons that read a slot directly. -/
def slotOperand (fold : Expr → Option Float) (left right : Expr) : Option SlotOperand :=
  match left with
  | .binary (.variable name) op inner =>
    if isNumericBinaryOp op then do
      let compareRight ← fold right
      let binaryRight ← fold inner
      some (.arithmetic name op binaryRight compareRight)
    else none
  | .variable name => (fold right).map (.plain name)
  | _ => none

/-- The arithmetic that reads a slot directly. -/
def slotNumber (fold : Expr → Option Float) (left right : Expr) : Option (String × Float) :=
  match left with
  | .variable name => (fold right).map fun value => (name, value)
  | _ => none

variable (cx : CompileContext)

variable (κ : Consts)

/-- The jump that a condition ends with. -/
def conditionJump (condition : Expr) : Nat → Instruction :=
  match condition with
  | .binary left op right =>
    if isComparisonBinaryOp op ∧ (cx.foldedValue κ condition).isNone then
      match slotOperand (cx.foldNumber κ) left right with
      | some (.plain slot right) => .jumpIfSlotNumberCompareFalse slot op right
      | some (.arithmetic slot binaryOp binaryRight right) =>
        .jumpIfSlotNumberBinaryCompareFalse slot binaryOp binaryRight op right
      | none => .jumpIfCompareFalse op
    else .jumpIfFalse
  | _ => .jumpIfFalse

mutual
/-- The source's `compile_type_expr`. -/
def compileTypeExpr (κ : Consts) : TypeExpr → Code
  | .ref name =>
    match foldTypeExpr κ (.ref name) with
    | some value => [.pushConst value]
    | none => [.resolveTypeRef name]
  | .list item =>
    match foldTypeExpr κ (.list item) with
    | some value => [.pushConst value]
    | none => .pushConst (.string "array") :: compileTypeExpr κ item ++
        [.buildRecord ["type", "items"]]
  | .object fields =>
    match foldTypeExpr κ (.object fields) with
    | some value => [.pushConst value]
    | none =>
      .pushConst (.string "object") :: compileTypeFields κ fields ++
        .buildRecord (fields.map TypeField.name) ::
        ((requiredNames fields).map fun name => .pushConst (.string name)) ++
        [.buildList (requiredNames fields).length, .pushConst (.bool false),
          .buildRecord ["type", "properties", "required", "additionalProperties"]]
  | .union variants =>
    match foldTypeExpr κ (.union variants) with
    | some value => [.pushConst value]
    | none => compileTypeExprs κ variants ++
        [.buildList variants.length, .buildRecord ["anyOf"]]
  | ty => [.pushConst ((foldTypeExpr κ ty).getD anySchema)]
def compileTypeExprs (κ : Consts) : List TypeExpr → Code
  | [] => []
  | ty :: rest => compileTypeExpr κ ty ++ compileTypeExprs κ rest
def compileTypeFields (κ : Consts) : List (TypeField TypeExpr) → Code
  | [] => []
  | ⟨_, ty, _⟩ :: rest => compileTypeExpr κ ty ++ compileTypeFields κ rest
end

def compileTypeLiteral (ty : TypeExpr) : Code :=
  match cx.foldType κ ty with
  | some schema => [.pushConst (wrapTypeSchemaValue schema)]
  | none => compileTypeExpr (cx.known κ) ty ++ [.wrapTypeLiteral]

def processRefValue (process : String) : Value :=
  match cx.moduleContext with
  | none => .null
  | some context =>
    match context.processRef process with
    | none => .null
    | some ref => .record [("$lash_process", .bool true), ("process_name", .string process),
        ("module_ref", .string context.moduleRef),
        ("process_ref", .record [("component", .string ref.component),
          ("pos", .number (ofNat ref.pos.toNat))]),
        ("host_requirements_ref", .string context.hostRequirementsRef)]

def pathSteps (steps : List (AssignPathStep Expr)) : List CompiledAssignPathStep :=
  steps.map fun step => match step with
    | .field name => .field name
    | .index _ => .index

/-- What an assignment records about its slot. -/
def assignedConst : Expr → Option Value
  | .typeLiteral ty => (cx.foldType κ ty).map wrapTypeSchemaValue
  | e => cx.foldedValue κ e

/-- The forms of `x = e` that have instructions of their own. -/
inductive FusedAssign where
  | append
  | addNumber (right : Float)
  | addSlot (right : String)
  | add
  | push

def fusedAdd (right : Expr) : FusedAssign :=
  match right with
  | .list [_] => .append
  | right =>
    match cx.foldNumber κ right, right with
    | some value, _ => .addNumber value
    | none, .variable other => .addSlot other
    | none, _ => .add

def fusedAssign (name : String) : Expr → Option FusedAssign
  | .binary (.variable var) .add right => if var = name then some (fusedAdd cx κ right) else none
  | .builtinCall builtin [.variable var, _] =>
    if builtin = "push" ∧ var = name then some .push else none
  | _ => none

variable (root : String)

/-- The forms of `x[i] = x[i] + c` that have instructions of their own: the index and `c`. -/
def fusedIndexAssign (steps : List (AssignPathStep Expr)) (e : Expr) : Option Float :=
  match steps, e with
  | [.index index], .binary (.index (.variable name) leftIndex) .add right =>
    if isPureExpr index ∧ name = root ∧ leftIndex.same index then cx.foldNumber κ right else none
  | _, _ => none

/-- The schema that `validate` is compiled with, where it is known. -/
def compiledSchema (schema : Expr) : Option Value :=
  (cx.fold κ schema).bind unwrapTypeValue

/-- The forms of `format` whose only argument is read from a slot. -/
inductive FormatSlot where
  | plain (slot : String)
  | arithmetic (slot : String) (op : BinaryOp) (right : Float)

def formatSlot : List Expr → Option FormatSlot
  | [.variable name] => some (.plain name)
  | [.binary (.variable name) op right] =>
    if isNumericBinaryOp op then (cx.foldNumber κ right).map (.arithmetic name op) else none
  | _ => none

/-! ## Awaited aggregates -/

structure ShapeState where
  shape : AwaitShape
  leaves : List BatchLeaf
  stackValueCount : Nat

structure ShapesState where
  shapes : List AwaitShape
  leaves : List BatchLeaf
  stackValueCount : Nat

def shapeLeaf (operation : String) (argc : Nat) (unwrap : Bool) (leaves : List BatchLeaf)
    (count : Nat) : ShapeState :=
  ⟨.batchLeaf leaves.length, leaves ++ [⟨operation, argc, count, unwrap⟩], count + argc + 1⟩

mutual
/-- The shape the results of a batch are put back into. An unwrapped expression that is no call is
not expected inside an aggregate. -/
def awaitShape (leaves : List BatchLeaf) (count : Nat) : Expr → ShapeState
  | .receiverCall _ operation args => shapeLeaf operation args.length false leaves count
  | .resultUnwrap (.receiverCall _ operation args) =>
    shapeLeaf operation args.length true leaves count
  | .resultUnwrap _ => ⟨.unreachable, leaves, count + 1⟩
  | .tuple items =>
    let r := awaitShapes leaves count items
    ⟨.tuple r.shapes, r.leaves, r.stackValueCount⟩
  | .list items =>
    let r := awaitShapes leaves count items
    ⟨.list r.shapes, r.leaves, r.stackValueCount⟩
  | .record entries =>
    let r := awaitEntryShapes leaves count entries
    ⟨.record (entries.map Prod.fst) r.shapes, r.leaves, r.stackValueCount⟩
  | _ => ⟨.value count, leaves, count + 1⟩
def awaitShapes (leaves : List BatchLeaf) (count : Nat) : List Expr → ShapesState
  | [] => ⟨[], leaves, count⟩
  | e :: rest =>
    let first := awaitShape leaves count e
    let others := awaitShapes first.leaves first.stackValueCount rest
    ⟨first.shape :: others.shapes, others.leaves, others.stackValueCount⟩
def awaitEntryShapes (leaves : List BatchLeaf) (count : Nat) : List (String × Expr) → ShapesState
  | [] => ⟨[], leaves, count⟩
  | (_, e) :: rest =>
    let first := awaitShape leaves count e
    let others := awaitEntryShapes first.leaves first.stackValueCount rest
    ⟨first.shape :: others.shapes, others.leaves, others.stackValueCount⟩
end

def awaitBatch (handle : Expr) (aggregateUnwrap : Bool) : ResourceOperationBatch :=
  let r := awaitShape [] 0 handle
  ⟨r.leaves, r.shape, r.stackValueCount, aggregateUnwrap⟩

def callInstruction (operation : String) (argc : Nat) (unwrap : Bool) : Instruction :=
  if unwrap then .resourceCallUnwrap operation argc else .resourceCall operation argc

def awaitInstruction (unwrap : Bool) : Instruction :=
  if unwrap then .awaitHandleUnwrap else .awaitHandle

/-! ## Expressions -/

def Mode.inner : Mode → Mode
  | .effect => .effect
  | _ => .value

variable (jump : Consts → Nat → Instruction)

variable (condition : Emitter)

/-- A condition and the part that runs where it holds. -/
def emitTest (part : Emitter) : Emitter :=
  fun a κ =>
    let c := condition a κ
    let p := part (a + c.code.length + 1) noConsts
    let stop := a + c.code.length + 1 + p.code.length
    ⟨c.code ++ jump κ stop :: p.code, noConsts⟩

def emitIf (thenPart elsePart : Emitter) : Emitter :=
  fun a κ =>
    let c := condition a κ
    let t := thenPart (a + c.code.length + 1) c.consts
    let elseStart := a + c.code.length + 1 + t.code.length + 1
    let e := elsePart elseStart c.consts
    ⟨c.code ++ jump κ elseStart :: (t.code ++ .jump (elseStart + e.code.length) :: e.code),
      noConsts⟩

def emitWhile (body : Nat → Emitter) : Emitter :=
  fun a _ =>
    let c := condition a noConsts
    let b := body a (a + c.code.length + 1) noConsts
    let stop := a + c.code.length + 1 + b.code.length + 1
    ⟨c.code ++ jump noConsts stop :: (b.code.map (patchBreak stop) ++ [.jump a]), noConsts⟩

/-- A logical operator: the left operand, the jump that decides early, the right operand as a
boolean, and the value of the early decision. -/
def emitLogical (jump : Nat → Instruction) (early : Bool) (left right : Emitter) : Emitter :=
  fun a κ =>
    let l := left a κ
    let r := right (a + l.code.length + 1) l.consts
    let earlyStart := a + l.code.length + 1 + r.code.length + 2
    ⟨l.code ++ jump earlyStart :: (r.code ++ [.toBool, .jump (earlyStart + 1),
      .pushConst (.bool early)]), r.consts⟩

def emitIterable (binding : String) (args whole : Emitter) (iterable : Expr) : Emitter :=
  match iterable with
  | .builtinCall name items =>
    if name = "range" then emitSeq args (emit [.beginRangeIter binding items.length])
    else emitSeq whole (emit [.beginIter binding])
  | _ => emitSeq whole (emit [.beginIter binding])

def emitFormat (template : String) (valueArgs : List Expr) (args : Emitter) : Emitter := fun a κ =>
  let compiled := compileFormatTemplate template valueArgs.length
  match formatSlot cx κ valueArgs with
  | some (.plain slot) => emit [.formatCompiledSlotNumber compiled slot] a κ
  | some (.arithmetic slot op right) =>
    emit [.formatCompiledSlotNumberBinary compiled slot op right] a κ
  | none => emitSeq args (emit [.formatCompiled compiled]) a κ

def emitBinary (mode : Mode) (left : Expr) (op : BinaryOp) (right : Expr) (operands : Emitter) :
    Emitter := fun a κ =>
  if isComparisonBinaryOp op then
    match slotOperand (cx.foldNumber κ) left right, mode with
    | some _, .test => emitNothing a κ
    | some (.plain slot right), _ => emit [.slotNumberCompare slot op right] a κ
    | some (.arithmetic slot binaryOp binaryRight right), _ =>
      emit [.slotNumberBinaryCompare slot binaryOp binaryRight op right] a κ
    | none, .test => operands a κ
    | none, _ => emitSeq operands (emit [.binary op]) a κ
  else if isNumericBinaryOp op then
    match slotNumber (cx.foldNumber κ) left right with
    | some (slot, right) => emit [.slotNumberBinary slot op right] a κ
    | none => emitSeq operands (emit [.binary op]) a κ
  else emitSeq operands (emit [.binary op]) a κ

/-- The code of a simple assignment, given the code of the parts it may use. -/
def emitAssign (e : Expr) (appended right pushed whole : Emitter) :
    Emitter := fun a κ =>
  match fusedAssign cx κ root e with
  | some .append => emitSeq appended (emitSeq (emit [.appendAssign root])
      (updateConsts fun κ => setConst κ root none)) a κ
  | some (.addNumber value) => emitSeq (emit [.addAssignNumber root value])
      (updateConsts fun κ => setConst κ root none) a κ
  | some (.addSlot other) => emitSeq (emit [.addAssignSlot root other])
      (updateConsts fun κ => setConst κ root none) a κ
  | some .add => emitSeq right (emitSeq (emit [.addAssign root])
      (updateConsts fun κ => setConst κ root none)) a κ
  | some .push => emitSeq pushed (emitSeq (emit [.pushAssign root])
      (updateConsts fun κ => setConst κ root none)) a κ
  | none =>
    match cx.foldedValue κ e with
    | some value => emitSeq (emit [.storeConst root value])
        (updateConsts fun κ => setConst κ root (some value)) a κ
    | none =>
      emitSeq whole (emitSeq (emit [.storeName root])
        (updateConsts fun κ' => setConst κ' root (assignedConst cx κ e))) a κ

def emitPathAssign (steps : List (AssignPathStep Expr)) (e : Expr) (indexes whole : Emitter) :
    Emitter := fun a κ =>
  match fusedIndexAssign cx κ root steps e, steps with
  | some value, [.index (.variable index)] =>
    emitSeq (emit [.addAssignIndexSlotNumber root index value])
      (updateConsts fun κ => setConst κ root none) a κ
  | some value, _ => emitSeq indexes (emitSeq (emit [.addAssignIndexNumber root value])
      (updateConsts fun κ => setConst κ root none)) a κ
  | none, _ => emitSeq indexes (emitSeq whole (emitSeq (emit [.pathAssign root (pathSteps steps)])
      (updateConsts fun κ => setConst κ root none))) a κ

mutual
/-- The source's `compile_expr`, `compile_expr_discarding_value` and, without its last jump,
`compile_condition_jump_if_false`. `loop` is where a `continue` goes. -/
def compileExpr (cx : CompileContext) (loop : Nat) (mode : Mode) (e : Expr) : Emitter :=
  fun a κ =>
  match cx.foldFor mode κ e with
  | some value => emitSeq (emit [.pushConst value]) (emitDiscard mode) a κ
  | none =>
    match e with
    | .labelAnnotated _ inner =>
      if cx.tracked && supportsForcedEffectSite inner then
        compileExpr cx loop .value inner a κ
      else
        emitSeq (emit (if labelAttachesToConcreteNode inner ||
            (cx.tracked && labelsForcedAssign inner) then [] else [.observeStep]))
          (compileExpr cx loop mode.inner inner) a κ
    | .block es => compileBlock cx loop mode.inner es a κ
    | .null => emitSeq (emit [.pushConst .null]) (emitDiscard mode) a κ
    | .bool value => emitSeq (emit [.pushConst (.bool value)]) (emitDiscard mode) a κ
    | .number value => emitSeq (emit [.pushConst (.number value)]) (emitDiscard mode) a κ
    | .string value => emitSeq (emit [.pushConst (.string value)]) (emitDiscard mode) a κ
    | .variable name => emitSeq (emit [.loadName name]) (emitDiscard mode) a κ
    | .tuple items => emitSeq (compileAll cx loop items)
        (emitSeq (emit [.buildTuple items.length]) (emitDiscard mode)) a κ
    | .list items => emitSeq (compileAll cx loop items)
        (emitSeq (emit [.buildList items.length]) (emitDiscard mode)) a κ
    | .listComprehension element clauses =>
      emitSeq (emit [.buildList 0])
        (emitSeq (compileClauses cx loop
            (emitSeq (compileExpr cx loop .value element) (emit [.listAppend])) clauses)
          (emitSeq clearConsts (emitDiscard mode))) a κ
    | .record entries => emitSeq (compileEntries cx loop entries)
        (emitSeq (emit [.buildRecord (entries.map Prod.fst)]) (emitDiscard mode)) a κ
    | .assign root [] e => emitSeq (emitAssign cx root e (compileAppended cx loop e)
        (compileRight cx loop e) (compilePushed cx loop e) (compileExpr cx loop .value e))
          (emitNullIf mode) a κ
    | .assign root steps e => emitSeq (emitPathAssign cx root steps e (compileSteps cx loop steps)
        (compileExpr cx loop .value e)) (emitNullIf mode) a κ
    | .ifElse condition thenBlock elseBlock =>
      emitSeq (emitIf (fun κ => conditionJump cx κ condition)
        (compileExpr cx loop .test condition) (compileExpr cx loop .value thenBlock)
        (compileExpr cx loop .value elseBlock)) (emitDiscard mode) a κ
    | .forIn binding iterable body =>
      emitSeq (emitIterable binding (compileRangeArgs cx loop iterable)
          (compileExpr cx loop .value iterable) iterable)
        (emitSeq clearConsts (emitSeq (emitIterLoop fun next => compileExpr cx next .effect body)
          (emitNullIf mode))) a κ
    | .whileDo condition body =>
      emitSeq (emitWhile (fun κ => conditionJump cx κ condition)
        (compileExpr cx loop .test condition) fun next => compileExpr cx next .effect body)
        (emitNullIf mode) a κ
    | .breakLoop => emitSeq (emit [.breakJump]) clearConsts a κ
    | .continueLoop => emitSeq (emit [.jump loop]) clearConsts a κ
    | .startProcess process args => emitSeq (compileEntries cx loop args)
        (emitSeq (emit [.startProcess process (args.map Prod.fst) cx.tracked])
          (emitDiscard mode)) a κ
    | .processRef process =>
      emitSeq (emit [.pushConst (processRefValue cx process)]) (emitDiscard mode) a κ
    | .hostDescriptorConstructor typeName input =>
      emitSeq (compileExpr cx loop .value input)
        (emitSeq (emit [.wrapHostDescriptor typeName]) (emitDiscard mode)) a κ
    | .resourceRef resource =>
      emitSeq (emit [.pushConst (.resource ⟨resource.resourceType, resource.aliasName⟩)])
        (emitDiscard mode) a κ
    | .receiverCall receiver operation args =>
      emitSeq (compileExpr cx loop .value receiver) (emitSeq (compileAll cx loop args)
        (emitSeq (emit [callInstruction operation args.length false]) (emitDiscard mode))) a κ
    | .await handle => emitSeq (compileAwait cx loop false
        (compileExpr cx loop .value handle) handle) (emitDiscard mode) a κ
    | .sleepFor duration => emitSeq (compileExpr cx loop .value duration)
        (emitSeq (emit [.sleepFor]) (emitDiscard mode)) a κ
    | .sleepUntil deadline => emitSeq (compileExpr cx loop .value deadline)
        (emitSeq (emit [.sleepUntil]) (emitDiscard mode)) a κ
    | .waitSignal name => emitSeq (emit [.processWaitSignal name]) (emitDiscard mode) a κ
    | .signalRun run name payload => emitSeq (compileExpr cx loop .value run)
        (emitSeq (compileExpr cx loop .value payload)
          (emitSeq (emit [.processSignalRun name]) (emitDiscard mode))) a κ
    | .resultUnwrap (.await handle) => emitSeq (compileAwait cx loop true
        (compileExpr cx loop .value handle) handle) (emitDiscard mode) a κ
    | .resultUnwrap (.receiverCall receiver operation args) =>
      emitSeq (compileExpr cx loop .value receiver) (emitSeq (compileAll cx loop args)
        (emitSeq (emit [callInstruction operation args.length true]) (emitDiscard mode))) a κ
    | .resultUnwrap (.field (.variable name) field) =>
      emitSeq (emit [.loadFieldUnwrap name field]) (emitDiscard mode) a κ
    | .resultUnwrap inner => emitSeq (compileExpr cx loop .value inner)
        (emitSeq (emit [.resultUnwrap]) (emitDiscard mode)) a κ
    | .cancel handle => emitSeq (compileExpr cx loop .value handle)
        (emitSeq (emit [.cancelHandle]) (emitDiscard mode)) a κ
    | .print e => emitSeq (compileExpr cx loop .value e)
        (emitSeq (emit [.print]) (emitDiscard mode)) a κ
    | .yieldEvent value => emitSeq (compileExpr cx loop .value value)
        (emitSeq (emit [.processYield]) (emitDiscard mode)) a κ
    | .wake value => emitSeq (compileExpr cx loop .value value)
        (emitSeq (emit [.processWake]) (emitDiscard mode)) a κ
    | .finish value => emitSeq (compileExpr cx loop .value value) (emit [.finish]) a κ
    | .fail value => emitSeq (compileExpr cx loop .value value) (emit [.processFail]) a κ
    | .builtinCall "format" (.string template :: valueArgs) =>
      emitSeq (emitFormat cx template valueArgs (compileAll cx loop valueArgs))
        (emitDiscard mode) a κ
    | .builtinCall "validate" [value, schema] =>
      match compiledSchema cx κ schema with
      | some compiled => emitSeq (compileExpr cx loop .value value)
          (emitSeq (emit [.validateCompiled compiled]) (emitDiscard mode)) a κ
      | none => emitSeq (compileExpr cx loop .value value)
          (emitSeq (compileExpr cx loop .value schema)
            (emitSeq (emit [.intrinsic .validate]) (emitDiscard mode))) a κ
    | .builtinCall name args => emitSeq (compileAll cx loop args)
        (emitSeq (emit [.intrinsic (resolveIntrinsic name args.length)]) (emitDiscard mode)) a κ
    | .field (.variable name) field =>
      emitSeq (emit [.loadField name field]) (emitDiscard mode) a κ
    | .field target field => emitSeq (compileExpr cx loop .value target)
        (emitSeq (emit [.field field]) (emitDiscard mode)) a κ
    | .index target index => emitSeq (compileExpr cx loop .value target)
        (emitSeq (compileExpr cx loop .value index)
          (emitSeq (emit [.index]) (emitDiscard mode))) a κ
    | .unary op e => emitSeq (compileExpr cx loop .value e)
        (emitSeq (emit [.unary op]) (emitDiscard mode)) a κ
    | .binary left .and right => emitSeq (emitLogical .jumpIfFalse false
        (compileExpr cx loop .value left) (compileExpr cx loop .value right)) (emitDiscard mode) a κ
    | .binary left .or right => emitSeq (emitLogical .jumpIfTrue true
        (compileExpr cx loop .value left) (compileExpr cx loop .value right)) (emitDiscard mode) a κ
    | .binary left op right => emitSeq (emitBinary cx mode left op right
        (emitSeq (compileExpr cx loop .value left) (compileExpr cx loop .value right)))
          (emitDiscard mode) a κ
    | .typeLiteral ty => emitSeq (emit (compileTypeLiteral cx κ ty)) (emitDiscard mode) a κ
def compileAll (cx : CompileContext) (loop : Nat) : List Expr → Emitter
  | [] => emitNothing
  | e :: rest => emitSeq (compileExpr cx loop .value e) (compileAll cx loop rest)
def compileEntries (cx : CompileContext) (loop : Nat) : List (String × Expr) → Emitter
  | [] => emitNothing
  | (_, e) :: rest => emitSeq (compileExpr cx loop .value e) (compileEntries cx loop rest)
def compileSteps (cx : CompileContext) (loop : Nat) : List (AssignPathStep Expr) → Emitter
  | [] => emitNothing
  | .field _ :: rest => compileSteps cx loop rest
  | .index e :: rest => emitSeq (compileExpr cx loop .value e) (compileSteps cx loop rest)
/-- A block: all but the last statement run for their effect. -/
def compileBlock (cx : CompileContext) (loop : Nat) (mode : Mode) : List Expr → Emitter
  | [] => emitNullIf mode
  | [e] => compileExpr cx loop mode e
  | e :: rest => emitSeq (compileExpr cx loop .effect e) (compileBlock cx loop mode rest)
def compileClauses (cx : CompileContext) (loop : Nat) (element : Emitter) :
    List (ListComprehensionClause Expr) → Emitter
  | [] => element
  | .each binding iterable :: rest =>
    emitSeq (emitIterable binding (compileRangeArgs cx loop iterable)
        (compileExpr cx loop .value iterable) iterable)
      (emitSeq clearConsts (emitIterLoop fun _ => compileClauses cx loop element rest))
  | .test condition :: rest =>
    emitTest (fun κ => conditionJump cx κ condition) (compileExpr cx loop .test condition)
      (compileClauses cx loop element rest)
def compileRangeArgs (cx : CompileContext) (loop : Nat) : Expr → Emitter
  | .builtinCall _ args => compileAll cx loop args
  | _ => emitNothing
def compileAppended (cx : CompileContext) (loop : Nat) : Expr → Emitter
  | .binary _ _ (.list [item]) => compileExpr cx loop .value item
  | _ => emitNothing
def compileRight (cx : CompileContext) (loop : Nat) : Expr → Emitter
  | .binary _ _ right => compileExpr cx loop .value right
  | _ => emitNothing
def compilePushed (cx : CompileContext) (loop : Nat) : Expr → Emitter
  | .builtinCall _ [_, item] => compileExpr cx loop .value item
  | _ => emitNothing
/-- The source's `compile_await_handle_expr`, given the code of the handle as a whole. -/
def compileAwait (cx : CompileContext) (loop : Nat) (unwrap : Bool) (whole : Emitter) :
    Expr → Emitter
  | .receiverCall receiver operation args =>
    emitSeq (compileExpr cx loop .value receiver) (emitSeq (compileAll cx loop args)
      (emit [callInstruction operation args.length unwrap]))
  | .resultUnwrap (.receiverCall receiver operation args) =>
    emitSeq (compileExpr cx loop .value receiver) (emitSeq (compileAll cx loop args)
      (emit [callInstruction operation args.length true]))
  | .resultUnwrap inner => emitSeq (compileExpr cx loop .value inner) (emit [.awaitHandleUnwrap])
  | .tuple items =>
    if awaitsAggregate (.tuple items) then emitSeq (compileShapes cx loop items)
      (emit [.resourceOperationBatch (awaitBatch (.tuple items) unwrap)])
    else emitSeq whole (emit [awaitInstruction unwrap])
  | .list items =>
    if awaitsAggregate (.list items) then emitSeq (compileShapes cx loop items)
      (emit [.resourceOperationBatch (awaitBatch (.list items) unwrap)])
    else emitSeq whole (emit [awaitInstruction unwrap])
  | .record entries =>
    if awaitsAggregate (.record entries) then emitSeq (compileEntryShapes cx loop entries)
      (emit [.resourceOperationBatch (awaitBatch (.record entries) unwrap)])
    else emitSeq whole (emit [awaitInstruction unwrap])
  | _ => emitSeq whole (emit [awaitInstruction unwrap])
/-- The values a batch takes from the stack, in the order of the expressions. -/
def compileShape (cx : CompileContext) (loop : Nat) (whole : Emitter) : Expr → Emitter
  | .receiverCall receiver _ args | .resultUnwrap (.receiverCall receiver _ args) =>
    emitSeq (compileExpr cx loop .value receiver) (compileAll cx loop args)
  | .tuple items | .list items => compileShapes cx loop items
  | .record entries => compileEntryShapes cx loop entries
  | _ => whole
def compileShapes (cx : CompileContext) (loop : Nat) : List Expr → Emitter
  | [] => emitNothing
  | e :: rest => emitSeq (compileShape cx loop (compileExpr cx loop .value e) e)
      (compileShapes cx loop rest)
def compileEntryShapes (cx : CompileContext) (loop : Nat) : List (String × Expr) → Emitter
  | [] => emitNothing
  | (_, e) :: rest => emitSeq (compileShape cx loop (compileExpr cx loop .value e) e)
      (compileEntryShapes cx loop rest)
end

/-- The code of a program: the value of its last statement is dropped unless the program has
ended there. -/
def compileProgram (main : Expr) : Code :=
  let f := compileExpr cx 0 .value main 0 noConsts
  f.code ++ if isTerminalExpr main then [] else [.pop]

mutual
def AwaitShape.isUnreachable : AwaitShape → Bool
  | .unreachable => true
  | .batchLeaf _ | .value _ => false
  | .tuple shapes | .list shapes | .record _ shapes => anyUnreachable shapes
def anyUnreachable : List AwaitShape → Bool
  | [] => false
  | shape :: rest => shape.isUnreachable || anyUnreachable rest
end

def Instruction.isUnreachable : Instruction → Bool
  | .resourceOperationBatch batch => batch.shape.isUnreachable
  | _ => false

/-- The source's compiler panics where it comes to what it takes to be unreachable. -/
def compileProgramInternal (main : Expr) : Option Code :=
  if (compileProgram cx main).any Instruction.isUnreachable then none
  else some (compileProgram cx main)

end ScriptCompiler
