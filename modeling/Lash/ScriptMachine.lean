import Lash.ScriptCompiler
import Lash.StepMachines

/-!
# The machine that runs compiled programs

The slots are the globals of a run, by name: those the code names and those it does
not. A host answers each request from the requests made before it, so that it may be
any deterministic host. Observations of the execution, the call sites in requests,
projected values and the bindings that hold them, which are read-only, are left out.
-/

namespace ScriptMachine

open ScriptNumbers ScriptValues ScriptOps ScriptBuiltins ScriptCompiler

/-! ## Hosts -/

structure ResourceOperation where
  receiver : Value
  operation : String
  args : List Value

structure ProcessStart where
  moduleRef : String
  processRef : ProcessRef
  hostRequirementsRef : String
  processName : String
  args : Record

inductive ProcessEventKind where
  | yieldEvent
  | wake
deriving DecidableEq

inductive SleepKind where
  | forDuration
  | untilDeadline
deriving DecidableEq

inductive AbilityOp where
  | resourceOperation (operation : ResourceOperation)
  | resourceOperationBatch (operations : List ResourceOperation)
  | await (handle : Value)
  | cancel (handle : Value)
  | print (value : Value)
  | finish (value : Value)
  | fail (value : Value)
  | startProcess (start : ProcessStart)
  | processEvent (kind : ProcessEventKind) (value : Value)
  | sleep (kind : SleepKind) (value : Value)
  | waitSignal (name : String)
  | signalRun (run : Value) (name : String) (payload : Value)

inductive AbilityResult where
  | value (value : Value)
  | resourceOperationBatch (results : List (Except String Value))
  | unit

def AbilityResult.intoValue (op : String) : AbilityResult → Except String Value
  | .value answer => .ok answer
  | .resourceOperationBatch _ => .error s!"{op} returned a resource operation batch result"
  | .unit => .error s!"{op} returned no value"

/-- The requests made so far, the latest first. -/
abbrev History := List AbilityOp

structure Host where
  perform : History → AbilityOp → Except String AbilityResult

inductive ExecutionMode where
  | foreground
  | process
deriving DecidableEq

structure Environment where
  builtins : Builtins
  host : Host
  mode : ExecutionMode
  moduleContext : Option ModuleContext

variable (env : Environment)

variable (history : History)

/-- A request whose answer has to be a value. -/
def Environment.ask (op : AbilityOp) (name : String) : Except String Value :=
  match env.host.perform history op with
  | .ok result => result.intoValue name
  | .error error => .error error

/-! ## States -/

abbrev Slots := String → Option Value

def setSlot (slots : Slots) (name : String) (value : Option Value) : Slots :=
  fun x => if x = name then value else slots x

inductive IterCursor where
  | list (values : List Value)
  | range (next stop step : Int)

def IterCursor.nextValue : IterCursor → Option (Value × IterCursor)
  | .list [] => none
  | .list (value :: rest) => some (value, .list rest)
  | .range next stop step =>
    if rangeDone next stop step then none
    else some (.number (ofInt next), .range (saturatingAdd next step) stop step)

structure IterState where
  cursor : IterCursor
  binding : String
  previous : Option Value

structure Machine where
  ip : Nat
  stack : List Value
  slots : Slots
  iters : List IterState
  history : History

inductive VmOutcome where
  | continued
  | finished (value : Value)
  | processFinished (value : Value)
  | processFailed (value : Value)

/-- Why a run stopped: an error of the program, or a stack of the machine that is too low. The
source says the latter with a message of its own. -/
inductive VmFailure where
  | raised (error : RuntimeError)
  | stackUnderflow
  | missingLoopState
deriving DecidableEq

/-- How a run ended, the globals it left and the requests it made. -/
structure Halted where
  result : Except VmFailure VmOutcome
  slots : Slots
  history : History

/-- The source's `unwind_iterators`: the bindings of the loops still open are given back. -/
def unwind : List IterState → Slots → Slots
  | [], slots => slots
  | it :: rest, slots => unwind rest (setSlot slots it.binding it.previous)

abbrev Step := Machine ⊕ Halted

namespace Machine

variable (m : Machine)

def halt (result : Except VmFailure VmOutcome) : Step :=
  .inr ⟨result, unwind m.iters m.slots, m.history⟩

def failWith (error : RuntimeError) : Step := m.halt (.error (.raised error))

def push (value : Value) : Step := .inl { m with stack := value :: m.stack }

def pushResult : Result → Step
  | .ok value => m.push value
  | .error error => m.failWith error

def goto (target : Nat) : Step := .inl { m with ip := target }

/-- A conditional jump: to the target unless the condition holds. -/
def branch (target : Nat) : Except RuntimeError Bool → Step
  | .ok true => .inl m
  | .ok false => m.goto target
  | .error error => m.failWith error

variable (name : String)

def assign (value : Value) : Step :=
  .inl { m with slots := setSlot m.slots name (some value) }

def assignResult : Result → Step
  | .ok value => m.assign name value
  | .error error => m.failWith error

def ignoreResult : Result → Step
  | .ok _ => .inl m
  | .error error => m.failWith error

def withTop (f : Machine → Value → Step) : Step :=
  match m.stack with
  | value :: rest => f { m with stack := rest } value
  | [] => m.halt (.error .stackUnderflow)

def withTwo (f : Machine → Value → Value → Step) : Step :=
  m.withTop fun m right => m.withTop fun m left => f m left right

/-- The values at the top of the stack, in the order in which they were pushed. -/
def withTail (n : Nat) (f : Machine → List Value → Step) : Step :=
  if m.stack.length < n then m.halt (.error .stackUnderflow)
  else f { m with stack := m.stack.drop n } (m.stack.take n).reverse

def withSlot (f : Value → Step) : Step :=
  match m.slots name with
  | some value => f value
  | none => m.failWith (.undefinedVariable name)

def logged (op : AbilityOp) : Machine := { m with history := op :: m.history }

/-- A request whose answer is a value, or an error of the program under a heading. -/
def request (env : Environment) (op : AbilityOp) (name heading : String)
    (f : Machine → Value → Step) : Step :=
  match env.ask m.history op name with
  | .ok value => f (m.logged op) value
  | .error error => (m.logged op).failWith (.valueError s!"{heading}: {error}")

def inProcess (env : Environment) (keyword : String) (f : Step) : Step :=
  match env.mode with
  | .process => f
  | .foreground => m.failWith (.sessionProcessAdminOutsideProcess keyword)

end Machine

/-! ## Awaiting -/

def isProcessHandleRecord (record : Record) : Bool :=
  (Record.get record "__handle__").isSome || (Record.get record "handle").isSome

variable (handle : Value)

def awaitOne : Value × History :=
  (match env.host.perform history (.await handle) with
    | .ok (.value value) => success value
    | .ok (.resourceOperationBatch _) =>
      errorValue "await returned a resource operation batch result"
    | .ok .unit => errorValue "await returned no value"
    | .error error => errorValue error,
    .await handle :: history)

mutual
/-- The source's `await_value`: what an aggregate holds is awaited one after the other. -/
def awaitValue (env : Environment) (history : History) : Value → Value × History
  | .tuple handles =>
    let r := awaitValues env history handles
    (.tuple r.1, r.2)
  | .list handles =>
    let r := awaitValues env history handles
    (.list r.1, r.2)
  | .record entries =>
    if isProcessHandleRecord entries then awaitOne env history (.record entries)
    else
      let r := awaitEntries env history entries
      (.record (Record.ofEntries r.1), r.2)
  | handle => awaitOne env history handle
def awaitValues (env : Environment) (history : History) : List Value → List Value × History
  | [] => ([], history)
  | handle :: rest =>
    let first := awaitValue env history handle
    let others := awaitValues env first.2 rest
    (first.1 :: others.1, others.2)
def awaitEntries (env : Environment) (history : History) :
    List (String × Value) → List (String × Value) × History
  | [] => ([], history)
  | (key, handle) :: rest =>
    let first := awaitValue env history handle
    let others := awaitEntries env first.2 rest
    ((key, first.1) :: others.1, others.2)
end

def unwrapHeading : String := "`?` unwrapped failed tool result"

def awaitOneUnwrap : Result × History :=
  (match env.ask history (.await handle) "await" with
    | .ok value => .ok value
    | .error error => .error (.valueError s!"{unwrapHeading}: {error}"),
    .await handle :: history)

/-- The source's `await_value_unwrap`. -/
def awaitValueUnwrap : Result × History :=
  match handle with
  | .record entries =>
    if isProcessHandleRecord entries then awaitOneUnwrap env history handle
    else ((unwrapToolResult (awaitValue env history handle).1),
      (awaitValue env history handle).2)
  | .tuple _ | .list _ => (unwrapToolResult (awaitValue env history handle).1,
      (awaitValue env history handle).2)
  | handle => awaitOneUnwrap env history handle

/-! ## Batches -/

def batchOperation (values : List Value) (leaf : BatchLeaf) :
    Except RuntimeError ResourceOperation :=
  match values[leaf.receiverStackIndex]? with
  | none => .error (.valueError "resource operation batch receiver index out of range")
  | some receiver =>
    let args := (values.drop (leaf.receiverStackIndex + 1)).take leaf.argc
    if args.length < leaf.argc then
      .error (.valueError "resource operation batch argument index out of range")
    else .ok ⟨receiver, leaf.operation, args⟩

def batchOperations (values : List Value) :
    List BatchLeaf → Except RuntimeError (List ResourceOperation)
  | [] => .ok []
  | leaf :: rest =>
    match batchOperation values leaf with
    | .ok operation =>
      match batchOperations values rest with
      | .ok operations => .ok (operation :: operations)
      | .error error => .error error
    | .error error => .error error

/-- The values of the leaves, and the first error that a leaf unwraps. -/
def leafValues : List BatchLeaf → List (Except String Value) → List Value × Option String
  | leaf :: leaves, result :: results =>
    let others := leafValues leaves results
    match result with
    | .ok value => ((if leaf.unwrap then value else success value) :: others.1, others.2)
    | .error error =>
      if leaf.unwrap then (.null :: others.1, some error)
      else (errorValue error :: others.1, others.2)
  | _, _ => ([], none)

mutual
/-- The source's `build_aggregate_await_shape`. No code that is compiled holds the first shape. -/
def buildShape (values leaves : List Value) : AwaitShape → Result
  | .unreachable => .ok .null
  | .batchLeaf index =>
    match leaves[index]? with
    | some value => .ok value
    | none => .error (.valueError "aggregate await leaf index out of range")
  | .value index =>
    match values[index]? with
    | some value => .ok value
    | none => .error (.valueError "aggregate await value index out of range")
  | .tuple shapes =>
    match buildShapes values leaves shapes with
    | .ok items => .ok (.tuple items)
    | .error error => .error error
  | .list shapes =>
    match buildShapes values leaves shapes with
    | .ok items => .ok (.list items)
    | .error error => .error error
  | .record keys shapes =>
    if keys.length ≠ shapes.length then
      .error (.valueError "aggregate await record shape is invalid")
    else
      match buildShapes values leaves shapes with
      | .ok items => .ok (.record (Record.ofEntries (keys.zip items)))
      | .error error => .error error
def buildShapes (values leaves : List Value) : List AwaitShape → Except RuntimeError (List Value)
  | [] => .ok []
  | shape :: rest =>
    match buildShape values leaves shape with
    | .ok value =>
      match buildShapes values leaves rest with
      | .ok others => .ok (value :: others)
      | .error error => .error error
    | .error error => .error error
end

def operationHeading : String := "`?` unwrapped failed module operation"

variable (batch : ResourceOperationBatch)

def batchResult (values : List Value) (results : List (Except String Value)) : Result :=
  if results.length ≠ batch.leaves.length then
    .error (.valueError (s!"resource operation batch returned {results.length} results for " ++
      s!"{batch.leaves.length} operations"))
  else
    match leafValues batch.leaves results with
    | (_, some error) => .error (.valueError s!"{operationHeading}: {error}")
    | (leaves, none) =>
      match buildShape values leaves batch.shape with
      | .ok value => if batch.aggregateUnwrap then unwrapToolResult value else .ok value
      | .error error => .error error

/-- The source's `resolve_resource_operation_batch`. -/
def resolveBatch (values : List Value) : Result × History :=
  match batchOperations values batch.leaves with
  | .error error => (.error error, history)
  | .ok operations =>
    (match env.host.perform history (.resourceOperationBatch operations) with
      | .ok (.resourceOperationBatch results) => batchResult batch values results
      | .ok _ => .error (.valueError "resource operation batch returned invalid result")
      | .error error => .error (.valueError s!"resource operation batch failed: {error}"),
      .resourceOperationBatch operations :: history)

/-! ## Calls and processes -/

def callResult (operation : ResourceOperation) (unwrap : Bool) : Result × History :=
  let op := .resourceOperation operation
  (if unwrap then
      match env.ask history op "module operation" with
      | .ok value => .ok value
      | .error error => .error (.valueError s!"{operationHeading}: {error}")
    else
      match env.host.perform history op with
      | .ok (.value value) => .ok (success value)
      | .ok (.resourceOperationBatch _) =>
        .ok (errorValue "module operation returned a resource operation batch result")
      | .ok .unit => .ok (errorValue "module operation returned no value")
      | .error error => .ok (errorValue error),
    op :: history)

def buildRecord (keys : List String) (values : List Value) : Record :=
  Record.ofEntries (keys.zip values)

/-- The source's `VmEffect::StartProcess`. -/
def startResult (process : String) (site : Bool) (args : Record) : Result × History :=
  if !site then
    (.error (.valueError "`start` requires a deterministic lashlang execution site"), history)
  else
    match env.moduleContext with
    | none =>
      (.error (.valueError "`start` requires a linked lashlang module artifact"), history)
    | some context =>
      match context.processRef process with
      | none => (.error (.valueError
          s!"linked lashlang module `{context.moduleRef}` does not export process `{process}`"),
          history)
      | some ref =>
        let op := .startProcess ⟨context.moduleRef, ref, context.hostRequirementsRef, process,
          args⟩
        (match env.ask history op "process start" with
          | .ok value => .ok value
          | .error error => .error (.valueError s!"process start failed: {error}"),
          op :: history)

/-! ## Instructions -/

/-- The value an instruction computed together with the requests it made. -/
def Machine.pushAsked (m : Machine) (r : Result × History) : Step :=
  { m with history := r.2 }.pushResult r.1

def usizeMax : Nat := 2 ^ 64 - 1

/-- What one instruction does. The address is already that of the next one. -/
def execute (m : Machine) : Instruction → Step
  | .pushConst value => m.push value
  | .loadName slot => m.withSlot slot m.push
  | .storeName slot => m.withTop fun m value => m.assign slot value
  | .storeConst slot constant => m.assign slot constant
  | .buildTuple len => m.withTail len fun m values => m.push (.tuple values)
  | .buildList len => m.withTail len fun m values => m.push (.list values)
  | .listAppend => m.withTwo fun m list item => m.pushResult (executePushBuiltin list item)
  | .buildRecord keys => m.withTail keys.length fun m values =>
    m.push (.record (buildRecord keys values))
  | .loadField slot field => m.withSlot slot fun value => m.pushResult (readField value field)
  | .loadFieldUnwrap slot field => m.withSlot slot fun value =>
    match readField value field with
    | .ok value => m.pushResult (unwrapToolResult value)
    | .error error => m.failWith error
  | .field name => m.withTop fun m value => m.pushResult (readField value name)
  | .index => m.withTwo fun m target index => m.pushResult (readIndex target index)
  | .pathAssign slot path => m.withTop fun m value =>
    m.withTail (path.filter (· == .index)).length fun m indexes =>
      m.withSlot slot fun root => m.assignResult slot (assignPath root path indexes value)
  | .resultUnwrap => m.withTop fun m value => m.pushResult (unwrapToolResult value)
  | .unary op => m.withTop fun m value => m.pushResult (evalUnary op value)
  | .binary op => m.withTwo fun m left right => m.pushResult (binaryInstruction op left right)
  | .slotNumberBinary slot op right => m.withSlot slot fun left =>
    m.pushResult (binaryInstruction op left (.number right))
  | .slotNumberCompare slot op right => m.withSlot slot fun left =>
    match evalCompareValues op left (.number right) with
    | .ok truthy => m.push (.bool truthy)
    | .error error => m.failWith error
  | .slotNumberBinaryCompare slot binaryOp binaryRight compareOp compareRight =>
    m.withSlot slot fun left =>
      match binaryInstruction binaryOp left (.number binaryRight) with
      | .ok value =>
        match evalCompareValues compareOp value (.number compareRight) with
        | .ok truthy => m.push (.bool truthy)
        | .error error => m.failWith error
      | .error error => m.failWith error
  | .toBool => m.withTop fun m value => m.push (.bool (isTruthy value))
  | .jump target => m.goto target
  | .breakJump => m.goto usizeMax
  | .jumpIfFalse target => m.withTop fun m value => m.branch target (.ok (isTruthy value))
  | .jumpIfCompareFalse op target => m.withTwo fun m left right =>
    m.branch target (evalCompareValues op left right)
  | .jumpIfSlotNumberCompareFalse slot op right target => m.withSlot slot fun left =>
    m.branch target (evalCompareValues op left (.number right))
  | .jumpIfSlotNumberBinaryCompareFalse slot binaryOp binaryRight compareOp compareRight target =>
    m.withSlot slot fun left =>
      match binaryInstruction binaryOp left (.number binaryRight) with
      | .ok value => m.branch target (evalCompareValues compareOp value (.number compareRight))
      | .error error => m.failWith error
  | .jumpIfTrue target => m.withTop fun m value => m.branch target (.ok !isTruthy value)
  | .resourceCall operation argc => m.withTail (argc + 1) fun m values =>
    m.pushAsked (callResult env m.history
      ⟨values.headD .null, operation, values.tail⟩ false)
  | .resourceCallUnwrap operation argc => m.withTail (argc + 1) fun m values =>
    m.pushAsked (callResult env m.history
      ⟨values.headD .null, operation, values.tail⟩ true)
  | .resourceOperationBatch batch => m.withTail batch.stackValueCount fun m values =>
    m.pushAsked (resolveBatch env m.history batch values)
  | .startProcess process keys site => m.withTail keys.length fun m values =>
    m.pushAsked (startResult env m.history process site (buildRecord keys values))
  | .awaitHandle => m.withTop fun m handle =>
    m.pushAsked (.ok (awaitValue env m.history handle).1, (awaitValue env m.history handle).2)
  | .awaitHandleUnwrap => m.withTop fun m handle =>
    m.pushAsked (awaitValueUnwrap env m.history handle)
  | .sleepFor => m.withTop fun m value =>
    m.request env (.sleep .forDuration value) "sleep" "sleep failed" fun m _ => m.push .null
  | .sleepUntil => m.withTop fun m value =>
    m.request env (.sleep .untilDeadline value) "sleep" "sleep failed" fun m _ => m.push .null
  | .processWaitSignal name => m.inProcess env "wait_signal"
      (m.request env (.waitSignal name) "wait_signal" "wait_signal failed" Machine.push)
  | .processSignalRun name => m.withTwo fun m run payload =>
    m.request env (.signalRun run name payload) "signal_run" "signal_run failed"
      fun m _ => m.push .null
  | .cancelHandle => m.withTop fun m handle =>
    m.request env (.cancel handle) "cancel" "cancel failed" Machine.push
  | .intrinsic op => m.withTail op.argc fun m values =>
    m.pushResult (executeIntrinsic env.builtins op values)
  | .validateCompiled schema => m.withTop fun m value =>
    m.pushResult (env.builtins.executeValidationPlan schema value)
  | .pushAssign slot => m.withTop fun m item => m.withSlot slot fun list =>
    m.assignResult slot (executePushBuiltin list item)
  | .formatCompiled template => m.withTail template.argc fun m values =>
    m.pushResult (executeCompiledFormat template values)
  | .formatCompiledSlotNumber template slot => m.withSlot slot fun value =>
    match value with
    | .number value => m.pushResult (executeCompiledFormatOneNumber template value)
    | value => m.pushResult (executeCompiledFormat template [value])
  | .formatCompiledSlotNumberBinary template slot op right => m.withSlot slot fun left =>
    match left with
    | .number left => m.pushResult (executeCompiledFormatOneNumber template
        (evalNumberNumericBinaryValue op left right))
    | left =>
      match evalBinaryValues op left (.number right) with
      | .ok value => m.pushResult (executeCompiledFormat template [value])
      | .error error => m.failWith error
  | .addAssign slot => m.withTop fun m right => m.withSlot slot fun left =>
    m.assignResult slot (addValues left right)
  | .addAssignNumber slot right => m.withSlot slot fun left =>
    m.assignResult slot (addAssignValueNumber left right)
  | .addAssignSlot slot right => m.withSlot right fun right => m.withSlot slot fun left =>
    m.assignResult slot (addValues left right)
  | .addAssignIndexNumber slot right => m.withTop fun m index => m.withSlot slot fun root =>
    m.assignResult slot (addAssignIndexNumber root index right)
  | .addAssignIndexSlotNumber slot index right => m.withSlot index fun index =>
    m.withSlot slot fun root => m.assignResult slot (addAssignIndexNumber root index right)
  | .appendAssign slot => m.withTop fun m item => m.withSlot slot fun current =>
    match current with
    | .list items => m.assign slot (.list (items ++ [item]))
    -- the sum is computed and recorded as the last value, and the slot is left as it was
    | current => m.ignoreResult (addValues current (.list [item]))
  | .print => match env.mode with
      | .process => m.failWith (.foregroundControlInsideProcess "print")
      | .foreground => m.withTop fun m value =>
        match env.host.perform m.history (.print value) with
        | .ok _ => (m.logged (.print value)).push .null
        | .error error => (m.logged (.print value)).failWith (.valueError s!"print failed: {error}")
  | .processYield =>
    m.inProcess env "yield" (m.withTop fun m value => processEvent m .yieldEvent value)
  | .processWake => m.inProcess env "wake" (m.withTop fun m value => processEvent m .wake value)
  | .finish => m.withTop fun m value =>
    m.request env (.finish value) "finish" "finish failed" fun m value =>
      m.halt (.ok (match env.mode with
        | .foreground => .finished value
        | .process => .processFinished value))
  | .processFail => m.inProcess env "fail" (m.withTop fun m value =>
    m.request env (.fail value) "fail" "fail failed" fun m value =>
      m.halt (.ok (.processFailed value)))
  | .observeStep => .inl m
  | .pop => m.withTop fun m _ => .inl m
  | .beginIter binding => m.withTop fun m iterable =>
    match iterableValues iterable with
    | .ok values => .inl { m with iters := ⟨.list values, binding, m.slots binding⟩ :: m.iters }
    | .error error => m.failWith error
  | .beginRangeIter binding argc => m.withTail argc fun m values =>
    match rangeBounds values with
    | .ok bounds => .inl { m with iters := ⟨.range bounds.start.toInt bounds.stop.toInt
        bounds.step.toInt, binding, m.slots binding⟩ :: m.iters }
    | .error error => m.failWith error
  | .iterNext target => match m.iters with
      | [] => m.halt (.error .missingLoopState)
      | it :: rest =>
        match it.cursor.nextValue with
        | none => m.goto target
        | some (value, cursor) => .inl { m with
            iters := { it with cursor := cursor } :: rest
            slots := setSlot m.slots it.binding (some value) }
  | .endIter => match m.iters with
      | [] => .inl m
      | it :: rest => .inl { m with
          iters := rest
          slots := setSlot m.slots it.binding it.previous }
  | .resolveTypeRef slot => m.withSlot slot fun value =>
    match unwrapTypeValue value with
    | some schema => m.push schema
    | none => m.failWith (.typeError
        s!"`{slot}` is not a Type value (missing `{lashTypeKey}`)")
  | .wrapTypeLiteral => m.withTop fun m schema => m.push (wrapTypeSchemaValue schema)
  | .wrapHostDescriptor typeName => m.withTop fun m value =>
    m.push (.record [(lashHostDescriptorTypeKey, .string typeName),
      (lashHostDescriptorValueKey, value)])
where
  processEvent (m : Machine) (kind : ProcessEventKind) (value : Value) : Step :=
    match env.host.perform m.history (.processEvent kind value) with
    | .ok _ => (m.logged (.processEvent kind value)).push value
    | .error error => (m.logged (.processEvent kind value)).failWith
        (.valueError s!"process event failed: {error}")

/-- The source's run loop, one instruction at a time. -/
def step (code : Code) (env : Environment) (m : Machine) : Step :=
  match code[m.ip]? with
  | none => m.halt (.ok .continued)
  | some instruction => execute env { m with ip := m.ip + 1 } instruction

def initial (slots : Slots) (history : History) : Machine := ⟨0, [], slots, [], history⟩

end ScriptMachine
