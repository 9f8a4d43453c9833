import Lash.ScriptMachine

/-!
# What an operand computes

The value of an operand in given slots, or the error it raises, with the requests it
makes on the way. Nothing here jumps: the code that the compiler makes of an operand
is compared with this. Operands leave the slots as they are; a comprehension binds
its variables for its parts only.
-/

namespace ScriptEvaluation

open ScriptValues ScriptOps ScriptBuiltins ScriptSyntax ScriptFolding ScriptCompiler
open ScriptMachine

/-- A computation that adds its requests to those made so far. -/
def Eval (A : Type) : Type := History → Except RuntimeError A × History

instance : Monad Eval where
  pure a := fun history => (.ok a, history)
  bind x f := fun history =>
    match x history with
    | (.ok a, history) => f a history
    | (.error error, history) => (.error error, history)

variable {A B : Type}

theorem pure_apply (a : A) (history : History) : (pure a : Eval A) history = (.ok a, history) := rfl

theorem bind_apply (x : Eval A) (f : A → Eval B) (history : History) : (x >>= f) history =
      match x history with
      | (.ok a, history) => f a history
      | (.error error, history) => (.error error, history) := rfl

theorem id_map_apply (x : Eval A) : id <$> x = x := by
  funext history
  change (match x history with
    | (.ok a, history) => ((.ok (id a), history) : Except RuntimeError A × History)
    | (.error error, history) => (.error error, history)) = x history
  rcases x history with ⟨_ | _, _⟩ <;> rfl

instance : LawfulMonad Eval := .mk' Eval id_map_apply (fun _ _ => rfl) <| by
  intro A B C x f g
  funext history
  simp only [bind_apply]
  rcases x history with ⟨_ | _, _⟩ <;> rfl

/-- A computation without requests. -/
def compute (x : Except RuntimeError A) : Eval A := fun history => (x, history)

def loadSlot (slots : Slots) (name : String) : Eval Value :=
  match slots name with
  | some value => pure value
  | none => compute (.error (.undefinedVariable name))

/-! ## Requests -/

variable (env : Environment)

def callOperation (operation : String) (unwrap : Bool) (values : List Value) : Eval Value :=
  fun history => callResult env history ⟨values.headD .null, operation, values.tail⟩ unwrap

def awaitOperation (unwrap : Bool) (handle : Value) : Eval Value :=
  fun history =>
    if unwrap then awaitValueUnwrap env history handle
    else (.ok (awaitValue env history handle).1, (awaitValue env history handle).2)

def batchOperation (batch : ResourceOperationBatch) (values : List Value) : Eval Value :=
  fun history => resolveBatch env history batch values

def startOperation (process : String) (keys : List String) (site : Bool) (values : List Value) :
    Eval Value :=
  fun history => startResult env history process site (buildRecord keys values)

def requestOperation (op : AbilityOp) (name heading : String) : Eval Value :=
  fun history =>
    (match env.ask history op name with
      | .ok value => .ok value
      | .error error => .error (.valueError s!"{heading}: {error}"), op :: history)

def inProcessOnly (keyword : String) (x : Eval Value) : Eval Value :=
  match env.mode with
  | .process => x
  | .foreground => compute (.error (.sessionProcessAdminOutsideProcess keyword))

/-! ## Types -/

def typeSlot (slots : Slots) (name : String) : Except RuntimeError Value :=
  match slots name with
  | none => .error (.undefinedVariable name)
  | some value =>
    match unwrapTypeValue value with
    | some schema => .ok schema
    | none => .error (.typeError s!"`{name}` is not a Type value (missing `{lashTypeKey}`)")

mutual
def evalType (slots : Slots) : TypeExpr → Except RuntimeError Value
  | .ref name => typeSlot slots name
  | .list item => (evalType slots item).map arraySchema
  | .object fields => (evalTypeFields slots fields).map fun properties =>
    objectSchema (Record.ofEntries properties) (requiredNames fields)
  | .union variants => (evalTypes slots variants).map unionSchema
  | ty => .ok ((foldTypeExpr noConsts ty).getD anySchema)
def evalTypes (slots : Slots) : List TypeExpr → Except RuntimeError (List Value)
  | [] => .ok []
  | ty :: rest => do
      let value ← evalType slots ty
      let values ← evalTypes slots rest
      .ok (value :: values)
def evalTypeFields (slots : Slots) :
    List (TypeField TypeExpr) → Except RuntimeError (List (String × Value))
  | [] => .ok []
  | ⟨name, ty, _⟩ :: rest => do
      let value ← evalType slots ty
      let values ← evalTypeFields slots rest
      .ok ((name, value) :: values)
end

/-! ## Operands -/

def rangeValues (values : List Value) : Except RuntimeError (List Value) :=
  (rangeBounds values).map fun bounds =>
    rangeItems bounds.start.toInt bounds.stop.toInt bounds.step.toInt

/-- A step for each of the values in turn. -/
def forEach (f : Value → Value → Eval Value) : List Value → Value → Eval Value
  | [], acc => pure acc
  | value :: rest, acc => do
      let acc ← f value acc
      forEach f rest acc

mutual
def evalOperand (env : Environment) (cx : CompileContext) (slots : Slots) : Expr → Eval Value
  | .null => pure .null
  | .bool value => pure (.bool value)
  | .number value => pure (.number value)
  | .string value => pure (.string value)
  | .variable name => loadSlot slots name
  | .processRef process => pure (processRefValue cx process)
  | .resourceRef resource => pure (.resource ⟨resource.resourceType, resource.aliasName⟩)
  | .tuple items => do
      let values ← evalAll env cx slots items
      pure (.tuple values)
  | .list items => do
      let values ← evalAll env cx slots items
      pure (.list values)
  | .record entries => do
      let values ← evalEntries env cx slots entries
      pure (.record (buildRecord (entries.map Prod.fst) values))
  | .listComprehension element clauses =>
    evalClauses env cx (fun slots acc => do
      let item ← evalOperand env cx slots element
      compute (executePushBuiltin acc item)) clauses slots (.list [])
  | .ifElse condition thenBlock elseBlock => do
      let value ← evalOperand env cx slots condition
      if isTruthy value then evalOperand env cx slots thenBlock
      else evalOperand env cx slots elseBlock
  | .startProcess process args => do
      let values ← evalEntries env cx slots args
      startOperation env process (args.map Prod.fst) cx.tracked values
  | .hostDescriptorConstructor typeName input => do
      let value ← evalOperand env cx slots input
      pure (.record [(lashHostDescriptorTypeKey, .string typeName),
        (lashHostDescriptorValueKey, value)])
  | .receiverCall receiver operation args => do
      let receiver ← evalOperand env cx slots receiver
      let values ← evalAll env cx slots args
      callOperation env operation false (receiver :: values)
  | .await handle => evalAwait env cx slots false (evalOperand env cx slots handle) handle
  | .sleepFor duration => do
      let value ← evalOperand env cx slots duration
      let _ ← requestOperation env (.sleep .forDuration value) "sleep" "sleep failed"
      pure .null
  | .sleepUntil deadline => do
      let value ← evalOperand env cx slots deadline
      let _ ← requestOperation env (.sleep .untilDeadline value) "sleep" "sleep failed"
      pure .null
  | .waitSignal name => inProcessOnly env "wait_signal"
      (requestOperation env (.waitSignal name) "wait_signal" "wait_signal failed")
  | .signalRun run name payload => do
      let run ← evalOperand env cx slots run
      let payload ← evalOperand env cx slots payload
      let _ ← requestOperation env (.signalRun run name payload) "signal_run" "signal_run failed"
      pure .null
  | .resultUnwrap (.await handle) =>
    evalAwait env cx slots true (evalOperand env cx slots handle) handle
  | .resultUnwrap (.receiverCall receiver operation args) => do
      let receiver ← evalOperand env cx slots receiver
      let values ← evalAll env cx slots args
      callOperation env operation true (receiver :: values)
  | .resultUnwrap inner => do
      let value ← evalOperand env cx slots inner
      compute (unwrapToolResult value)
  | .builtinCall "format" (.string template :: valueArgs) => do
      let values ← evalAll env cx slots valueArgs
      compute (executeCompiledFormat (compileFormatTemplate template valueArgs.length) values)
  | .builtinCall "validate" [value, schema] => do
      let value ← evalOperand env cx slots value
      let schema ← evalOperand env cx slots schema
      compute (executeValidate env.builtins value schema)
  | .builtinCall name args => do
      let values ← evalAll env cx slots args
      compute (executeIntrinsic env.builtins (resolveIntrinsic name args.length) values)
  | .field target name => do
      let value ← evalOperand env cx slots target
      compute (readField value name)
  | .index target index => do
      let target ← evalOperand env cx slots target
      let index ← evalOperand env cx slots index
      compute (readIndex target index)
  | .unary op e => do
      let value ← evalOperand env cx slots e
      compute (evalUnary op value)
  | .binary left .and right => do
      let value ← evalOperand env cx slots left
      if isTruthy value then do
        let value ← evalOperand env cx slots right
        pure (.bool (isTruthy value))
      else pure (.bool false)
  | .binary left .or right => do
      let value ← evalOperand env cx slots left
      if isTruthy value then pure (.bool true)
      else do
        let value ← evalOperand env cx slots right
        pure (.bool (isTruthy value))
  | .binary left op right => do
      let left ← evalOperand env cx slots left
      let right ← evalOperand env cx slots right
      compute (binaryInstruction op left right)
  | .typeLiteral ty => do
      let schema ← compute (evalType slots ty)
      pure (wrapTypeSchemaValue schema)
  | _ => pure .null
def evalAll (env : Environment) (cx : CompileContext) (slots : Slots) :
    List Expr → Eval (List Value)
  | [] => pure []
  | e :: rest => do
      let value ← evalOperand env cx slots e
      let values ← evalAll env cx slots rest
      pure (value :: values)
def evalEntries (env : Environment) (cx : CompileContext) (slots : Slots) :
    List (String × Expr) → Eval (List Value)
  | [] => pure []
  | (_, e) :: rest => do
      let value ← evalOperand env cx slots e
      let values ← evalEntries env cx slots rest
      pure (value :: values)
/-- The clauses of a comprehension, from the outside in; `element` adds an item to the list. -/
def evalClauses (env : Environment) (cx : CompileContext) (element : Slots → Value → Eval Value) :
    List (ListComprehensionClause Expr) → Slots → Value → Eval Value
  | [], slots, acc => element slots acc
  | .each binding iterable :: rest, slots, acc => do
      let values ← evalIterable env cx slots (evalOperand env cx slots iterable) iterable
      forEach (fun value acc => evalClauses env cx element rest
        (setSlot slots binding (some value)) acc) values acc
  | .test condition :: rest, slots, acc => do
      let value ← evalOperand env cx slots condition
      if isTruthy value then evalClauses env cx element rest slots acc else pure acc
/-- The values a loop goes through. A call of `range` is not made a list first. -/
def evalIterable (env : Environment) (cx : CompileContext) (slots : Slots) (whole : Eval Value) :
    Expr → Eval (List Value)
  | .builtinCall name args =>
    if name = "range" then do
      let values ← evalAll env cx slots args
      compute (rangeValues values)
    else do
      let value ← whole
      compute (iterableValues value)
  | _ => do
      let value ← whole
      compute (iterableValues value)
def evalAwait (env : Environment) (cx : CompileContext) (slots : Slots) (unwrap : Bool)
    (whole : Eval Value) : Expr → Eval Value
  | .receiverCall receiver operation args => do
      let receiver ← evalOperand env cx slots receiver
      let values ← evalAll env cx slots args
      callOperation env operation unwrap (receiver :: values)
  | .resultUnwrap (.receiverCall receiver operation args) => do
      let receiver ← evalOperand env cx slots receiver
      let values ← evalAll env cx slots args
      callOperation env operation true (receiver :: values)
  | .resultUnwrap inner => do
      let value ← evalOperand env cx slots inner
      awaitOperation env true value
  | .tuple items =>
    if awaitsAggregate (.tuple items) then do
      let values ← evalShapes env cx slots items
      batchOperation env (awaitBatch (.tuple items) unwrap) values
    else whole >>= awaitOperation env unwrap
  | .list items =>
    if awaitsAggregate (.list items) then do
      let values ← evalShapes env cx slots items
      batchOperation env (awaitBatch (.list items) unwrap) values
    else whole >>= awaitOperation env unwrap
  | .record entries =>
    if awaitsAggregate (.record entries) then do
      let values ← evalEntryShapes env cx slots entries
      batchOperation env (awaitBatch (.record entries) unwrap) values
    else whole >>= awaitOperation env unwrap
  | _ => whole >>= awaitOperation env unwrap
/-- The values of an awaited aggregate, in the order in which its shape counts them. -/
def evalShape (env : Environment) (cx : CompileContext) (slots : Slots) (whole : Eval Value) :
    Expr → Eval (List Value)
  | .receiverCall receiver _ args | .resultUnwrap (.receiverCall receiver _ args) => do
      let receiver ← evalOperand env cx slots receiver
      let values ← evalAll env cx slots args
      pure (receiver :: values)
  | .tuple items | .list items => evalShapes env cx slots items
  | .record entries => evalEntryShapes env cx slots entries
  | _ => do
      let value ← whole
      pure [value]
def evalShapes (env : Environment) (cx : CompileContext) (slots : Slots) :
    List Expr → Eval (List Value)
  | [] => pure []
  | e :: rest => do
      let values ← evalShape env cx slots (evalOperand env cx slots e) e
      let others ← evalShapes env cx slots rest
      pure (values ++ others)
def evalEntryShapes (env : Environment) (cx : CompileContext) (slots : Slots) :
    List (String × Expr) → Eval (List Value)
  | [] => pure []
  | (_, e) :: rest => do
      let values ← evalShape env cx slots (evalOperand env cx slots e) e
      let others ← evalEntryShapes env cx slots rest
      pure (values ++ others)
end

end ScriptEvaluation
