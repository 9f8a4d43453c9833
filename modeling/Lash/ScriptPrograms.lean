import Lash.ScriptTypes

/-!
# Programs and their processes

A program is a list of declarations and a main expression. The spans kept with it are
those that the errors of the linker name.
-/

namespace ScriptPrograms

open ScriptSyntax

structure Span where
  start : Nat
  stop : Nat
deriving DecidableEq

structure TypeDecl where
  name : String
  ty : TypeExpr

structure ProcessParam where
  name : String
  ty : TypeExpr

structure ProcessSignalDecl where
  name : String
  ty : TypeExpr

structure ProcessDecl where
  name : String
  params : List ProcessParam
  signals : List ProcessSignalDecl
  returnTy : Option TypeExpr
  label : Option LabelMetadata
  body : Expr

inductive Declaration where
  | type (decl : TypeDecl)
  | process (decl : ProcessDecl)

structure Program where
  declarations : List Declaration
  main : Expr
  declarationSpans : List Span
  expressionSpans : List Span

def processNamed (declarations : List Declaration) (name : String) : Option ProcessDecl :=
  declarations.findSome? fun declaration =>
    match declaration with
    | .process decl => if decl.name = name then some decl else none
    | .type _ => none

def Program.process (program : Program) (name : String) : Option ProcessDecl :=
  processNamed program.declarations name

def processInputRecordType (process : ProcessDecl) : TypeExpr :=
  .object (process.params.map fun param => ⟨param.name, param.ty, false⟩)

def processInputType (process : ProcessDecl) : TypeExpr :=
  match process.params with
  | [] => .null
  | [param] => param.ty
  | _ => processInputRecordType process

def processTypeForDecl (process : ProcessDecl) (output : TypeExpr) : TypeExpr :=
  .process (processInputType process) output process.params.length

/-! ## Paths and labels in expressions -/

def modulePathForExpr : Expr → Option (List String)
  | .labelAnnotated _ e => modulePathForExpr e
  | .variable name => some [name]
  | .field target name => (modulePathForExpr target).map (· ++ [name])
  | .resourceRef resource => some resource.path
  | _ => none

def isTriggerEventExpr (e : Expr) : Bool := modulePathForExpr e == some ["trigger", "event"]

def isTriggerEventProjectionExpr (e : Expr) : Bool :=
  match modulePathForExpr e with
  | some ("trigger" :: "event" :: _ :: _) => true
  | _ => false

def exprHasLabelAnnotation : Expr → Bool := Expr.any isLabel

/-! ## Calls of the trigger module -/

inductive TriggerHostOperation where
  | register | list | cancel
deriving DecidableEq

def TriggerHostOperation.receiverMethod : TriggerHostOperation → String
  | .register => "register"
  | .list => "list"
  | .cancel => "cancel"

def TriggerHostOperation.ofReceiverMethod (method : String) : Option TriggerHostOperation :=
  [.register, .list, .cancel].find? fun operation => operation.receiverMethod == method

def TriggerHostOperation.outputTy : TriggerHostOperation → TypeExpr
  | .register => .triggerHandle .any
  | .list => .list (.ref "TriggerRegistration")
  | .cancel => .bool

def isTriggerResourceType (resourceType : String) : Bool := resourceType == "Triggers"

def lashTriggerEventKey : String := "$lash.trigger.event"

def triggerEventPlaceholderExpr : Expr := .record [(lashTriggerEventKey, .bool true)]

variable (entries : List (String × Expr))

def requiredEntry (name : String) : Option Expr :=
  (entries.find? fun entry => entry.1 == name).map Prod.snd

def triggerTargetProcessName : Expr → Option String
  | .labelAnnotated _ e => triggerTargetProcessName e
  | .variable name | .processRef name => some name
  | _ => none

def triggerTargetProcessLabel (e : Expr) : String := (triggerTargetProcessName e).getD "target"

/-- The source's `register_call_args`: the three entries it needs are there. -/
def isRegisterCall : Bool :=
  ["source", "target", "inputs"].all fun name => (requiredEntry entries name).isSome

def isListCall : Bool :=
  entries.all fun entry => ["target", "name", "source_type", "enabled"].contains entry.1

def isCancelCall : Bool :=
  (requiredEntry entries "handle").isSome

end ScriptPrograms
