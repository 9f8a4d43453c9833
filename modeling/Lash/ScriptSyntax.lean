import Lash.ScriptBuiltins

/-!
# The syntax tree of the script language

Programs as the parser gives them: declarations and a main expression. Spans and
source positions are left out.
-/

namespace ScriptSyntax

open ScriptNumbers ScriptOps

structure TypeField (T : Type) where
  name : String
  ty : T
  optional : Bool

inductive TypeExpr where
  | any | str | int | float | bool | dict | null
  | enum (values : List String)
  | list (item : TypeExpr)
  | object (fields : List (TypeField TypeExpr))
  | ref (name : String)
  | process (input output : TypeExpr) (inputCount : Nat)
  | triggerHandle (event : TypeExpr)
  | union (variants : List TypeExpr)

structure LabelMetadata where
  title : String
  description : Option String
deriving DecidableEq

structure ResourceRef where
  path : List String
  resourceType : String
  aliasName : String
deriving DecidableEq

inductive AssignPathStep (E : Type) where
  | field (name : String)
  | index (index : E)

inductive ListComprehensionClause (E : Type) where
  | each (binding : String) (iterable : E)
  | test (condition : E)

inductive Expr where
  | block (expressions : List Expr)
  | labelAnnotated (label : LabelMetadata) (expr : Expr)
  | null
  | bool (value : Bool)
  | number (value : Float)
  | string (value : String)
  | variable (name : String)
  | tuple (items : List Expr)
  | list (items : List Expr)
  | listComprehension (element : Expr) (clauses : List (ListComprehensionClause Expr))
  | record (entries : List (String × Expr))
  | assign (root : String) (steps : List (AssignPathStep Expr)) (expr : Expr)
  | ifElse (condition thenBlock elseBlock : Expr)
  | forIn (binding : String) (iterable body : Expr)
  | whileDo (condition body : Expr)
  | breakLoop
  | continueLoop
  | startProcess (process : String) (args : List (String × Expr))
  | processRef (process : String)
  | hostDescriptorConstructor (typeName : String) (input : Expr)
  | resourceRef (resource : ResourceRef)
  | receiverCall (receiver : Expr) (operation : String) (args : List Expr)
  | await (handle : Expr)
  | sleepFor (duration : Expr)
  | sleepUntil (deadline : Expr)
  | waitSignal (name : String)
  | signalRun (run : Expr) (name : String) (payload : Expr)
  | resultUnwrap (expr : Expr)
  | cancel (handle : Expr)
  | print (expr : Expr)
  | yieldEvent (value : Expr)
  | wake (value : Expr)
  | finish (value : Expr)
  | fail (value : Expr)
  | builtinCall (name : String) (args : List Expr)
  | field (target : Expr) (name : String)
  | index (target index : Expr)
  | unary (op : UnaryOp) (expr : Expr)
  | binary (left : Expr) (op : BinaryOp) (right : Expr)
  | typeLiteral (ty : TypeExpr)

/-! ## Equality of trees -/

mutual
def TypeExpr.same : TypeExpr → TypeExpr → Bool
  | .any, .any | .str, .str | .int, .int | .float, .float | .bool, .bool | .dict, .dict
  | .null, .null => true
  | .enum as, .enum bs => as == bs
  | .list a, .list b | .triggerHandle a, .triggerHandle b => a.same b
  | .object as, .object bs => sameFields as bs
  | .ref a, .ref b => a == b
  | .process a b n, .process c d m => a.same c && b.same d && n == m
  | .union as, .union bs => sameTypes as bs
  | _, _ => false
def sameTypes : List TypeExpr → List TypeExpr → Bool
  | [], [] => true
  | a :: as, b :: bs => a.same b && sameTypes as bs
  | _, _ => false
def sameFields : List (TypeField TypeExpr) → List (TypeField TypeExpr) → Bool
  | [], [] => true
  | ⟨n, a, o⟩ :: as, ⟨m, b, p⟩ :: bs => n == m && o == p && a.same b && sameFields as bs
  | _, _ => false
end

mutual
/-- The source's `PartialEq` of expressions: number literals compare as doubles do. -/
def Expr.same : Expr → Expr → Bool
  | .block as, .block bs | .tuple as, .tuple bs | .list as, .list bs => sameExprs as bs
  | .labelAnnotated l a, .labelAnnotated k b => l == k && a.same b
  | .null, .null | .breakLoop, .breakLoop | .continueLoop, .continueLoop => true
  | .bool a, .bool b => a == b
  | .number a, .number b => a == b
  | .string a, .string b | .variable a, .variable b | .processRef a, .processRef b
  | .waitSignal a, .waitSignal b => a == b
  | .listComprehension a as, .listComprehension b bs => a.same b && sameClauses as bs
  | .record as, .record bs => sameEntries as bs
  | .assign r as a, .assign t bs b => r == t && sameSteps as bs && a.same b
  | .ifElse a b c, .ifElse d e f => a.same d && b.same e && c.same f
  | .forIn x a b, .forIn y c d => x == y && a.same c && b.same d
  | .whileDo a b, .whileDo c d | .index a b, .index c d => a.same c && b.same d
  | .startProcess p as, .startProcess q bs => p == q && sameEntries as bs
  | .hostDescriptorConstructor t a, .hostDescriptorConstructor u b => t == u && a.same b
  | .resourceRef a, .resourceRef b => a == b
  | .receiverCall a o as, .receiverCall b p bs => a.same b && o == p && sameExprs as bs
  | .await a, .await b | .sleepFor a, .sleepFor b | .sleepUntil a, .sleepUntil b
  | .resultUnwrap a, .resultUnwrap b | .cancel a, .cancel b | .print a, .print b
  | .yieldEvent a, .yieldEvent b | .wake a, .wake b | .finish a, .finish b
  | .fail a, .fail b => a.same b
  | .signalRun a n b, .signalRun c m d => a.same c && n == m && b.same d
  | .builtinCall n as, .builtinCall m bs => n == m && sameExprs as bs
  | .field a n, .field b m => a.same b && n == m
  | .unary o a, .unary p b => o == p && a.same b
  | .binary a o b, .binary c p d => a.same c && o == p && b.same d
  | .typeLiteral a, .typeLiteral b => a.same b
  | _, _ => false
def sameExprs : List Expr → List Expr → Bool
  | [], [] => true
  | a :: as, b :: bs => a.same b && sameExprs as bs
  | _, _ => false
def sameEntries : List (String × Expr) → List (String × Expr) → Bool
  | [], [] => true
  | (k, a) :: as, (l, b) :: bs => k == l && a.same b && sameEntries as bs
  | _, _ => false
def sameSteps : List (AssignPathStep Expr) → List (AssignPathStep Expr) → Bool
  | [], [] => true
  | .field n :: as, .field m :: bs => n == m && sameSteps as bs
  | .index a :: as, .index b :: bs => a.same b && sameSteps as bs
  | _, _ => false
def sameClauses : List (ListComprehensionClause Expr) → List (ListComprehensionClause Expr) → Bool
  | [], [] => true
  | .each x a :: as, .each y b :: bs => x == y && a.same b && sameClauses as bs
  | .test a :: as, .test b :: bs => a.same b && sameClauses as bs
  | _, _ => false
end

/-! ## What the parser makes of expressions and statements -/

mutual
/-- The source's `parse_expr` and what the linker makes of it: no statement stands inside. A
number literal has no sign. -/
def isOperand : Expr → Bool
  | .number value => !isNegative value
  | .null | .bool _ | .string _ | .variable _ | .processRef _ | .resourceRef _
  | .waitSignal _ | .typeLiteral _ => true
  | .tuple es | .list es | .builtinCall _ es => allOperands es
  | .listComprehension element clauses => clauseOperands clauses && isOperand element
  | .record entries | .startProcess _ entries => entryOperands entries
  | .ifElse c t e => isOperand c && isOperand t && isOperand e
  | .receiverCall r _ args => isOperand r && allOperands args
  | .signalRun a _ b | .index a b | .binary a _ b => isOperand a && isOperand b
  | .hostDescriptorConstructor _ e | .await e | .sleepFor e | .sleepUntil e | .resultUnwrap e
  | .field e _ | .unary _ e => isOperand e
  | .block _ | .labelAnnotated _ _ | .assign _ _ _ | .forIn _ _ _ | .whileDo _ _ | .breakLoop
  | .continueLoop | .cancel _ | .print _ | .yieldEvent _ | .wake _ | .finish _ | .fail _ => false
def allOperands : List Expr → Bool
  | [] => true
  | e :: rest => isOperand e && allOperands rest
def entryOperands : List (String × Expr) → Bool
  | [] => true
  | (_, e) :: rest => isOperand e && entryOperands rest
def clauseOperands : List (ListComprehensionClause Expr) → Bool
  | [] => true
  | .each _ e :: rest | .test e :: rest => isOperand e && clauseOperands rest
end

def stepOperands : List (AssignPathStep Expr) → Bool
  | [] => true
  | .field _ :: rest => stepOperands rest
  | .index e :: rest => isOperand e && stepOperands rest

mutual
/-- The source's `parse_statement_expr` and `parse_block`, inside a loop or not. -/
def isStatement (inLoop : Bool) : Expr → Bool
  | .block es => allStatements inLoop es
  | .labelAnnotated _ e => isStatement inLoop e
  | .assign _ steps e => stepOperands steps && isOperand e
  | .ifElse c t e => isOperand c && isStatement inLoop t && isStatement inLoop e
  | .forIn _ iterable body => isOperand iterable && isStatement true body
  | .whileDo c body => isOperand c && isStatement true body
  | .breakLoop | .continueLoop => inLoop
  | .cancel e | .print e | .yieldEvent e | .wake e | .finish e | .fail e => isOperand e
  | e => isOperand e
def allStatements (inLoop : Bool) : List Expr → Bool
  | [] => true
  | e :: rest => isStatement inLoop e && allStatements inLoop rest
end

/-! ## What the compiler asks of an expression -/

def isLabel : Expr → Bool
  | .labelAnnotated _ _ => true
  | _ => false

mutual
/-- Whether an expression or one inside it is such. -/
def Expr.any (p : Expr → Bool) (e : Expr) : Bool :=
  p e || match e with
    | .block es | .tuple es | .list es | .builtinCall _ es => anyOf p es
    | .listComprehension element clauses => anyClause p clauses || element.any p
    | .record entries | .startProcess _ entries => anyEntry p entries
    | .assign _ steps e => anyStep p steps || e.any p
    | .ifElse c t e => c.any p || t.any p || e.any p
    | .forIn _ a b | .whileDo a b | .signalRun a _ b | .index a b | .binary a _ b =>
      a.any p || b.any p
    | .receiverCall r _ args => r.any p || anyOf p args
    | .labelAnnotated _ e | .hostDescriptorConstructor _ e | .await e | .sleepFor e
    | .sleepUntil e | .resultUnwrap e | .cancel e | .print e | .yieldEvent e | .wake e
    | .finish e | .fail e | .field e _ | .unary _ e => e.any p
    | .null | .bool _ | .number _ | .string _ | .variable _ | .breakLoop | .continueLoop
    | .processRef _ | .resourceRef _ | .waitSignal _ | .typeLiteral _ => false
def anyOf (p : Expr → Bool) : List Expr → Bool
  | [] => false
  | e :: rest => e.any p || anyOf p rest
def anyEntry (p : Expr → Bool) : List (String × Expr) → Bool
  | [] => false
  | (_, e) :: rest => e.any p || anyEntry p rest
def anyStep (p : Expr → Bool) : List (AssignPathStep Expr) → Bool
  | [] => false
  | .field _ :: rest => anyStep p rest
  | .index e :: rest => e.any p || anyStep p rest
def anyClause (p : Expr → Bool) : List (ListComprehensionClause Expr) → Bool
  | [] => false
  | .each _ e :: rest | .test e :: rest => e.any p || anyClause p rest
end

def containsTypeLiteral : Expr → Bool :=
  Expr.any fun e => e matches .typeLiteral _

mutual
/-- Whether a type is built without looking a name up. -/
def TypeExpr.isClosed : TypeExpr → Bool
  | .ref _ => false
  | .list item => item.isClosed
  | .object fields => closedFields fields
  | .union variants => closedAll variants
  | _ => true
def closedFields : List (TypeField TypeExpr) → Bool
  | [] => true
  | ⟨_, ty, _⟩ :: rest => ty.isClosed && closedFields rest
def closedAll : List TypeExpr → Bool
  | [] => true
  | ty :: rest => ty.isClosed && closedAll rest
end

mutual
def isPureExpr : Expr → Bool
  | .labelAnnotated _ e | .resultUnwrap e | .hostDescriptorConstructor _ e | .field e _
  | .unary _ e => isPureExpr e
  | .null | .bool _ | .number _ | .string _ | .variable _ | .processRef _ | .resourceRef _ => true
  | .tuple es | .list es | .builtinCall _ es => allPure es
  | .record entries => entriesPure entries
  | .index a b | .binary a _ b => isPureExpr a && isPureExpr b
  | .ifElse c t e => isPureExpr c && isPureExpr t && isPureExpr e
  | .typeLiteral ty => ty.isClosed
  | _ => false
def allPure : List Expr → Bool
  | [] => true
  | e :: rest => isPureExpr e && allPure rest
def entriesPure : List (String × Expr) → Bool
  | [] => true
  | (_, e) :: rest => isPureExpr e && entriesPure rest
end

def labelAttachesToAssignmentValue : Expr → Bool
  | .await e | .resultUnwrap e => labelAttachesToAssignmentValue e
  | .receiverCall _ _ _ | .startProcess _ _ | .sleepFor _ | .sleepUntil _ | .waitSignal _
  | .signalRun _ _ _ | .yieldEvent _ | .wake _ | .finish _ | .fail _ | .ifElse _ _ _ => true
  | _ => false

def labelAttachesToConcreteNode : Expr → Bool
  | .assign _ _ e => labelAttachesToAssignmentValue e
  | .await e | .resultUnwrap e => labelAttachesToConcreteNode e
  | .receiverCall _ _ _ | .startProcess _ _ | .sleepFor _ | .sleepUntil _ | .waitSignal _
  | .signalRun _ _ _ | .yieldEvent _ | .wake _ | .finish _ | .fail _ | .ifElse _ _ _ => true
  | _ => false

/-- The source's `expr_supports_forced_effect_site`. -/
def supportsForcedEffectSite : Expr → Bool
  | .receiverCall _ _ _ | .await _ | .resultUnwrap (.receiverCall _ _ _)
  | .resultUnwrap (.await _) => true
  | _ => false

def labelsForcedAssign : Expr → Bool
  | .assign _ _ e => supportsForcedEffectSite e
  | _ => false

mutual
/-- Whether a labelled call or await stands where its value is dropped. -/
def dropsLabelled (dropped : Bool) : Expr → Bool
  | .labelAnnotated _ e => (dropped && supportsForcedEffectSite e) || dropsLabelled dropped e
  | .block es => blockDropsLabelled dropped es
  | .ifElse _ t e => dropsLabelled false t || dropsLabelled false e
  | .forIn _ _ body | .whileDo _ body => dropsLabelled true body
  | _ => false
def blockDropsLabelled (dropped : Bool) : List Expr → Bool
  | [] => false
  | [e] => dropsLabelled dropped e
  | e :: rest => dropsLabelled true e || blockDropsLabelled dropped rest
end

def isTerminalExpr : Expr → Bool
  | .labelAnnotated _ e => isTerminalExpr e
  | .finish _ | .fail _ => true
  | .block es => terminalLast es
  | .ifElse _ t e => isTerminalExpr t && isTerminalExpr e
  | _ => false
where
  terminalLast : List Expr → Bool
    | [] => false
    | [e] => isTerminalExpr e
    | _ :: rest => terminalLast rest

mutual
/-- How many calls of resources an awaited value holds. There is no answer where it holds
something else that has an effect. -/
def aggregateAwaitLeafCount : Expr → Option Nat
  | .receiverCall _ _ _ | .resultUnwrap (.receiverCall _ _ _) => some 1
  | .tuple es | .list es => leafCounts es
  | .record entries => entryLeafCounts entries
  | e => if isPureExpr e then some 0 else none
def leafCounts : List Expr → Option Nat
  | [] => some 0
  | e :: rest => do
      let first ← aggregateAwaitLeafCount e
      let others ← leafCounts rest
      some (first + others)
def entryLeafCounts : List (String × Expr) → Option Nat
  | [] => some 0
  | (_, e) :: rest => do
      let first ← aggregateAwaitLeafCount e
      let others ← entryLeafCounts rest
      some (first + others)
end

/-- The source's `aggregate_await_shape_leaf_count`: only tuples, lists and records are awaited
as a whole. -/
def aggregateAwaitShapeLeafCount : Expr → Option Nat
  | .tuple es | .list es => leafCounts es
  | .record entries => entryLeafCounts entries
  | _ => none

def awaitsAggregate (handle : Expr) : Bool :=
  match aggregateAwaitShapeLeafCount handle with
  | some n => n != 0
  | none => false

end ScriptSyntax
