import Lash.ScriptFlows

/-!
# The stack discipline of compiled programs

An operand leaves its value on the stack, a statement whose value is dropped leaves
the stacks as it found them, and no run of a compiled program finds a stack too low.
The exception is a labelled call or await whose value is dropped: its site is kept,
and so is its value.
-/

namespace ScriptDiscipline

open ScriptValues ScriptOps ScriptBuiltins ScriptSyntax ScriptFolding ScriptCompiler
open Instruction
open List Option
open ScriptMachine ScriptStacks ScriptFlows StepMachines

/-- How many values a condition leaves for its jump. -/
def testArity (cx : CompileContext) (κ : Consts) (condition : Expr) : Nat :=
  match condition with
  | .binary left op right =>
    if isComparisonBinaryOp op ∧ (cx.foldedValue κ condition).isNone then
      match slotOperand (cx.foldNumber κ) left right with
      | some _ => 0
      | none => 2
    else 1
  | _ => 1

/-- How many values an expression leaves, by what it is compiled for. -/
def netHeight (cx : CompileContext) (κ : Consts) (e : Expr) : Mode → Nat
  | .value => 1
  | .effect => 0
  | .test => testArity cx κ e

variable {env : Environment} {cx : CompileContext} {inLoop : Bool} {loop a j k q r x : Nat}
variable {κ κ' : Consts} {e : Expr} {mode : Mode} {E F G : Emitter} {i : Instruction}

theorem conditionJump_effect (target : Nat) :
    jumpEffect (conditionJump cx κ e target) = some (testArity cx κ e, target) := by
  cases e with
  | binary left op right =>
    simp only [conditionJump, testArity]
    by_cases h : isComparisonBinaryOp op ∧ (cx.foldedValue κ (.binary left op right)).isNone
    · simp only [if_pos h]
      cases slotOperand (cx.foldNumber κ) left right with
      | none => rfl
      | some operand => cases operand <;> rfl
    · simp only [if_neg h]
      rfl
  | _ => rfl

theorem testArity_folded {value : Value} (h : cx.foldedValue κ e = some value) :
    testArity cx κ e = 1 := by
  cases e with
  | binary left op right => simp [testArity, h]
  | _ => rfl

theorem emitSeq_assoc : emitSeq (emitSeq E F) G = emitSeq E (emitSeq F G) := by
  funext a κ
  simp [emitSeq, Nat.add_assoc]

/-! ## Pieces one after another -/

section Pieces

open Composes

variable {P : Bool → Nat → Nat → Nat → Nat → Code → Prop} [Composes P] {c d : Code}

theorem flow_seq (h : P inLoop loop a j k (E a κ).code)
    (h' : ∀ a κ, P inLoop loop a k r (F a κ).code) :
    P inLoop loop a j r (emitSeq E F a κ).code :=
  append h (h' _ _)

theorem flow_emit (hi : stackEffect i = some (j, k)) : P inLoop loop a j k (emit [i] a κ).code :=
  instruction hi

/-- A first part that leaves one value, and others above it. -/
theorem flow_cons (hc : P false loop a 0 1 c) (hd : P false loop (a + c.length) 0 k d) :
    P false loop a 0 (k + 1) (c ++ d) := by
  rw [Nat.add_comm]
  exact append hc (frame 1 hd)

/-- An instruction applied to what a piece of code leaves above `x` values. -/
theorem flow_built (hc : P false loop a 0 k c) (x : Nat) (hi : stackEffect i = some (k, 1)) :
    P false loop a x (x + 1) (c ++ [i]) :=
  append (frame x hc) (frame x (instruction hi))

theorem flow_nothing : P inLoop loop a k k (emitNothing a κ).code := Composes.nil

theorem flow_updateConsts {f : Consts → Consts} : P inLoop loop a k k (updateConsts f a κ).code :=
  Composes.nil

theorem flow_logical {early : Bool} {earlyStart : Nat} {jump : Nat → Instruction}
    (hearly : earlyStart = a + c.length + 1 + d.length + 2)
    (hjump : jumpEffect (jump earlyStart) = some (1, earlyStart))
    (hc : P false loop a 0 1 c) (hd : P false loop (a + c.length + 1) 0 1 d) :
    P inLoop loop a 0 1 (c ++ jump earlyStart ::
      (d ++ [toBool, .jump (earlyStart + 1), .pushConst (.bool early)])) := by
  have hright : P inLoop loop (a + c.length + 1) 0 1 (d ++ [toBool]) :=
    append (weaken hd) (instruction rfl)
  have hpush : P inLoop loop earlyStart 0 1 [.pushConst (.bool early)] := instruction rfl
  have hstart : earlyStart = a + c.length + 1 + (d ++ [toBool]).length + 1 := by
    simp only [length_append, length_cons, length_nil]
    omega
  have hif := branch hstart hjump hc hright hpush
  simpa using hif

/-- Heights that do not matter. -/
def Loose (P : Bool → Nat → Nat → Nat → Nat → Code → Prop) : Prop :=
  ∀ {b : Bool} {loop a j k j' k' : Nat} {c : Code}, P b loop a j k c → P b loop a j' k' c

/-! ## Values that are kept or dropped -/

theorem flow_discard (ht : mode = .test → testArity cx κ e = 1) :
    P inLoop loop a 1 (netHeight cx κ e mode) (emitDiscard mode a κ').code := by
  cases mode with
  | value => exact Composes.nil
  | effect => exact flow_emit rfl
  | test =>
    rw [netHeight, ht rfl]
    exact Composes.nil

theorem compileExpr_folded {value : Value} (h : cx.foldFor mode κ e = some value) :
    compileExpr cx loop mode e a κ = emitSeq (emit [.pushConst value]) (emitDiscard mode) a κ := by
  rw [compileExpr.eq_def]
  simp only [h]

theorem flow_folded {value : Value} (h : cx.foldFor mode κ e = some value) :
    P inLoop r a 0 (netHeight cx κ e mode) (compileExpr cx loop mode e a κ).code := by
  rw [compileExpr_folded h]
  refine flow_seq (flow_emit rfl) fun a κ' => flow_discard ?_
  rintro rfl
  have hfold : cx.foldedValue κ e = some value := by
    rw [CompileContext.foldFor, if_neg] at h
    · exact h
    · rintro ⟨hmode, -⟩
      cases hmode
  exact testArity_folded hfold

/-- An instruction applied to what stands on the stack, whose result is kept or dropped. -/
theorem flow_apply (hi : stackEffect i = some (q, 1)) (ht : mode = .test → testArity cx κ e = 1) :
    P inLoop loop a q (netHeight cx κ e mode)
      (emitSeq (emit [i]) (emitDiscard mode) a κ').code :=
  flow_seq (flow_emit hi) fun _ _ => flow_discard ht

theorem arities_argc {entry : String × Arity} {argc : Nat} {op : IntrinsicOp}
    (hentry : entry ∈ arities) (haccepts : entry.2.accepts argc = true)
    (hop : intrinsicForBuiltin entry.1 argc = some op) : op.argc = argc := by
  simp only [arities, mem_cons, not_mem_nil, or_false] at hentry
  repeat' rcases hentry with rfl | hentry
  all_goals
    try subst hentry
    simp only [intrinsicForBuiltin, some.injEq] at hop
    subst hop
    simp only [Arity.accepts, beq_iff_eq] at haccepts
    simp only [IntrinsicOp.argc, haccepts]

variable {name : String}

theorem intrinsicForBuiltin_none {argc : Nat} (h : lookupArity name = none) :
    intrinsicForBuiltin name argc = none := by
  unfold intrinsicForBuiltin
  split
  all_goals first
    | rfl
    | exact absurd h (by decide)

/-- The instruction a call of a builtin becomes takes as many values as the call has arguments. -/
theorem resolveIntrinsic_argc (name : String) (argc : Nat) :
    (resolveIntrinsic name argc).argc = argc := by
  cases hlookup : lookupArity name with
  | none =>
    simp only [resolveIntrinsic, hlookup, intrinsicForBuiltin_none hlookup]
    rfl
  | some arity =>
    simp only [resolveIntrinsic, hlookup]
    by_cases haccepts : arity.accepts argc = true
    · rw [if_pos haccepts]
      cases hop : intrinsicForBuiltin name argc with
      | none => rfl
      | some op =>
        obtain ⟨entry, hfind, harity⟩ := map_eq_some_iff.mp hlookup
        have hname : entry.1 = name := by
          simpa using find?_some hfind
        rw [← hname] at hop
        rw [← harity] at haccepts
        exact arities_argc (mem_of_find?_eq_some hfind) haccepts hop
    · rw [if_neg haccepts]
      rfl

theorem compileFormatTemplate_argc (template : String) (argc : Nat) :
    (compileFormatTemplate template argc).argc = argc := by
  unfold compileFormatTemplate
  cases parseFormatTemplate template argc <;> rfl

/-! ## Loops and conditions -/

variable {args whole : Emitter}

omit [Composes P] in
theorem iterable_code (binding : String) {iterable : Expr}
    (hargs : ∀ name items, iterable = .builtinCall name items →
      P false loop a 0 items.length (args a κ).code)
    (hwhole : P false loop a 0 1 (whole a κ).code) :
    ∃ c i q, (emitIterable binding args whole iterable a κ).code = c ++ [i] ∧
      beginEffect i = some q ∧ P false loop a 0 q c := by
  have hplain : ∃ c i q, (emitSeq whole (emit [.beginIter binding]) a κ).code = c ++ [i] ∧
      beginEffect i = some q ∧ P false loop a 0 q c :=
    ⟨_, _, 1, rfl, rfl, hwhole⟩
  cases iterable with
  | builtinCall name items =>
    by_cases hname : name = "range"
    · simp only [emitIterable, if_pos hname]
      exact ⟨_, _, items.length, rfl, rfl, hargs name items rfl⟩
    · simp only [emitIterable, if_neg hname]
      exact hplain
  | _ => exact hplain

theorem flow_iterated {b : Bool} {binding : String} {iterable : Expr} {body : Nat → Emitter}
    (hk : b = true → k = 0) (hargs : ∀ name items, iterable = .builtinCall name items →
      P false loop a 0 items.length (args a κ).code) (hwhole : P false loop a 0 1 (whole a κ).code)
    (hbody : ∀ next a κ, P b next a k k (body next a κ).code) :
    P inLoop loop a k k (emitSeq (emitIterable binding args whole iterable)
      (emitSeq clearConsts (emitIterLoop body)) a κ).code := by
  obtain ⟨c, i, q, hcode, hi, hc⟩ := iterable_code binding hargs hwhole
  have hframe : P inLoop loop a k (q + k) c := by
    rw [Nat.add_comm q k]
    exact weaken (frame k hc)
  have hloop := iteration hi hk rfl hframe
    (hbody (a + c.length + 1) (a + c.length + 1 + 1) noConsts)
  simpa [emitSeq, clearConsts, updateConsts, emitIterLoop, hcode, Nat.add_assoc] using hloop

theorem flow_conditional {condition : Expr} {c t e : Emitter}
    (hc : P false loop a 0 (testArity cx κ condition) (c a κ).code)
    (ht : ∀ a κ, P inLoop loop a 0 k (t a κ).code)
    (he : ∀ a κ, P inLoop loop a 0 k (e a κ).code) :
    P inLoop loop a 0 k (emitIf (fun κ => conditionJump cx κ condition) c t e a κ).code :=
  branch rfl (conditionJump_effect _) hc (ht _ _) (he _ _)

variable {right : Expr}

theorem flow_binaryOperands {left : Expr} {op : BinaryOp} {operands : Emitter}
    (hf : cx.foldFor mode κ (.binary left op right) = none)
    (hop : P false loop a 0 2 (operands a κ).code) :
    P false loop a 0 (netHeight cx κ (.binary left op right) mode)
      (emitSeq (emitBinary cx mode left op right operands) (emitDiscard mode) a κ).code := by
  have hplain : P false loop a 0 1 (emitSeq operands (emit [.binary op]) a κ).code :=
    flow_seq hop fun _ _ => flow_emit rfl
  have hone : ∀ E : Emitter, P false loop a 0 1 (E a κ).code →
      (mode = .test → testArity cx κ (.binary left op right) = 1) →
      P false loop a 0 (netHeight cx κ (.binary left op right) mode)
        (emitSeq E (emitDiscard mode) a κ).code :=
    fun E hE ht => flow_seq hE fun _ _ => flow_discard ht
  have hfold : mode = .test → cx.foldedValue κ (.binary left op right) = none := by
    rintro rfl
    rw [CompileContext.foldFor, if_neg (by simp)] at hf
    exact hf
  by_cases hcompare : isComparisonBinaryOp op = true
  · cases mode with
    | test =>
      have hnet : netHeight cx κ (.binary left op right) .test =
          match slotOperand (cx.foldNumber κ) left right with
          | some _ => 0
          | none => 2 := by
        simp [netHeight, testArity, hcompare, hfold rfl]
      rw [hnet]
      cases hslot : slotOperand (cx.foldNumber κ) left right with
      | none =>
        simpa [emitBinary, hcompare, hslot, emitSeq, emitDiscard, emitNothing, emit] using hop
      | some operand =>
        simpa [emitBinary, hcompare, hslot, emitSeq, emitDiscard, emitNothing, emit]
          using Composes.nil
    | _ =>
      refine hone _ ?_ (by simp)
      cases hslot : slotOperand (cx.foldNumber κ) left right with
      | none => simpa [emitBinary, hcompare, hslot] using hplain
      | some operand =>
        cases operand <;>
          simp only [emitBinary, hcompare, hslot, if_true] <;>
          exact flow_emit rfl
  · refine hone _ ?_ fun _ => by simp [testArity, hcompare]
    by_cases hnumeric : isNumericBinaryOp op = true
    · cases hslot : slotNumber (cx.foldNumber κ) left right with
      | none => simpa [emitBinary, hcompare, hnumeric, hslot] using hplain
      | some operand =>
        simp only [emitBinary, hcompare, hnumeric, hslot, if_true]
        exact flow_emit rfl
    · simpa [emitBinary, hcompare, hnumeric] using hplain

theorem flow_format {template : String} {valueArgs : List Expr}
    (hargs : P false loop a 0 valueArgs.length (args a κ).code) :
    P false loop a 0 1 (emitFormat cx template valueArgs args a κ).code := by
  cases hslot : formatSlot cx κ valueArgs with
  | none =>
    simp only [emitFormat, hslot]
    refine flow_seq hargs fun _ _ => flow_emit ?_
    simp only [stackEffect, compileFormatTemplate_argc]
  | some slot =>
    cases slot <;>
      simp only [emitFormat, hslot] <;>
      exact flow_emit rfl

theorem flow_pushConsts (values : List Value) :
    P false loop a 0 values.length (values.map .pushConst) := by
  induction values generalizing a with
  | nil => exact Composes.nil
  | cons value rest ih =>
    have hfirst : P false loop a 0 1 [.pushConst value] := instruction rfl
    exact flow_cons hfirst ih

theorem flow_required (names : List String) : P false loop a 2 3
      ((names.map fun name => .pushConst (.string name)) ++ [buildList names.length]) := by
  have hpushes : P false loop a 0 (names.map Value.string).length _ :=
    flow_pushConsts (names.map .string)
  rw [List.map_map, List.length_map] at hpushes
  exact flow_built hpushes 2 rfl

mutual
theorem flow_typeExpr (κ : Consts) (ty : TypeExpr) (a : Nat) :
    P false loop a 0 1 (compileTypeExpr κ ty) := by
  cases ty with
  | ref name =>
    rw [compileTypeExpr]
    cases foldTypeExpr κ (.ref name) <;> exact instruction rfl
  | list item =>
    rw [compileTypeExpr]
    cases foldTypeExpr κ (.list item) with
    | some value => exact instruction rfl
    | none =>
      have hkind : P false loop a 0 1 [.pushConst (.string "array")] := instruction rfl
      exact append (flow_cons hkind (flow_typeExpr κ item (a + 1))) (instruction rfl)
  | object fields =>
    rw [compileTypeExpr]
    cases foldTypeExpr κ (.object fields) with
    | some value => exact instruction rfl
    | none =>
      have hkind : P false loop a 0 1 [.pushConst (.string "object")] := instruction rfl
      have hfields : P false loop (a + 1) 1 2
          (compileTypeFields κ fields ++
            [Instruction.buildRecord (fields.map TypeField.name)]) := by
        refine flow_built (flow_typeFields κ fields (a + 1)) 1 ?_
        simp only [stackEffect, length_map]
      have hflag : ∀ a, P false loop a 0 1 [.pushConst (.bool false)] :=
        fun _ => instruction rfl
      have hbuild : ∀ a, P false loop a 4 1
          [.buildRecord ["type", "properties", "required", "additionalProperties"]] :=
        fun _ => instruction rfl
      have hobject := append (append (append (append hkind hfields)
        (flow_required (requiredNames fields))) (frame 3 (hflag _))) (hbuild _)
      simpa using hobject
  | union variants =>
    rw [compileTypeExpr]
    cases foldTypeExpr κ (.union variants) with
    | some value => exact instruction rfl
    | none =>
      have hlist := flow_built (flow_typeExprs κ variants a) 0
        (show stackEffect (.buildList variants.length) = _ from rfl)
      rw [append_cons]
      exact append hlist (instruction rfl)
  | _ => rw [compileTypeExpr.eq_def]; exact instruction rfl
theorem flow_typeExprs (κ : Consts) (tys : List TypeExpr) (a : Nat) :
    P false loop a 0 tys.length (compileTypeExprs κ tys) := by
  cases tys with
  | nil => exact Composes.nil
  | cons ty rest => exact flow_cons (flow_typeExpr κ ty a) (flow_typeExprs κ rest _)
theorem flow_typeFields (κ : Consts) (fields : List (TypeField TypeExpr)) (a : Nat) :
    P false loop a 0 fields.length (compileTypeFields κ fields) := by
  cases fields with
  | nil => exact Composes.nil
  | cons field rest => exact flow_cons (flow_typeExpr κ field.ty a) (flow_typeFields κ rest _)
end

theorem flow_typeLiteral (cx : CompileContext) (κ : Consts) (ty : TypeExpr) :
    P false loop a 0 1 (compileTypeLiteral cx κ ty) := by
  unfold compileTypeLiteral
  cases cx.foldType κ ty with
  | some schema => exact instruction rfl
  | none => exact append (flow_typeExpr (cx.known κ) ty a) (instruction rfl)

theorem stackEffect_call (operation : String) (argc : Nat) (unwrap : Bool) :
    stackEffect (callInstruction operation argc unwrap) = some (argc + 1, 1) := by
  cases unwrap <;> rfl

theorem stackEffect_await (unwrap : Bool) :
    stackEffect (awaitInstruction unwrap) = some (1, 1) := by
  cases unwrap <;> rfl

/-- An operand and those after it. -/
theorem flow_next (hE : P false loop a 0 1 (E a κ).code)
    (hF : ∀ a κ, P false loop a 0 k (F a κ).code) :
    P false loop a 0 (k + 1) (emitSeq E F a κ).code :=
  flow_cons hE (hF _ _)

/-- An operand, those after it, and the instruction that takes them all. -/
theorem flow_operands (hE : P false loop a 0 1 (E a κ).code)
    (hF : ∀ a κ, P false loop a 0 k (F a κ).code) (hi : stackEffect i = some (k + 1, 1))
    (ht : mode = .test → testArity cx κ' e = 1) :
    P false loop a 0 (netHeight cx κ' e mode)
      (emitSeq E (emitSeq F (emitSeq (emit [i]) (emitDiscard mode))) a κ).code := by
  rw [← emitSeq_assoc]
  exact flow_seq (flow_next hE hF) fun _ _ => flow_apply hi ht

theorem flow_all {es : List Expr}
    (heach : ∀ e ∈ es, ∀ a κ, P false loop a 0 1 (compileExpr cx r .value e a κ).code) :
    P false loop a 0 es.length (compileAll cx r es a κ).code := by
  induction es generalizing a κ with
  | nil => exact flow_nothing
  | cons e rest ih =>
    obtain ⟨hfirst, hrest⟩ := forall_mem_cons.mp heach
    exact flow_next (hfirst a κ) fun _ _ => ih hrest

theorem compile_binary {left : Expr} {op : BinaryOp} (hand : op ≠ .and) (hor : op ≠ .or)
    (hf : cx.foldFor mode κ (.binary left op right) = none) :
    compileExpr cx loop mode (.binary left op right) a κ = emitSeq (emitBinary cx mode left op right
        (emitSeq (compileExpr cx loop .value left) (compileExpr cx loop .value right)))
          (emitDiscard mode) a κ := by
  rw [compileExpr.eq_def]
  simp only [hf]

/-- The `?` of an operand without code of its own for it. -/
theorem flow_unwrapped {inner : Expr}
    (hinner : P false loop a 0 1 (compileExpr cx r .value inner a κ).code)
    (hplain : compileExpr cx r mode (.resultUnwrap inner) a κ =
      emitSeq (compileExpr cx r .value inner)
        (emitSeq (emit [.resultUnwrap]) (emitDiscard mode)) a κ) :
    P false loop a 0 (netHeight cx κ (.resultUnwrap inner) mode)
      (compileExpr cx r mode (.resultUnwrap inner) a κ).code := by
  rw [hplain]
  exact flow_seq hinner fun _ _ => flow_apply rfl fun _ => rfl

/-- A call of a builtin without code of its own. -/
theorem compile_builtin {args : List Expr} (hf : cx.foldFor mode κ (.builtinCall name args) = none)
    (hformat : ∀ template valueArgs, name = "format" → args ≠ .string template :: valueArgs)
    (hvalidate : ∀ value schema, name = "validate" → args ≠ [value, schema]) :
    compileExpr cx loop mode (.builtinCall name args) a κ = emitSeq (compileAll cx loop args)
        (emitSeq (emit [.intrinsic (resolveIntrinsic name args.length)])
          (emitDiscard mode)) a κ := by
  rw [compileExpr]
  · simp only [hf]
  · exact hformat
  · exact hvalidate

theorem flow_builtin {args : List Expr} (hf : cx.foldFor mode κ (.builtinCall name args) = none)
    (hformat : ∀ template valueArgs, name = "format" → args ≠ .string template :: valueArgs)
    (hvalidate : ∀ value schema, name = "validate" → args ≠ [value, schema])
    (hargs : P false loop a 0 args.length (compileAll cx r args a κ).code) :
    P false loop a 0 (netHeight cx κ (.builtinCall name args) mode)
      (compileExpr cx r mode (.builtinCall name args) a κ).code := by
  rw [compile_builtin hf hformat hvalidate]
  refine flow_seq hargs fun _ _ => flow_apply ?_ fun _ => rfl
  simp only [stackEffect, resolveIntrinsic_argc]

/-- The source's `compile_validate_call`, with a schema that is known or not. -/
theorem flow_validate {value schema : Expr}
    (hf : cx.foldFor mode κ (.builtinCall "validate" [value, schema]) = none)
    (hvalue : P false loop a 0 1 (compileExpr cx r .value value a κ).code)
    (hschema : ∀ a κ, P false loop a 0 1 (compileExpr cx r .value schema a κ).code) :
    P false loop a 0 (netHeight cx κ (.builtinCall "validate" [value, schema]) mode)
      (compileExpr cx r mode (.builtinCall "validate" [value, schema]) a κ).code := by
  rw [compileExpr]
  simp only [hf]
  cases compiledSchema cx κ schema with
  | some compiled => exact flow_seq hvalue fun _ _ => flow_apply rfl fun _ => rfl
  | none => exact flow_operands hvalue hschema rfl fun _ => rfl

/-- A call of a builtin, given its arguments one by one. -/
theorem flow_builtinCall {args : List Expr}
    (hf : cx.foldFor mode κ (.builtinCall name args) = none)
    (heach : ∀ e ∈ args, ∀ a κ, P false loop a 0 1 (compileExpr cx r .value e a κ).code) :
    P false loop a 0 (netHeight cx κ (.builtinCall name args) mode)
      (compileExpr cx r mode (.builtinCall name args) a κ).code := by
  have hargs : P false loop a 0 args.length (compileAll cx r args a κ).code := flow_all heach
  by_cases hformat : name = "format"
  · subst hformat
    cases args with
    | nil => exact flow_builtin hf (by simp) (by simp) hargs
    | cons template valueArgs =>
      cases template with
      | string template =>
        rw [compileExpr]; simp only [hf]
        exact flow_seq (flow_format (flow_all (forall_mem_cons.mp heach).2))
          fun _ _ => flow_discard fun _ => rfl
      | _ => exact flow_builtin hf (by simp) (by simp) hargs
  · by_cases hvalidate : name = "validate"
    · subst hvalidate
      rcases args with _ | ⟨value, _ | ⟨schema, _ | ⟨third, rest⟩⟩⟩
      · exact flow_builtin hf (by simp) (by simp) hargs
      · exact flow_builtin hf (by simp) (by simp) hargs
      · obtain ⟨hvalue, hschema⟩ := by simpa using heach
        exact flow_validate hf (hvalue a κ) hschema
      · exact flow_builtin hf (by simp) (by simp) hargs
    · exact flow_builtin hf (fun _ _ h => absurd h hformat) (fun _ _ h => absurd h hvalidate) hargs

/-! ## Operands -/

section Operands

omit [Composes P]

mutual
/-- An operand leaves one value, whatever it is compiled for and wherever it stands. -/
theorem flow_operand [Composes P] (e : Expr) (he : isOperand e = true) (mode : Mode)
    (r loop a : Nat) (κ : Consts) :
    P false loop a 0 (netHeight cx κ e mode) (compileExpr cx r mode e a κ).code := by
  cases hf : cx.foldFor mode κ e with
  | some value => exact flow_folded hf
  | none =>
    cases e with
    | null | bool value | number value | string value | «variable» name | processRef process
    | resourceRef resource | waitSignal name =>
      rw [compileExpr]; simp only [hf]
      exact flow_apply rfl fun _ => rfl
    | tuple items | list items =>
      rw [compileExpr]; simp only [hf]
      exact flow_seq (flow_all (flow_each items he r loop)) fun _ _ => flow_apply rfl fun _ => rfl
    | record entries | startProcess process entries =>
      rw [compileExpr]; simp only [hf]
      refine flow_seq (flow_entries entries he r loop a κ) fun _ _ => flow_apply ?_ fun _ => rfl
      simp only [stackEffect, length_map]
    | listComprehension element clauses =>
      have hparts := Bool.and_eq_true_iff.mp he
      rw [compileExpr]; simp only [hf]
      refine flow_seq (flow_emit rfl) fun a κ => ?_
      refine flow_seq (flow_clauses clauses hparts.1 r loop a κ fun next a κ => ?_) fun _ _ => ?_
      · have helement : P false next a 0 1 (compileExpr cx r .value element a κ).code :=
          flow_operand element hparts.2 .value r next a κ
        exact flow_seq (frame 1 helement) fun _ _ => flow_emit rfl
      · exact flow_seq flow_updateConsts fun _ _ => flow_discard fun _ => rfl
    | ifElse condition thenBlock elseBlock =>
      have hparts := Bool.and_eq_true_iff.mp he
      have hfirst := Bool.and_eq_true_iff.mp hparts.1
      rw [compileExpr]; simp only [hf]
      refine flow_seq (flow_conditional ?_ (fun a κ => ?_) fun a κ => ?_)
        fun _ _ => flow_discard fun _ => rfl
      · exact flow_operand condition hfirst.1 .test r loop a κ
      · exact flow_operand thenBlock hfirst.2 .value r loop a κ
      · exact flow_operand elseBlock hparts.2 .value r loop a κ
    | receiverCall receiver operation args =>
      have hparts := Bool.and_eq_true_iff.mp he
      rw [compileExpr]; simp only [hf]
      exact flow_operands (flow_operand receiver hparts.1 .value r loop a κ)
        (fun _ _ => flow_all (flow_each args hparts.2 r loop)) (stackEffect_call _ _ _) fun _ => rfl
    | hostDescriptorConstructor typeName input | sleepFor input | sleepUntil input
    | unary op input =>
      rw [compileExpr]; simp only [hf]
      exact flow_seq (flow_operand input he .value r loop a κ)
        fun _ _ => flow_apply rfl fun _ => rfl
    | await handle =>
      rw [compileExpr]; simp only [hf]
      exact flow_seq (flow_await handle he false r loop a κ
        fun a κ => flow_operand handle he .value r loop a κ) fun _ _ => flow_discard fun _ => rfl
    | resultUnwrap inner =>
      have hinner : P false loop a 0 1 (compileExpr cx r .value inner a κ).code :=
        flow_operand inner he .value r loop a κ
      cases inner with
      | await handle =>
        rw [compileExpr]; simp only [hf]
        exact flow_seq (flow_await handle he true r loop a κ
          fun a κ => flow_operand handle he .value r loop a κ)
          fun _ _ => flow_discard fun _ => rfl
      | receiverCall receiver operation args =>
        have hparts := Bool.and_eq_true_iff.mp he
        rw [compileExpr]; simp only [hf]
        exact flow_operands (flow_operand receiver hparts.1 .value r loop a κ)
          (fun _ _ => flow_all (flow_each args hparts.2 r loop)) (stackEffect_call _ _ _)
          fun _ => rfl
      | field target field =>
        cases target with
        | «variable» name =>
          rw [compileExpr]; simp only [hf]
          exact flow_apply rfl fun _ => rfl
        | _ => exact flow_unwrapped hinner (by rw [compileExpr.eq_def]; simp only [hf])
      | _ => exact flow_unwrapped hinner (by rw [compileExpr.eq_def]; simp only [hf])
    | signalRun run name payload =>
      have hparts := Bool.and_eq_true_iff.mp he
      rw [compileExpr]; simp only [hf]
      exact flow_operands (flow_operand run hparts.1 .value r loop a κ)
        (flow_operand payload hparts.2 .value r loop) rfl fun _ => rfl
    | index target index =>
      have hparts := Bool.and_eq_true_iff.mp he
      rw [compileExpr]; simp only [hf]
      exact flow_operands (flow_operand target hparts.1 .value r loop a κ)
        (flow_operand index hparts.2 .value r loop) rfl fun _ => rfl
    | builtinCall name args => exact flow_builtinCall hf (flow_each args he r loop)
    | field target name =>
      have htarget : P false loop a 0 1 (compileExpr cx r .value target a κ).code :=
        flow_operand target he .value r loop a κ
      cases target with
      | «variable» root =>
        rw [compileExpr]; simp only [hf]
        exact flow_apply rfl fun _ => rfl
      | _ =>
        rw [compileExpr.eq_def]; simp only [hf]
        exact flow_seq htarget fun _ _ => flow_apply rfl fun _ => rfl
    | binary left op right =>
      have hparts := Bool.and_eq_true_iff.mp he
      by_cases hand : op = .and
      · subst hand
        rw [compileExpr]; simp only [hf]
        exact flow_seq (flow_logical rfl rfl (flow_operand left hparts.1 .value r loop a κ)
          (flow_operand right hparts.2 .value r loop _ _)) fun _ _ => flow_discard fun _ => rfl
      · by_cases hor : op = .or
        · subst hor
          rw [compileExpr]; simp only [hf]
          exact flow_seq (flow_logical rfl rfl (flow_operand left hparts.1 .value r loop a κ)
            (flow_operand right hparts.2 .value r loop _ _))
            fun _ _ => flow_discard fun _ => rfl
        · rw [compile_binary hand hor hf]
          exact flow_binaryOperands hf (flow_next
            (flow_operand left hparts.1 .value r loop a κ)
            fun a κ => flow_operand right hparts.2 .value r loop a κ)
    | typeLiteral ty =>
      rw [compileExpr]; simp only [hf]
      exact flow_seq (flow_typeLiteral cx κ ty) fun _ _ => flow_discard fun _ => rfl
    | _ => cases he
theorem flow_each [Composes P] (es : List Expr) (hes : allOperands es = true) (r loop : Nat) :
    ∀ e ∈ es, ∀ a κ, P false loop a 0 1 (compileExpr cx r .value e a κ).code := by
  cases es with
  | nil => simp
  | cons e rest =>
    have hparts := Bool.and_eq_true_iff.mp hes
    exact forall_mem_cons.mpr
      ⟨flow_operand e hparts.1 .value r loop, flow_each rest hparts.2 r loop⟩
theorem flow_entries [Composes P] (entries : List (String × Expr))
    (hes : entryOperands entries = true) (r loop a : Nat) (κ : Consts) :
    P false loop a 0 entries.length (compileEntries cx r entries a κ).code := by
  cases entries with
  | nil => rw [compileEntries]; exact flow_nothing
  | cons entry rest =>
    have hparts := Bool.and_eq_true_iff.mp hes
    rw [compileEntries]
    exact flow_next (flow_operand entry.2 hparts.1 .value r loop a κ)
      fun a κ => flow_entries rest hparts.2 r loop a κ
theorem flow_clauses [Composes P] (clauses : List (ListComprehensionClause Expr))
    (hes : clauseOperands clauses = true) (r loop a : Nat) (κ : Consts) {element : Emitter}
    (helement : ∀ loop a κ, P false loop a 1 1 (element a κ).code) :
    P false loop a 1 1 (compileClauses cx r element clauses a κ).code := by
  cases clauses with
  | nil => rw [compileClauses]; exact helement loop a κ
  | cons clause rest =>
    cases clause with
    | each binding iterable =>
      have hparts := Bool.and_eq_true_iff.mp hes
      rw [compileClauses]
      refine flow_iterated (b := false) (by simp) (flow_rangeArgs iterable hparts.1 r loop a κ) ?_
        fun next a κ => ?_
      · exact flow_operand iterable hparts.1 .value r loop a κ
      · exact flow_clauses rest hparts.2 r next a κ helement
    | test condition =>
      have hparts := Bool.and_eq_true_iff.mp hes
      rw [compileClauses]
      refine test rfl (conditionJump_effect _) ?_
        (flow_clauses rest hparts.2 r loop _ _ helement)
      exact frame 1 (flow_operand condition hparts.1 .test r loop a κ)
theorem flow_rangeArgs [Composes P] (iterable : Expr) (he : isOperand iterable = true)
    (r loop a : Nat) (κ : Consts) (name : String) (items : List Expr)
    (heq : iterable = .builtinCall name items) :
    P false loop a 0 items.length (compileRangeArgs cx r iterable a κ).code := by
  cases iterable with
  | builtinCall name' args =>
    have hargs : P false loop a 0 args.length (compileAll cx r args a κ).code :=
      flow_all (flow_each args he r loop)
    cases heq
    exact hargs
  | _ => cases heq
theorem flow_await [Composes P] (handle : Expr) (he : isOperand handle = true) (unwrap : Bool)
    (r loop a : Nat) (κ : Consts) {whole : Emitter}
    (hwhole : ∀ a κ, P false loop a 0 1 (whole a κ).code) :
    P false loop a 0 1 (compileAwait cx r unwrap whole handle a κ).code := by
  have hplain : P false loop a 0 1
      (emitSeq whole (emit [awaitInstruction unwrap]) a κ).code :=
    flow_seq (hwhole a κ) fun _ _ => flow_emit (stackEffect_await unwrap)
  cases handle with
  | receiverCall receiver operation args =>
    have hparts := Bool.and_eq_true_iff.mp he
    rw [compileAwait, ← emitSeq_assoc]
    exact flow_seq (flow_next (flow_operand receiver hparts.1 .value r loop a κ)
      fun _ _ => flow_all (flow_each args hparts.2 r loop))
        fun _ _ => flow_emit (stackEffect_call _ _ _)
  | resultUnwrap inner =>
    have hinner : P false loop a 0 1 (emitSeq (compileExpr cx r .value inner)
        (emit [.awaitHandleUnwrap]) a κ).code :=
      flow_seq (flow_operand inner he .value r loop a κ) fun _ _ => flow_emit rfl
    cases inner with
    | receiverCall receiver operation args =>
      have hparts := Bool.and_eq_true_iff.mp he
      rw [compileAwait, ← emitSeq_assoc]
      exact flow_seq (flow_next (flow_operand receiver hparts.1 .value r loop a κ)
        fun _ _ => flow_all (flow_each args hparts.2 r loop))
        fun _ _ => flow_emit (stackEffect_call _ _ _)
    | _ => rw [compileAwait.eq_def]; exact hinner
  | tuple items =>
    rw [compileAwait]
    by_cases hawaits : awaitsAggregate (.tuple items) = true
    · rw [if_pos hawaits]
      exact flow_seq (flow_shapes items he r loop [] 0 a κ) fun _ _ => flow_emit rfl
    · rw [if_neg hawaits]
      exact hplain
  | list items =>
    rw [compileAwait]
    by_cases hawaits : awaitsAggregate (.list items) = true
    · rw [if_pos hawaits]
      exact flow_seq (flow_shapes items he r loop [] 0 a κ) fun _ _ => flow_emit rfl
    · rw [if_neg hawaits]
      exact hplain
  | record entries =>
    rw [compileAwait]
    by_cases hawaits : awaitsAggregate (.record entries) = true
    · rw [if_pos hawaits]
      exact flow_seq (flow_entryShapes entries he r loop [] 0 a κ) fun _ _ => flow_emit rfl
    · rw [if_neg hawaits]
      exact hplain
  | _ => rw [compileAwait.eq_def]; exact hplain
/-- The values of an awaited aggregate stand on the stack as its shape counts them. -/
theorem flow_shape [Composes P] (e : Expr) (he : isOperand e = true) (r loop : Nat)
    (leaves : List BatchLeaf) (count a : Nat) (κ : Consts) {whole : Emitter}
    (hwhole : P false loop a 0 1 (whole a κ).code) :
    P false loop a count (awaitShape leaves count e).stackValueCount
      (compileShape cx r whole e a κ).code := by
  have hplain : P false loop a count (count + 1) (whole a κ).code := frame count hwhole
  cases e with
  | receiverCall receiver operation args =>
    have hparts := Bool.and_eq_true_iff.mp he
    rw [compileShape]
    exact frame count (flow_next (flow_operand receiver hparts.1 .value r loop a κ)
      fun _ _ => flow_all (flow_each args hparts.2 r loop))
  | resultUnwrap inner =>
    cases inner with
    | receiverCall receiver operation args =>
      have hparts := Bool.and_eq_true_iff.mp he
      rw [compileShape]
      exact frame count (flow_next (flow_operand receiver hparts.1 .value r loop a κ)
        fun _ _ => flow_all (flow_each args hparts.2 r loop))
    | _ => rw [compileShape.eq_def]; exact hplain
  | tuple items | list items =>
    rw [compileShape]; exact flow_shapes items he r loop leaves count a κ
  | record entries =>
    rw [compileShape]
    exact flow_entryShapes entries he r loop leaves count a κ
  | _ => rw [compileShape.eq_def]; exact hplain
theorem flow_shapes [Composes P] (es : List Expr) (hes : allOperands es = true) (r loop : Nat)
    (leaves : List BatchLeaf) (count a : Nat) (κ : Consts) :
    P false loop a count (awaitShapes leaves count es).stackValueCount
      (compileShapes cx r es a κ).code := by
  cases es with
  | nil => rw [compileShapes]; exact flow_nothing
  | cons e rest =>
    have hparts := Bool.and_eq_true_iff.mp hes
    rw [compileShapes]
    exact flow_seq (flow_shape e hparts.1 r loop leaves count a κ
      (flow_operand e hparts.1 .value r loop a κ))
      fun a κ => flow_shapes rest hparts.2 r loop _ _ a κ
theorem flow_entryShapes [Composes P] (entries : List (String × Expr))
    (hes : entryOperands entries = true) (r loop : Nat) (leaves : List BatchLeaf) (count a : Nat)
    (κ : Consts) :
    P false loop a count (awaitEntryShapes leaves count entries).stackValueCount
      (compileEntryShapes cx r entries a κ).code := by
  cases entries with
  | nil => rw [compileEntryShapes]; exact flow_nothing
  | cons entry rest =>
    have hparts := Bool.and_eq_true_iff.mp hes
    rw [compileEntryShapes]
    exact flow_seq (flow_shape entry.2 hparts.1 r loop leaves count a κ
      (flow_operand entry.2 hparts.1 .value r loop a κ))
      fun a κ => flow_entryShapes rest hparts.2 r loop _ _ a κ
end

end Operands

/-! ## Statements -/

variable {root : String}

theorem flow_assigned {appended right pushed : Emitter}
    (happended : fusedAssign cx κ root e = some .append →
      P inLoop loop a 0 1 (appended a κ).code) (hright : fusedAssign cx κ root e = some .add →
      P inLoop loop a 0 1 (right a κ).code) (hpushed : fusedAssign cx κ root e = some .push →
      P inLoop loop a 0 1 (pushed a κ).code) (hwhole : P inLoop loop a 0 1 (whole a κ).code) :
    P inLoop loop a 0 0 (emitAssign cx root e appended right pushed whole a κ).code := by
  cases hfused : fusedAssign cx κ root e with
  | some fused =>
    cases fused with
    | append =>
      simp only [emitAssign, hfused]
      exact flow_seq (happended hfused)
        fun _ _ => flow_seq (flow_emit rfl) fun _ _ => flow_updateConsts
    | addNumber value | addSlot other =>
      simp only [emitAssign, hfused]
      exact flow_seq (flow_emit rfl) fun _ _ => flow_updateConsts
    | add =>
      simp only [emitAssign, hfused]
      exact flow_seq (hright hfused)
        fun _ _ => flow_seq (flow_emit rfl) fun _ _ => flow_updateConsts
    | push =>
      simp only [emitAssign, hfused]
      exact flow_seq (hpushed hfused)
        fun _ _ => flow_seq (flow_emit rfl) fun _ _ => flow_updateConsts
  | none =>
    cases hfold : cx.foldedValue κ e with
    | some value =>
      simp only [emitAssign, hfused, hfold]
      exact flow_seq (flow_emit rfl) fun _ _ => flow_updateConsts
    | none =>
      simp only [emitAssign, hfused, hfold]
      exact flow_seq hwhole
        fun _ _ => flow_seq (flow_emit rfl) fun _ _ => flow_updateConsts

variable (steps : List (AssignPathStep Expr))

/-- The number of indexes on a path. -/
def indexCount : Nat :=
  ((pathSteps steps).filter (· == .index)).length

theorem flow_steps (hsteps : stepOperands steps = true) (r loop a : Nat) (κ : Consts) :
    P false loop a 0 (indexCount steps) (compileSteps cx r steps a κ).code := by
  induction steps generalizing a κ with
  | nil => rw [compileSteps]; exact flow_nothing
  | cons step rest ih =>
    cases step with
    | field name =>
      rw [compileSteps]
      simpa [indexCount, pathSteps] using ih hsteps a κ
    | index e =>
      have hparts := Bool.and_eq_true_iff.mp hsteps
      have hfirst : P false loop a 0 1 (compileExpr cx r .value e a κ).code :=
        flow_operand e hparts.1 .value r loop a κ
      rw [compileSteps]
      have hnext := flow_next (F := compileSteps cx r rest) hfirst fun a κ => ih hparts.2 a κ
      simpa [indexCount, pathSteps] using hnext

theorem fusedAdd_append (h : fusedAdd cx κ right = .append) : ∃ item, right = .list [item] := by
  unfold fusedAdd at h
  split at h
  · exact ⟨_, rfl⟩
  · split at h <;> cases h

theorem fusedAssign_add {fused : FusedAssign} (h : fusedAssign cx κ root e = some fused)
    (hpush : fused ≠ .push) :
    ∃ var right, e = .binary (.variable var) .add right ∧ fused = fusedAdd cx κ right := by
  unfold fusedAssign at h
  split at h
  · split at h
    · exact ⟨_, _, rfl, (some.inj h).symm⟩
    · cases h
  · split at h
    · exact absurd (some.inj h).symm hpush
    · cases h
  · cases h

theorem fusedAssign_push (h : fusedAssign cx κ root e = some .push) :
    ∃ builtin var item, e = .builtinCall builtin [.variable var, item] := by
  unfold fusedAssign at h
  split at h
  · split at h
    · have hadd := some.inj h
      unfold fusedAdd at hadd
      split at hadd
      · cases hadd
      · split at hadd <;> cases hadd
    · cases h
  · exact ⟨_, _, _, rfl⟩
  · cases h

theorem flow_simpleAssign (he : isOperand e = true) (r loop a : Nat) (κ : Consts) :
    P inLoop loop a 0 0 (emitAssign cx root e (compileAppended cx r e)
      (compileRight cx r e) (compilePushed cx r e) (compileExpr cx r .value e) a κ).code := by
  refine flow_assigned (fun h => ?_) (fun h => ?_) (fun h => ?_) ?_
  · obtain ⟨var, right, rfl, hfused⟩ := fusedAssign_add h (by simp)
    obtain ⟨item, rfl⟩ := fusedAdd_append hfused.symm
    have hright : isOperand item = true := by
      simpa [isOperand, allOperands] using he
    rw [compileAppended]
    exact weaken (flow_operand item hright .value r loop a κ)
  · obtain ⟨var, right, rfl, -⟩ := fusedAssign_add h (by simp)
    have hright : isOperand right = true := by
      simpa [isOperand] using he
    rw [compileRight]
    exact weaken (flow_operand right hright .value r loop a κ)
  · obtain ⟨builtin, var, item, rfl⟩ := fusedAssign_push h
    have hitem : isOperand item = true := by
      simpa [isOperand, allOperands] using he
    rw [compilePushed]
    exact weaken (flow_operand item hitem .value r loop a κ)
  · exact weaken (flow_operand e he .value r loop a κ)

theorem flow_pathAssign {steps : List (AssignPathStep Expr)} (hsteps : stepOperands steps = true)
    (he : isOperand e = true) (r loop a : Nat) (κ : Consts) :
    P inLoop loop a 0 0 (emitPathAssign cx root steps e (compileSteps cx r steps)
      (compileExpr cx r .value e) a κ).code := by
  have hindexes : ∀ a κ, P inLoop loop a 0 (indexCount steps) (compileSteps cx r steps a κ).code :=
    fun a κ => weaken (flow_steps steps hsteps r loop a κ)
  have hplain : P inLoop loop a 0 0 (emitSeq (compileSteps cx r steps)
      (emitSeq (compileExpr cx r .value e) (emitSeq (emit [.pathAssign root (pathSteps steps)])
        (updateConsts fun κ => setConst κ root none))) a κ).code := by
    refine flow_seq (hindexes a κ) fun a κ => flow_seq (k := indexCount steps + 1) ?_ fun a κ => ?_
    · have hwhole : P false loop a 0 1 (compileExpr cx r .value e a κ).code :=
        flow_operand e he .value r loop a κ
      exact weaken (frame (indexCount steps) hwhole)
    · exact flow_seq (flow_emit rfl) fun _ _ => flow_updateConsts
  cases hfused : fusedIndexAssign cx κ root steps e with
  | none => simpa only [emitPathAssign, hfused] using hplain
  | some value =>
    have hone : ∃ index, steps = [.index index] := by
      unfold fusedIndexAssign at hfused
      split at hfused
      · exact ⟨_, rfl⟩
      · cases hfused
    obtain ⟨index, rfl⟩ := hone
    have hgeneral : P inLoop loop a 0 0 (emitSeq (compileSteps cx r [.index index])
        (emitSeq (emit [.addAssignIndexNumber root value])
          (updateConsts fun κ => setConst κ root none)) a κ).code :=
      flow_seq (hindexes a κ) fun _ _ => flow_seq (flow_emit rfl) fun _ _ => flow_updateConsts
    cases index with
    | «variable» name =>
      simp only [emitPathAssign, hfused]
      exact flow_seq (flow_emit rfl) fun _ _ => flow_updateConsts
    | _ => simpa only [emitPathAssign, hfused] using hgeneral

/-- How many values a statement leaves. -/
def kept : Mode → Nat
  | .effect => 0
  | _ => 1

theorem netHeight_kept (hmode : mode ≠ .test) : netHeight cx κ e mode = kept mode := by
  cases mode with
  | test => exact absurd rfl hmode
  | _ => rfl

theorem flow_keptDiscard (hmode : mode ≠ .test) :
    P inLoop loop a 1 (kept mode) (emitDiscard mode a κ).code := by
  cases mode with
  | value => exact Composes.nil
  | effect => exact flow_emit rfl
  | test => exact absurd rfl hmode

theorem flow_keptNull (hmode : mode ≠ .test) :
    P inLoop loop a 0 (kept mode) (emitNullIf mode a κ).code := by
  cases mode with
  | value => exact flow_emit rfl
  | effect => exact Composes.nil
  | test => exact absurd rfl hmode

theorem inner_eq (hmode : mode ≠ .test) : mode.inner = mode := by
  cases mode with
  | test => exact absurd rfl hmode
  | _ => rfl

theorem flow_keptApply (hmode : mode ≠ .test) (hi : stackEffect i = some (q, 1)) :
    P inLoop loop a q (kept mode) (emitSeq (emit [i]) (emitDiscard mode) a κ).code :=
  flow_seq (flow_emit hi) fun _ _ => flow_keptDiscard hmode

mutual
/-- A statement leaves one value, or nothing where its value is dropped. -/
theorem flow_statement (e : Expr) (b : Bool) (he : isStatement b e = true) (mode : Mode)
    (hmode : mode ≠ .test) (hkept : Loose P ∨ dropsLabelled (mode == .effect) e = false)
    (loop a : Nat) (κ : Consts) :
    P b loop a 0 (kept mode) (compileExpr cx loop mode e a κ).code := by
  cases hf : cx.foldFor mode κ e with
  | some value =>
    rw [← netHeight_kept hmode]
    exact flow_folded hf
  | none =>
    cases e with
    | block es =>
      rw [compileExpr]; simp only [hf]
      rw [inner_eq hmode]
      exact flow_block es b he mode hmode hkept loop a κ
    | labelAnnotated label inner =>
      rw [compileExpr]; simp only [hf]
      by_cases hsite : (cx.tracked && supportsForcedEffectSite inner) = true
      · rw [if_pos hsite]
        rcases hkept with hloose | hkept
        · exact hloose (flow_statement inner b he .value (by simp) (.inl hloose) loop a κ)
        have hparts := Bool.or_eq_false_iff.mp hkept
        have hsupports : supportsForcedEffectSite inner = true := (Bool.and_eq_true_iff.mp hsite).2
        have hvalue : mode = .value := by
          cases mode with
          | value => rfl
          | effect => simp [hsupports] at hparts
          | test => exact absurd rfl hmode
        subst hvalue
        exact flow_statement inner b he .value (by simp) (.inr hparts.2) loop a κ
      · rw [if_neg hsite, inner_eq hmode]
        refine flow_seq (k := 0) ?_
          fun a κ => flow_statement inner b he mode hmode
            (hkept.imp_right fun h => (Bool.or_eq_false_iff.mp h).2) loop a κ
        by_cases hattaches : (labelAttachesToConcreteNode inner ||
          (cx.tracked && labelsForcedAssign inner)) = true
        · rw [if_pos hattaches]
          exact Composes.nil
        · rw [if_neg hattaches]
          exact flow_emit rfl
    | assign root steps e =>
      have hparts := Bool.and_eq_true_iff.mp he
      cases steps with
      | nil =>
        rw [compileExpr]; simp only [hf]
        exact flow_seq (flow_simpleAssign hparts.2 loop loop a κ)
          fun _ _ => flow_keptNull hmode
      | cons step rest =>
        rw [compileExpr]
        · simp only [hf]
          exact flow_seq (flow_pathAssign hparts.1 hparts.2 loop loop a κ)
            fun _ _ => flow_keptNull hmode
        · simp
    | ifElse condition thenBlock elseBlock =>
      have hparts := Bool.and_eq_true_iff.mp he
      have hfirst := Bool.and_eq_true_iff.mp hparts.1
      have hthen := hkept.imp_right fun h => (Bool.or_eq_false_iff.mp h).1
      have helse := hkept.imp_right fun h => (Bool.or_eq_false_iff.mp h).2
      rw [compileExpr]; simp only [hf]
      refine flow_seq (flow_conditional ?_ (fun a κ => ?_) fun a κ => ?_)
        fun _ _ => flow_keptDiscard hmode
      · exact flow_operand condition hfirst.1 .test loop loop a κ
      · exact flow_statement thenBlock b hfirst.2 .value (by simp) hthen loop a κ
      · exact flow_statement elseBlock b hparts.2 .value (by simp) helse loop a κ
    | forIn binding iterable body =>
      have hparts := Bool.and_eq_true_iff.mp he
      rw [compileExpr]; simp only [hf]
      rw [← emitSeq_assoc, ← emitSeq_assoc]
      refine flow_seq (k := 0) ?_ fun _ _ => flow_keptNull hmode
      rw [emitSeq_assoc]
      refine flow_iterated (b := true) (fun _ => rfl)
        (flow_rangeArgs iterable hparts.1 loop loop a κ) ?_ fun next a κ => ?_
      · exact flow_operand iterable hparts.1 .value loop loop a κ
      · exact flow_statement body true hparts.2 .effect (by simp) hkept next a κ
    | whileDo condition body =>
      have hparts := Bool.and_eq_true_iff.mp he
      rw [compileExpr]; simp only [hf]
      refine flow_seq (k := 0) ?_ fun _ _ => flow_keptNull hmode
      exact repeats rfl (conditionJump_effect _)
        (flow_operand condition hparts.1 .test loop a a noConsts)
        (flow_statement body true hparts.2 .effect (by simp) hkept a _ noConsts)
    | breakLoop =>
      have hloop : b = true := he
      subst hloop
      rw [compileExpr]; simp only [hf]
      exact flow_seq breaks fun _ _ => flow_updateConsts
    | continueLoop =>
      have hloop : b = true := he
      subst hloop
      rw [compileExpr]; simp only [hf]
      exact flow_seq continues fun _ _ => flow_updateConsts
    | finish value =>
      rw [compileExpr]; simp only [hf]
      exact flow_seq (weaken (flow_operand value he .value loop loop a κ))
        fun _ _ => ends (Or.inl rfl)
    | fail value =>
      rw [compileExpr]; simp only [hf]
      exact flow_seq (weaken (flow_operand value he .value loop loop a κ))
        fun _ _ => ends (Or.inr rfl)
    | cancel value | print value | yieldEvent value | wake value =>
      rw [compileExpr]; simp only [hf]
      exact flow_seq (weaken (flow_operand value he .value loop loop a κ))
        fun _ _ => flow_keptApply hmode rfl
    | _ =>
      rw [← netHeight_kept hmode]
      exact weaken (flow_operand _ he mode loop loop a κ)
theorem flow_block (es : List Expr) (b : Bool) (hes : allStatements b es = true) (mode : Mode)
    (hmode : mode ≠ .test) (hkept : Loose P ∨ blockDropsLabelled (mode == .effect) es = false)
    (loop a : Nat) (κ : Consts) :
    P b loop a 0 (kept mode) (compileBlock cx loop mode es a κ).code := by
  cases es with
  | nil =>
    rw [compileBlock]
    exact flow_keptNull hmode
  | cons e rest =>
    have hparts := Bool.and_eq_true_iff.mp hes
    cases rest with
    | nil =>
      rw [compileBlock]
      exact flow_statement e b hparts.1 mode hmode hkept loop a κ
    | cons next others =>
      have hfirst := hkept.imp_right fun h => (Bool.or_eq_false_iff.mp h).1
      have hlater := hkept.imp_right fun h => (Bool.or_eq_false_iff.mp h).2
      rw [compileBlock]
      · exact flow_seq (flow_statement e b hparts.1 .effect (by simp) hfirst loop a κ)
          fun a κ => flow_block (next :: others) b hparts.2 mode hmode hlater loop a κ
      · simp
end

end Pieces

/-! ## Programs -/

theorem leads_end {code : Code} {S : List Value} {I : List IterState} {m : Machine} {n : Nat}
    (h : Above code.length S I k m) :
    Leads (step code env) (fun _ => True) (fun _ => False) Fine n m := by
  have hget : code[m.ip]? = none := by
    rw [h.ip_eq]
    exact getElem?_eq_none (Nat.le_refl _)
  have hstep : step code env m = m.halt (.ok .continued) := by
    rw [step, hget]
  exact .halt trivial hstep (fine_ok _ _ _)

/-- Code without open breaks stands in what begins with it. -/
theorem codeAt_first {c d : Code} (hc : Flow env false loop a j k c) : CodeAt (c ++ d) 0 0 c := by
  intro n i hi
  have hmem : i ∈ c := mem_of_getElem? hi
  have hlt : n < c.length := (List.getElem?_eq_some_iff.mp hi).1
  rw [Nat.zero_add, getElem?_append_left hlt, hi, patchBreak_eq 0 (hc.closed rfl i hmem)]

theorem leads_program {main : Expr} (hmain : isStatement false main = true)
    (hkept : dropsLabelled false main = false) (slots : Slots) (history : History) (n : Nat) :
    Leads (step (compileProgram cx main) env) (fun _ => True) (fun _ => False) Fine n
      (initial slots history) := by
  have hflow : Flow env false 0 0 0 1 (compileExpr cx 0 .value main 0 noConsts).code :=
    flow_statement main false hmain .value (by simp) (.inr hkept) 0 0 noConsts
  have hstart : Above 0 [] [] 0 (initial slots history) := ⟨rfl, rfl, [], rfl, rfl⟩
  refine (hflow.leads _ 0 [] [] _ n (codeAt_first hflow) hstart).bind (fun _ _ => trivial)
    fun n' m' _ hm' => ?_
  rw [Nat.zero_add] at hm'
  rcases hm' with hm' | ⟨hfalse, -⟩
  · by_cases hterminal : isTerminalExpr main = true
    · refine leads_end (S := []) (I := []) (k := 1) ?_
      simpa [compileProgram, hterminal] using hm'
    · have hget : (compileProgram cx main)[(compileExpr cx 0 .value main 0 noConsts).code.length]? =
          some .pop := by
        simp [compileProgram, hterminal]
      refine leads_instruction (T := Above (compileProgram cx main).length [] [] 0) hget hm' trivial
        ?_ fun _ _ _ h => leads_end h
      have hpop := execute_leaves (A := fun ip j => Above ip [] [] j) env (i := .pop) rfl
        (fun _ _ => trivial) hm'.next
      have hlen : (compileProgram cx main).length =
          (compileExpr cx 0 .value main 0 noConsts).code.length + 1 := by
        simp [compileProgram, hterminal]
      rw [hlen]
      exact hpop
  · cases hfalse

/-- No run of a compiled program finds a stack too low, an operand leaves one value and a
statement whose value is dropped leaves nothing, unless a labelled call or await is dropped.
That one leaves its value. -/
theorem stack_discipline (env : Environment) (cx : CompileContext) :
    (∀ main slots history h, isStatement false main = true → dropsLabelled false main = false →
      Halts (step (compileProgram cx main) env) (initial slots history) h → Fine h) ∧
    (∀ e r loop a κ, isOperand e = true →
      Flow env false loop a 0 1 (compileExpr cx r .value e a κ).code) ∧
    (∀ e b loop a κ, isStatement b e = true → dropsLabelled true e = false →
      Flow env b loop a 0 0 (compileExpr cx loop .effect e a κ).code) ∧
    (∀ label e b loop a κ, cx.tracked = true → isOperand e = true →
      supportsForcedEffectSite e = true →
      Flow env b loop a 0 1 (compileExpr cx loop .effect (.labelAnnotated label e) a κ).code) := by
  refine ⟨?_, ?_, ?_, ?_⟩
  · intro main slots history h hmain hkept hhalts
    exact Leads.halts (fun n => leads_program hmain hkept slots history n) hhalts
  · intro e r loop a κ he
    exact flow_operand e he .value r loop a κ
  · intro e b loop a κ he hkept
    exact flow_statement e b he .effect (by simp) (.inr hkept) loop a κ
  · intro label e b loop a κ htracked he hsupports
    have hfold : cx.foldFor .effect κ (.labelAnnotated label e) = none := by
      simp [CompileContext.foldFor, isLabel]
    rw [compileExpr]
    simp only [hfold, htracked, hsupports, Bool.and_self, if_true]
    exact Flow.weaken (flow_operand e he .value loop loop a κ)

/-- A host that answers every request with `null`. -/
def nullHost : Environment :=
  ⟨⟨fun _ => .ok .null, fun _ value => .ok value⟩, ⟨fun _ _ => .ok (.value .null)⟩, .foreground,
    none⟩

def trackedContext : CompileContext := ⟨none, true, true⟩

/-- The statement `@label(title: "Ask") tools.ask()`. -/
def labelledCall : Expr :=
  .labelAnnotated ⟨"Ask", none⟩
    (.receiverCall (.resourceRef ⟨["tools"], "Tools", "tools"⟩) "ask" [])

def labelledCallThenFinish : Expr := .block [labelledCall, .finish (.number 1.0)]

def labelledCallCode : Code := (compileExpr trackedContext 0 .effect labelledCall 0 noConsts).code

theorem stack_discipline_call :
    Fine ⟨.ok (.finished .null), fun _ => none, [.finish (.number 1.0)]⟩ ∧
    Flow nullHost false 0 0 0 1
      (compileExpr trackedContext 0 .value (.number 1.0) 0 noConsts).code ∧
    Flow nullHost true 0 0 0 0
      (compileExpr trackedContext 0 .effect .breakLoop 0 noConsts).code ∧
    Flow nullHost false 0 0 0 1 labelledCallCode := by
  obtain ⟨hruns, hoperands, hstatements, hlabelled⟩ := stack_discipline nullHost trackedContext
  refine ⟨?_, hoperands _ 0 0 0 noConsts rfl, hstatements _ true 0 0 noConsts rfl rfl,
    hlabelled _ _ false 0 0 noConsts rfl rfl rfl⟩
  exact hruns (.finish (.number 1.0)) (fun _ => none) [] _ rfl rfl ⟨2, rfl⟩

/-- The value of a labelled call stays on the stack behind the statement. -/
theorem labelled_call_leaves_value : isStatement false labelledCallThenFinish = true ∧
    (compileProgram trackedContext labelledCallThenFinish).take 2 = labelledCallCode ∧
    ∃ m, ReachesIn (step (compileProgram trackedContext labelledCallThenFinish) nullHost) 2
      (initial (fun _ => none) []) m ∧ m.ip = labelledCallCode.length ∧ m.stack.length = 1 :=
  ⟨rfl, rfl, _, rfl, rfl, rfl⟩

end ScriptDiscipline
