import Lash.ScriptOperands

/-!
# The code of every operand

The loops of a comprehension go through the values of what they iterate over, and
give their variable back at the end. With them, the code of every operand computes
the operand.
-/

namespace ScriptExpressions

open ScriptNumbers ScriptValues ScriptOps ScriptBuiltins ScriptSyntax ScriptFolding ScriptCompiler
open Int64
open List Bool
open ScriptMachine ScriptFlows ScriptDiscipline ScriptEvaluation ScriptConstants
open ScriptOperands StepMachines

variable {A : Type} {env : Environment} {cx : CompileContext} {slots : Slots} {κ : Consts}
variable {a r : Nat} {c d : Code} {E F : Emitter} {i : Instruction}

/-! ## Cursors -/

/-- The values a cursor goes through. -/
inductive Enumerates : IterCursor → List Value → Prop where
  | done {cursor : IterCursor} (h : cursor.nextValue = none) : Enumerates cursor []
  | next {cursor rest : IterCursor} {value : Value} {values : List Value}
      (h : cursor.nextValue = some (value, rest)) (hrest : Enumerates rest values) :
      Enumerates cursor (value :: values)

theorem enumerates_list (values : List Value) : Enumerates (.list values) values := by
  induction values with
  | nil => exact .done rfl
  | cons value rest ih => exact .next rfl ih

variable {stop : Int}

theorem saturatingAdd_up {x step : Int} (hstep : 0 < step) (hx : x < stop)
    (hstop : stop ≤ maxValue.toInt) : x < saturatingAdd x step := by
  unfold saturatingAdd
  omega

theorem saturatingAdd_down {x step : Int} (hstep : step < 0) (hx : stop < x)
    (hstop : minValue.toInt ≤ stop) : saturatingAdd x step < x := by
  unfold saturatingAdd
  omega

theorem saturatingAdd_bounds (x step : Int) : minValue.toInt ≤ saturatingAdd x step ∧
      saturatingAdd x step ≤ maxValue.toInt := by
  unfold saturatingAdd
  have hle : minValue.toInt ≤ maxValue.toInt := by decide
  omega

/-- A range comes nearer to its end with every step, even where the addition is cut off. -/
theorem enumerates_rangeFrom {step : Int} (hstep : step ≠ 0) (hlow : minValue.toInt ≤ stop)
    (hhigh : stop ≤ maxValue.toInt) (fuel : Nat) (x : Int) (hmin : minValue.toInt ≤ x)
    (hmax : x ≤ maxValue.toInt) (hfuel : rangeDone x stop step = true ∨ (stop - x).natAbs ≤ fuel) :
    Enumerates (.range x stop step) (rangeItemsFrom stop step fuel x) := by
  induction fuel generalizing x with
  | zero =>
    have hdone : rangeDone x stop step = true := by
      rcases hfuel with hdone | hfuel
      · exact hdone
      · simp only [rangeDone, decide_eq_true_eq]
        omega
    exact .done (by simp [IterCursor.nextValue, hdone])
  | succ fuel ih =>
    rw [rangeItemsFrom]
    by_cases hdone : rangeDone x stop step = true
    · rw [if_pos hdone]
      exact .done (by simp [IterCursor.nextValue, hdone])
    · rw [if_neg hdone]
      have hnext : (IterCursor.range x stop step).nextValue =
          some (.number (ofInt x), .range (saturatingAdd x step) stop step) := by
        simp [IterCursor.nextValue, hdone]
      obtain ⟨hlower, hupper⟩ := saturatingAdd_bounds x step
      refine .next hnext (ih _ hlower hupper ?_)
      have hnear : (stop - x).natAbs ≤ fuel + 1 := by
        rcases hfuel with h | h
        · exact absurd h hdone
        · exact h
      simp only [rangeDone, decide_eq_true_eq] at hdone ⊢
      rcases Int.lt_or_gt_of_ne hstep with hneg | hpos
      · have hdown := saturatingAdd_down (x := x) hneg (by omega) hlow
        omega
      · have hup := saturatingAdd_up (x := x) hpos (by omega) hhigh
        omega

variable {values : List Value} {bounds : RangeBounds}

theorem rangeBounds_step (h : rangeBounds values = .ok bounds) : bounds.step.toInt ≠ 0 := by
  have hchecked : ∀ start stop step, checkedRange start stop step = .ok bounds →
      bounds.step.toInt ≠ 0 := by
    intro start stop step h
    unfold checkedRange at h
    split at h
    · cases h
    · split at h
      · cases h
      · next hne _ =>
          cases h
          exact hne
  unfold rangeBounds at h
  split at h
  · split at h
    · exact hchecked _ _ _ h
    · cases h
  · split at h
    · exact hchecked _ _ _ h
    · cases h
    · cases h
  · split at h
    · exact hchecked _ _ _ h
    · cases h
    · cases h
    · cases h
  · cases h

theorem enumerates_range (h : rangeBounds values = .ok bounds) :
    Enumerates (.range bounds.start.toInt bounds.stop.toInt bounds.step.toInt)
      (rangeItems bounds.start.toInt bounds.stop.toInt bounds.step.toInt) :=
  enumerates_rangeFrom (rangeBounds_step h) (minValue_le_toInt _) (toInt_le _) _ _
    (minValue_le_toInt _) (toInt_le _) (Or.inr (Nat.le_refl _))

/-! ## The clauses of a comprehension -/

/-- The code that enters a loop: an iterator over the values stands on top of the others. -/
def Opens (env : Environment) (slots : Slots) (a : Nat) (c : Code) (binding : String)
    (x : Eval (List Value)) : Prop :=
  ∀ code brk S I history, CodeAt code brk a c →
    match x history with
    | (.ok values, later) => ∃ cursor, Enumerates cursor values ∧
        Reaches (step code env) ⟨a, S, slots, I, history⟩
          ⟨a + c.length, S, slots, ⟨cursor, binding, slots binding⟩ :: I, later⟩
    | (.error error, later) => Halts (step code env) ⟨a, S, slots, I, history⟩
        ⟨.error (.raised error), unwind I slots, later⟩

variable {binding : String}

theorem opens_begin {x : Eval B} {outs : B → List Value} {g : B → Except RuntimeError (List Value)}
    (hc : Computes env slots a c [] x outs)
    (hi : ∀ v, Returns x v → ∀ ip S I history, match g v with
      | .ok values => ∃ cursor, Enumerates cursor values ∧
          execute env ⟨ip, (outs v).reverse ++ S, slots, I, history⟩ i =
            .inl ⟨ip, S, slots, ⟨cursor, binding, slots binding⟩ :: I, history⟩
      | .error error => execute env ⟨ip, (outs v).reverse ++ S, slots, I, history⟩ i =
          Machine.failWith ⟨ip, S, slots, I, history⟩ error) (hpatch : ∀ s, patchBreak s i = i) :
    Opens env slots a (c ++ [i]) binding (x >>= fun v => compute (g v)) := by
  intro code brk S I history hcode
  have hrun := hc code brk S I history hcode.left
  have hget : code[a + c.length]? = some i := by
    rw [hcode.right.head, hpatch]
  rw [bind_apply, length_append, ← Nat.add_assoc]
  rcases hx : x history with ⟨error | v, later⟩
  · rw [hx] at hrun
    exact hrun
  · rw [hx] at hrun
    have hbegin := hi v ⟨history, later, hx⟩ (a + c.length + 1) S I later
    have hstep : step code env ⟨a + c.length, (outs v).reverse ++ S, slots, I, later⟩ = _ :=
      step_eq hget
    simp only [compute]
    cases hg : g v with
    | error error =>
      rw [hg] at hbegin
      exact Halts.of_reaches hrun (Halts.of_step (hstep.trans hbegin))
    | ok values =>
      rw [hg] at hbegin
      obtain ⟨cursor, hcursor, hexecute⟩ := hbegin
      exact ⟨cursor, hcursor, hrun.trans (Reaches.one (hstep.trans hexecute))⟩

variable {x : Eval Value} {b : String}

theorem opens_values (hc : Computes env slots a c [] x ([·])) :
    Opens env slots a (c ++ [Instruction.beginIter b]) b
      (x >>= fun value => compute (iterableValues value)) := by
  refine opens_begin hc (fun v _ ip S I history => ?_) fun _ => rfl
  simp only [reverse_cons, reverse_nil, nil_append, cons_append, execute, Machine.withTop]
  cases iterableValues v with
  | error error => rfl
  | ok values => exact ⟨.list values, enumerates_list values, rfl⟩

theorem opens_range {x : Eval (List Value)} {n : Nat} (hc : Computes env slots a c [] x id)
    (hlen : ∀ vs, Returns x vs → vs.length = n) :
    Opens env slots a (c ++ [Instruction.beginRangeIter b n]) b
      (x >>= fun values => compute (rangeValues values)) := by
  refine opens_begin hc (fun vs hvs ip S I history => ?_) fun _ => rfl
  rw [execute, id, withTail_values (hlen vs hvs), rangeValues]
  cases hbounds : rangeBounds vs with
  | error error => rfl
  | ok bounds => exact ⟨_, enumerates_range hbounds, rfl⟩

theorem setSlot_self (slots : Slots) (name : String) : setSlot slots name (slots name) = slots := by
  funext x
  unfold setSlot
  split
  · next h => rw [h]
  · rfl

theorem setSlot_setSlot (slots : Slots) (name : String) (x y : Option Value) :
    setSlot (setSlot slots name x) name y = setSlot slots name y := by
  funext z
  unfold setSlot
  split <;> rfl

variable {acc : Value} {body : Value → Value → Eval Value}

/-- A loop that binds its variable and adds to the value on top of the stack. -/
theorem lands_each {code : Code} {brk : Nat} {S : List Value} {I : List IterState}
    {cursor : IterCursor} (hvalues : Enumerates cursor values) {current : Option Value}
    {history : History} (hcode : CodeAt code brk a (.iterNext (a + 1 + c.length + 1) ::
      (c.map (patchBreak (a + 1 + c.length + 1)) ++ [Instruction.jump a, .endIter])))
    (hbody : ∀ value acc, Computes env (setSlot slots binding (some value)) (a + 1) c [acc]
      (body value acc) ([·])) :
    Lands env code (unwind I slots)
      ⟨a, acc :: S, setSlot slots binding current, ⟨cursor, binding, slots binding⟩ :: I, history⟩
      (forEach body values acc history)
      fun v later => ⟨a + 1 + c.length + 2, v :: S, slots, I, later⟩ := by
  have hafter : CodeAt code brk (a + 1 + c.length) [.jump a, .endIter] := by
    have h := hcode.tail.right
    rwa [length_map] at h
  induction hvalues generalizing current acc history with
  | @done cursor hcursor =>
    have hnext : step code env ⟨a, acc :: S, setSlot slots binding current,
      ⟨cursor, binding, slots binding⟩ :: I, history⟩ = _ := step_eq hcode.head
    simp only [patchBreak, execute, hcursor, Machine.goto] at hnext
    refine lands_step hnext ?_
    have hend : step code env ⟨a + 1 + c.length + 1, acc :: S, setSlot slots binding current,
      ⟨cursor, binding, slots binding⟩ :: I, history⟩ = _ := step_eq hafter.tail.head
    simp only [patchBreak, execute, setSlot_setSlot, setSlot_self] at hend
    exact Reaches.one hend
  | @next cursor rest value others hcursor hrest ih =>
    have hnext : step code env ⟨a, acc :: S, setSlot slots binding current,
      ⟨cursor, binding, slots binding⟩ :: I, history⟩ = _ := step_eq hcode.head
    simp only [patchBreak, execute, hcursor, setSlot_setSlot] at hnext
    refine lands_step hnext ?_
    have hrun := hbody value acc code _ S (⟨rest, binding, slots binding⟩ :: I) history
      hcode.tail.left.patched
    have hbase : unwind (⟨rest, binding, slots binding⟩ :: I)
        (setSlot slots binding (some value)) = unwind I slots := by
      rw [unwind, setSlot_setSlot, setSlot_self]
    rw [hbase] at hrun
    refine Lands.bind hrun fun v later _ => ?_
    exact lands_jump hafter.head ih

theorem computes_each {x : Eval (List Value)} {b : Code} {next : Nat} (hnext : next = a + c.length)
    (hc : Opens env slots a c binding x)
    (hbody : ∀ value acc, Computes env (setSlot slots binding (some value)) (next + 1) b [acc]
      (body value acc) ([·])) :
    Computes env slots a (c ++ (.iterNext (next + 1 + b.length + 1) ::
      (b.map (patchBreak (next + 1 + b.length + 1)) ++ [Instruction.jump next, .endIter]))) [acc]
      (x >>= fun values => forEach body values acc) ([·]) := by
  subst hnext
  intro code brk S I history hcode
  have hopen := hc code brk (acc :: S) I history hcode.left
  rw [bind_apply]
  rcases hx : x history with ⟨error | values, later⟩
  · rw [hx] at hopen
    exact hopen
  · rw [hx] at hopen
    obtain ⟨cursor, hcursor, hreach⟩ := hopen
    refine Lands.of_reaches hreach ?_
    have hloop : Lands env code (unwind I slots) ⟨a + c.length, acc :: S,
        setSlot slots binding (slots binding), ⟨cursor, binding, slots binding⟩ :: I, later⟩
        (forEach body values acc later)
        fun v later => ⟨a + c.length + 1 + b.length + 2, v :: S, slots, I, later⟩ :=
      lands_each hcursor hcode.right hbody
    rw [setSlot_self] at hloop
    have hlen : a + (c ++ (Instruction.iterNext (a + c.length + 1 + b.length + 1) ::
        (b.map (patchBreak (a + c.length + 1 + b.length + 1)) ++
          [Instruction.jump (a + c.length), .endIter]))).length =
        a + c.length + 1 + b.length + 2 := by
      simp only [length_append, length_cons, length_map, length_nil]
      omega
    rw [hlen]
    exact hloop

theorem computes_test {y : Eval Value} {p : Code} {stop : Nat} (hc : Decides env slots a c stop x)
    (hstop : stop = a + c.length + p.length)
    (hp : Computes env slots (a + c.length) p [acc] y ([·])) :
    Computes env slots a (c ++ p) [acc] (x >>= fun v => if isTruthy v then y else pure acc)
      ([·]) := by
  intro code brk S I history hcode
  have hlen : a + (c ++ p).length = stop := by
    rw [length_append, hstop, Nat.add_assoc]
  rw [hlen]
  refine Lands.bind (hc code brk (acc :: S) I history hcode.left) fun v later _ => ?_
  cases htruthy : isTruthy v with
  | true =>
    have hrun := hp code brk S I later hcode.right
    rw [← hstop] at hrun
    simpa using hrun
  | false =>
    simp only [false_eq_true, if_false]
    exact Reaches.refl _

/-! ## Operands -/

theorem emitSeq_discard : emitSeq E (emitDiscard .value) = E := emitSeq_nothing

theorem sound_nothing (hκ : Agrees cx κ slots) :
    Sound env cx slots (emitNothing a κ) a [] (pure []) id :=
  ⟨fun _ _ _ _ _ _ => Reaches.refl _, hκ⟩

variable {y : Eval (List Value)}

theorem sound_cons (hE : Sound env cx slots (E a κ) a [] x ([·]))
    (hF : ∀ a κ, Agrees cx κ slots → Sound env cx slots (F a κ) a [] y id) :
    Sound env cx slots (emitSeq E F a κ) a []
      (x >>= fun v => y >>= fun vs => pure (v :: vs)) id := by
  refine sound_seq hE (fun a κ hκ => (hF a κ hκ).agrees) fun v _ a κ hκ => ?_
  exact ((hF a κ hκ).computes.frame [v]).map fun _ => rfl

theorem sound_join {x : Eval (List Value)} (hE : Sound env cx slots (E a κ) a [] x id)
    (hF : ∀ a κ, Agrees cx κ slots → Sound env cx slots (F a κ) a [] y id) :
    Sound env cx slots (emitSeq E F a κ) a []
      (x >>= fun vs => y >>= fun ws => pure (vs ++ ws)) id := by
  refine sound_seq hE (fun a κ hκ => (hF a κ hκ).agrees) fun vs _ a κ hκ => ?_
  exact ((hF a κ hκ).computes.frame vs).map fun _ => rfl

/-- A call of a resource, given the code of its receiver and of its arguments. -/
theorem sound_call {operation : String} {argc : Nat} {unwrap : Bool}
    (hE : Sound env cx slots (E a κ) a [] x ([·]))
    (hF : ∀ a κ, Agrees cx κ slots → Sound env cx slots (F a κ) a [] y id)
    (hlen : ∀ vs, Returns y vs → vs.length = argc) :
    Sound env cx slots (emitSeq E (emitSeq F (emit [callInstruction operation argc unwrap])) a κ)
      a [] (x >>= fun receiver => y >>= fun values =>
        callOperation env operation unwrap (receiver :: values)) ([·]) := by
  rw [← emitSeq_assoc]
  have hvalues : ∀ vs, Returns (x >>= fun v => y >>= fun vs => pure (v :: vs)) vs →
      ∃ receiver rest, vs = receiver :: rest ∧ rest.length = argc := by
    intro vs hvs
    obtain ⟨receiver, -, htail⟩ := hvs.of_bind
    obtain ⟨rest, hrest, hpure⟩ := htail.of_bind
    exact ⟨receiver, rest, returns_pure hpure, hlen rest hrest⟩
  have h := sound_apply (i := callInstruction operation argc unwrap)
    (f := callOperation env operation unwrap) (sound_cons hE hF) fun vs hvs => by
      obtain ⟨receiver, rest, rfl, hrest⟩ := hvalues vs hvs
      exact applies_call hrest
  simpa only [bind_assoc, pure_bind] using h

/-- A request of two operands. -/
theorem sound_two {y : Eval Value} {f : Value → Value → Eval Value}
    (hE : Sound env cx slots (E a κ) a [] x ([·]))
    (hF : ∀ a κ, Agrees cx κ slots → Sound env cx slots (F a κ) a [] y ([·]))
    (hi : ∀ v w, Applies env slots i [v, w] (f v w)) :
    Sound env cx slots (emitSeq E (emitSeq F (emit [i])) a κ) a []
      (x >>= fun v => y >>= fun w => f v w) ([·]) := by
  rw [← emitSeq_assoc]
  have h := sound_apply (f := fun pair => f pair.1 pair.2) (sound_both hE hF)
    fun pair _ => hi pair.1 pair.2
  simpa only [bind_assoc, pure_bind] using h

theorem sound_or {y : Eval Value} (hE : Sound env cx slots (E a κ) a [] x ([·]))
    (hF : ∀ a κ, Agrees cx κ slots → Sound env cx slots (F a κ) a [] y ([·])) :
    Sound env cx slots (emitLogical .jumpIfTrue true E F a κ) a []
      (x >>= fun v => if isTruthy v then pure (.bool true)
        else y >>= fun v => pure (.bool (isTruthy v))) ([·]) := by
  have hjump : ∀ target v, Branches env slots (.jumpIfTrue target) target [v]
      (pure (.bool !isTruthy v)) := fun target v => ⟨fun _ => rfl, fun _ _ _ _ => rfl⟩
  have h := sound_logical (t := fun v => .bool !isTruthy v) (b := true) hjump hE hF
  have hflip : ∀ v, (if isTruthy (.bool !isTruthy v) = true then
      y >>= fun v => pure (.bool (isTruthy v)) else (pure (.bool true) : Eval Value)) =
      if isTruthy v = true then pure (.bool true)
        else y >>= fun v => pure (.bool (isTruthy v)) := by
    intro v
    cases h : isTruthy v <;> rfl
  simpa only [hflip] using h

theorem sound_test {y : Eval Value} {jump : Consts → Nat → Instruction}
    (hc : ∀ target, Decides env slots a ((E a κ).code ++ [jump κ target]) target x)
    (hF : ∀ a, Computes env slots a (F a noConsts).code [acc] y ([·])) :
    Computes env slots a (emitTest jump E F a κ).code [acc]
      (x >>= fun v => if isTruthy v then y else pure acc) ([·]) := by
  have hlen : ∀ target, ((E a κ).code ++ [jump κ target]).length = (E a κ).code.length + 1 := by
    simp
  have h := computes_test (p := (F (a + (E a κ).code.length + 1) noConsts).code)
    (hc (a + (E a κ).code.length + 1 + (F (a + (E a κ).code.length + 1) noConsts).code.length))
    (by rw [hlen]; omega) (by rw [hlen]; exact hF _)
  simpa only [emitTest, append_assoc, cons_append, nil_append] using h

theorem eval_unwrap {inner : Expr} (hawait : ∀ handle, inner ≠ .await handle)
    (hcall : ∀ receiver operation args, inner ≠ .receiverCall receiver operation args) :
    evalOperand env cx slots (.resultUnwrap inner) = (do
      let value ← evalOperand env cx slots inner
      compute (unwrapToolResult value)) := by
  rw [evalOperand]
  · exact hawait
  · exact hcall

theorem applies_field (value : Value) (name : String) :
    Applies env slots (.field name) [value] (compute (readField value name)) :=
  ⟨fun _ => rfl, fun _ _ _ _ => rfl⟩

theorem applies_unwrap (value : Value) :
    Applies env slots .resultUnwrap [value] (compute (unwrapToolResult value)) :=
  ⟨fun _ => rfl, fun _ _ _ _ => rfl⟩

theorem applies_loadField (slot field : String) : Applies env slots (.loadField slot field) []
      (loadSlot slots slot >>= fun value => compute (readField value field)) :=
  applies_slot (fun _ => rfl) fun _ _ _ _ => rfl

theorem applies_loadFieldUnwrap (slot field : String) :
    Applies env slots (.loadFieldUnwrap slot field) [] (loadSlot slots slot >>= fun value =>
      compute (readField value field) >>= fun value => compute (unwrapToolResult value)) := by
  refine applies_slot (fun _ => rfl) fun ip S I history => ?_
  rw [execute]
  refine congrArg _ (funext fun value => ?_)
  rw [bind_apply]
  cases readField value field <;> rfl

/-- The code of an operand computes it wherever it stands. -/
def Computed (env : Environment) (cx : CompileContext) (slots : Slots) (r : Nat) (e : Expr) :
    Prop :=
  ∀ a κ, Agrees cx κ slots → Sound env cx slots (compileExpr cx r .value e a κ) a []
    (evalOperand env (plain cx) slots e) ([·])

theorem sound_all {es : List Expr} (heach : ∀ e ∈ es, Computed env cx slots r e) (a : Nat)
    (κ : Consts) (hκ : Agrees cx κ slots) :
    Sound env cx slots (compileAll cx r es a κ) a [] (evalAll env (plain cx) slots es) id := by
  induction es generalizing a κ with
  | nil =>
    rw [compileAll]
    exact sound_nothing hκ
  | cons e rest ih =>
    obtain ⟨hfirst, hrest⟩ := forall_mem_cons.mp heach
    rw [compileAll]
    exact sound_cons (hfirst a κ hκ) (ih hrest)

/-- The source's `compile_validate_call`, with a schema that is known or not. -/
theorem sound_validate {value schema : Expr} (hκ : Agrees cx κ slots)
    (hschemaOperand : isOperand schema = true)
    (hf : cx.foldFor .value κ (.builtinCall "validate" [value, schema]) = none)
    (hvalue : Computed env cx slots r value) (hschema : Computed env cx slots r schema) :
    Sound env cx slots (compileExpr cx r .value (.builtinCall "validate" [value, schema]) a κ) a []
      (evalOperand env (plain cx) slots (.builtinCall "validate" [value, schema])) ([·]) := by
  rw [compileExpr, evalOperand]
  simp only [hf]
  cases hcompiled : compiledSchema cx κ schema with
  | some compiled =>
    obtain ⟨known, hfold, hunwrap⟩ := Option.bind_eq_some_iff.mp hcompiled
    simp only [emitSeq_discard, eval_fold hκ hschemaOperand hfold, pure_bind]
    refine sound_apply (hvalue a κ hκ) fun v _ => ⟨fun _ => rfl, fun _ _ _ _ => ?_⟩
    rw [executeValidate, hunwrap]
    rfl
  | none =>
    simp only [emitSeq_discard]
    exact sound_two (hvalue a κ hκ) hschema fun v w => ⟨fun _ => rfl, fun _ _ _ _ => rfl⟩

theorem sound_builtin {name : String} {args : List Expr}
    (hf : cx.foldFor .value κ (.builtinCall name args) = none)
    (hformat : ∀ template valueArgs, name = "format" → args ≠ .string template :: valueArgs)
    (hvalidate : ∀ value schema, name = "validate" → args ≠ [value, schema])
    (hargs : Sound env cx slots (compileAll cx r args a κ) a []
      (evalAll env (plain cx) slots args) id) :
    Sound env cx slots (compileExpr cx r .value (.builtinCall name args) a κ) a []
      (evalOperand env (plain cx) slots (.builtinCall name args)) ([·]) := by
  rw [compile_builtin hf hformat hvalidate, evalOperand_builtin hformat hvalidate, emitSeq_discard]
  refine sound_apply hargs fun vs hvs => applies_intrinsic ?_
  rw [id, evalAll_length hvs, resolveIntrinsic_argc]

/-- A call of a builtin, given its arguments one by one. -/
theorem sound_builtinCall {name : String} {args : List Expr} (he : allOperands args = true)
    (hκ : Agrees cx κ slots) (hf : cx.foldFor .value κ (.builtinCall name args) = none)
    (heach : ∀ e ∈ args, Computed env cx slots r e) :
    Sound env cx slots (compileExpr cx r .value (.builtinCall name args) a κ) a []
      (evalOperand env (plain cx) slots (.builtinCall name args)) ([·]) := by
  have hargs := sound_all heach a κ hκ
  by_cases hformat : name = "format"
  · subst hformat
    cases args with
    | nil => exact sound_builtin hf (by simp) (by simp) hargs
    | cons template valueArgs =>
      cases template with
      | string template =>
        rw [compileExpr, evalOperand]; simp only [hf, emitSeq_discard]
        exact sound_format hκ he (sound_all (forall_mem_cons.mp heach).2 a κ hκ)
      | _ => exact sound_builtin hf (by simp) (by simp) hargs
  · by_cases hvalidate : name = "validate"
    · subst hvalidate
      rcases args with _ | ⟨value, _ | ⟨schema, _ | ⟨third, rest⟩⟩⟩
      · exact sound_builtin hf (by simp) (by simp) hargs
      · exact sound_builtin hf (by simp) (by simp) hargs
      · obtain ⟨hvalue, hschema⟩ := by simpa using heach
        have hlast := and_eq_true_iff.mp (and_eq_true_iff.mp he).2
        exact sound_validate hκ hlast.1 hf hvalue hschema
      · exact sound_builtin hf (by simp) (by simp) hargs
    · exact sound_builtin hf (fun _ _ h => absurd h hformat) (fun _ _ h => absurd h hvalidate)
        hargs

theorem sound_binaryCall {left right : Expr} {op : BinaryOp}
    (he : isOperand left = true ∧ isOperand right = true) (hκ : Agrees cx κ slots)
    (hf : cx.foldFor .value κ (.binary left op right) = none)
    (hleft : Computed env cx slots r left) (hright : Computed env cx slots r right) :
    Sound env cx slots (compileExpr cx r .value (.binary left op right) a κ) a []
      (evalOperand env (plain cx) slots (.binary left op right)) ([·]) := by
  by_cases hand : op = .and
  · subst hand
    rw [compileExpr]; simp only [hf, emitSeq_discard]
    exact sound_logical (t := id) (b := false) (fun target v => branches_false v target)
      (hleft a κ hκ) hright
  · by_cases hor : op = .or
    · subst hor
      rw [compileExpr]; simp only [hf, emitSeq_discard]
      exact sound_or (hleft a κ hκ) hright
    · rw [compile_binary hand hor hf, emitSeq_discard]
      exact sound_binary hand hor he.1 he.2 hκ (hleft a κ hκ) hright

/-- The `?` of an operand, of a field or of anything that is not called or awaited. -/
theorem sound_unwrapped {inner : Expr} (hκ : Agrees cx κ slots)
    (hf : cx.foldFor .value κ (.resultUnwrap inner) = none)
    (hawait : ∀ handle, inner ≠ .await handle)
    (hcall : ∀ receiver operation args, inner ≠ .receiverCall receiver operation args)
    (hinner : Computed env cx slots r inner) :
    Sound env cx slots (compileExpr cx r .value (.resultUnwrap inner) a κ) a []
      (evalOperand env (plain cx) slots (.resultUnwrap inner)) ([·]) := by
  have hplain := sound_apply (hinner a κ hκ) fun v _ => applies_unwrap v
  rw [eval_unwrap hawait hcall]
  cases inner with
  | await handle => exact absurd rfl (hawait handle)
  | receiverCall receiver operation args => exact absurd rfl (hcall receiver operation args)
  | field target field =>
    cases target with
    | «variable» name =>
      rw [compileExpr]; simp only [hf, emitSeq_discard]
      rw [evalOperand, evalOperand, bind_assoc]
      exact sound_emit hκ (applies_loadFieldUnwrap name field)
    | _ => rw [compileExpr.eq_def]; simp only [hf, emitSeq_discard]; exact hplain
  | _ => rw [compileExpr.eq_def]; simp only [hf, emitSeq_discard]; exact hplain

theorem computes_iterable {iterable : Expr} {args whole : Emitter}
    (hargs : ∀ name items, iterable = .builtinCall name items →
      Sound env cx slots (args a κ) a [] (evalAll env (plain cx) slots items) id)
    (hwhole : Sound env cx slots (whole a κ) a []
      (evalOperand env (plain cx) slots iterable) ([·])) :
    Opens env slots a (emitIterable b args whole iterable a κ).code b
      (evalIterable env (plain cx) slots (evalOperand env (plain cx) slots iterable) iterable) := by
  have hplain := opens_values (b := b) hwhole.computes
  cases iterable with
  | builtinCall name items =>
    by_cases hname : name = "range"
    · simp only [emitIterable, evalIterable, if_pos hname]
      exact opens_range (hargs name items rfl).computes fun vs hvs => evalAll_length hvs
    · simp only [emitIterable, evalIterable, if_neg hname]
      exact hplain
  | _ => exact hplain

mutual
/-- An awaited aggregate is given as many values as its shape counts. -/
theorem evalShape_length (e : Expr) (leaves : List BatchLeaf) (count : Nat) {whole : Eval Value}
    {vs : List Value} (h : Returns (evalShape env cx slots whole e) vs) :
    (awaitShape leaves count e).stackValueCount = count + vs.length := by
  have hplain : Returns (whole >>= fun value => pure [value]) vs →
      count + 1 = count + vs.length := by
    intro h
    obtain ⟨v, -, hpure⟩ := h.of_bind
    rw [returns_pure hpure]
    rfl
  have hcall : ∀ receiver args, Returns (evalOperand env cx slots receiver >>= fun receiver =>
      evalAll env cx slots args >>= fun values => pure (receiver :: values)) vs →
      count + args.length + 1 = count + vs.length := by
    intro receiver args h
    obtain ⟨v, -, htail⟩ := h.of_bind
    obtain ⟨rest, hrest, hpure⟩ := htail.of_bind
    rw [returns_pure hpure, length_cons, evalAll_length hrest, Nat.add_assoc]
  cases e with
  | receiverCall receiver operation args =>
    rw [evalShape] at h
    exact hcall receiver args h
  | resultUnwrap inner =>
    cases inner with
    | receiverCall receiver operation args =>
      rw [evalShape] at h
      exact hcall receiver args h
    | _ =>
      rw [evalShape.eq_def] at h
      rw [awaitShape.eq_def]
      exact hplain h
  | tuple items | list items =>
    rw [evalShape] at h
    exact evalShapes_length items leaves count h
  | record entries =>
    rw [evalShape] at h
    exact evalEntryShapes_length entries leaves count h
  | _ =>
    rw [evalShape.eq_def] at h
    exact hplain h
theorem evalShapes_length (es : List Expr) (leaves : List BatchLeaf) (count : Nat)
    {vs : List Value} (h : Returns (evalShapes env cx slots es) vs) :
    (awaitShapes leaves count es).stackValueCount = count + vs.length := by
  cases es with
  | nil =>
    rw [evalShapes] at h
    rw [returns_pure h]
    rfl
  | cons e rest =>
    rw [evalShapes] at h
    obtain ⟨first, hfirst, htail⟩ := h.of_bind
    obtain ⟨others, hothers, hpure⟩ := htail.of_bind
    have hhead := evalShape_length e leaves count hfirst
    rw [returns_pure hpure, awaitShapes, evalShapes_length rest _ _ hothers, hhead,
      length_append, Nat.add_assoc]
theorem evalEntryShapes_length (entries : List (String × Expr)) (leaves : List BatchLeaf)
    (count : Nat) {vs : List Value} (h : Returns (evalEntryShapes env cx slots entries) vs) :
    (awaitEntryShapes leaves count entries).stackValueCount = count + vs.length := by
  cases entries with
  | nil =>
    rw [evalEntryShapes] at h
    rw [returns_pure h]
    rfl
  | cons entry rest =>
    rw [evalEntryShapes] at h
    obtain ⟨first, hfirst, htail⟩ := h.of_bind
    obtain ⟨others, hothers, hpure⟩ := htail.of_bind
    have hhead := evalShape_length entry.2 leaves count hfirst
    rw [returns_pure hpure, awaitEntryShapes, evalEntryShapes_length rest _ _ hothers, hhead,
      length_append, Nat.add_assoc]
end

theorem applies_aggregate {handle : Expr} {vs : List Value} {unwrap : Bool}
    (h : (awaitShape [] 0 handle).stackValueCount = 0 + vs.length) :
    Applies env slots (.resourceOperationBatch (awaitBatch handle unwrap)) vs
      (batchOperation env (awaitBatch handle unwrap) vs) := by
  refine applies_batch ?_
  rw [awaitBatch, h, Nat.zero_add]

theorem sound_folded {e : Expr} {value : Value} (hκ : Agrees cx κ slots)
    (he : isOperand e = true) (h : cx.foldFor .value κ e = some value) :
    Sound env cx slots (compileExpr cx r .value e a κ) a []
      (evalOperand env (plain cx) slots e) ([·]) := by
  have hfold : cx.foldedValue κ e = some value := by
    rwa [CompileContext.foldFor, if_neg (by simp)] at h
  rw [compileExpr_folded h, emitSeq_discard, eval_foldedValue hκ he hfold]
  exact sound_emit hκ (applies_pushConst value)

mutual
/-- The code of an operand computes the operand. -/
theorem sound_operand (e : Expr) (he : isOperand e = true) (r : Nat) {slots : Slots} {κ : Consts}
    (hκ : Agrees cx κ slots) (a : Nat) :
    Sound env cx slots (compileExpr cx r .value e a κ) a []
      (evalOperand env (plain cx) slots e) ([·]) := by
  cases hf : cx.foldFor .value κ e with
  | some value => exact sound_folded hκ he hf
  | none =>
    cases e with
    | null | bool value | number value | string value | processRef process | resourceRef resource =>
      rw [compileExpr]; simp only [hf, emitSeq_discard]
      exact sound_emit hκ (applies_pushConst _)
    | «variable» name =>
      rw [compileExpr]; simp only [hf, emitSeq_discard]
      exact sound_emit hκ (applies_loadName name)
    | waitSignal name =>
      rw [compileExpr]; simp only [hf, emitSeq_discard]
      exact sound_emit hκ (applies_waitSignal name)
    | tuple items =>
      rw [compileExpr]; simp only [hf, emitSeq_discard]
      exact sound_apply (sound_all (sound_each items he r) a κ hκ)
        fun vs hvs => applies_buildTuple (evalAll_length hvs)
    | list items =>
      rw [compileExpr]; simp only [hf, emitSeq_discard]
      exact sound_apply (sound_all (sound_each items he r) a κ hκ)
        fun vs hvs => applies_buildList (evalAll_length hvs)
    | record entries =>
      rw [compileExpr]; simp only [hf, emitSeq_discard]
      refine sound_apply (sound_entries entries he r hκ a)
        fun vs hvs => applies_buildRecord ?_
      rw [id, evalEntries_length hvs, length_map]
    | startProcess process entries =>
      rw [compileExpr]; simp only [hf, emitSeq_discard]
      refine sound_apply (sound_entries entries he r hκ a)
        fun vs hvs => applies_startProcess ?_
      rw [id, evalEntries_length hvs, length_map]
    | listComprehension element clauses =>
      have hparts := and_eq_true_iff.mp he
      rw [compileExpr]; simp only [hf, emitSeq_discard]
      refine ⟨?_, fun _ => holds_noConsts⟩
      have hlist : Computes env slots a [.buildList 0] [] (pure (.list [])) ([·]) :=
        computes_instruction (applies_buildList rfl)
      have hclauses := sound_clauses (E := emitSeq (compileExpr cx r .value element)
        (emit [.listAppend])) clauses hparts.1 r hκ (a + 1)
        (fun slots acc => evalOperand env (plain cx) slots element >>= fun item =>
          compute (executePushBuiltin acc item))
        (fun slots a κ acc hκ => ((sound_operand element hparts.2 r hκ a).computes.frame
          [acc]).append fun v _ => computes_instruction (i := .listAppend)
            ⟨fun _ => rfl, fun _ _ _ _ => rfl⟩) (.list [])
      have h := Computes.after hlist hclauses
      rw [evalOperand]
      simpa only [emitSeq, emit, clearConsts, updateConsts, append_nil, length_cons,
        length_nil, Nat.zero_add] using h
    | ifElse condition thenBlock elseBlock =>
      have hparts := and_eq_true_iff.mp he
      have hfirst := and_eq_true_iff.mp hparts.1
      rw [compileExpr]; simp only [hf, emitSeq_discard]
      have hcondition := decides_condition hfirst.1 hκ (sound_operand condition hfirst.1 r hκ a)
        (sound_sides condition hfirst.1 r hκ a)
      exact sound_if (fun target => (hcondition target).1) (hcondition 0).2
        (fun a κ hκ => sound_operand thenBlock hfirst.2 r hκ a)
        fun a κ hκ => sound_operand elseBlock hparts.2 r hκ a
    | receiverCall receiver operation args =>
      have hparts := and_eq_true_iff.mp he
      rw [compileExpr]; simp only [hf, emitSeq_discard]
      exact sound_call (sound_operand receiver hparts.1 r hκ a)
        (sound_all (sound_each args hparts.2 r)) fun vs hvs => evalAll_length hvs
    | hostDescriptorConstructor typeName input | unary op input =>
      rw [compileExpr]; simp only [hf, emitSeq_discard]
      exact sound_apply (sound_operand input he r hκ a)
        fun v _ => ⟨fun _ => rfl, fun _ _ _ _ => rfl⟩
    | sleepFor input =>
      rw [compileExpr]; simp only [hf, emitSeq_discard]
      exact sound_apply (sound_operand input he r hκ a) fun v _ => applies_sleepFor v
    | sleepUntil input =>
      rw [compileExpr]; simp only [hf, emitSeq_discard]
      exact sound_apply (sound_operand input he r hκ a) fun v _ => applies_sleepUntil v
    | await handle =>
      rw [compileExpr]; simp only [hf, emitSeq_discard]
      exact sound_await handle he false r hκ a (sound_operand handle he r hκ a)
    | resultUnwrap inner =>
      have hinner : Computed env cx slots r inner := fun a _ hκ => sound_operand inner he r hκ a
      cases inner with
      | await handle =>
        rw [compileExpr]; simp only [hf, emitSeq_discard]
        exact sound_await handle he true r hκ a (sound_operand handle he r hκ a)
      | receiverCall receiver operation args =>
        have hparts := and_eq_true_iff.mp he
        rw [compileExpr]; simp only [hf, emitSeq_discard]
        exact sound_call (sound_operand receiver hparts.1 r hκ a)
          (sound_all (sound_each args hparts.2 r)) fun vs hvs => evalAll_length hvs
      | _ => exact sound_unwrapped hκ hf (by simp) (by simp) hinner
    | signalRun run name payload =>
      have hparts := and_eq_true_iff.mp he
      rw [compileExpr]; simp only [hf, emitSeq_discard]
      exact sound_two (sound_operand run hparts.1 r hκ a)
        (fun a κ hκ => sound_operand payload hparts.2 r hκ a)
        fun v w => applies_signalRun v w name
    | index target index =>
      have hparts := and_eq_true_iff.mp he
      rw [compileExpr]; simp only [hf, emitSeq_discard]
      exact sound_two (sound_operand target hparts.1 r hκ a)
        (fun a κ hκ => sound_operand index hparts.2 r hκ a)
        fun v w => ⟨fun _ => rfl, fun _ _ _ _ => rfl⟩
    | builtinCall name args => exact sound_builtinCall he hκ hf (sound_each args he r)
    | field target name =>
      have htarget := sound_operand target he r hκ a
      rw [evalOperand]
      cases target with
      | «variable» root =>
        rw [compileExpr]; simp only [hf, emitSeq_discard]
        exact sound_emit hκ (applies_loadField root name)
      | _ =>
        rw [compileExpr.eq_def]; simp only [hf, emitSeq_discard]
        exact sound_apply htarget fun v _ => applies_field v name
    | binary left op right =>
      have hparts := and_eq_true_iff.mp he
      exact sound_binaryCall hparts hκ hf (fun a _ hκ => sound_operand left hparts.1 r hκ a)
        fun a _ hκ => sound_operand right hparts.2 r hκ a
    | typeLiteral ty =>
      rw [compileExpr]; simp only [hf, emitSeq_discard]
      exact sound_typeLiteral hκ ty
    | _ => cases he
theorem sound_each (es : List Expr) (hes : allOperands es = true) (r : Nat) {slots : Slots} :
    ∀ e ∈ es, Computed env cx slots r e := by
  cases es with
  | nil => simp
  | cons e rest =>
    have hparts := and_eq_true_iff.mp hes
    exact forall_mem_cons.mpr
      ⟨fun a _ hκ => sound_operand e hparts.1 r hκ a, sound_each rest hparts.2 r⟩
theorem sound_entries (entries : List (String × Expr)) (hes : entryOperands entries = true)
    (r : Nat) {slots : Slots} {κ : Consts} (hκ : Agrees cx κ slots) (a : Nat) :
    Sound env cx slots (compileEntries cx r entries a κ) a []
      (evalEntries env (plain cx) slots entries) id := by
  cases entries with
  | nil => rw [compileEntries]; exact sound_nothing hκ
  | cons entry rest =>
    have hparts := and_eq_true_iff.mp hes
    rw [compileEntries]
    exact sound_cons (sound_operand entry.2 hparts.1 r hκ a)
      fun a κ hκ => sound_entries rest hparts.2 r hκ a
theorem sound_clauses (clauses : List (ListComprehensionClause Expr))
    (hes : clauseOperands clauses = true) (r : Nat) {slots : Slots} {κ : Consts}
    (hκ : Agrees cx κ slots) (a : Nat) {E : Emitter} (f : Slots → Value → Eval Value)
    (hE : ∀ slots a κ acc, Agrees cx κ slots →
      Computes env slots a (E a κ).code [acc] (f slots acc) ([·])) (acc : Value) :
    Computes env slots a (compileClauses cx r E clauses a κ).code [acc]
      (evalClauses env (plain cx) f clauses slots acc) ([·]) := by
  cases clauses with
  | nil => rw [compileClauses]; exact hE slots a κ acc hκ
  | cons clause rest =>
    cases clause with
    | each binding iterable =>
      have hparts := and_eq_true_iff.mp hes
      rw [compileClauses, evalClauses]
      have hopens := computes_iterable (b := binding) (sound_rangeArgs iterable hparts.1 r hκ a)
        (sound_operand iterable hparts.1 r hκ a)
      exact computes_each rfl hopens fun value acc =>
        sound_clauses rest hparts.2 r (fun _ => holds_noConsts) _ f hE acc
    | test condition =>
      have hparts := and_eq_true_iff.mp hes
      rw [compileClauses, evalClauses]
      have hcondition := decides_condition hparts.1 hκ (sound_operand condition hparts.1 r hκ a)
        (sound_sides condition hparts.1 r hκ a)
      exact sound_test (fun target => (hcondition target).1) fun a =>
        sound_clauses rest hparts.2 r (fun _ => holds_noConsts) a f hE acc
theorem sound_rangeArgs (iterable : Expr) (he : isOperand iterable = true) (r : Nat)
    {slots : Slots} {κ : Consts} (hκ : Agrees cx κ slots) (a : Nat) (name : String)
    (items : List Expr) (heq : iterable = .builtinCall name items) :
    Sound env cx slots (compileRangeArgs cx r iterable a κ) a []
      (evalAll env (plain cx) slots items) id := by
  cases iterable with
  | builtinCall name' args =>
    have hargs := sound_all (sound_each args he r) a κ hκ
    cases heq
    exact hargs
  | _ => cases heq
/-- The two sides of a comparison that is a condition. -/
theorem sound_sides (e : Expr) (he : isOperand e = true) (r : Nat) {slots : Slots} {κ : Consts}
    (hκ : Agrees cx κ slots) (a : Nat) (left : Expr) (op : BinaryOp) (right : Expr)
    (heq : e = .binary left op right) :
    Sound env cx slots (compileExpr cx r .value left a κ) a []
      (evalOperand env (plain cx) slots left) ([·]) ∧
    ∀ a κ, Agrees cx κ slots → Sound env cx slots (compileExpr cx r .value right a κ) a []
      (evalOperand env (plain cx) slots right) ([·]) := by
  cases e with
  | binary first op' second =>
    have hparts := and_eq_true_iff.mp he
    have hfirst := sound_operand first hparts.1 r hκ a
    have hsecond : ∀ a κ, Agrees cx κ slots → Sound env cx slots
        (compileExpr cx r .value second a κ) a []
        (evalOperand env (plain cx) slots second) ([·]) :=
      fun a κ hκ => sound_operand second hparts.2 r hκ a
    cases heq
    exact ⟨hfirst, hsecond⟩
  | _ => cases heq
theorem sound_await (handle : Expr) (he : isOperand handle = true) (unwrap : Bool) (r : Nat)
    {slots : Slots} {κ : Consts} (hκ : Agrees cx κ slots) (a : Nat) {whole : Emitter}
    {x : Eval Value} (hwhole : Sound env cx slots (whole a κ) a [] x ([·])) :
    Sound env cx slots (compileAwait cx r unwrap whole handle a κ) a []
      (evalAwait env (plain cx) slots unwrap x handle) ([·]) := by
  have hplain : Sound env cx slots (emitSeq whole (emit [awaitInstruction unwrap]) a κ) a []
      (x >>= awaitOperation env unwrap) ([·]) :=
    sound_apply hwhole fun v _ => applies_await unwrap v
  cases handle with
  | receiverCall receiver operation args =>
    have hparts := and_eq_true_iff.mp he
    rw [compileAwait, evalAwait]
    exact sound_call (sound_operand receiver hparts.1 r hκ a)
      (sound_all (sound_each args hparts.2 r)) fun vs hvs => evalAll_length hvs
  | resultUnwrap inner =>
    have hinner : Sound env cx slots (emitSeq (compileExpr cx r .value inner)
        (emit [.awaitHandleUnwrap]) a κ) a [] (evalOperand env (plain cx) slots inner >>=
          awaitOperation env true) ([·]) :=
      sound_apply (sound_operand inner he r hκ a) fun v _ => applies_await true v
    cases inner with
    | receiverCall receiver operation args =>
      have hparts := and_eq_true_iff.mp he
      rw [compileAwait, evalAwait]
      exact sound_call (sound_operand receiver hparts.1 r hκ a)
        (sound_all (sound_each args hparts.2 r)) fun vs hvs => evalAll_length hvs
    | _ => rw [compileAwait.eq_def, evalAwait.eq_def]; exact hinner
  | tuple items =>
    rw [compileAwait, evalAwait]
    by_cases hawaits : awaitsAggregate (.tuple items) = true
    · rw [if_pos hawaits, if_pos hawaits]
      exact sound_apply (sound_shapes items he r hκ a)
        fun vs hvs => applies_aggregate (evalShapes_length items [] 0 hvs)
    · rw [if_neg hawaits, if_neg hawaits]
      exact hplain
  | list items =>
    rw [compileAwait, evalAwait]
    by_cases hawaits : awaitsAggregate (.list items) = true
    · rw [if_pos hawaits, if_pos hawaits]
      exact sound_apply (sound_shapes items he r hκ a)
        fun vs hvs => applies_aggregate (evalShapes_length items [] 0 hvs)
    · rw [if_neg hawaits, if_neg hawaits]
      exact hplain
  | record entries =>
    rw [compileAwait, evalAwait]
    by_cases hawaits : awaitsAggregate (.record entries) = true
    · rw [if_pos hawaits, if_pos hawaits]
      exact sound_apply (sound_entryShapes entries he r hκ a)
        fun vs hvs => applies_aggregate (evalEntryShapes_length entries [] 0 hvs)
    · rw [if_neg hawaits, if_neg hawaits]
      exact hplain
  | _ => rw [compileAwait.eq_def, evalAwait.eq_def]; exact hplain
theorem sound_shape (e : Expr) (he : isOperand e = true) (r : Nat) {slots : Slots} {κ : Consts}
    (hκ : Agrees cx κ slots) (a : Nat) {whole : Emitter} {x : Eval Value}
    (hwhole : Sound env cx slots (whole a κ) a [] x ([·])) :
    Sound env cx slots (compileShape cx r whole e a κ) a []
      (evalShape env (plain cx) slots x e) id := by
  have hplain : Sound env cx slots (whole a κ) a [] (x >>= fun value => pure [value]) id :=
    ⟨hwhole.computes.map fun _ => rfl, hwhole.agrees⟩
  cases e with
  | receiverCall receiver operation args =>
    have hparts := and_eq_true_iff.mp he
    rw [compileShape, evalShape]
    exact sound_cons (sound_operand receiver hparts.1 r hκ a)
      (sound_all (sound_each args hparts.2 r))
  | resultUnwrap inner =>
    cases inner with
    | receiverCall receiver operation args =>
      have hparts := and_eq_true_iff.mp he
      rw [compileShape, evalShape]
      exact sound_cons (sound_operand receiver hparts.1 r hκ a)
        (sound_all (sound_each args hparts.2 r))
    | _ => rw [compileShape.eq_def, evalShape.eq_def]; exact hplain
  | tuple items | list items => rw [compileShape, evalShape]; exact sound_shapes items he r hκ a
  | record entries => rw [compileShape, evalShape]; exact sound_entryShapes entries he r hκ a
  | _ => rw [compileShape.eq_def, evalShape.eq_def]; exact hplain
theorem sound_shapes (es : List Expr) (hes : allOperands es = true) (r : Nat) {slots : Slots}
    {κ : Consts} (hκ : Agrees cx κ slots) (a : Nat) :
    Sound env cx slots (compileShapes cx r es a κ) a []
      (evalShapes env (plain cx) slots es) id := by
  cases es with
  | nil => rw [compileShapes]; exact sound_nothing hκ
  | cons e rest =>
    have hparts := and_eq_true_iff.mp hes
    rw [compileShapes]
    exact sound_join (sound_shape e hparts.1 r hκ a (sound_operand e hparts.1 r hκ a))
      fun a κ hκ => sound_shapes rest hparts.2 r hκ a
theorem sound_entryShapes (entries : List (String × Expr)) (hes : entryOperands entries = true)
    (r : Nat) {slots : Slots} {κ : Consts} (hκ : Agrees cx κ slots) (a : Nat) :
    Sound env cx slots (compileEntryShapes cx r entries a κ) a []
      (evalEntryShapes env (plain cx) slots entries) id := by
  cases entries with
  | nil => rw [compileEntryShapes]; exact sound_nothing hκ
  | cons entry rest =>
    have hparts := and_eq_true_iff.mp hes
    rw [compileEntryShapes]
    exact sound_join (sound_shape entry.2 hparts.1 r hκ a
      (sound_operand entry.2 hparts.1 r hκ a))
      fun a κ hκ => sound_entryShapes rest hparts.2 r hκ a
end

/-! ## Programs -/

/-- How a run ends that finishes with this value or fails with this error. -/
def finished (env : Environment) (slots : Slots) : Result × History → Halted
  | (.ok value, later) =>
    ⟨.ok (match env.mode with
      | .foreground => .finished value
      | .process => .processFinished value), slots, later⟩
  | (.error error, later) => ⟨.error (.raised error), slots, later⟩

/-- However a program is compiled that finishes with an operand, its run makes the requests that
the evaluation makes, in the same order, and ends with its value or with its error. -/
theorem finish_computes (env : Environment) (cx : CompileContext) (e : Expr)
    (he : isOperand e = true) (code : Code)
    (compiled : compileProgramInternal cx (.finish e) = some code) (slots : Slots)
    (history : History) :
    Halts (step code env) (initial slots history)
      (finished env slots ((evalOperand env (plain cx) slots e >>= fun value =>
        requestOperation env (.finish value) "finish" "finish failed") history)) := by
  obtain ⟨-, hcompiled⟩ := Option.ite_none_left_eq_some.mp compiled
  cases hcompiled
  have hcode : compileProgram cx (.finish e) =
      (compileExpr cx 0 .value e 0 noConsts).code ++ [.finish] := by
    have hfold : cx.foldFor .value noConsts (.finish e) = none := by
      simp [CompileContext.foldFor, CompileContext.foldedValue, CompileContext.fold,
        foldCompileTimeExpr]
    simp [compileProgram, isTerminalExpr, compileExpr, hfold, emitSeq, emit]
  have hflow : Flow env false 0 0 0 1 (compileExpr cx 0 .value e 0 noConsts).code :=
    flow_operand e he .value 0 0 0 noConsts
  have hsound : Sound env cx slots (compileExpr cx 0 .value e 0 noConsts) 0 [] _ ([·]) :=
    sound_operand e he 0 (fun _ => holds_noConsts) 0
  have hrun := hsound.computes _ 0 [] [] history (codeAt_first (d := [.finish]) hflow)
  rw [Nat.zero_add] at hrun
  rw [hcode, bind_apply]
  rcases hvalue : evalOperand env (plain cx) slots e history with ⟨error | value, later⟩
  · rw [hvalue] at hrun
    exact hrun
  · rw [hvalue] at hrun
    refine Halts.of_reaches hrun (Halts.of_step ?_)
    rw [step_eq (i := .finish) (by simp), execute]
    simp only [Machine.withTop, Machine.request, requestOperation, reverse_singleton,
      singleton_append]
    cases env.ask later (.finish value) "finish" <;> rfl

/-- Each call of a batch is answered with null, and the value of the program is taken. -/
def batchHost : Environment :=
  { nullHost with
    host := ⟨fun _ op =>
      match op with
      | .resourceOperationBatch operations =>
        .ok (.resourceOperationBatch (operations.map fun _ => .ok .null))
      | .finish value => .ok (.value value)
      | _ => .ok .unit⟩ }

/-- The operand `await (tools.ask()?, "b")`. -/
def awaitedPair : Expr :=
  .await (.tuple
    [.resultUnwrap (.receiverCall (.resourceRef ⟨["tools"], "Tools", "tools"⟩) "ask" []),
      .string "b"])

theorem finish_computes_pair :
    Halts (step (compileProgram trackedContext (.finish awaitedPair)) batchHost)
      (initial (fun _ => none) [])
      ⟨.ok (.finished (.tuple [.null, .string "b"])), fun _ => none,
        [.finish (.tuple [.null, .string "b"]),
          .resourceOperationBatch [⟨.resource ⟨"Tools", "tools"⟩, "ask", []⟩]]⟩ :=
  finish_computes batchHost trackedContext awaitedPair rfl _ rfl _ []

end ScriptExpressions
