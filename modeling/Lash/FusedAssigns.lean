import Lash.ScriptAssigns

/-!
# Assignments with instructions of their own

The compiler has instructions for `x = x + e`, `x = push(x, e)` and `x[i] = x[i] + c`.
Their runs are compared with the runs of the code that evaluates the right-hand side
with the instructions every expression is compiled to, and stores it. They agree but
for two slips: an append to a text leaves the text as it was, and a negative zero
that is added to a missing entry becomes the entry.
-/

namespace FusedAssigns

open ScriptValues ScriptOps ScriptSyntax ScriptFolding ScriptCompiler
open List
open ScriptMachine ScriptFlows ScriptDiscipline ScriptEvaluation ScriptConstants
open ScriptOperands ScriptExpressions ScriptRepeats ScriptAssigns StepMachines

/-- The code of an assignment as the compiler makes it. -/
def fusedCode (cx : CompileContext) (κ : Consts) (root : String)
    (steps : List (AssignPathStep Expr)) (e : Expr) : Code :=
  (compileExpr cx 0 .effect (.assign root steps e) 0 κ).code

/-- The right-hand side, nothing folded, and the instruction that stores it. -/
def genericCode (cx : CompileContext) (root : String) (steps : List (AssignPathStep Expr))
    (e : Expr) : Code :=
  match steps with
  | [] => (emitSeq (compileExpr (plain cx) 0 .value e) (emit [.storeName root]) 0 noConsts).code
  | steps => (emitSeq (compileSteps (plain cx) 0 steps) (emitSeq (compileExpr (plain cx) 0 .value e)
      (emit [.pathAssign root (pathSteps steps)])) 0 noConsts).code

/-- Whether the compiler has an instruction for the assignment. -/
def isFused (cx : CompileContext) (κ : Consts) (root : String) (steps : List (AssignPathStep Expr))
    (e : Expr) : Bool :=
  match steps with
  | [] => (fusedAssign cx κ root e).isSome
  | steps => (fusedIndexAssign cx κ root steps e).isSome

def succeeds {A : Type} : Except VmFailure A → Bool
  | .ok _ => true
  | .error _ => false

/-- Both runs end, with the same slots, and both succeed or both fail. -/
def SameEffect (env : Environment) (slots : Slots) (history : History) (c d : Code) : Prop :=
  ∃ h k, Halts (step c env) (initial slots history) h ∧
    Halts (step d env) (initial slots history) k ∧
    h.slots = k.slots ∧ succeeds h.result = succeeds k.result

/-- An item that has a value is appended to a text. -/
def AppendsToText (env : Environment) (cx : CompileContext) (slots : Slots) (history : History)
    (root : String) (steps : List (AssignPathStep Expr)) (e : Expr) : Prop :=
  ∃ item text value later, steps = [] ∧ e = .binary (.variable root) .add (.list [item]) ∧
    slots root = some (.string text) ∧
    evalOperand env (plain cx) slots item history = (.ok value, later)

/-- A negative zero is added to an entry that a record does not have. -/
def AddsNegativeZero (env : Environment) (cx : CompileContext) (κ : Consts) (slots : Slots)
    (history : History) (root : String) (steps : List (AssignPathStep Expr)) (e : Expr) : Prop :=
  ∃ index leftIndex right record value key later, steps = [.index index] ∧
    e = .binary (.index (.variable root) leftIndex) .add right ∧
    cx.foldNumber κ right = some (-0.0) ∧ slots root = some (.record record) ∧
    evalOperand env (plain cx) slots index history = (.ok value, later) ∧
    coerceString value = .ok key ∧ Record.get record key = none

variable {A : Type} {env : Environment} {cx : CompileContext} {slots : Slots} {κ : Consts}
variable {history : History} {c d : Code} {x y : Eval Slots}

/-! ## Runs of one assignment -/

/-- How a run ends that only assigns. -/
def halted (slots : Slots) : Except RuntimeError Slots × History → Halted
  | (.ok slots', later) => ⟨.ok .continued, slots', later⟩
  | (.error error, later) => ⟨.error (.raised error), slots, later⟩

theorem halts_assigns (h : Assigns env slots 0 c x) (hclosed : ∀ i ∈ c, i ≠ .breakJump) :
    Halts (step c env) (initial slots history) (halted slots (x history)) := by
  have hcode : CodeAt c 0 0 c := by
    intro k i hi
    rw [Nat.zero_add, patchBreak_eq 0 (hclosed i (mem_of_getElem? hi))]
    exact hi
  have hrun := h c 0 [] [] history hcode
  rw [Nat.zero_add] at hrun
  rcases hx : x history with ⟨error | slots', later⟩
  · rw [hx] at hrun
    exact hrun
  · rw [hx] at hrun
    refine Halts.of_reaches hrun (Halts.of_step ?_)
    have hend : (c)[c.length]? = none := getElem?_eq_none (Nat.le_refl _)
    simp only [step, hend]
    rfl

/-- The slots an assignment leaves, and whether it succeeds. -/
def effect (slots : Slots) (r : Except RuntimeError Slots × History) : Slots × Bool :=
  match r.1 with
  | .ok slots' => (slots', true)
  | .error _ => (slots, false)

theorem sameEffect_iff
    (hc : Halts (step c env) (initial slots history) (halted slots (x history)))
    (hd : Halts (step d env) (initial slots history) (halted slots (y history))) :
    SameEffect env slots history c d ↔ effect slots (x history) = effect slots (y history) := by
  have hhalted : ∀ r,
      effect slots r = ((halted slots r).slots, succeeds (halted slots r).result) := by
    rintro ⟨error | slots', later⟩ <;> rfl
  rw [hhalted, hhalted, Prod.mk.injEq]
  constructor
  · rintro ⟨h, k, hh, hk, hslots, hresult⟩
    rw [hh.unique hc] at hslots hresult
    rw [hk.unique hd] at hslots hresult
    exact ⟨hslots, hresult⟩
  · rintro ⟨hslots, hresult⟩
    exact ⟨_, _, hc, hd, hslots, hresult⟩

/-! ## Updates -/

/-- The effect of an update, given the operand. -/
def updated (slots : Slots) (name : String) (f : Value → Value → Result)
    (operand : Except RuntimeError Value) : Slots × Bool :=
  match operand, slots name with
  | .ok operand, some current =>
    match f current operand with
    | .ok value => (setSlot slots name (some value), true)
    | .error _ => (slots, false)
  | _, _ => (slots, false)

variable (name : String)

theorem effect_update (f : Value → Value → Result) (z : Eval Value) :
    effect slots (updateSlot slots name f z history) = updated slots name f (z history).1 := by
  rw [updateSlot, bind_apply]
  rcases hz : z history with ⟨error | operand, later⟩
  · rfl
  · simp only
    cases hslot : slots name with
    | none =>
      simp only [loadSlot, hslot, updated]
      rfl
    | some current =>
      simp only [loadSlot, hslot, updated, pure_bind]
      rw [bind_apply]
      cases f current operand <;> rfl

/-- The same update where the slot is read before the operand is evaluated. -/
theorem effect_readFirst (f : Value → Value → Result) (z : Eval Value) :
    effect slots ((loadSlot slots name >>= fun current => z >>= fun operand =>
      compute (f current operand) >>= fun value =>
        pure (setSlot slots name (some value))) history) = updated slots name f (z history).1 := by
  cases hslot : slots name with
  | none =>
    simp only [loadSlot, hslot]
    rcases z history with ⟨error | operand, later⟩ <;> simp only [updated, hslot] <;> rfl
  | some current =>
    simp only [loadSlot, hslot, pure_bind]
    rw [bind_apply]
    rcases hz : z history with ⟨error | operand, later⟩
    · simp only [updated]
      rfl
    · simp only [updated, hslot]
      rw [bind_apply]
      cases f current operand <;> rfl

theorem setSlot_inj {name : String} {value value' : Value}
    (h : setSlot slots name (some value) = setSlot slots name (some value')) : value = value' := by
  have hat := congrFun h name
  simpa [setSlot] using hat

/-- Two updates agree where they store the same value or store nothing. -/
theorem updated_eq_iff (f g : Value → Value → Result) (operand : Except RuntimeError Value) :
    updated slots name f operand = updated slots name g operand ↔
      ∀ v current, operand = .ok v → slots name = some current →
        (f current v).toOption = (g current v).toOption := by
  cases operand with
  | error error => simp [updated]
  | ok v =>
    cases hslot : slots name with
    | none => simp [updated, hslot]
    | some current =>
      have hcurrent : (∀ w now, (.ok v : Except RuntimeError Value) = .ok w →
          some current = some now → (f now w).toOption = (g now w).toOption) ↔
          (f current v).toOption = (g current v).toOption := by
        constructor
        · intro h
          exact h v current rfl rfl
        · rintro h w now hw hnow
          cases hw
          cases hnow
          exact h
      rw [hcurrent]
      simp only [updated, hslot]
      cases hf : f current v with
      | error error =>
        cases hg : g current v with
        | error error' | ok value => simp [Except.toOption]
      | ok value =>
        cases hg : g current v with
        | error error => simp [Except.toOption]
        | ok value' =>
          simp only [Except.toOption, Prod.mk.injEq, and_true, Option.some.injEq]
          exact ⟨setSlot_inj, fun h => by rw [h]⟩

/-! ## Appends -/

theorem append_ne {text suffix : String} (h : suffix.length ≠ 0) : text ++ suffix ≠ text := by
  intro heq
  have hlen := congrArg String.length heq
  rw [String.length_append] at hlen
  omega

theorem stringify_list (item : Value) : (stringifyValue (.list [item])).length ≠ 0 := by
  have hopen : ("[" : String).length = 1 := by decide
  simp only [stringifyValue, directJson, String.length_append]
  omega

/-- An append keeps a text, to which the sum adds. -/
theorem appendedValue_iff (current item : Value) :
    (appendedValue current item).toOption = (addValues current (.list [item])).toOption ↔
      ∀ text, current ≠ .string text := by
  cases current with
  | string text =>
    simp only [appendedValue, addValues, Except.map, Except.toOption, Option.some.injEq,
      Value.string.injEq]
    constructor
    · intro h
      exact absurd h.symm (append_ne (stringify_list item))
    · intro h
      exact absurd rfl (h text)
  | list items => simp [appendedValue, addValues]
  | tuple items => simp [appendedValue, addValues, Except.map, Except.toOption]
  | null | bool value | number value | image image | resource handle | record entries =>
    simp [appendedValue, addValues, asNumber, Except.map, Except.toOption]

/-! ## Increments -/

/-- The entry at an index with a number added, stored at the index. -/
def incrementedValue (right : Float) (current index : Value) : Result := do
  let value ← readIndex current index
  let sum ← addValues value (.number right)
  assignPath current [.index] [index] sum

theorem resolveExisting_ok {index : Value} {len position : Nat}
    (h : resolveExistingListAssignmentIndex index len = .ok position) :
    resolveIndex index len = .ok (some position) := by
  unfold resolveExistingListAssignmentIndex at h
  split at h
  · next number =>
      split at h
      · cases h
      · next hnumber =>
          split at h
          · next found hfound =>
              cases h
              simp only [resolveIndex, asOffset, asNumber, if_neg hnumber, hfound]
          · cases h
  · cases h

theorem increment_none {right : Float} {current index : Value}
    (h : ∀ sum, (assignIndex current index sum).toOption = none) :
    (incrementedValue right current index).toOption = none := by
  unfold incrementedValue
  cases readIndex current index with
  | error error => rfl
  | ok value =>
    change (addValues value (.number right) >>= _).toOption = none
    cases addValues value (.number right) with
    | error error => rfl
    | ok sum => exact h sum

theorem insert_inj {record : Record} {key : String} {value value' : Value}
    (h : Record.insert record key value = Record.insert record key value') : value = value' := by
  have hget := congrArg (Record.get · key) h
  simpa [Record.get_insert] using hget

/-- The instruction increments as the expressions do, but for a missing entry and a negative
zero. -/
theorem increment_iff (right : Float) (current index : Value) :
    (addAssignIndexNumber current index right).toOption =
        (incrementedValue right current index).toOption ↔
      ¬ ∃ record key, current = .record record ∧ coerceString index = .ok key ∧
        Record.get record key = none ∧ right = -0.0 := by
  cases current with
  | list values =>
    simp only [reduceCtorEq, false_and, exists_false, not_false_iff, iff_true]
    cases hposition : resolveExistingListAssignmentIndex index values.length with
    | error error =>
      rw [increment_none fun sum => by simp [assignIndex, hposition, Except.toOption]]
      simp [addAssignIndexNumber, hposition, Except.toOption]
    | ok position =>
      have hread : readIndex (.list values) index = .ok (itemAt values (some position)) := by
        simp only [readIndex, resolveExisting_ok hposition]
      simp only [addAssignIndexNumber, hposition, addAssignValueNumber_eq, incrementedValue, hread]
      change _ = (addValues (itemAt values (some position)) (.number right) >>= _).toOption
      cases addValues (itemAt values (some position)) (.number right) with
      | error error => rfl
      | ok sum => simp [bind, Except.bind, assignPath, assignIndex, hposition]
  | record record =>
    cases hkey : coerceString index with
    | error error =>
      simp [addAssignIndexNumber, incrementedValue, readIndex, hkey, bind, Except.bind]
    | ok key =>
      cases hget : Record.get record key with
      | some value =>
        have hread : readIndex (.record record) index = .ok value := by
          simp only [readIndex, hkey, hget, Option.getD_some]
        have hnone : ¬ ∃ record' key', Value.record record = .record record' ∧
            (.ok key : Except RuntimeError String) = .ok key' ∧
            Record.get record' key' = none ∧ right = -0.0 := by
          rintro ⟨record', key', hrecord, hok, hmissing, -⟩
          cases hrecord
          cases hok
          rw [hget] at hmissing
          cases hmissing
        simp only [hnone, not_false_iff, iff_true]
        simp only [addAssignIndexNumber, hkey, hget, addAssignValueNumber_eq,
          incrementedValue, hread]
        change _ = (addValues value (.number right) >>= _).toOption
        cases addValues value (.number right) with
        | error error => rfl
        | ok sum => simp [bind, Except.bind, assignPath, assignIndex, hkey]
      | none =>
        have hread : readIndex (.record record) index = .ok .null := by
          simp only [readIndex, hkey, hget, Option.getD_none]
        have hsum : addValues .null (.number right) = .ok (.number (0.0 + right)) := rfl
        have hcond : (¬ ∃ record' key', Value.record record = .record record' ∧
            (.ok key : Except RuntimeError String) = .ok key' ∧
            Record.get record' key' = none ∧ right = -0.0) ↔ right ≠ -0.0 := by
          constructor
          · intro h hzero
            exact h ⟨record, key, rfl, rfl, hget, hzero⟩
          · rintro h ⟨-, -, -, -, -, hzero⟩
            exact h hzero
        rw [hcond, ← Doubles.zero_add_iff]
        simp only [addAssignIndexNumber, hkey, hget, incrementedValue, hread, hsum, bind,
          Except.bind, assignPath, assignIndex, Except.toOption, Option.some.injEq,
          Value.record.injEq]
        constructor
        · intro h
          exact (Value.number.inj (insert_inj h)).symm
        · intro h
          rw [h]
  | _ =>
    simp only [reduceCtorEq, false_and, exists_false, not_false_iff, iff_true]
    rw [increment_none fun sum => rfl]
    rfl

/-! ## The generic code -/

theorem closed_append (hc : ∀ i ∈ c, i ≠ .breakJump) {i : Instruction} (hi : i ≠ .breakJump) :
    ∀ j ∈ c ++ [i], j ≠ .breakJump := by
  intro j hj
  rcases mem_append.mp hj with hj | hj
  · exact hc j hj
  · rw [mem_singleton.mp hj]
    exact hi

theorem plain_agrees (cx : CompileContext) (slots : Slots) : Agrees (plain cx) noConsts slots :=
  fun _ => holds_noConsts

variable {steps : List (AssignPathStep Expr)} {e : Expr}

theorem halts_generic (root : String) (hsteps : stepOperands steps = true)
    (he : isOperand e = true) :
    Halts (step (genericCode cx root steps e) env) (initial slots history)
      (halted slots (evalStored env (plain cx) slots root steps e history)) := by
  have hκ := plain_agrees cx slots
  have hflow : ∀ a κ, Flow env false 0 a 0 1 (compileExpr (plain cx) 0 .value e a κ).code :=
    fun a κ => flow_operand e he .value 0 0 a κ
  have hoperand : ∀ a κ i, i ∈ (compileExpr (plain cx) 0 .value e a κ).code → i ≠ .breakJump :=
    fun a κ => (hflow a κ).closed rfl
  cases steps with
  | nil =>
    have hstores : Stores env (plain cx) slots _ 0 (evalStored env (plain cx) slots root [] e) :=
      stores_stored (E := compileExpr (plain cx) 0 .value e) (sound_operand e he 0 hκ 0)
        fun value (h : none = some value) => by cases h
    refine halts_assigns ?_ (closed_append (hoperand 0 noConsts) (by simp))
    simpa only [genericCode, emitSeq, emit, updateConsts, append_nil] using hstores.assigns
  | cons first rest =>
    have hstores : Stores env (plain cx) slots _ 0
        (evalStored env (plain cx) slots root (first :: rest) e) :=
      stores_path (sound_steps (first :: rest) hsteps 0 hκ 0)
        fun a κ hκ => sound_operand e he 0 hκ a
    have hindexFlow : Flow env false 0 0 0 _
        (compileSteps (plain cx) 0 (first :: rest) 0 noConsts).code :=
      flow_steps (first :: rest) hsteps 0 0 0 noConsts
    have hindexes : ∀ i ∈ (compileSteps (plain cx) 0 (first :: rest) 0 noConsts).code,
        i ≠ .breakJump := hindexFlow.closed rfl
    refine halts_assigns ?_ fun i hi => ?_
    · simpa only [genericCode, emitSeq, emit, updateConsts, append_nil] using hstores.assigns
    · simp only [genericCode, emitSeq, emit, mem_append, mem_singleton] at hi
      rcases hi with hi | hi | rfl
      · exact hindexes i hi
      · exact hoperand _ _ i hi
      · simp

theorem halts_fused (hκ : Agrees cx κ slots) (root : String) (hsteps : stepOperands steps = true)
    (he : isOperand e = true) :
    Halts (step (fusedCode cx κ root steps e) env) (initial slots history)
      (halted slots (evalAssign env cx κ slots root steps e history)) := by
  have hstatement : isStatement false (.assign root steps e) = true := by
    rw [isStatement, hsteps, he]
    rfl
  have hflow : Flow env false 0 0 0 (kept .effect) (fusedCode cx κ root steps e) :=
    flow_statement (.assign root steps e) false hstatement .effect (by simp) (.inr rfl) 0 0 κ
  refine halts_assigns ?_ (hflow.closed rfl)
  have hstores : Stores env cx slots (assignCode cx 0 root steps e 0 κ) 0
      (evalAssign env cx κ slots root steps e) := stores_assign hκ root steps hsteps he
  rw [fusedCode, compile_assign]
  change Assigns env slots 0 (emitSeq _ emitNothing 0 κ).code _
  rw [emitSeq_nothing]
  exact hstores.assigns

/-! ## Fused and generic code -/

variable {root : String}

theorem effect_stored {x : Eval Value} {f : Value → Value → Result}
    (h : evalOperand env (plain cx) slots e = (loadSlot slots root >>= fun current =>
      x >>= fun operand => compute (f current operand))) :
    effect slots (evalStored env (plain cx) slots root [] e history) =
      updated slots root f (x history).1 := by
  rw [← effect_readFirst, evalStored, h]
  simp only [bind_assoc]

theorem eval_sum (root : String) (right : Expr) :
    evalOperand env (plain cx) slots (.binary (.variable root) .add right) =
      (loadSlot slots root >>= fun current => evalOperand env (plain cx) slots right >>=
        fun operand => compute (addValues current operand)) := by
  rw [evalOperand_binary (by simp) (by simp), evalOperand]
  rfl

theorem eval_append (root : String) (item : Expr) :
    evalOperand env (plain cx) slots (.binary (.variable root) .add (.list [item])) =
      (loadSlot slots root >>= fun current => evalOperand env (plain cx) slots item >>=
        fun operand => compute (addValues current (.list [operand]))) := by
  rw [eval_sum, evalOperand, evalAll, evalAll]
  simp only [bind_assoc, pure_bind]

theorem eval_push (root : String) (item : Expr) :
    evalOperand env (plain cx) slots (.builtinCall "push" [.variable root, item]) =
      (loadSlot slots root >>= fun current => evalOperand env (plain cx) slots item >>=
        fun operand => compute (executePushBuiltin current operand)) := by
  rw [evalOperand_builtin (by simp) (by simp)]
  simp only [evalAll, evalOperand, bind_assoc, pure_bind]
  rfl

theorem notAppend {right : Expr} (hright : ∀ item, right ≠ .list [item]) :
    ¬ AppendsToText env cx slots history root [] (.binary (.variable root) .add right) := by
  rintro ⟨item, -, -, -, -, heq, -⟩
  cases heq
  exact hright item rfl

/-- The simple assignments agree but for an append to a text. -/
theorem simple_effect_iff (root : String) (hfused : isFused cx κ root [] e = true) :
    effect slots (evalAssign env cx κ slots root [] e history) =
        effect slots (evalStored env (plain cx) slots root [] e history) ↔
      ¬ AppendsToText env cx slots history root [] e := by
  obtain ⟨form, hform⟩ := Option.isSome_iff_exists.mp hfused
  have hassign : evalAssign env cx κ slots root [] e = updateSlot slots root (fusedValue form)
      (evalOperand env (plain cx) slots (fusedOperand form e)) := by
    simp only [evalAssign, hform]
  rw [hassign, effect_update]
  cases fuses_of_fusedAssign hform with
  | append item =>
    rw [effect_stored (eval_append root item)]
    change updated slots root appendedValue (evalOperand env (plain cx) slots item history).1 =
      _ ↔ _
    rw [updated_eq_iff]
    simp only [appendedValue_iff]
    constructor
    · rintro h ⟨item', text, value, later, -, heq, hslot, hvalue⟩
      cases heq
      exact h value _ (by rw [hvalue]) hslot text rfl
    · intro h value current hvalue hslot text hcurrent
      refine h ⟨item, text, value, (evalOperand env (plain cx) slots item history).2, rfl, rfl, ?_,
        ?_⟩
      · rw [hslot, hcurrent]
      · rw [← hvalue]
  | addNumber right hright value hfold | add right hright =>
    rw [effect_stored (eval_sum root right)]
    exact iff_of_true rfl (notAppend hright)
  | addSlot other =>
    rw [effect_stored (eval_sum root (.variable other))]
    exact iff_of_true rfl (notAppend (by simp))
  | push item =>
    rw [effect_stored (eval_push root item)]
    have hpush : ¬ AppendsToText env cx slots history root []
        (.builtinCall "push" [.variable root, item]) := by
      rintro ⟨other, -, -, -, -, heq, -⟩
      cases heq
    exact iff_of_true rfl hpush

theorem eval_increment {index right : Expr} {value : Float} {r : Except RuntimeError Value}
    (hκ : Agrees cx κ slots) (hindex : evalOperand env (plain cx) slots index = compute r)
    (hright : isOperand right = true) (hfold : cx.foldNumber κ right = some value) :
    evalOperand env (plain cx) slots (.binary (.index (.variable root) index) .add right) =
      (loadSlot slots root >>= fun current => compute r >>= fun index =>
        compute (readIndex current index) >>= fun entry =>
          compute (addValues entry (.number value))) := by
  rw [evalOperand_binary (by simp) (by simp), eval_foldNumber hκ hright hfold, evalOperand,
    evalOperand, hindex]
  simp only [bind_assoc, pure_bind]
  rfl

/-- The generic code of an increment, whose index has the same value both times. -/
theorem effect_incremented {index right : Expr} {value : Float} (hκ : Agrees cx κ slots)
    (hpure : IsPure (evalOperand env (plain cx) slots index)) (hright : isOperand right = true)
    (hfold : cx.foldNumber κ right = some value) :
    effect slots (evalStored env (plain cx) slots root [.index index]
        (.binary (.index (.variable root) index) .add right) history) =
      updated slots root (incrementedValue value)
        (evalOperand env (plain cx) slots index history).1 := by
  obtain ⟨r, hindex⟩ := hpure
  have hstored : evalStored env (plain cx) slots root [.index index]
      (.binary (.index (.variable root) index) .add right) =
      (compute r >>= fun position => loadSlot slots root >>= fun current => compute r >>=
        fun index => compute (readIndex current index) >>= fun entry =>
          compute (addValues entry (.number value)) >>= fun sum => loadSlot slots root >>=
            fun target => compute (assignPath target [.index] [position] sum) >>= fun stored =>
              pure (setSlot slots root (some stored))) := by
    rw [evalStored, eval_increment hκ hindex hright hfold, evalSteps, evalSteps, hindex]
    · simp only [bind_assoc, pure_bind]
      rfl
    · simp
  rw [hstored, hindex]
  cases r with
  | error error => rfl
  | ok v =>
    change effect slots ((loadSlot slots root >>= fun current => compute (readIndex current v) >>=
      fun entry => compute (addValues entry (.number value)) >>= fun sum =>
        loadSlot slots root >>= fun target => compute (assignPath target [.index] [v] sum) >>=
          fun stored => pure (setSlot slots root (some stored))) history) =
      updated slots root (incrementedValue value) (.ok v)
    cases hslot : slots root with
    | none =>
      simp only [loadSlot, hslot, updated]
      rfl
    | some current =>
      have hchain : (compute (readIndex current v) >>= fun entry =>
          compute (addValues entry (.number value)) >>= fun sum =>
            compute (assignPath current [.index] [v] sum) >>= fun stored =>
              (pure (setSlot slots root (some stored)) : Eval Slots)) =
          compute (incrementedValue value current v) >>= fun stored =>
            pure (setSlot slots root (some stored)) := by
        simp only [incrementedValue, compute_bind, bind_assoc]
      simp only [loadSlot, hslot, updated, pure_bind]
      rw [hchain, bind_apply]
      cases incrementedValue value current v <;> rfl

/-- The increments agree but for a negative zero that is added to a missing entry. -/
theorem increment_effect_iff (hκ : Agrees cx κ slots) (root : String)
    (hsteps : stepOperands steps = true) (he : isOperand e = true) {value : Float}
    (hfused : fusedIndexAssign cx κ root steps e = some value) :
    effect slots (evalAssign env cx κ slots root steps e history) =
        effect slots (evalStored env (plain cx) slots root steps e history) ↔
      ¬ AddsNegativeZero env cx κ slots history root steps e := by
  obtain ⟨index, leftIndex, right, rfl, rfl, hpure, hsame, hfold⟩ := fusedIndexAssign_some hfused
  have hindex : isOperand index = true := (Bool.and_eq_true_iff.mp hsteps).1
  have hparts := Bool.and_eq_true_iff.mp he
  have hleftIndex : isOperand leftIndex = true := (Bool.and_eq_true_iff.mp hparts.1).2
  obtain rfl := same_eq leftIndex index hleftIndex hindex hsame
  have hassign : evalAssign env cx κ slots root [.index leftIndex]
      (.binary (.index (.variable root) leftIndex) .add right) = updateSlot slots root
        (fun current index => addAssignIndexNumber current index value)
        (evalOperand env (plain cx) slots leftIndex) := by
    simp only [evalAssign, hfused]
  rw [hassign, effect_update,
    effect_incremented hκ (isPure_operand leftIndex hindex hpure) hparts.2 hfold, updated_eq_iff]
  simp only [increment_iff]
  constructor
  · rintro h ⟨index, leftIndex, right, record, v, key, later, hcons, heq, hzero, hslot, hv, hkey,
      hget⟩
    cases hcons
    cases heq
    rw [hfold] at hzero
    exact h v _ (by rw [hv]) hslot ⟨record, key, rfl, hkey, hget, Option.some.inj hzero⟩
  · rintro h v current hv hslot ⟨record, key, rfl, hkey, hget, rfl⟩
    exact h ⟨leftIndex, leftIndex, right, record, v, key,
      (evalOperand env (plain cx) slots leftIndex history).2, rfl, rfl, hfold, hslot,
      by rw [← hv], hkey, hget⟩

/-- The instructions of an assignment leave the slots that the generic code leaves and succeed
where it does, unless an append meets a text or a negative zero a missing entry. -/
theorem fused_assignment_iff (env : Environment) (cx : CompileContext) (κ : Consts)
    (slots : Slots) (history : History) (root : String) (steps : List (AssignPathStep Expr))
    (e : Expr) (hsteps : stepOperands steps = true) (he : isOperand e = true)
    (hκ : Agrees cx κ slots) (hfused : isFused cx κ root steps e = true) :
    SameEffect env slots history (fusedCode cx κ root steps e) (genericCode cx root steps e) ↔
      ¬ AppendsToText env cx slots history root steps e ∧
        ¬ AddsNegativeZero env cx κ slots history root steps e := by
  rw [sameEffect_iff (halts_fused hκ root hsteps he) (halts_generic root hsteps he)]
  cases steps with
  | nil =>
    have hnoIndex : ¬ AddsNegativeZero env cx κ slots history root [] e := by
      rintro ⟨index, -, -, -, -, -, -, hcons, -⟩
      cases hcons
    rw [simple_effect_iff root hfused, and_iff_left hnoIndex]
  | cons first rest =>
    have hnoAppend : ¬ AppendsToText env cx slots history root (first :: rest) e := by
      rintro ⟨item, -, -, -, hnil, -⟩
      cases hnil
    obtain ⟨value, hvalue⟩ := Option.isSome_iff_exists.mp hfused
    rw [increment_effect_iff hκ root hsteps he hvalue, and_iff_right hnoAppend]

/-- `x = x + [1]`. -/
def appendOne : Expr := .binary (.variable "x") .add (.list [.number 1.0])

def slotX (value : Value) : Slots := fun name => if name = "x" then some value else none

theorem fused_assignment_append : SameEffect nullHost (slotX (.list [])) []
      (fusedCode trackedContext noConsts "x" [] appendOne)
      (genericCode trackedContext "x" [] appendOne) := by
  refine (fused_assignment_iff nullHost trackedContext noConsts (slotX (.list [])) [] "x" []
    appendOne rfl rfl (fun _ => holds_noConsts) rfl).mpr ⟨?_, ?_⟩
  · rintro ⟨item, text, -, -, -, -, hslot, -⟩
    cases hslot
  · rintro ⟨index, -, -, -, -, -, -, hcons, -⟩
    cases hcons

/-- An append to a text succeeds and leaves the text as it was. -/
theorem append_keeps_text : ¬ SameEffect nullHost (slotX (.string "a")) []
      (fusedCode trackedContext noConsts "x" [] appendOne)
      (genericCode trackedContext "x" [] appendOne) := by
  rw [sameEffect_iff (halts_fused (fun _ => holds_noConsts) "x" rfl rfl)
    (halts_generic "x" rfl rfl), simple_effect_iff "x" rfl, not_not]
  exact ⟨.number 1.0, "a", .number 1.0, [], rfl, rfl, rfl, rfl⟩

end FusedAssigns
