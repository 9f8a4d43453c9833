import Lash.ScriptRepeats

/-!
# The code of an assignment

What an assignment leaves in the slots, in the form the compiler gives it: the forms
with instructions of their own read the slot after their operand and update it, the
others compute a value and store it.
-/

namespace ScriptAssigns

open ScriptValues ScriptOps ScriptSyntax ScriptFolding ScriptCompiler
open List
open ScriptMachine ScriptFlows ScriptDiscipline ScriptEvaluation ScriptConstants
open ScriptOperands ScriptExpressions StepMachines

/-! ## What an assignment computes -/

/-- What an `AppendAssign` leaves in its slot: only a list is appended to. -/
def appendedValue (current item : Value) : Result :=
  match current with
  | .list items => .ok (.list (items ++ [item]))
  | current => (addValues current (.list [item])).map fun _ => current

/-- The operand of a form with instructions of its own. -/
def fusedOperand : FusedAssign → Expr → Expr
  | .append, .binary _ _ (.list [item]) => item
  | .push, .builtinCall _ [_, item] => item
  | _, .binary _ _ right => right
  | _, e => e

/-- What such a form makes of the old value and its operand. -/
def fusedValue : FusedAssign → Value → Value → Result
  | .append => appendedValue
  | .push => executePushBuiltin
  | .addNumber _ | .addSlot _ | .add => addValues

/-- A slot is read after the operand and updated. -/
def updateSlot (slots : Slots) (name : String) (f : Value → Value → Result) (x : Eval Value) :
    Eval Slots := do
  let operand ← x
  let current ← loadSlot slots name
  let value ← compute (f current operand)
  pure (setSlot slots name (some value))

def evalSteps (env : Environment) (cx : CompileContext) (slots : Slots) :
    List (AssignPathStep Expr) → Eval (List Value)
  | [] => pure []
  | .field _ :: rest => evalSteps env cx slots rest
  | .index e :: rest => do
      let value ← evalOperand env cx slots e
      let values ← evalSteps env cx slots rest
      pure (value :: values)

/-- The value of the right-hand side, stored at the end of a path. -/
def evalStored (env : Environment) (cx : CompileContext) (slots : Slots) (root : String)
    (steps : List (AssignPathStep Expr)) (e : Expr) : Eval Slots :=
  match steps with
  | [] => do
      let value ← evalOperand env cx slots e
      pure (setSlot slots root (some value))
  | steps => do
      let indexes ← evalSteps env cx slots steps
      let value ← evalOperand env cx slots e
      let target ← loadSlot slots root
      let stored ← compute (assignPath target (pathSteps steps) indexes value)
      pure (setSlot slots root (some stored))

/-- An assignment in the form the compiler gives it. -/
def evalAssign (env : Environment) (cx : CompileContext) (κ : Consts) (slots : Slots)
    (root : String) (steps : List (AssignPathStep Expr)) (e : Expr) : Eval Slots :=
  match steps with
  | [] =>
    match fusedAssign cx κ root e with
    | some form => updateSlot slots root (fusedValue form)
        (evalOperand env (plain cx) slots (fusedOperand form e))
    | none => evalStored env (plain cx) slots root [] e
  | steps =>
    match fusedIndexAssign cx κ root steps e, steps with
    | some right, [.index index] => updateSlot slots root
        (fun current index => addAssignIndexNumber current index right)
        (evalOperand env (plain cx) slots index)
    | _, steps => evalStored env (plain cx) slots root steps e

/-! ## Code that writes a slot -/

variable {A B : Type} {env : Environment} {cx : CompileContext} {slots : Slots} {κ : Consts}
variable {a r : Nat} {c d : Code} {E F : Emitter} {i : Instruction} {ins : List Value}

/-- A piece of code takes the machine to new slots, the stacks as they were. -/
def Assigns (env : Environment) (slots : Slots) (a : Nat) (c : Code) (x : Eval Slots) : Prop :=
  ∀ code brk S I history, CodeAt code brk a c →
    Lands env code (unwind I slots) ⟨a, S, slots, I, history⟩ (x history)
      fun slots' later => ⟨a + c.length, S, slots', I, later⟩

/-- The code assigns, and what the compiler knows behind it is true there. -/
structure Stores (env : Environment) (cx : CompileContext) (slots : Slots) (f : Fragment) (a : Nat)
    (x : Eval Slots) : Prop where
  assigns : Assigns env slots a f.code x
  agrees : ∀ slots', Returns x slots' → Agrees cx f.consts slots'

/-- What an instruction that writes a slot does with the values on top of the stack. -/
structure Writes (env : Environment) (slots : Slots) (i : Instruction) (ins : List Value)
    (x : Eval Slots) : Prop where
  patched : ∀ s, patchBreak s i = i
  execute_eq : ∀ ip S I history,
    execute env ⟨ip, ins.reverse ++ S, slots, I, history⟩ i =
      match x history with
      | (.ok slots', later) => .inl ⟨ip, S, slots', I, later⟩
      | (.error error, later) => Machine.failWith ⟨ip, S, slots, I, later⟩ error

theorem assigns_of_computes {x : Eval A} {outs : A → List Value} {f : A → Eval Slots}
    (hc : Computes env slots a c [] x outs)
    (hi : ∀ v, Returns x v → Writes env slots i (outs v) (f v)) :
    Assigns env slots a (c ++ [i]) (x >>= f) := by
  intro code brk S I history hcode
  rw [length_append, ← Nat.add_assoc]
  refine Lands.bind (hc code brk S I history hcode.left) fun v later hv => ?_
  have hwrites := hi v ⟨history, later, hv⟩
  have hget : code[a + c.length]? = some i := by
    rw [hcode.right.head, hwrites.patched brk]
  have hstep : step code env ⟨a + c.length, (outs v).reverse ++ S, slots, I, later⟩ = _ :=
    step_eq hget
  rw [hwrites.execute_eq] at hstep
  rcases hf : f v later with ⟨error | slots', last⟩
  · rw [hf] at hstep
    exact Halts.of_step hstep
  · rw [hf] at hstep
    exact Reaches.one hstep

variable {name : String}

theorem writes_slot {f : Value → Result} (hpatch : ∀ s, patchBreak s i = i)
    (hi : ∀ ip S I history, execute env ⟨ip, ins.reverse ++ S, slots, I, history⟩ i =
      Machine.withSlot ⟨ip, S, slots, I, history⟩ name fun value =>
        Machine.assignResult ⟨ip, S, slots, I, history⟩ name (f value)) :
    Writes env slots i ins (loadSlot slots name >>= fun current =>
      compute (f current) >>= fun value => pure (setSlot slots name (some value))) := by
  refine ⟨hpatch, fun ip S I history => ?_⟩
  rw [hi, withSlot_eq]
  cases hslot : slots name with
  | none =>
    simp only [loadSlot, hslot]
    rfl
  | some current =>
    simp only [loadSlot, hslot, pure_bind]
    rw [bind_apply]
    cases f current <;> rfl

theorem addAssignValueNumber_eq (left : Value) (right : Float) :
    addAssignValueNumber left right = addValues left (.number right) := by
  cases left <;> rfl

variable (slot : String)

theorem writes_append (item : Value) :
    Writes env slots (.appendAssign slot) [item] (loadSlot slots slot >>= fun current =>
      compute (appendedValue current item) >>= fun value =>
        pure (setSlot slots slot (some value))) := by
  refine ⟨fun _ => rfl, fun ip S I history => ?_⟩
  rw [execute]
  change Machine.withSlot _ slot _ = _
  rw [withSlot_eq]
  cases hslot : slots slot with
  | none =>
    simp only [loadSlot, hslot]
    rfl
  | some current =>
    have hkept : setSlot slots slot (some current) = slots := by
      rw [← hslot, setSlot_self]
    -- the sum is only looked at for its error
    have hignored : ∀ sum : Result, Machine.ignoreResult ⟨ip, S, slots, I, history⟩ sum =
        match (compute (sum.map fun _ => current) >>= fun value =>
          pure (setSlot slots slot (some value))) history with
        | (.ok slots', later) => .inl ⟨ip, S, slots', I, later⟩
        | (.error error, later) => Machine.failWith ⟨ip, S, slots, I, later⟩ error := by
      intro sum
      rw [bind_apply]
      cases sum with
      | error error => rfl
      | ok value =>
        simp only [compute, Except.map, pure_apply, hkept]
        rfl
    simp only [loadSlot, hslot, pure_bind]
    cases current with
    | list items => rfl
    | _ => exact hignored _

/-- A constant that is known may be stored without being pushed first. -/
theorem assigns_storeConst (value : Value) :
    Assigns env slots a [.storeConst slot value] (pure (setSlot slots slot (some value))) := by
  intro code brk S I history hcode
  exact Reaches.one (step_eq (m := ⟨a, S, slots, I, history⟩) hcode.head)

theorem agrees_set {value : Option Value} {new : Value} (h : Agrees cx κ slots) (name : String)
    (hvalue : value = none ∨ value = some new) :
    Agrees cx (setConst κ name value) (setSlot slots name (some new)) :=
  fun hfolding => (h hfolding).set hvalue

/-- A piece of code that writes one slot, of which nothing is known behind it. -/
theorem Assigns.forget {x : Eval Slots} (h : Assigns env slots a c x)
    (hx : ∀ slots', Returns x slots' → ∃ value, slots' = setSlot slots name (some value))
    (hκ : Agrees cx κ slots) : Stores env cx slots ⟨c, setConst κ name none⟩ a x := by
  refine ⟨h, fun slots' hslots => ?_⟩
  obtain ⟨value, rfl⟩ := hx slots' hslots
  exact agrees_set hκ name (Or.inl rfl)

variable {f : Value → Value → Result} {x : Eval Value}

theorem returns_update {slots' : Slots} (h : Returns (updateSlot slots name f x) slots') :
    ∃ value, slots' = setSlot slots name (some value) := by
  obtain ⟨operand, -, h⟩ := h.of_bind
  obtain ⟨current, -, h⟩ := h.of_bind
  obtain ⟨value, -, h⟩ := h.of_bind
  exact ⟨value, returns_pure h⟩

theorem stores_update (hE : Sound env cx slots (E a κ) a [] x ([·]))
    (hi : ∀ operand, Writes env slots i [operand] (loadSlot slots name >>= fun current =>
      compute (f current operand) >>= fun value => pure (setSlot slots name (some value)))) :
    Stores env cx slots (emitSeq E (emitSeq (emit [i])
      (updateConsts fun κ => setConst κ name none)) a κ) a (updateSlot slots name f x) := by
  have h := (assigns_of_computes hE.computes fun v _ => hi v).forget (fun _ => returns_update)
    hE.agrees
  change Stores env cx slots _ a (updateSlot slots name f x) at h
  simpa only [emitSeq, emit, updateConsts, append_nil] using h

/-- An update by one instruction that has its operand itself. -/
theorem stores_updateBy (hκ : Agrees cx κ slots)
    (hi : Writes env slots i [] (updateSlot slots name f x)) :
    Stores env cx slots (emitSeq (emit [i]) (updateConsts fun κ => setConst κ name none) a κ) a
      (updateSlot slots name f x) := by
  have hnothing : Computes env slots a [] [] (pure ()) fun _ => [] :=
    fun _ _ _ _ _ _ => Reaches.refl _
  have hassigns := assigns_of_computes (i := i) (f := fun _ => updateSlot slots name f x) hnothing
    fun _ _ => hi
  rw [pure_bind] at hassigns
  have h := hassigns.forget (fun _ => returns_update) hκ
  simpa only [emitSeq, emit, updateConsts, nil_append, append_nil] using h

theorem writes_addNumber (right : Float) : Writes env slots (.addAssignNumber slot right) []
      (updateSlot slots slot addValues (pure (.number right))) := by
  rw [updateSlot, pure_bind]
  refine writes_slot (fun _ => rfl) fun ip S I history => ?_
  simp only [← addAssignValueNumber_eq]
  rfl

theorem writes_add (right : Value) :
    Writes env slots (.addAssign slot) [right] (loadSlot slots slot >>= fun current =>
      compute (addValues current right) >>= fun value => pure (setSlot slots slot (some value))) :=
  writes_slot (fun _ => rfl) fun _ _ _ _ => rfl

theorem writes_push (item : Value) :
    Writes env slots (.pushAssign slot) [item] (loadSlot slots slot >>= fun current =>
      compute (executePushBuiltin current item) >>= fun value =>
        pure (setSlot slots slot (some value))) :=
  writes_slot (fun _ => rfl) fun _ _ _ _ => rfl

theorem writes_increment (right : Float) (index : Value) :
    Writes env slots (.addAssignIndexNumber slot right) [index] (loadSlot slots slot >>=
      fun current => compute (addAssignIndexNumber current index right) >>= fun value =>
        pure (setSlot slots slot (some value))) :=
  writes_slot (fun _ => rfl) fun _ _ _ _ => rfl

/-- An instruction that reads its operand from another slot. -/
theorem writes_fromSlot {slot other : String} {j : Instruction}
    (hj : ∀ operand, Writes env slots j [operand] (loadSlot slots slot >>= fun current =>
      compute (f current operand) >>= fun value => pure (setSlot slots slot (some value))))
    (hpatch : ∀ s, patchBreak s i = i)
    (hi : ∀ ip S I history, execute env ⟨ip, S, slots, I, history⟩ i =
      Machine.withSlot ⟨ip, S, slots, I, history⟩ other fun operand =>
        execute env ⟨ip, operand :: S, slots, I, history⟩ j) :
    Writes env slots i [] (updateSlot slots slot f (loadSlot slots other)) := by
  refine ⟨hpatch, fun ip S I history => ?_⟩
  rw [reverse_nil, nil_append, hi, withSlot_eq, updateSlot]
  cases hother : slots other with
  | none =>
    simp only [loadSlot, hother]
    rfl
  | some operand =>
    simp only [hother]
    rw [show loadSlot slots other = pure operand by simp only [loadSlot, hother], pure_bind]
    exact (hj operand).execute_eq ip S I history

theorem writes_addSlot (other : String) : Writes env slots (.addAssignSlot slot other) []
      (updateSlot slots slot addValues (loadSlot slots other)) :=
  writes_fromSlot (fun operand => writes_add slot operand) (fun _ => rfl) fun _ _ _ _ => rfl

theorem writes_incrementSlot (index : String) (right : Float) :
    Writes env slots (.addAssignIndexSlotNumber slot index right) []
      (updateSlot slots slot (fun current index => addAssignIndexNumber current index right)
        (loadSlot slots index)) :=
  writes_fromSlot (fun operand => writes_increment slot right operand) (fun _ => rfl)
    fun _ _ _ _ => rfl

theorem writes_store (value : Value) :
    Writes env slots (.storeName slot) [value] (pure (setSlot slots slot (some value))) :=
  ⟨fun _ => rfl, fun _ _ _ _ => rfl⟩

theorem writes_path (path : List CompiledAssignPathStep) {indexes : List Value} (value : Value)
    (h : indexes.length = (path.filter (· == .index)).length) :
    Writes env slots (.pathAssign slot path) (indexes ++ [value]) (loadSlot slots slot >>=
      fun current => compute (assignPath current path indexes value) >>= fun stored =>
        pure (setSlot slots slot (some stored))) := by
  refine writes_slot (fun _ => rfl) fun ip S I history => ?_
  rw [execute, reverse_append, append_assoc]
  simp only [reverse_cons, reverse_nil, nil_append, cons_append, Machine.withTop]
  rw [withTail_values h]

/-! ## The forms of an assignment -/

/-- The assignments with instructions of their own, and the form of each. -/
inductive Fuses (cx : CompileContext) (κ : Consts) (root : String) : FusedAssign → Expr → Prop where
  | append (item : Expr) : Fuses cx κ root .append (.binary (.variable root) .add (.list [item]))
  | addNumber (right : Expr) (hright : ∀ item, right ≠ .list [item]) (value : Float)
      (h : cx.foldNumber κ right = some value) :
      Fuses cx κ root (.addNumber value) (.binary (.variable root) .add right)
  | addSlot (other : String) :
      Fuses cx κ root (.addSlot other) (.binary (.variable root) .add (.variable other))
  | add (right : Expr) (hright : ∀ item, right ≠ .list [item]) :
      Fuses cx κ root .add (.binary (.variable root) .add right)
  | push (item : Expr) : Fuses cx κ root .push (.builtinCall "push" [.variable root, item])

variable {e : Expr} {root : String}

theorem fuses_of_fusedAssign {form : FusedAssign} (h : fusedAssign cx κ root e = some form) :
    Fuses cx κ root form e := by
  unfold fusedAssign at h
  split at h
  · next var right =>
      split at h
      · next hvar =>
          subst hvar
          obtain rfl := Option.some.inj h
          unfold fusedAdd
          split
          · next item => exact .append item
          · next hlist =>
              split
              · next hfold => exact .addNumber _ hlist _ hfold
              · exact .addSlot _
              · exact .add _ hlist
      · cases h
  · next builtin var item =>
      split at h
      · next hpush =>
          obtain ⟨rfl, rfl⟩ := hpush
          obtain rfl := Option.some.inj h
          exact .push item
      · cases h
  · cases h

variable {steps : List (AssignPathStep Expr)}

theorem foldFor_assign (mode : Mode) : cx.foldFor mode κ (.assign root steps e) = none := by
  have hfold : cx.fold κ (.assign root steps e) = none := by
    rw [CompileContext.fold]
    split <;> rfl
  rw [CompileContext.foldFor, CompileContext.foldedValue, hfold]
  split
  · rfl
  · split <;> rfl

/-- The code of an assignment without the value it stands for. -/
def assignCode (cx : CompileContext) (r : Nat) (root : String)
    (steps : List (AssignPathStep Expr)) (e : Expr) : Emitter :=
  match steps with
  | [] => emitAssign cx root e (compileAppended cx r e) (compileRight cx r e)
      (compilePushed cx r e) (compileExpr cx r .value e)
  | steps => emitPathAssign cx root steps e (compileSteps cx r steps) (compileExpr cx r .value e)

theorem compile_assign (mode : Mode) : compileExpr cx r mode (.assign root steps e) a κ =
      emitSeq (assignCode cx r root steps e) (emitNullIf mode) a κ := by
  cases steps with
  | nil =>
    rw [compileExpr]
    simp only [foldFor_assign]
    rfl
  | cons first rest =>
    rw [compileExpr]
    · simp only [foldFor_assign]
      rfl
    · simp

/-! ## Simple assignments -/

theorem stores_stored {known : Option Value}
    (hE : Sound env cx slots (E a κ) a [] (evalOperand env (plain cx) slots e) ([·]))
    (hknown : ∀ value, known = some value → evalOperand env (plain cx) slots e = pure value) :
    Stores env cx slots (emitSeq E (emitSeq (emit [.storeName root])
      (updateConsts fun κ => setConst κ root known)) a κ) a
      (evalStored env (plain cx) slots root [] e) := by
  have hassigns := assigns_of_computes (f := fun value => pure (setSlot slots root (some value)))
    hE.computes fun value _ => writes_store root value
  refine ⟨?_, fun slots' hslots => ?_⟩
  · simp only [emitSeq, emit, updateConsts, append_nil]
    exact hassigns
  obtain ⟨value, hvalue, hpure⟩ := Returns.of_bind hslots
  rw [returns_pure hpure]
  refine agrees_set hE.agrees root ?_
  cases hcase : known with
  | none => exact Or.inl rfl
  | some old =>
    rw [hknown old hcase] at hvalue
    exact Or.inr (congrArg some (returns_pure hvalue).symm)

/-- What is recorded about a slot is what is stored in it. -/
theorem eval_assignedConst (hκ : Agrees cx κ slots) (he : isOperand e = true) {value : Value}
    (h : assignedConst cx κ e = some value) : evalOperand env (plain cx) slots e = pure value := by
  unfold assignedConst at h
  split at h
  · next ty =>
      obtain ⟨schema, hfold, rfl⟩ := Option.map_eq_some_iff.mp h
      rw [evalOperand, evalType_of_fold hκ.known ty hfold]
      rfl
  · exact eval_foldedValue hκ he h

theorem stores_simple (hκ : Agrees cx κ slots) (root : String) (he : isOperand e = true) :
    Stores env cx slots (assignCode cx r root [] e a κ) a
      (evalAssign env cx κ slots root [] e) := by
  rw [assignCode, emitAssign, evalAssign]
  cases hfused : fusedAssign cx κ root e with
  | some form =>
    cases fuses_of_fusedAssign hfused with
    | append item =>
      have hitem : isOperand item = true := by
        simpa [isOperand, allOperands] using he
      exact stores_update (sound_operand item hitem r hκ a) (writes_append root)
    | addNumber right _ value hfold =>
      have hright : isOperand right = true := by
        simpa [isOperand] using he
      simp only [fusedOperand, eval_foldNumber hκ hright hfold]
      exact stores_updateBy hκ (writes_addNumber root value)
    | addSlot other => exact stores_updateBy hκ (writes_addSlot root other)
    | add right _ =>
      have hright : isOperand right = true := by
        simpa [isOperand] using he
      exact stores_update (sound_operand right hright r hκ a) (writes_add root)
    | push item =>
      have hitem : isOperand item = true := by
        simpa [isOperand, allOperands] using he
      exact stores_update (sound_operand item hitem r hκ a) (writes_push root)
  | none =>
    cases hfolded : cx.foldedValue κ e with
    | some value =>
      refine ⟨?_, fun slots' hslots => ?_⟩
      · simp only [emitSeq, emit, updateConsts, append_nil, evalStored]
        rw [eval_foldedValue hκ he hfolded, pure_bind]
        exact assigns_storeConst root value
      · rw [evalStored, eval_foldedValue hκ he hfolded, pure_bind] at hslots
        rw [returns_pure hslots]
        exact agrees_set hκ root (Or.inr rfl)
    | none =>
      exact stores_stored (sound_operand e he r hκ a)
        fun value hvalue => eval_assignedConst hκ he hvalue

/-! ## Assignments to a part of a value -/

theorem sound_steps (steps : List (AssignPathStep Expr)) (hsteps : stepOperands steps = true)
    (r : Nat) (hκ : Agrees cx κ slots) (a : Nat) :
    Sound env cx slots (compileSteps cx r steps a κ) a []
      (evalSteps env (plain cx) slots steps) id := by
  induction steps generalizing a κ with
  | nil =>
    rw [compileSteps]
    exact sound_nothing hκ
  | cons first rest ih =>
    cases first with
    | field name =>
      rw [compileSteps, evalSteps]
      exact ih hsteps hκ a
    | index e =>
      have hparts := Bool.and_eq_true_iff.mp hsteps
      rw [compileSteps, evalSteps]
      exact sound_cons (sound_operand e hparts.1 r hκ a) fun a κ hκ => ih hparts.2 hκ a

theorem evalSteps_length {vs : List Value} (h : Returns (evalSteps env cx slots steps) vs) :
    vs.length = ((pathSteps steps).filter (· == .index)).length := by
  induction steps generalizing vs with
  | nil =>
    rw [evalSteps] at h
    rw [returns_pure h]
    rfl
  | cons first rest ih =>
    cases first with
    | field name => exact ih h
    | index e =>
      rw [evalSteps] at h
      obtain ⟨value, -, htail⟩ := h.of_bind
      obtain ⟨others, hothers, hpure⟩ := htail.of_bind
      rw [returns_pure hpure, length_cons, ih hothers]
      rfl

/-- A value stored at the end of a path, whose indexes were computed before it. -/
theorem stores_path {first : AssignPathStep Expr} {rest : List (AssignPathStep Expr)}
    (hE : Sound env cx slots (E a κ) a [] (evalSteps env (plain cx) slots (first :: rest)) id)
    (hF : ∀ a κ, Agrees cx κ slots →
      Sound env cx slots (F a κ) a [] (evalOperand env (plain cx) slots e) ([·])) :
    Stores env cx slots (emitSeq E (emitSeq F (emitSeq
      (emit [.pathAssign root (pathSteps (first :: rest))])
        (updateConsts fun κ => setConst κ root none))) a κ) a
      (evalStored env (plain cx) slots root (first :: rest) e) := by
  have hboth : Sound env cx slots (emitSeq E F a κ) a []
      (evalSteps env (plain cx) slots (first :: rest) >>= fun indexes =>
        evalOperand env (plain cx) slots e >>= fun value => pure (indexes, value))
      fun pair => pair.1 ++ [pair.2] := by
    refine sound_seq hE (fun a κ hκ => (hF a κ hκ).agrees) fun indexes _ a κ hκ => ?_
    exact ((hF a κ hκ).computes.frame indexes).map fun _ => rfl
  have hassigns := assigns_of_computes (i := .pathAssign root (pathSteps (first :: rest)))
    (f := fun pair => loadSlot slots root >>= fun current =>
      compute (assignPath current (pathSteps (first :: rest)) pair.1 pair.2) >>= fun stored =>
        pure (setSlot slots root (some stored))) hboth.computes fun pair hpair => by
      obtain ⟨indexes, hindexes, htail⟩ := Returns.of_bind hpair
      obtain ⟨value, -, hpure⟩ := Returns.of_bind htail
      obtain rfl := returns_pure hpure
      exact writes_path root _ value (evalSteps_length hindexes)
  rw [← emitSeq_assoc]
  simp only [bind_assoc, pure_bind] at hassigns
  have hreturns : ∀ slots',
      Returns (evalStored env (plain cx) slots root (first :: rest) e) slots' →
      ∃ value, slots' = setSlot slots root (some value) := by
    intro slots' h
    obtain ⟨indexes, -, h⟩ := Returns.of_bind h
    obtain ⟨value, -, h⟩ := Returns.of_bind h
    obtain ⟨target, -, h⟩ := Returns.of_bind h
    obtain ⟨stored, -, h⟩ := Returns.of_bind h
    exact ⟨stored, returns_pure h⟩
  have h := Assigns.forget (x := evalStored env (plain cx) slots root (first :: rest) e) hassigns
    hreturns hboth.agrees
  simpa only [emitSeq, emit, updateConsts, append_nil] using h

/-- The increments of a part of a value with an instruction of their own. -/
theorem fusedIndexAssign_some {value : Float}
    (h : fusedIndexAssign cx κ root steps e = some value) :
    ∃ index leftIndex right, steps = [.index index] ∧
      e = .binary (.index (.variable root) leftIndex) .add right ∧ isPureExpr index = true ∧
      leftIndex.same index = true ∧ cx.foldNumber κ right = some value := by
  unfold fusedIndexAssign at h
  split at h
  · next index name leftIndex right =>
      split at h
      · next hcond =>
          obtain ⟨hpure, rfl, hsame⟩ := hcond
          exact ⟨index, leftIndex, right, rfl, rfl, hpure, hsame, h⟩
      · cases h
  · cases h

theorem stores_increment (hκ : Agrees cx κ slots) (root : String) {index : Expr} {right : Float}
    (hindex : isOperand index = true)
    (hfused : fusedIndexAssign cx κ root [.index index] e = some right) :
    Stores env cx slots (assignCode cx r root [.index index] e a κ) a
      (evalAssign env cx κ slots root [.index index] e) := by
  have hplain : Stores env cx slots (emitSeq (compileSteps cx r [.index index])
      (emitSeq (emit [.addAssignIndexNumber root right])
        (updateConsts fun κ => setConst κ root none)) a κ) a
      (updateSlot slots root (fun current index => addAssignIndexNumber current index right)
        (evalOperand env (plain cx) slots index)) := by
    have hsteps : compileSteps cx r [.index index] = compileExpr cx r .value index := by
      rw [compileSteps, compileSteps, emitSeq_nothing]
    rw [hsteps]
    exact stores_update (sound_operand index hindex r hκ a) (writes_increment root right)
  simp only [assignCode, evalAssign, emitPathAssign, hfused]
  cases index with
  | «variable» name => exact stores_updateBy hκ (writes_incrementSlot root name right)
  | _ => exact hplain

/-- The code of an assignment leaves in the slots what the form of the assignment says. -/
theorem stores_assign (hκ : Agrees cx κ slots) (root : String) (steps : List (AssignPathStep Expr))
    (hsteps : stepOperands steps = true) (he : isOperand e = true) :
    Stores env cx slots (assignCode cx r root steps e a κ) a
      (evalAssign env cx κ slots root steps e) := by
  cases steps with
  | nil => exact stores_simple hκ root he
  | cons first rest =>
    cases hfused : fusedIndexAssign cx κ root (first :: rest) e with
    | some right =>
      obtain ⟨index, leftIndex, other, hcons, -⟩ := fusedIndexAssign_some hfused
      rw [hcons] at hfused hsteps ⊢
      have hparts := Bool.and_eq_true_iff.mp hsteps
      exact stores_increment hκ root hparts.1 hfused
    | none =>
      simp only [assignCode, evalAssign, emitPathAssign, hfused]
      exact stores_path (sound_steps (first :: rest) hsteps r hκ a)
        fun a κ hκ => sound_operand e he r hκ a

end ScriptAssigns
