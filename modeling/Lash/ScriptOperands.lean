import Lash.ScriptConstants
import Lash.ScriptDiscipline

/-!
# The code of an operand computes the operand

Whatever the compiler knows and folds, the code it makes of an operand takes the
machine from its first address to behind its last one with the value of the operand
on the stack and the slots and iterators as they were, or ends the run with the error
of the operand.
-/

namespace ScriptOperands

open ScriptValues ScriptOps ScriptBuiltins ScriptSyntax ScriptFolding ScriptCompiler
open CompileContext
open List
open ScriptMachine ScriptFlows ScriptDiscipline ScriptEvaluation ScriptConstants
open StepMachines

variable {A B : Type}

/-- The run comes to the state that belongs to what was computed, or ends with the error. -/
def Lands (env : Environment) (code : Code) (base : Slots) (m : Machine)
    (r : Except RuntimeError A × History) (k : A → History → Machine) : Prop :=
  match r with
  | (.ok a, later) => Reaches (step code env) m (k a later)
  | (.error error, later) => Halts (step code env) m ⟨.error (.raised error), base, later⟩

/-- A piece of code computes: with `ins` on top of the stack it puts what was computed in their
place. -/
def Computes (env : Environment) (slots : Slots) (a : Nat) (c : Code) (ins : List Value)
    (x : Eval A) (outs : A → List Value) : Prop :=
  ∀ code brk S I history, CodeAt code brk a c →
    Lands env code (unwind I slots) ⟨a, ins.reverse ++ S, slots, I, history⟩ (x history)
      fun v later => ⟨a + c.length, (outs v).reverse ++ S, slots, I, later⟩

/-- The slots hold what the compiler knows and uses. -/
def Agrees (cx : CompileContext) (κ : Consts) (slots : Slots) : Prop :=
  cx.folding = true → Holds κ slots

def Returns (x : Eval A) (a : A) : Prop := ∃ history later, x history = (.ok a, later)

/-- The code computes, and what the compiler knows behind it is true there. -/
structure Sound (env : Environment) (cx : CompileContext) (slots : Slots) (f : Fragment) (a : Nat)
    (ins : List Value) (x : Eval A) (outs : A → List Value) : Prop where
  computes : Computes env slots a f.code ins x outs
  agrees : Agrees cx f.consts slots

/-- What an instruction without a jump does with the values on top of the stack. -/
structure Applies (env : Environment) (slots : Slots) (i : Instruction) (ins : List Value)
    (x : Eval Value) : Prop where
  patched : ∀ s, patchBreak s i = i
  execute_eq : ∀ ip S I history,
    execute env ⟨ip, ins.reverse ++ S, slots, I, history⟩ i =
      Machine.pushAsked ⟨ip, S, slots, I, history⟩ (x history)

variable {env : Environment} {cx : CompileContext} {slots : Slots} {κ : Consts} {a r : Nat}
variable {c d : Code} {code : Code} {ins : List Value} {x : Eval A} {outs : A → List Value}
variable {E F : Emitter} {i : Instruction} {base : Slots} {m : Machine} {history : History}

variable {k : A → History → Machine}

theorem Lands.of_reaches {m' : Machine} {r : Except RuntimeError A × History}
    (h : Reaches (step code env) m m') (hr : Lands env code base m' r k) :
    Lands env code base m r k := by
  rcases r with ⟨error | v, later⟩
  · exact Halts.of_reaches h hr
  · exact h.trans hr

variable {f : A → Eval B}

theorem Lands.bind {k' : B → History → Machine} (hx : Lands env code base m (x history) k)
    (hf : ∀ v later, x history = (.ok v, later) → Lands env code base (k v later) (f v later) k') :
    Lands env code base m ((x >>= f) history) k' := by
  rw [bind_apply]
  rcases hr : x history with ⟨error | v, later⟩
  · rw [hr] at hx
    exact hx
  · rw [hr] at hx
    exact Lands.of_reaches hx (hf v later hr)

theorem lands_step {m' : Machine} {r : Except RuntimeError A × History}
    (h : step code env m = .inl m') (hr : Lands env code base m' r k) : Lands env code base m r k :=
  Lands.of_reaches (Reaches.one h) hr

theorem Computes.append {outs' : B → List Value} (hc : Computes env slots a c ins x outs)
    (hd : ∀ v, Returns x v → Computes env slots (a + c.length) d (outs v) (f v) outs') :
    Computes env slots a (c ++ d) ins (x >>= f) outs' := by
  intro code brk S I history hcode
  rw [length_append, ← Nat.add_assoc]
  exact Lands.bind (hc code brk S I history hcode.left) fun v later hv =>
    hd v ⟨history, later, hv⟩ code brk S I later hcode.right

/-- What lies on the stack below stays there. -/
theorem Computes.frame (hc : Computes env slots a c [] x outs) (ins : List Value) :
    Computes env slots a c ins x fun v => ins ++ outs v := by
  intro code brk S I history hcode
  have h := hc code brk (ins.reverse ++ S) I history hcode
  simpa only [reverse_append, append_assoc, reverse_nil, nil_append] using h

theorem computes_instruction {y : Eval Value} (hi : Applies env slots i ins y) :
    Computes env slots a [i] ins y ([·]) := by
  intro code brk S I history hcode
  have hget : code[a]? = some i := by
    rw [hcode.head, hi.patched brk]
  have hstep : step code env ⟨a, ins.reverse ++ S, slots, I, history⟩ =
      Machine.pushAsked ⟨a + 1, S, slots, I, history⟩ (y history) := by
    rw [step_eq (m := ⟨a, ins.reverse ++ S, slots, I, history⟩) hget]
    exact hi.execute_eq (a + 1) S I history
  rcases hy : y history with ⟨error | v, later⟩
  · rw [hy] at hstep
    exact Halts.of_step hstep
  · rw [hy] at hstep
    exact Reaches.one hstep

/-! ## Emitters -/

theorem Returns.of_bind {w : B} (h : Returns (x >>= f) w) : ∃ v, Returns x v ∧ Returns (f v) w := by
  obtain ⟨history, later, hw⟩ := h
  rw [bind_apply] at hw
  rcases hx : x history with ⟨error | v, middle⟩
  · rw [hx] at hw
    cases hw
  · rw [hx] at hw
    exact ⟨v, ⟨history, middle, hx⟩, ⟨middle, later, hw⟩⟩

theorem sound_seq {outs' : B → List Value} (hE : Sound env cx slots (E a κ) a ins x outs)
    (hκ : ∀ a κ, Agrees cx κ slots → Agrees cx (F a κ).consts slots)
    (hF : ∀ v, Returns x v → ∀ a κ, Agrees cx κ slots →
      Computes env slots a (F a κ).code (outs v) (f v) outs') :
    Sound env cx slots (emitSeq E F a κ) a ins (x >>= f) outs' where
  computes := hE.computes.append fun v hv => hF v hv _ _ hE.agrees
  agrees := hκ _ _ hE.agrees

/-- An instruction applied to what was computed. -/
theorem sound_apply {f : A → Eval Value} (hE : Sound env cx slots (E a κ) a ins x outs)
    (hi : ∀ v, Returns x v → Applies env slots i (outs v) (f v)) :
    Sound env cx slots (emitSeq E (emit [i]) a κ) a ins (x >>= f) ([·]) :=
  sound_seq hE (fun _ _ h => h) fun v hv _ _ _ => computes_instruction (hi v hv)

theorem sound_emit {y : Eval Value} (hκ : Agrees cx κ slots) (hi : Applies env slots i ins y) :
    Sound env cx slots (emit [i] a κ) a ins y ([·]) :=
  ⟨computes_instruction hi, hκ⟩

theorem emitSeq_nothing : emitSeq E emitNothing = E := by
  funext a κ
  simp [emitSeq, emitNothing, emit]

/-! ## Instructions -/

theorem applies_pushConst (value : Value) : Applies env slots (.pushConst value) [] (pure value) :=
  ⟨fun _ => rfl, fun _ _ _ _ => rfl⟩

variable (name : String)

theorem withSlot_eq (f : Value → Step) (m : Machine) :
    m.withSlot name f = match m.slots name with
      | some value => f value
      | none => m.failWith (.undefinedVariable name) := rfl

/-- An instruction that reads a slot first. -/
theorem applies_slot {name : String} {f : Value → Eval Value} (hpatch : ∀ s, patchBreak s i = i)
    (hi : ∀ ip S I history, execute env ⟨ip, ins.reverse ++ S, slots, I, history⟩ i =
      Machine.withSlot ⟨ip, S, slots, I, history⟩ name fun value =>
        Machine.pushAsked ⟨ip, S, slots, I, history⟩ (f value history)) :
    Applies env slots i ins (loadSlot slots name >>= f) := by
  refine ⟨hpatch, fun ip S I history => ?_⟩
  rw [hi, withSlot_eq]
  cases hslot : slots name with
  | none | some value =>
    simp only [loadSlot, hslot]
    rfl

theorem applies_loadName : Applies env slots (.loadName name) [] (loadSlot slots name) := by
  rw [← bind_pure (loadSlot slots name)]
  exact applies_slot (fun _ => rfl) fun _ _ _ _ => rfl

variable {vs : List Value}

variable {I : List IterState} {S : List Value}

theorem withTail_values {n ip : Nat} {f : Machine → List Value → Step} (h : vs.length = n) :
    Machine.withTail ⟨ip, vs.reverse ++ S, slots, I, history⟩ n f =
      f ⟨ip, S, slots, I, history⟩ vs := by
  have hlen : ¬ (vs.reverse ++ S).length < n := by
    simp only [length_append, length_reverse]
    omega
  have hreverse : vs.reverse.length = n := by
    rw [length_reverse, h]
  rw [Machine.withTail, if_neg hlen]
  simp only [take_left' hreverse, drop_left' hreverse, reverse_reverse]

theorem applies_buildTuple {n : Nat} (h : vs.length = n) :
    Applies env slots (.buildTuple n) vs (pure (.tuple vs)) := by
  refine ⟨fun _ => rfl, fun ip S I history => ?_⟩
  rw [execute, withTail_values h]
  rfl

theorem applies_buildList {n : Nat} (h : vs.length = n) :
    Applies env slots (.buildList n) vs (pure (.list vs)) := by
  refine ⟨fun _ => rfl, fun ip S I history => ?_⟩
  rw [execute, withTail_values h]
  rfl

variable {keys : List String}

theorem applies_buildRecord (h : vs.length = keys.length) :
    Applies env slots (.buildRecord keys) vs (pure (.record (buildRecord keys vs))) := by
  refine ⟨fun _ => rfl, fun ip S I history => ?_⟩
  rw [execute, withTail_values h]
  rfl

theorem applies_startProcess {process : String} {site : Bool} (h : vs.length = keys.length) :
    Applies env slots (.startProcess process keys site) vs
      (startOperation env process keys site vs) := by
  refine ⟨fun _ => rfl, fun ip S I history => ?_⟩
  rw [execute, withTail_values h]
  rfl

theorem applies_call {receiver : Value} {operation : String} {argc : Nat} {unwrap : Bool}
    (h : vs.length = argc) :
    Applies env slots (callInstruction operation argc unwrap) (receiver :: vs)
      (callOperation env operation unwrap (receiver :: vs)) := by
  have hlen : (receiver :: vs).length = argc + 1 := by simp [h]
  cases unwrap with
  | false =>
    refine ⟨fun _ => rfl, fun ip S I history => ?_⟩
    change execute env _ (.resourceCall operation argc) = _
    rw [execute, withTail_values hlen]
    rfl
  | true =>
    refine ⟨fun _ => rfl, fun ip S I history => ?_⟩
    change execute env _ (.resourceCallUnwrap operation argc) = _
    rw [execute, withTail_values hlen]
    rfl

theorem applies_batch {batch : ResourceOperationBatch} (h : vs.length = batch.stackValueCount) :
    Applies env slots (.resourceOperationBatch batch) vs (batchOperation env batch vs) := by
  refine ⟨fun _ => rfl, fun ip S I history => ?_⟩
  rw [execute, withTail_values h]
  rfl

theorem applies_await (unwrap : Bool) (handle : Value) :
    Applies env slots (awaitInstruction unwrap) [handle] (awaitOperation env unwrap handle) := by
  cases unwrap <;> exact ⟨fun _ => rfl, fun _ _ _ _ => rfl⟩

theorem applies_intrinsic {op : IntrinsicOp} (h : vs.length = op.argc) :
    Applies env slots (.intrinsic op) vs (compute (executeIntrinsic env.builtins op vs)) := by
  refine ⟨fun _ => rfl, fun ip S I history => ?_⟩
  rw [execute, withTail_values h]
  rfl

theorem applies_format {template : CompiledFormatTemplate} (h : vs.length = template.argc) :
    Applies env slots (.formatCompiled template) vs
      (compute (executeCompiledFormat template vs)) := by
  refine ⟨fun _ => rfl, fun ip S I history => ?_⟩
  rw [execute, withTail_values h]
  rfl

/-- A request whose answer is put on the stack, or nothing but `null`. -/
theorem request_eq (op : AbilityOp) (name heading : String) (g : Value → Value) (m : Machine) :
    m.request env op name heading (fun m value => m.push (g value)) =
      m.pushAsked ((requestOperation env op name heading >>= fun value => pure (g value))
        m.history) := by
  unfold Machine.request
  rw [bind_apply]
  simp only [requestOperation]
  cases env.ask m.history op name <;> rfl

theorem applies_sleepFor (value : Value) : Applies env slots .sleepFor [value] (do
      let _ ← requestOperation env (.sleep .forDuration value) "sleep" "sleep failed"
      pure .null) :=
  ⟨fun _ => rfl, fun _ _ _ _ => request_eq _ _ _ (fun _ => .null) _⟩

theorem applies_sleepUntil (value : Value) : Applies env slots .sleepUntil [value] (do
      let _ ← requestOperation env (.sleep .untilDeadline value) "sleep" "sleep failed"
      pure .null) :=
  ⟨fun _ => rfl, fun _ _ _ _ => request_eq _ _ _ (fun _ => .null) _⟩

theorem applies_signalRun (run payload : Value) (name : String) :
    Applies env slots (.processSignalRun name) [run, payload] (do
      let _ ← requestOperation env (.signalRun run name payload) "signal_run" "signal_run failed"
      pure .null) :=
  ⟨fun _ => rfl, fun _ _ _ _ => request_eq _ _ _ (fun _ => .null) _⟩

theorem applies_waitSignal :
    Applies env slots (.processWaitSignal name) [] (inProcessOnly env "wait_signal"
      (requestOperation env (.waitSignal name) "wait_signal" "wait_signal failed")) := by
  refine ⟨fun _ => rfl, fun ip S I history => ?_⟩
  rw [execute, Machine.inProcess, inProcessOnly]
  cases env.mode with
  | foreground => rfl
  | process =>
    have hrequest : Machine.request _ env _ _ _ _ = _ :=
      request_eq (.waitSignal name) "wait_signal" "wait_signal failed" id
        ⟨ip, S, slots, I, history⟩
    simp only [id, bind_pure] at hrequest
    exact hrequest

/-! ## Types -/

theorem compute_bind (x : Except RuntimeError A) (f : A → Except RuntimeError B) :
    compute (x >>= f) = compute x >>= fun v => compute (f v) := by
  funext history
  rw [bind_apply]
  cases x <;> rfl

theorem compute_map (x : Except RuntimeError A) (f : A → B) :
    compute (x.map f) = compute x >>= fun v => pure (f v) := by
  funext history
  rw [bind_apply]
  cases x <;> rfl

theorem returns_compute {x : Except RuntimeError A} {v : A} (h : Returns (compute x) v) :
    x = .ok v := by
  obtain ⟨history, later, hv⟩ := h
  exact (Prod.mk.inj hv).1

theorem Computes.after {v : A} {y : Eval B} {outs' : B → List Value}
    (hc : Computes env slots a c ins (pure v) outs)
    (hd : Computes env slots (a + c.length) d (outs v) y outs') :
    Computes env slots a (c ++ d) ins y outs' := by
  intro code brk S I history hcode
  rw [length_append, ← Nat.add_assoc]
  exact Lands.of_reaches (hc code brk S I history hcode.left)
    (hd code brk S I history hcode.right)

theorem computes_push (value : Value) (ins : List Value) :
    Computes env slots a [.pushConst value] ins (pure value) fun v => ins ++ [v] :=
  (computes_instruction (applies_pushConst value)).frame ins

theorem computes_pushes (values ins : List Value) :
    Computes env slots a (values.map .pushConst) ins (pure values) fun vs => ins ++ vs := by
  induction values generalizing a ins with
  | nil =>
    intro code brk S I history _
    rw [map_nil, pure_apply]
    simpa [Lands] using Reaches.refl _
  | cons value rest ih =>
    refine Computes.after (computes_push value ins) (d := rest.map .pushConst) ?_
    intro code brk S I history hcode
    have hrest := ih (ins ++ [value]) code brk S I history hcode
    rw [pure_apply] at hrest ⊢
    simpa [Lands] using hrest

theorem Computes.map {g : A → B} {outs' : B → List Value}
    (hc : Computes env slots a c ins x outs) (hg : ∀ v, outs' (g v) = outs v) :
    Computes env slots a c ins (x >>= fun v => pure (g v)) outs' := by
  intro code brk S I history hcode
  refine Lands.bind (hc code brk S I history hcode) fun v later _ => ?_
  rw [pure_apply, Lands, hg]
  exact Reaches.refl _

theorem evalTypes_length {tys : List TypeExpr} {values : List Value}
    (h : evalTypes slots tys = .ok values) : values.length = tys.length := by
  induction tys generalizing values with
  | nil => cases h; rfl
  | cons ty rest ih =>
    rw [evalTypes] at h
    cases hty : evalType slots ty with
    | error error => simp [hty, bind, Except.bind] at h
    | ok value =>
      cases hrest : evalTypes slots rest with
      | error error => simp [hty, hrest, bind, Except.bind] at h
      | ok others =>
        simp only [hty, hrest, bind, Except.bind] at h
        cases h
        rw [length_cons, length_cons, ih hrest]

variable {fields : List (TypeField TypeExpr)}

theorem evalTypeFields_names {values : List (String × Value)}
    (h : evalTypeFields slots fields = .ok values) :
    values.map Prod.fst = fields.map TypeField.name := by
  induction fields generalizing values with
  | nil => cases h; rfl
  | cons field rest ih =>
    rw [evalTypeFields] at h
    cases hty : evalType slots field.ty with
    | error error => simp [hty, bind, Except.bind] at h
    | ok value =>
      cases hrest : evalTypeFields slots rest with
      | error error => simp [hty, hrest, bind, Except.bind] at h
      | ok others =>
        simp only [hty, hrest, bind, Except.bind] at h
        cases h
        rw [map_cons, map_cons, ih hrest]

theorem applies_typeRef :
    Applies env slots (.resolveTypeRef name) [] (compute (typeSlot slots name)) := by
  refine ⟨fun _ => rfl, fun ip S I history => ?_⟩
  rw [execute, withSlot_eq, typeSlot]
  cases hslot : slots name with
  | none => simp only [reverse_nil, nil_append, hslot]; rfl
  | some value =>
    simp only [reverse_nil, nil_append, hslot]
    cases unwrapTypeValue value <;> rfl

/-- What follows the properties in the code of an object type. -/
theorem computes_objectTail (fields : List (TypeField TypeExpr)) (properties : Value) (a : Nat) :
    Computes env slots a (((requiredNames fields).map fun name => .pushConst (.string name)) ++
      [Instruction.buildList (requiredNames fields).length, .pushConst (.bool false),
        .buildRecord ["type", "properties", "required", "additionalProperties"]])
      [.string "object", properties]
      (pure (.record [("type", .string "object"), ("properties", properties),
        ("required", .list ((requiredNames fields).map .string)),
        ("additionalProperties", .bool false)])) ([·]) := by
  have hpushes : Computes env slots a
      (((requiredNames fields).map Value.string).map .pushConst) [] _ _ :=
    computes_pushes ((requiredNames fields).map .string) []
  rw [map_map] at hpushes
  have hlist := (Computes.after hpushes (computes_instruction
    (applies_buildList (n := (requiredNames fields).length) (by simp)))).frame
      [.string "object", properties]
  have hfalse := Computes.after hlist (computes_push (.bool false) _)
  have hrecord := Computes.after hfalse (computes_instruction (i := .buildRecord
    ["type", "properties", "required", "additionalProperties"]) (applies_buildRecord rfl))
  simp only [append_assoc, cons_append, nil_append] at hrecord
  exact hrecord

theorem computes_record (hfields : Computes env slots a (compileTypeFields κ fields) []
      (compute (evalTypeFields slots fields)) fun values => values.map Prod.snd) :
    Computes env slots a
      (compileTypeFields κ fields ++ [Instruction.buildRecord (fields.map TypeField.name)])
      [] (compute (evalTypeFields slots fields) >>= fun properties =>
        pure (.record (Record.ofEntries properties))) ([·]) := by
  refine hfields.append fun properties hproperties => ?_
  have hnames := evalTypeFields_names (returns_compute hproperties)
  have hlen : (properties.map Prod.snd).length = (fields.map TypeField.name).length := by
    rw [← hnames, length_map, length_map]
  have hentries : buildRecord (fields.map TypeField.name) (properties.map Prod.snd) =
      Record.ofEntries properties := by
    rw [buildRecord, ← hnames, zip_map', map_id']
  rw [← hentries]
  exact computes_instruction (applies_buildRecord hlen)

mutual
theorem computes_typeExpr (h : Holds κ slots) (ty : TypeExpr) (a : Nat) :
    Computes env slots a (compileTypeExpr κ ty) [] (compute (evalType slots ty)) ([·]) := by
  have hfolded : ∀ value, foldTypeExpr κ ty = some value →
      Computes env slots a [.pushConst value] [] (compute (evalType slots ty)) ([·]) := by
    intro value hfold
    rw [evalType_of_fold h ty hfold]
    exact computes_instruction (applies_pushConst value)
  cases ty with
  | ref name =>
    rw [compileTypeExpr]
    cases hfold : foldTypeExpr κ (.ref name) with
    | some value => exact hfolded value hfold
    | none =>
      rw [evalType]
      exact computes_instruction (applies_typeRef name)
  | list item =>
    rw [compileTypeExpr]
    cases hfold : foldTypeExpr κ (.list item) with
    | some value => exact hfolded value hfold
    | none =>
      rw [evalType, compute_map]
      have hitem := (computes_typeExpr h item (a + 1)).frame [.string "array"]
      refine Computes.append (Computes.after (computes_push (.string "array") []) hitem)
        fun v _ => computes_instruction ?_
      exact applies_buildRecord rfl
  | object fields =>
    rw [compileTypeExpr]
    cases hfold : foldTypeExpr κ (.object fields) with
    | some value => exact hfolded value hfold
    | none =>
      rw [evalType, compute_map]
      have hobject := Computes.after (computes_push (a := a) (.string "object") [])
        ((computes_record (computes_typeFields h fields (a + 1))).frame [.string "object"])
      have hall := hobject.append fun v _ => computes_objectTail fields v _
      simp only [bind_assoc, pure_bind, append_assoc, cons_append, nil_append] at hall ⊢
      exact hall
  | union variants =>
    rw [compileTypeExpr]
    cases hfold : foldTypeExpr κ (.union variants) with
    | some value => exact hfolded value hfold
    | none =>
      rw [evalType, compute_map, append_cons]
      have hlist := (computes_typeExprs h variants a).append
        fun vs hvs => computes_instruction (i := .buildList variants.length)
          (applies_buildList (evalTypes_length (returns_compute hvs)))
      have hunion := hlist.append fun v _ => computes_instruction
        (i := .buildRecord ["anyOf"]) (applies_buildRecord rfl)
      simp only [bind_assoc, pure_bind] at hunion
      exact hunion
  | _ =>
    rw [compileTypeExpr.eq_def]
    exact hfolded _ rfl
theorem computes_typeExprs (h : Holds κ slots) (tys : List TypeExpr) (a : Nat) :
    Computes env slots a (compileTypeExprs κ tys) [] (compute (evalTypes slots tys)) id := by
  cases tys with
  | nil => exact fun _ _ _ _ _ _ => Reaches.refl _
  | cons ty rest =>
    rw [compileTypeExprs, evalTypes, compute_bind]
    refine (computes_typeExpr h ty a).append fun v _ => ?_
    rw [compute_bind]
    exact ((computes_typeExprs h rest _).frame [v]).map fun _ => rfl
theorem computes_typeFields (h : Holds κ slots) (fields : List (TypeField TypeExpr)) (a : Nat) :
    Computes env slots a (compileTypeFields κ fields) [] (compute (evalTypeFields slots fields))
      fun values => values.map Prod.snd := by
  cases fields with
  | nil => exact fun _ _ _ _ _ _ => Reaches.refl _
  | cons field rest =>
    rw [compileTypeFields, evalTypeFields, compute_bind]
    refine (computes_typeExpr h field.ty a).append fun v _ => ?_
    rw [compute_bind]
    exact ((computes_typeFields h rest _).frame [v]).map fun _ => rfl
end

/-! ## What is known -/

/-- The settings an operand is evaluated with: whether the compiler folds plays no part. -/
def plain (cx : CompileContext) : CompileContext := { cx with folding := false }

theorem Agrees.known (h : Agrees cx κ slots) : Holds (cx.known κ) slots := by
  cases hfolding : cx.folding with
  | true =>
    simp only [CompileContext.known, hfolding, if_true]
    exact h hfolding
  | false =>
    simp only [CompileContext.known, hfolding]
    exact holds_noConsts

theorem eval_fold (hκ : Agrees cx κ slots) {e : Expr} (he : isOperand e = true) {value : Value}
    (h : cx.fold κ e = some value) : evalOperand env (plain cx) slots e = pure value := by
  cases hfolding : cx.folding with
  | true =>
    simp only [CompileContext.fold, hfolding, if_true] at h
    exact evalOperand_of_fold (hκ hfolding) e he h
  | false => simp [CompileContext.fold, hfolding] at h

theorem eval_foldedValue (hκ : Agrees cx κ slots) {e : Expr} (he : isOperand e = true)
    {value : Value} (h : cx.foldedValue κ e = some value) :
    evalOperand env (plain cx) slots e = pure value := by
  by_cases htype : containsTypeLiteral e = true
  · simp [foldedValue, htype] at h
  · rw [foldedValue, if_neg htype] at h
    exact eval_fold hκ he h

variable {value : Float}

theorem eval_foldNumber (hκ : Agrees cx κ slots) {e : Expr} (he : isOperand e = true)
    (h : cx.foldNumber κ e = some value) :
    evalOperand env (plain cx) slots e = pure (.number value) := by
  unfold foldNumber at h
  split at h
  · next hfold =>
      cases h
      exact eval_fold hκ he hfold
  · cases h

theorem sound_typeLiteral (hκ : Agrees cx κ slots) (ty : TypeExpr) :
    Sound env cx slots (emit (compileTypeLiteral cx κ ty) a κ) a []
      (compute (evalType slots ty) >>= fun schema => pure (wrapTypeSchemaValue schema)) ([·]) := by
  refine ⟨?_, hκ⟩
  rw [emit, compileTypeLiteral]
  cases hfold : cx.foldType κ ty with
  | some schema =>
    rw [evalType_of_fold hκ.known ty hfold]
    exact computes_instruction (applies_pushConst _)
  | none =>
    exact (computes_typeExpr hκ.known ty a).append fun v _ =>
      computes_instruction ⟨fun _ => rfl, fun _ _ _ _ => rfl⟩

/-! ## Operators -/

variable {op : BinaryOp}

theorem evalCompareValues_eq (hop : isComparisonBinaryOp op = true) (left right : Value) :
    evalBinaryValues op left right = (evalCompareValues op left right).map .bool := by
  have hother : ∀ left right, (∃ b, evalBinaryValues op left right = .ok (.bool b)) ∨
      ∃ error, evalBinaryValues op left right = .error error := by
    intro left right
    have hordered : ∀ (f : Float → Float → Bool) (g : String → String → Bool),
        (∃ b, compareOrdered f g left right = .ok (.bool b)) ∨
          ∃ error, compareOrdered f g left right = .error error := by
      intro f g
      unfold compareOrdered
      split
      · exact Or.inl ⟨_, rfl⟩
      · split
        · exact Or.inl ⟨_, rfl⟩
        · exact Or.inr ⟨_, rfl⟩
        · exact Or.inr ⟨_, rfl⟩
    cases op with
    | equal | notEqual => exact Or.inl ⟨_, rfl⟩
    | less | lessEqual | greater | greaterEqual => exact hordered _ _
    | _ => cases hop
  unfold evalCompareValues
  split
  · cases op with
    | equal | notEqual | less | lessEqual | greater | greaterEqual => rfl
    | _ => cases hop
  · rcases hother left right with ⟨b, hb⟩ | ⟨error, herror⟩
    · rw [hb]
      rfl
    · rw [herror]
      rfl

theorem comparison_ne (hop : isComparisonBinaryOp op = true) : op ≠ .and ∧ op ≠ .or := by
  constructor <;> rintro rfl <;> cases hop

theorem numeric_ne (hop : isNumericBinaryOp op = true) : op ≠ .and ∧ op ≠ .or := by
  constructor <;> rintro rfl <;> cases hop

variable {fold : Expr → Option Float}

variable {right : Expr} {slot : String} {left : Expr}

theorem slotNumber_some (h : slotNumber fold left right = some (slot, value)) :
    left = .variable slot ∧ fold right = some value := by
  unfold slotNumber at h
  split at h
  · obtain ⟨v, hfold, hpair⟩ := Option.map_eq_some_iff.mp h
    cases hpair
    exact ⟨rfl, hfold⟩
  · cases h

theorem slotOperand_plain (h : slotOperand fold left right = some (.plain slot value)) :
    left = .variable slot ∧ fold right = some value := by
  unfold slotOperand at h
  split at h
  · split at h
    · obtain ⟨v, -, htail⟩ := Option.bind_eq_some_iff.mp h
      obtain ⟨w, -, hsome⟩ := Option.bind_eq_some_iff.mp htail
      cases hsome
    · cases h
  · obtain ⟨v, hfold, hplain⟩ := Option.map_eq_some_iff.mp h
    cases hplain
    exact ⟨rfl, hfold⟩
  · cases h

theorem slotOperand_arithmetic {other : Float}
    (h : slotOperand fold left right = some (.arithmetic slot op other value)) :
    ∃ inner, left = .binary (.variable slot) op inner ∧ isNumericBinaryOp op = true ∧
      fold inner = some other ∧ fold right = some value := by
  unfold slotOperand at h
  split at h
  · split at h
    · next hnumeric =>
        obtain ⟨v, hright, htail⟩ := Option.bind_eq_some_iff.mp h
        obtain ⟨w, hinner, hsome⟩ := Option.bind_eq_some_iff.mp htail
        cases hsome
        exact ⟨_, rfl, hnumeric, hinner, hright⟩
    · cases h
  · obtain ⟨v, -, hplain⟩ := Option.map_eq_some_iff.mp h
    cases hplain
  · cases h

theorem eval_slotOperator (hκ : Agrees cx κ slots) (hand : op ≠ .and) (hor : op ≠ .or)
    (hright : isOperand right = true) (h : cx.foldNumber κ right = some value) :
    evalOperand env (plain cx) slots (.binary (.variable slot) op right) =
      loadSlot slots slot >>= fun left => compute (evalBinaryValues op left (.number value)) := by
  rw [evalOperand_binary hand hor, eval_foldNumber hκ hright h]
  simp only [pure_bind, evalOperand]

theorem applies_slotBinary (hand : op ≠ .and) (hor : op ≠ .or) (slot : String) (right : Float) :
    Applies env slots (.slotNumberBinary slot op right) [] (loadSlot slots slot >>= fun left =>
      compute (evalBinaryValues op left (.number right))) := by
  refine applies_slot (fun _ => rfl) fun ip S I history => ?_
  simp only [← binaryInstruction_eq hand hor]
  rfl

theorem applies_slotCompare (hop : isComparisonBinaryOp op = true) (slot : String) (right : Float) :
    Applies env slots (.slotNumberCompare slot op right) [] (loadSlot slots slot >>= fun left =>
      compute (evalBinaryValues op left (.number right))) := by
  refine applies_slot (fun _ => rfl) fun ip S I history => ?_
  rw [execute]
  refine congrArg _ (funext fun value => ?_)
  rw [evalCompareValues_eq hop]
  cases evalCompareValues op value (.number right) <;> rfl

variable {compareOp : BinaryOp}

theorem applies_slotBinaryCompare (hop : isNumericBinaryOp op = true)
    (hcompare : isComparisonBinaryOp compareOp = true) (slot : String)
    (right compareRight : Float) :
    Applies env slots (.slotNumberBinaryCompare slot op right compareOp compareRight) []
      (loadSlot slots slot >>= fun left => do
        let value ← compute (evalBinaryValues op left (.number right))
        compute (evalBinaryValues compareOp value (.number compareRight))) := by
  refine applies_slot (fun _ => rfl) fun ip S I history => ?_
  rw [execute]
  refine congrArg _ (funext fun left => ?_)
  rw [binaryInstruction_eq (numeric_ne hop).1 (numeric_ne hop).2, bind_apply]
  cases evalBinaryValues op left (.number right) with
  | error error => rfl
  | ok value =>
    simp only [compute]
    rw [evalCompareValues_eq hcompare]
    cases evalCompareValues compareOp value (.number compareRight) <;> rfl

theorem applies_binary (hand : op ≠ .and) (hor : op ≠ .or) (left right : Value) :
    Applies env slots (.binary op) [left, right] (compute (evalBinaryValues op left right)) := by
  rw [← binaryInstruction_eq hand hor]
  exact ⟨fun _ => rfl, fun _ _ _ _ => rfl⟩

/-- Two operands, one above the other. -/
theorem sound_both {x y : Eval Value} (hE : Sound env cx slots (E a κ) a [] x ([·]))
    (hF : ∀ a κ, Agrees cx κ slots → Sound env cx slots (F a κ) a [] y ([·])) :
    Sound env cx slots (emitSeq E F a κ) a []
      (x >>= fun left => y >>= fun right => pure (left, right)) fun pair => [pair.1, pair.2] := by
  refine sound_seq hE (fun a κ hκ => (hF a κ hκ).agrees) fun left _ a κ hκ => ?_
  exact ((hF a κ hκ).computes.frame [left]).map fun _ => rfl

theorem sound_binary (hand : op ≠ .and) (hor : op ≠ .or) (hleft : isOperand left = true)
    (hright : isOperand right = true) (hκ : Agrees cx κ slots)
    (hE : Sound env cx slots (E a κ) a [] (evalOperand env (plain cx) slots left) ([·]))
    (hF : ∀ a κ, Agrees cx κ slots →
      Sound env cx slots (F a κ) a [] (evalOperand env (plain cx) slots right) ([·])) :
    Sound env cx slots (emitBinary cx .value left op right (emitSeq E F) a κ) a []
      (evalOperand env (plain cx) slots (.binary left op right)) ([·]) := by
  have hplain : Sound env cx slots (emitSeq (emitSeq E F) (emit [.binary op]) a κ) a []
      (evalOperand env (plain cx) slots (.binary left op right)) ([·]) := by
    have h := sound_apply (f := fun pair => compute (evalBinaryValues op pair.1 pair.2))
      (sound_both hE hF) fun pair _ => applies_binary hand hor pair.1 pair.2
    rw [evalOperand_binary hand hor]
    simpa only [bind_assoc, pure_bind] using h
  by_cases hcompare : isComparisonBinaryOp op = true
  · cases hslot : slotOperand (cx.foldNumber κ) left right with
    | none => simpa [emitBinary, hcompare, hslot] using hplain
    | some operand =>
      cases operand with
      | plain slot value =>
        obtain ⟨rfl, hfold⟩ := slotOperand_plain hslot
        rw [eval_slotOperator hκ hand hor hright hfold]
        simp only [emitBinary, hcompare, hslot, if_true]
        exact sound_emit hκ (applies_slotCompare hcompare slot value)
      | arithmetic slot innerOp other value =>
        obtain ⟨inner, rfl, hnumeric, hinner, hfold⟩ := slotOperand_arithmetic hslot
        have hinnerOperand : isOperand inner = true := by
          simpa [isOperand] using hleft
        rw [evalOperand_binary hand hor, eval_slotOperator hκ (numeric_ne hnumeric).1
          (numeric_ne hnumeric).2 hinnerOperand hinner, eval_foldNumber hκ hright hfold]
        simp only [emitBinary, hcompare, hslot, if_true, bind_assoc, pure_bind]
        exact sound_emit hκ (applies_slotBinaryCompare hnumeric hcompare slot other value)
  · by_cases hnumeric : isNumericBinaryOp op = true
    · cases hslot : slotNumber (cx.foldNumber κ) left right with
      | none => simpa [emitBinary, hcompare, hnumeric, hslot] using hplain
      | some operand =>
        obtain ⟨slot, value⟩ := operand
        obtain ⟨rfl, hfold⟩ := slotNumber_some hslot
        rw [eval_slotOperator hκ hand hor hright hfold]
        simp only [emitBinary, hcompare, hnumeric, hslot, if_true]
        exact sound_emit hκ (applies_slotBinary hand hor slot value)
    · simpa [emitBinary, hcompare, hnumeric] using hplain

theorem returns_pure {v w : A} (h : Returns (pure v : Eval A) w) : w = v := by
  obtain ⟨history, later, hw⟩ := h
  exact (Except.ok.inj (Prod.mk.inj hw).1).symm

theorem evalAll_length {es : List Expr} (h : Returns (evalAll env cx slots es) vs) :
    vs.length = es.length := by
  induction es generalizing vs with
  | nil =>
    rw [evalAll] at h
    rw [returns_pure h]
    rfl
  | cons e rest ih =>
    rw [evalAll] at h
    obtain ⟨v, -, htail⟩ := h.of_bind
    obtain ⟨others, hothers, hpure⟩ := htail.of_bind
    rw [returns_pure hpure, length_cons, length_cons, ih hothers]

theorem evalEntries_length {entries : List (String × Expr)}
    (h : Returns (evalEntries env cx slots entries) vs) : vs.length = entries.length := by
  induction entries generalizing vs with
  | nil =>
    rw [evalEntries] at h
    rw [returns_pure h]
    rfl
  | cons entry rest ih =>
    rw [evalEntries] at h
    obtain ⟨v, -, htail⟩ := h.of_bind
    obtain ⟨others, hothers, hpure⟩ := htail.of_bind
    rw [returns_pure hpure, length_cons, length_cons, ih hothers]

/-! ## Formats -/

theorem applies_formatSlot (template : CompiledFormatTemplate) (slot : String) :
    Applies env slots (.formatCompiledSlotNumber template slot) []
      (loadSlot slots slot >>= fun value => compute (executeCompiledFormat template [value])) := by
  refine applies_slot (fun _ => rfl) fun ip S I history => ?_
  rw [execute]
  refine congrArg _ (funext fun value => ?_)
  cases value with
  | number value =>
    simp only [executeCompiledFormatOneNumber_eq]
    rfl
  | _ => rfl

theorem applies_formatSlotBinary (hop : isNumericBinaryOp op = true)
    (template : CompiledFormatTemplate) (slot : String) (right : Float) :
    Applies env slots (.formatCompiledSlotNumberBinary template slot op right) []
      (loadSlot slots slot >>= fun left => do
        let value ← compute (evalBinaryValues op left (.number right))
        compute (executeCompiledFormat template [value])) := by
  have hnumber : ∀ left, evalBinaryValues op (.number left) (.number right) =
      .ok (.number (evalNumberNumericBinaryValue op left right)) := by
    intro left
    cases op with
    | add | subtract | multiply | divide | modulo => rfl
    | _ => cases hop
  refine applies_slot (fun _ => rfl) fun ip S I history => ?_
  rw [execute]
  refine congrArg _ (funext fun left => ?_)
  cases left with
  | number left =>
    simp only [executeCompiledFormatOneNumber_eq, hnumber]
    rfl
  | _ =>
    rw [bind_apply]
    simp only [compute]
    cases evalBinaryValues op _ (.number right) <;> rfl

theorem sound_format {template : String} {valueArgs : List Expr} {args : Emitter}
    (hκ : Agrees cx κ slots) (hargs : allOperands valueArgs = true)
    (hE : Sound env cx slots (args a κ) a [] (evalAll env (plain cx) slots valueArgs) id) :
    Sound env cx slots (emitFormat cx template valueArgs args a κ) a []
      (evalAll env (plain cx) slots valueArgs >>= fun values =>
        compute (executeCompiledFormat (compileFormatTemplate template valueArgs.length) values))
      ([·]) := by
  cases hslot : formatSlot cx κ valueArgs with
  | none =>
    simp only [emitFormat, hslot]
    refine sound_apply hE fun vs hvs => applies_format ?_
    rw [compileFormatTemplate_argc]
    exact evalAll_length hvs
  | some operand =>
    unfold formatSlot at hslot
    split at hslot
    · next name =>
        cases hslot
        simp only [emitFormat, formatSlot, evalAll, evalOperand, bind_assoc, pure_bind]
        exact sound_emit hκ (applies_formatSlot _ name)
    · next name op right =>
        split at hslot
        · next hnumeric =>
            obtain ⟨value, hfold, rfl⟩ := Option.map_eq_some_iff.mp hslot
            have hright : isOperand right = true := by
              simpa [allOperands, isOperand] using hargs
            have heval : evalOperand env (plain cx) slots (.binary (.variable name) op right) = _ :=
              eval_slotOperator hκ (numeric_ne hnumeric).1 (numeric_ne hnumeric).2 hright hfold
            simp only [emitFormat, formatSlot, hnumeric, hfold, if_true, Option.map_some, evalAll,
              heval, bind_assoc, pure_bind]
            exact sound_emit hκ (applies_formatSlotBinary hnumeric _ name value)
        · cases hslot
    · cases hslot

/-! ## Conditions -/

/-- A condition with its jump: the run goes on behind the jump where the condition holds and at
the target where it does not. -/
def Decides (env : Environment) (slots : Slots) (a : Nat) (c : Code) (target : Nat)
    (x : Eval Value) : Prop :=
  ∀ code brk S I history, CodeAt code brk a c →
    Lands env code (unwind I slots) ⟨a, S, slots, I, history⟩ (x history)
      fun v later => ⟨if isTruthy v then a + c.length else target, S, slots, I, later⟩

/-- What a conditional jump does with the values it takes. -/
structure Branches (env : Environment) (slots : Slots) (i : Instruction) (target : Nat)
    (ins : List Value) (x : Eval Value) : Prop where
  patched : ∀ s, patchBreak s i = i
  execute_eq : ∀ ip S I history,
    execute env ⟨ip, ins.reverse ++ S, slots, I, history⟩ i =
      match x history with
      | (.ok v, later) =>
        Machine.branch ⟨ip, S, slots, I, later⟩ target (.ok (isTruthy v))
      | (.error error, later) => Machine.failWith ⟨ip, S, slots, I, later⟩ error

variable {target : Nat}

theorem Branches.decides {y : Eval Value} (hi : Branches env slots i target ins y) {brk : Nat}
    (hcode : code[a]? = some (patchBreak brk i)) :
    Lands env code (unwind I slots) ⟨a, ins.reverse ++ S, slots, I, history⟩ (y history)
      fun v later => ⟨if isTruthy v then a + 1 else target, S, slots, I, later⟩ := by
  have hstep : step code env ⟨a, ins.reverse ++ S, slots, I, history⟩ = _ := step_eq hcode
  rw [hi.patched brk, hi.execute_eq (a + 1) S I history] at hstep
  rcases hy : y history with ⟨error | v, later⟩
  · rw [hy] at hstep
    exact Halts.of_step hstep
  · rw [hy] at hstep
    cases htruthy : isTruthy v with
    | true | false =>
      simp only [htruthy] at hstep ⊢
      simpa [Lands, htruthy] using Reaches.one hstep

theorem Computes.decides {f : A → Eval Value} (hc : Computes env slots a c [] x outs)
    (hi : ∀ v, Returns x v → Branches env slots i target (outs v) (f v)) :
    Decides env slots a (c ++ [i]) target (x >>= f) := by
  intro code brk S I history hcode
  refine Lands.bind (hc code brk S I history hcode.left) fun v later hv => ?_
  rw [length_append, ← Nat.add_assoc]
  exact (hi v ⟨history, later, hv⟩).decides hcode.right.head

theorem branches_false (v : Value) (target : Nat) :
    Branches env slots (.jumpIfFalse target) target [v] (pure v) :=
  ⟨fun _ => rfl, fun _ _ _ _ => rfl⟩

theorem branches_compare (hop : isComparisonBinaryOp op = true) (left right : Value)
    (target : Nat) :
    Branches env slots (.jumpIfCompareFalse op target) target [left, right]
      (compute (evalBinaryValues op left right)) := by
  refine ⟨fun _ => rfl, fun ip S I history => ?_⟩
  rw [evalCompareValues_eq hop]
  change Machine.branch _ target (evalCompareValues op left right) = _
  cases evalCompareValues op left right <;> rfl

theorem branches_slot {name : String} {f : Value → Eval Value} (hpatch : ∀ s, patchBreak s i = i)
    (hi : ∀ ip S I history, execute env ⟨ip, S, slots, I, history⟩ i =
      Machine.withSlot ⟨ip, S, slots, I, history⟩ name fun value =>
        match f value history with
        | (.ok v, later) => Machine.branch ⟨ip, S, slots, I, later⟩ target (.ok (isTruthy v))
        | (.error error, later) => Machine.failWith ⟨ip, S, slots, I, later⟩ error) :
    Branches env slots i target [] (loadSlot slots name >>= f) := by
  refine ⟨hpatch, fun ip S I history => ?_⟩
  rw [reverse_nil, nil_append, hi, withSlot_eq]
  cases hslot : slots name with
  | none | some value =>
    simp only [loadSlot, hslot]
    rfl

theorem branches_slotCompare (hop : isComparisonBinaryOp op = true) (slot : String) (right : Float)
    (target : Nat) :
    Branches env slots (.jumpIfSlotNumberCompareFalse slot op right target) target []
      (loadSlot slots slot >>= fun left => compute (evalBinaryValues op left (.number right))) := by
  refine branches_slot (fun _ => rfl) fun ip S I history => ?_
  rw [execute]
  refine congrArg _ (funext fun left => ?_)
  rw [evalCompareValues_eq hop]
  cases evalCompareValues op left (.number right) <;> rfl

theorem branches_slotBinaryCompare (hop : isNumericBinaryOp op = true)
    (hcompare : isComparisonBinaryOp compareOp = true) (slot : String) (right compareRight : Float)
    (target : Nat) :
    Branches env slots
      (.jumpIfSlotNumberBinaryCompareFalse slot op right compareOp compareRight target) target []
      (loadSlot slots slot >>= fun left => do
        let value ← compute (evalBinaryValues op left (.number right))
        compute (evalBinaryValues compareOp value (.number compareRight))) := by
  refine branches_slot (fun _ => rfl) fun ip S I history => ?_
  rw [execute]
  refine congrArg _ (funext fun left => ?_)
  rw [binaryInstruction_eq (numeric_ne hop).1 (numeric_ne hop).2, bind_apply]
  cases evalBinaryValues op left (.number right) with
  | error error => rfl
  | ok value =>
    simp only [compute]
    rw [evalCompareValues_eq hcompare]
    cases evalCompareValues compareOp value (.number compareRight) <;> rfl

/-- Only a comparison is compiled in another way where it is a condition. -/
theorem compile_test {e : Expr} (hoperand : isOperand e = true)
    (he : ∀ left op right, e = .binary left op right → isComparisonBinaryOp op ≠ true) :
    compileExpr cx r .test e a κ = compileExpr cx r .value e a κ := by
  have hfold : cx.foldFor .test κ e = cx.foldFor .value κ e := by
    simp [foldFor]
  have hfolded : ∀ value, cx.foldFor .value κ e = some value →
      compileExpr cx r .test e a κ = compileExpr cx r .value e a κ := by
    intro value h
    rw [compileExpr_folded h, compileExpr_folded (hfold.trans h)]
    rfl
  cases h : cx.foldFor .value κ e with
  | some value => exact hfolded value h
  | none =>
    have htest := hfold.trans h
    cases e with
    | binary left op right =>
      have hop := he left op right rfl
      by_cases hand : op = .and
      · subst hand
        rw [compileExpr, compileExpr]
        simp only [h, htest]
        rfl
      · by_cases hor : op = .or
        · subst hor
          rw [compileExpr, compileExpr]
          simp only [h, htest]
          rfl
        · rw [compile_binary hand hor h, compile_binary hand hor htest]
          simp only [emitSeq, emitBinary, if_neg hop]
          rfl
    | assign root steps e => cases hoperand
    | resultUnwrap inner =>
      rw [compileExpr.eq_def, compileExpr.eq_def]
      simp only [h, htest]
      cases inner with
      | field target name => cases target <;> rfl
      | _ => rfl
    | field target name =>
      rw [compileExpr.eq_def, compileExpr.eq_def]
      simp only [h, htest]
      cases target <;> rfl
    | builtinCall name args =>
      by_cases hformat : ∃ template valueArgs, name = "format" ∧
          args = .string template :: valueArgs
      · obtain ⟨template, valueArgs, rfl, rfl⟩ := hformat
        rw [compileExpr, compileExpr]
        simp only [h, htest]
        rfl
      · by_cases hvalidate : ∃ value schema, name = "validate" ∧ args = [value, schema]
        · obtain ⟨value, schema, rfl, rfl⟩ := hvalidate
          rw [compileExpr, compileExpr]
          simp only [h, htest]
          rfl
        · have hnotFormat : ∀ template valueArgs, name = "format" →
              args ≠ .string template :: valueArgs :=
            fun template valueArgs hname hargs =>
              hformat ⟨template, valueArgs, hname, hargs⟩
          have hnotValidate : ∀ value schema, name = "validate" → args ≠ [value, schema] :=
            fun value schema hname hargs => hvalidate ⟨value, schema, hname, hargs⟩
          rw [compile_builtin htest hnotFormat hnotValidate,
            compile_builtin h hnotFormat hnotValidate]
          rfl
    | _ =>
      first
        | (cases hoperand; done)
        | (rw [compileExpr.eq_def, compileExpr.eq_def]
           simp only [h, htest]
           rfl)

theorem decides_condition {e : Expr} (he : isOperand e = true) (hκ : Agrees cx κ slots)
    (hvalue : Sound env cx slots (compileExpr cx r .value e a κ) a []
      (evalOperand env (plain cx) slots e) ([·]))
    (hsides : ∀ left op right, e = .binary left op right →
      Sound env cx slots (compileExpr cx r .value left a κ) a []
        (evalOperand env (plain cx) slots left) ([·]) ∧
      ∀ a κ, Agrees cx κ slots → Sound env cx slots (compileExpr cx r .value right a κ) a []
        (evalOperand env (plain cx) slots right) ([·])) (target : Nat) :
    Decides env slots a ((compileExpr cx r .test e a κ).code ++ [conditionJump cx κ e target])
      target (evalOperand env (plain cx) slots e) ∧
    Agrees cx (compileExpr cx r .test e a κ).consts slots := by
  have hplain : compileExpr cx r .test e a κ = compileExpr cx r .value e a κ →
      conditionJump cx κ e target = .jumpIfFalse target →
      Decides env slots a ((compileExpr cx r .test e a κ).code ++ [conditionJump cx κ e target])
        target (evalOperand env (plain cx) slots e) ∧
      Agrees cx (compileExpr cx r .test e a κ).consts slots := by
    intro hcode hjump
    rw [hcode, hjump]
    refine ⟨?_, hvalue.agrees⟩
    have h := hvalue.computes.decides (f := pure) fun v _ => branches_false v target
    rwa [bind_pure] at h
  cases hfold : cx.foldedValue κ e with
  | some value =>
    have hfor : ∀ mode, mode ≠ .effect → cx.foldFor mode κ e = some value := by
      intro mode hmode
      rw [foldFor, if_neg (fun h => hmode h.1)]
      exact hfold
    refine hplain ?_ ?_
    · rw [compileExpr_folded (hfor .test (by simp)), compileExpr_folded (hfor .value (by simp))]
      rfl
    · unfold conditionJump
      split
      · rw [if_neg (by simp [hfold])]
      · rfl
  | none =>
    by_cases hcompare : ∃ left op right, e = .binary left op right ∧ isComparisonBinaryOp op = true
    · obtain ⟨left, op, right, rfl, hop⟩ := hcompare
      have hparts := Bool.and_eq_true_iff.mp he
      obtain ⟨hand, hor⟩ := comparison_ne hop
      have hfor : cx.foldFor .test κ (.binary left op right) = none := by
        rw [foldFor, if_neg (by simp)]
        exact hfold
      have hcode : compileExpr cx r .test (.binary left op right) a κ =
          emitBinary cx .test left op right (emitSeq (compileExpr cx r .value left)
            (compileExpr cx r .value right)) a κ := by
        rw [compile_binary hand hor hfor]
        change emitSeq _ emitNothing a κ = _
        rw [emitSeq_nothing]
      rw [hcode]
      cases hslot : slotOperand (cx.foldNumber κ) left right with
      | none =>
        obtain ⟨hleft, hright⟩ := hsides left op right rfl
        have hboth := sound_both hleft hright
        have hjump : conditionJump cx κ (.binary left op right) target =
            .jumpIfCompareFalse op target := by
          simp only [conditionJump, hop, hfold, hslot, Option.isNone_none, and_self, if_true]
        have hemit : emitBinary cx .test left op right (emitSeq (compileExpr cx r .value left)
            (compileExpr cx r .value right)) a κ = emitSeq (compileExpr cx r .value left)
            (compileExpr cx r .value right) a κ := by
          simp only [emitBinary, hop, hslot, if_true]
        rw [hjump, hemit, evalOperand_binary hand hor]
        refine ⟨?_, hboth.agrees⟩
        have h := hboth.computes.decides (f := fun pair =>
          compute (evalBinaryValues op pair.1 pair.2))
          fun pair _ => branches_compare hop pair.1 pair.2 target
        simpa only [bind_assoc, pure_bind] using h
      | some operand =>
        have hemit : emitBinary cx .test left op right (emitSeq (compileExpr cx r .value left)
            (compileExpr cx r .value right)) a κ = ⟨[], κ⟩ := by
          simp only [emitBinary, hop, hslot, if_true]
          rfl
        rw [hemit]
        refine ⟨?_, hκ⟩
        cases operand with
        | plain slot value =>
          obtain ⟨rfl, hvalueFold⟩ := slotOperand_plain hslot
          have hjump : conditionJump cx κ (.binary (.variable slot) op right) target =
              .jumpIfSlotNumberCompareFalse slot op value target := by
            simp only [conditionJump, hop, hfold, hslot, Option.isNone_none, and_self, if_true]
          rw [hjump, eval_slotOperator hκ hand hor hparts.2 hvalueFold]
          intro code brk S I history hat
          exact (branches_slotCompare hop slot value target).decides hat.head
        | arithmetic slot innerOp other value =>
          obtain ⟨inner, rfl, hnumeric, hinner, hvalueFold⟩ := slotOperand_arithmetic hslot
          have hinnerOperand : isOperand inner = true := by
            simpa [isOperand] using hparts.1
          have hjump : conditionJump cx κ
              (.binary (.binary (.variable slot) innerOp inner) op right) target =
              .jumpIfSlotNumberBinaryCompareFalse slot innerOp other op value target := by
            simp only [conditionJump, hop, hfold, hslot, Option.isNone_none, and_self, if_true]
          rw [hjump, evalOperand_binary hand hor, eval_slotOperator hκ (numeric_ne hnumeric).1
            (numeric_ne hnumeric).2 hinnerOperand hinner, eval_foldNumber hκ hparts.2 hvalueFold]
          simp only [bind_assoc, pure_bind]
          intro code brk S I history hat
          exact (branches_slotBinaryCompare hnumeric hop slot other value target).decides
            hat.head
    · have hne : ∀ left op right, e = .binary left op right → isComparisonBinaryOp op ≠ true :=
        fun left op right heq hop => hcompare ⟨left, op, right, heq, hop⟩
      refine hplain (compile_test he hne) ?_
      unfold conditionJump
      split
      · next left op right =>
          rw [if_neg (fun h => hne left op right rfl h.1)]
      · rfl

/-! ## Branches -/

variable {t e : Code} {y z : Eval B} {outs' : B → List Value}

theorem lands_jump {res : Except RuntimeError A × History} (hcode : code[a]? = some (.jump target))
    (h : Lands env code base ⟨target, S, slots, I, history⟩ res k) :
    Lands env code base ⟨a, S, slots, I, history⟩ res k :=
  lands_step (step_eq (m := ⟨a, S, slots, I, history⟩) hcode) h

theorem computes_if {x : Eval Value} {elseStart : Nat}
    (hc : Decides env slots a c elseStart x) (helse : elseStart = a + c.length + t.length + 1)
    (ht : ∀ v, Returns x v → Computes env slots (a + c.length) t [] y outs')
    (he : ∀ v, Returns x v → Computes env slots elseStart e [] z outs') :
    Computes env slots a (c ++ (t ++ .jump (elseStart + e.length) :: e)) []
      (x >>= fun v => if isTruthy v then y else z) outs' := by
  intro code brk S I history hcode
  have hlen : a + (c ++ (t ++ .jump (elseStart + e.length) :: e)).length =
      elseStart + e.length := by
    simp only [length_append, length_cons]
    omega
  rw [hlen]
  have hthen := hcode.right
  refine Lands.bind (hc code brk S I history hcode.left) fun v later hv => ?_
  have hreturns : Returns x v := ⟨history, later, hv⟩
  cases htruthy : isTruthy v with
  | true =>
    have hrun := ht v hreturns code brk S I later hthen.left
    simp only [if_true]
    rcases hy : y later with ⟨error | w, last⟩
    · rw [hy] at hrun
      exact hrun
    · rw [hy] at hrun
      have hjump : Reaches (step code env)
          ⟨a + c.length + t.length, (outs' w).reverse ++ S, slots, I, last⟩
          ⟨elseStart + e.length, (outs' w).reverse ++ S, slots, I, last⟩ :=
        Reaches.one (step_eq (m := ⟨a + c.length + t.length,
          (outs' w).reverse ++ S, slots, I, last⟩) hthen.right.head)
      exact hrun.trans hjump
  | false =>
    have helseCode : CodeAt code brk elseStart e := by
      rw [helse]
      exact hthen.right.tail
    have hrun := he v hreturns code brk S I later helseCode
    simpa using hrun

theorem sound_if {x : Eval Value} {jump : Consts → Nat → Instruction} {C T : Emitter}
    (hc : ∀ target, Decides env slots a ((C a κ).code ++ [jump κ target]) target x)
    (hκ : Agrees cx (C a κ).consts slots)
    (ht : ∀ a κ, Agrees cx κ slots → Sound env cx slots (T a κ) a [] y outs')
    (he : ∀ a κ, Agrees cx κ slots → Sound env cx slots (E a κ) a [] z outs') :
    Sound env cx slots (emitIf jump C T E a κ) a []
      (x >>= fun v => if isTruthy v then y else z) outs' := by
  refine ⟨?_, fun _ => holds_noConsts⟩
  have hlen : ∀ target, ((C a κ).code ++ [jump κ target]).length = (C a κ).code.length + 1 := by
    simp
  have h := computes_if (e := (E (a + (C a κ).code.length + 1 +
      (T (a + (C a κ).code.length + 1) (C a κ).consts).code.length + 1) (C a κ).consts).code)
    (t := (T (a + (C a κ).code.length + 1) (C a κ).consts).code)
    (hc (a + (C a κ).code.length + 1 +
      (T (a + (C a κ).code.length + 1) (C a κ).consts).code.length + 1))
    (by rw [hlen]; omega) (fun v _ => by
      rw [hlen]
      exact (ht _ _ hκ).computes) fun v _ => (he _ _ hκ).computes
  simpa only [emitIf, append_assoc, cons_append, nil_append] using h

/-- A logical operator, given the jump that decides it early. -/
theorem sound_logical {x w : Eval Value} {jump : Nat → Instruction} {b : Bool} {t : Value → Value}
    (hjump : ∀ target v, Branches env slots (jump target) target [v] (pure (t v)))
    (hE : Sound env cx slots (E a κ) a [] x ([·]))
    (hF : ∀ a κ, Agrees cx κ slots → Sound env cx slots (F a κ) a [] w ([·])) :
    Sound env cx slots (emitLogical jump b E F a κ) a []
      (x >>= fun v => if isTruthy (t v) then w >>= fun v => pure (.bool (isTruthy v))
        else pure (.bool b)) ([·]) := by
  have hright := (hF (a + (E a κ).code.length + 1) (E a κ).consts hE.agrees)
  refine ⟨?_, hright.agrees⟩
  have hdecides : ∀ target, Decides env slots a ((E a κ).code ++ [jump target]) target
      (x >>= fun v => pure (t v)) :=
    fun target => hE.computes.decides fun v _ => hjump target v
  have hthen : Computes env slots (a + (E a κ).code.length + 1)
      ((F (a + (E a κ).code.length + 1) (E a κ).consts).code ++ [Instruction.toBool]) []
      (w >>= fun v => pure (.bool (isTruthy v))) ([·]) :=
    hright.computes.append fun v _ => computes_instruction ⟨fun _ => rfl, fun _ _ _ _ => rfl⟩
  have helse : ∀ a, Computes env slots a [Instruction.pushConst (.bool b)] []
      (pure (.bool b)) ([·]) :=
    fun a => computes_instruction (applies_pushConst _)
  have hlen : ∀ target, ((E a κ).code ++ [jump target]).length = (E a κ).code.length + 1 := by
    simp
  have hstart : a + (E a κ).code.length + 1 +
      (F (a + (E a κ).code.length + 1) (E a κ).consts).code.length + 2 =
      a + ((E a κ).code ++ [jump (a + (E a κ).code.length + 1 +
        (F (a + (E a κ).code.length + 1) (E a κ).consts).code.length + 2)]).length +
        ((F (a + (E a κ).code.length + 1) (E a κ).consts).code ++
          [Instruction.toBool]).length + 1 := by
    simp only [length_append, length_cons, length_nil]
    omega
  have h := computes_if (hdecides _) hstart
    (fun v _ => by
      rw [hlen]
      exact hthen) fun v _ => helse _
  simpa only [emitLogical, bind_assoc, pure_bind, append_assoc, cons_append,
    nil_append, length_cons, length_nil] using h

end ScriptOperands
