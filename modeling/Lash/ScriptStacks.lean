import Lash.ScriptMachine

/-!
# What an instruction does to the stacks

Every instruction that neither jumps nor opens or closes a loop takes a fixed number
of values from the stack and leaves a fixed number there. One that finds them cannot
find the stack too low.
-/

namespace ScriptStacks

open ScriptValues ScriptOps ScriptCompiler
open List
open ScriptMachine

/-- The machine stands at an address with `j` values above `S` and the iterators `I`. -/
structure Above (ip : Nat) (S : List Value) (I : List IterState) (j : Nat) (m : Machine) :
    Prop where
  ip_eq : m.ip = ip
  iters_eq : m.iters = I
  stack_eq : ∃ L : List Value, L.length = j ∧ m.stack = L ++ S

def Inside (a b : Nat) (m : Machine) : Prop := a ≤ m.ip ∧ m.ip < b

/-- A run that did not end because a stack was too low. -/
def Fine (h : Halted) : Prop := ∀ failure, h.result = .error failure → ∃ e, failure = .raised e

/-- A step leads to a machine of this kind, or ends the run in this way. -/
def Leaves (Q : Machine → Prop) (H : Halted → Prop) : Step → Prop
  | .inl m => Q m
  | .inr h => H h

theorem Leaves.weaken {Q Q' : Machine → Prop} {H H' : Halted → Prop} {s : Step}
    (h : Leaves Q H s) (hQ : ∀ m, Q m → Q' m) (hH : ∀ h, H h → H' h) : Leaves Q' H' s := by
  cases s with
  | inl m => exact hQ m h
  | inr r => exact hH r h

variable {ip j : Nat} {S : List Value} {I : List IterState} {m : Machine}

theorem Above.pop {value : Value} {rest : List Value} (h : Above ip S I (j + 1) m)
    (hstack : m.stack = value :: rest) : Above ip S I j { m with stack := rest } := by
  obtain ⟨L, hlen, heq⟩ := h.stack_eq
  cases L with
  | nil => simp at hlen
  | cons top tail =>
    have hrest : rest = tail ++ S := by
      rw [hstack] at heq
      exact (cons.inj heq).2
    refine ⟨h.ip_eq, h.iters_eq, tail, ?_, hrest⟩
    simpa using hlen

theorem Above.push (value : Value) (h : Above ip S I j m) :
    Above ip S I (j + 1) { m with stack := value :: m.stack } := by
  obtain ⟨L, hlen, heq⟩ := h.stack_eq
  refine ⟨h.ip_eq, h.iters_eq, value :: L, ?_, ?_⟩
  · simp [hlen]
  · simp [heq]

theorem Above.drop {n : Nat} (h : Above ip S I (n + j) m) :
    Above ip S I j { m with stack := m.stack.drop n } := by
  obtain ⟨L, hlen, heq⟩ := h.stack_eq
  refine ⟨h.ip_eq, h.iters_eq, L.drop n, ?_, ?_⟩
  · rw [length_drop, hlen]
    omega
  · simp [heq, drop_append, show n - L.length = 0 by omega]

theorem Above.tall {n : Nat} (h : Above ip S I (n + j) m) : ¬ m.stack.length < n := by
  obtain ⟨L, hlen, heq⟩ := h.stack_eq
  rw [heq, length_append, hlen]
  omega

/-- The values above `S` may be counted as part of what lies below. -/
theorem Above.frame {k : Nat} (h : Above ip S I (k + j) m) :
    ∃ L : List Value, L.length = j ∧ Above ip (L ++ S) I k m := by
  obtain ⟨L, hlen, heq⟩ := h.stack_eq
  refine ⟨L.drop k, ?_, h.ip_eq, h.iters_eq, L.take k, ?_, ?_⟩
  · rw [length_drop, hlen]
    omega
  · rw [length_take, hlen]
    omega
  · rw [heq, ← append_assoc, take_append_drop]

theorem Above.unframe {k : Nat} {L : List Value} (hL : L.length = j)
    (h : Above ip (L ++ S) I k m) : Above ip S I (k + j) m := by
  obtain ⟨top, hlen, heq⟩ := h.stack_eq
  refine ⟨h.ip_eq, h.iters_eq, top ++ L, ?_, ?_⟩
  · rw [length_append, hlen, hL]
  · rw [heq, append_assoc]

theorem Above.inside {b l : Nat} (h : Above ip S I j m) (hl : l ≤ ip) (hb : ip < b) :
    Inside l b m :=
  ⟨by rw [h.ip_eq]; exact hl, by rw [h.ip_eq]; exact hb⟩

theorem Above.next (h : Above ip S I j m) : Above (ip + 1) S I j { m with ip := m.ip + 1 } :=
  ⟨by rw [h.ip_eq], h.iters_eq, h.stack_eq⟩

/-! ## The parts of an instruction -/

theorem fine_raised (slots : Slots) (history : History) (error : RuntimeError) :
    Fine ⟨.error (.raised error), slots, history⟩ := by
  intro failure h
  injection h with h
  exact ⟨error, h.symm⟩

theorem fine_ok (slots : Slots) (history : History) (outcome : VmOutcome) :
    Fine ⟨.ok outcome, slots, history⟩ := by
  intro failure h
  cases h

/-- What is true of a machine at an address with so many values, whatever moves there, and of the
runs that end there. Only some slots may be written. -/
class Holding (A : Nat → Nat → Machine → Prop) (H : outParam (Halted → Prop))
    (writes : outParam (String → Prop)) : Prop where
  pop {ip j : Nat} {m : Machine} {value : Value} {rest : List Value} (h : A ip (j + 1) m)
    (hstack : m.stack = value :: rest) : A ip j { m with stack := rest }
  drop {ip n j : Nat} {m : Machine} (h : A ip (n + j) m) :
    A ip j { m with stack := m.stack.drop n }
  push {ip j : Nat} {m : Machine} (value : Value) (h : A ip j m) :
    A ip (j + 1) { m with stack := value :: m.stack }
  goto {ip j : Nat} {m : Machine} (target : Nat) (h : A ip j m) :
    A target j { m with ip := target }
  write {ip j : Nat} {m : Machine} {name : String} (hname : writes name) (value : Value)
    (h : A ip j m) : A ip j { m with slots := setSlot m.slots name (some value) }
  history {ip j : Nat} {m : Machine} (history : History) (h : A ip j m) :
    A ip j { m with history := history }
  low {ip n j : Nat} {m : Machine} (h : A ip (n + j) m) (hlow : m.stack.length < n) :
    H ⟨.error .stackUnderflow, unwind m.iters m.slots, m.history⟩
  raised {ip j : Nat} {m : Machine} (error : RuntimeError) (h : A ip j m) :
    H ⟨.error (.raised error), unwind m.iters m.slots, m.history⟩
  ended {ip j : Nat} {m : Machine} (outcome : VmOutcome) (h : A ip j m) :
    H ⟨.ok outcome, unwind m.iters m.slots, m.history⟩

instance above_holding : Holding (fun ip j => Above ip S I j) Fine (fun _ => True) where
  pop := Above.pop
  drop := Above.drop
  push := Above.push
  goto _ h := ⟨rfl, h.iters_eq, h.stack_eq⟩
  write _ _ h := ⟨h.ip_eq, h.iters_eq, h.stack_eq⟩
  history _ h := ⟨h.ip_eq, h.iters_eq, h.stack_eq⟩
  low h hlow := absurd hlow h.tall
  raised error _ := fine_raised _ _ error
  ended outcome _ := fine_ok _ _ outcome

section Parts

open Holding

variable {A : Nat → Nat → Machine → Prop} {H : Halted → Prop} {writes : String → Prop}
  [law : Holding A H writes] {Q : Machine → Prop} {name : String}

include law

theorem leaves_failWith (h : A ip j m) (error : RuntimeError) : Leaves Q H (m.failWith error) :=
  raised error h

theorem leaves_halt (h : A ip j m) (outcome : VmOutcome) : Leaves Q H (m.halt (.ok outcome)) :=
  ended outcome h

theorem leaves_push (value : Value) (h : A ip j m) : Leaves (A ip (j + 1)) H (m.push value) :=
  push value h

theorem leaves_pushResult (result : Result) (h : A ip j m) :
    Leaves (A ip (j + 1)) H (m.pushResult result) := by
  cases result with
  | ok value => exact leaves_push value h
  | error error => exact leaves_failWith h error

theorem leaves_assignResult (hname : writes name) (result : Result) (h : A ip j m) :
    Leaves (A ip j) H (m.assignResult name result) := by
  cases result with
  | ok value => exact write hname value h
  | error error => exact leaves_failWith h error

theorem leaves_ignoreResult (result : Result) (h : A ip j m) :
    Leaves (A ip j) H (m.ignoreResult result) := by
  cases result with
  | ok value => exact h
  | error error => exact leaves_failWith h error

variable {f : Machine → Value → Step}

theorem leaves_withTop (h : A ip (j + 1) m) (hf : ∀ m value, A ip j m → Leaves Q H (f m value)) :
    Leaves Q H (m.withTop f) := by
  cases hstack : m.stack with
  | nil =>
    rw [Machine.withTop, hstack]
    rw [Nat.add_comm] at h
    exact low h (by rw [hstack]; exact Nat.zero_lt_one)
  | cons value rest =>
    rw [Machine.withTop, hstack]
    exact hf _ value (pop h hstack)

theorem leaves_withTwo {f : Machine → Value → Value → Step} (h : A ip (j + 2) m)
    (hf : ∀ m left right, A ip j m → Leaves Q H (f m left right)) : Leaves Q H (m.withTwo f) :=
  leaves_withTop h fun _ _ h => leaves_withTop h fun _ _ h => hf _ _ _ h

theorem leaves_withTail {n : Nat} {f : Machine → List Value → Step} (h : A ip n m)
    (hf : ∀ m values, A ip 0 m → Leaves Q H (f m values)) : Leaves Q H (m.withTail n f) := by
  have hall : A ip (n + 0) m := h
  rw [Machine.withTail]
  split
  · rename_i hlow
    exact low hall hlow
  · exact hf _ _ (drop hall)

theorem leaves_withSlot {f : Value → Step} (h : A ip j m) (hf : ∀ value, Leaves Q H (f value)) :
    Leaves Q H (m.withSlot name f) := by
  cases hslot : m.slots name with
  | none =>
    rw [Machine.withSlot, hslot]
    exact leaves_failWith h _
  | some value =>
    rw [Machine.withSlot, hslot]
    exact hf value

variable {env : Environment}

theorem leaves_request {op : AbilityOp} {heading : String} (h : A ip j m)
    (hf : ∀ m value, A ip j m → Leaves Q H (f m value)) :
    Leaves Q H (m.request env op name heading f) := by
  cases hask : env.ask m.history op name with
  | ok value =>
    simp only [Machine.request, hask]
    exact hf _ _ (history _ h)
  | error error =>
    simp only [Machine.request, hask]
    exact leaves_failWith (history (op :: m.history) h) _

theorem leaves_inProcess {s : Step} (h : A ip j m) (hs : Leaves Q H s) :
    Leaves Q H (m.inProcess env name s) := by
  cases hmode : env.mode with
  | process =>
    simp only [Machine.inProcess, hmode]
    exact hs
  | foreground =>
    simp only [Machine.inProcess, hmode]
    exact leaves_failWith h _

theorem leaves_pushAsked (r : Result × History) (h : A ip j m) :
    Leaves (A ip (j + 1)) H (m.pushAsked r) :=
  leaves_pushResult r.1 (history r.2 h)

theorem leaves_branch {target : Nat} (result : Except RuntimeError Bool) (h : A ip j m) :
    Leaves (fun m' => A ip j m' ∨ A target j m') H (m.branch target result) := by
  cases result with
  | error error => exact leaves_failWith h error
  | ok truthy =>
    cases truthy with
    | true => exact Or.inl h
    | false => exact Or.inr (goto target h)

/-! ## Instructions without jumps -/

/-- How many values an instruction takes and how many it leaves. There is no answer for those
that jump or work on the iterators. -/
def stackEffect : Instruction → Option (Nat × Nat)
  | .pushConst _ | .loadName _ | .loadField _ _ | .loadFieldUnwrap _ _ | .slotNumberBinary _ _ _
  | .slotNumberCompare _ _ _ | .slotNumberBinaryCompare _ _ _ _ _ | .processWaitSignal _
  | .formatCompiledSlotNumber _ _ | .formatCompiledSlotNumberBinary _ _ _ _
  | .resolveTypeRef _ => some (0, 1)
  | .storeName _ | .pushAssign _ | .addAssign _ | .addAssignIndexNumber _ _ | .appendAssign _
  | .pop => some (1, 0)
  | .storeConst _ _ | .addAssignNumber _ _ | .addAssignSlot _ _ | .addAssignIndexSlotNumber _ _ _
  | .observeStep => some (0, 0)
  | .buildTuple len | .buildList len => some (len, 1)
  | .listAppend | .index | .binary _ | .processSignalRun _ => some (2, 1)
  | .buildRecord keys | .startProcess _ keys _ => some (keys.length, 1)
  | .field _ | .resultUnwrap | .unary _ | .toBool | .awaitHandle | .awaitHandleUnwrap | .sleepFor
  | .sleepUntil | .cancelHandle | .validateCompiled _ | .print | .processYield | .processWake
  | .wrapTypeLiteral | .wrapHostDescriptor _ => some (1, 1)
  | .pathAssign _ path => some ((path.filter (· == .index)).length + 1, 0)
  | .resourceCall _ argc | .resourceCallUnwrap _ argc => some (argc + 1, 1)
  | .resourceOperationBatch batch => some (batch.stackValueCount, 1)
  | .intrinsic op => some (op.argc, 1)
  | .formatCompiled template => some (template.argc, 1)
  | .finish | .processFail => some (1, 0)
  | .jump _ | .breakJump | .jumpIfFalse _ | .jumpIfCompareFalse _ _
  | .jumpIfSlotNumberCompareFalse _ _ _ _ | .jumpIfSlotNumberBinaryCompareFalse _ _ _ _ _ _
  | .jumpIfTrue _ | .beginIter _ | .beginRangeIter _ _ | .iterNext _ | .endIter => none

/-- The slot an instruction writes. -/
def written : Instruction → Option String
  | .storeName slot | .storeConst slot _ | .pathAssign slot _ | .pushAssign slot | .addAssign slot
  | .addAssignNumber slot _ | .addAssignSlot slot _ | .addAssignIndexNumber slot _
  | .addAssignIndexSlotNumber slot _ _ | .appendAssign slot => some slot
  | _ => none

/-- What an instruction without a jump does to a machine. -/
theorem execute_leaves (env : Environment) {i : Instruction} {k r : Nat}
    (hi : stackEffect i = some (k, r)) (hw : ∀ name, written i = some name → writes name)
    (h : A ip k m) : Leaves (A ip r) H (execute env m i) := by
  unfold execute
  cases i with
  | pushConst value => cases hi; exact leaves_push _ h
  | loadName slot => cases hi; exact leaves_withSlot h fun _ => leaves_push _ h
  | storeName slot => cases hi; exact leaves_withTop h fun _ _ h => write (hw _ rfl) _ h
  | storeConst slot constant => cases hi; exact write (hw _ rfl) _ h
  | buildTuple len | buildList len | buildRecord keys =>
    cases hi; exact leaves_withTail h fun _ _ h => leaves_push _ h
  | listAppend | index | binary op =>
    cases hi; exact leaves_withTwo h fun _ _ _ h => leaves_pushResult _ h
  | loadField slot field | slotNumberBinary slot op right =>
    cases hi; exact leaves_withSlot h fun _ => leaves_pushResult _ h
  | loadFieldUnwrap slot field =>
    cases hi
    refine leaves_withSlot h fun value => ?_
    cases readField value field with
    | ok value => exact leaves_pushResult _ h
    | error error => exact leaves_failWith h _
  | field name | resultUnwrap | unary op | validateCompiled schema =>
    cases hi; exact leaves_withTop h fun _ _ h => leaves_pushResult _ h
  | pathAssign slot path =>
    cases hi
    exact leaves_withTop h fun _ _ h => leaves_withTail h fun _ _ h =>
      leaves_withSlot h fun _ => leaves_assignResult (hw _ rfl) _ h
  | slotNumberCompare slot op right =>
    cases hi
    refine leaves_withSlot h fun left => ?_
    cases evalCompareValues op left (.number right) with
    | ok truthy => exact leaves_push _ h
    | error error => exact leaves_failWith h _
  | slotNumberBinaryCompare slot binaryOp binaryRight compareOp compareRight =>
    cases hi
    refine leaves_withSlot h fun left => ?_
    cases binaryInstruction binaryOp left (.number binaryRight) with
    | error error => exact leaves_failWith h _
    | ok value =>
      simp only
      cases evalCompareValues compareOp value (.number compareRight) with
      | ok truthy => exact leaves_push _ h
      | error error => exact leaves_failWith h _
  | toBool | wrapTypeLiteral | wrapHostDescriptor typeName =>
    cases hi; exact leaves_withTop h fun _ _ h => leaves_push _ h
  | resourceCall operation argc | resourceCallUnwrap operation argc
  | resourceOperationBatch batch | startProcess process keys site =>
    cases hi; exact leaves_withTail h fun _ _ h => leaves_pushAsked _ h
  | awaitHandle | awaitHandleUnwrap =>
    cases hi; exact leaves_withTop h fun _ _ h => leaves_pushAsked _ h
  | sleepFor | sleepUntil | cancelHandle =>
    cases hi
    exact leaves_withTop h fun _ _ h => leaves_request h fun _ _ h => leaves_push _ h
  | processWaitSignal name =>
    cases hi; exact leaves_inProcess h (leaves_request h fun _ _ h => leaves_push _ h)
  | processSignalRun name =>
    cases hi
    exact leaves_withTwo h fun _ _ _ h => leaves_request h fun _ _ h => leaves_push _ h
  | intrinsic op | formatCompiled template =>
    cases hi; exact leaves_withTail h fun _ _ h => leaves_pushResult _ h
  | pushAssign slot | addAssign slot | addAssignIndexNumber slot right =>
    cases hi
    exact leaves_withTop h fun _ _ h =>
      leaves_withSlot h fun _ => leaves_assignResult (hw _ rfl) _ h
  | formatCompiledSlotNumber template slot =>
    cases hi
    refine leaves_withSlot h fun value => ?_
    cases value with
    | number value => exact leaves_pushResult _ h
    | _ => exact leaves_pushResult _ h
  | formatCompiledSlotNumberBinary template slot op right =>
    cases hi
    refine leaves_withSlot h fun left => ?_
    cases left with
    | number left => exact leaves_pushResult _ h
    | _ =>
      simp only
      cases evalBinaryValues op _ (.number right) with
      | ok value => exact leaves_pushResult _ h
      | error error => exact leaves_failWith h _
  | addAssignNumber slot right =>
    cases hi; exact leaves_withSlot h fun _ => leaves_assignResult (hw _ rfl) _ h
  | addAssignSlot slot right | addAssignIndexSlotNumber slot index right =>
    cases hi
    exact leaves_withSlot h fun _ => leaves_withSlot h fun _ => leaves_assignResult (hw _ rfl) _ h
  | appendAssign slot =>
    cases hi
    refine leaves_withTop h fun m item h => leaves_withSlot h fun current => ?_
    cases current with
    | list items => exact write (hw _ rfl) _ h
    | _ => exact leaves_ignoreResult _ h
  | print =>
    cases hi
    cases hmode : env.mode with
    | process =>
      exact leaves_failWith h _
    | foreground =>
      refine leaves_withTop h fun m value h => ?_
      cases env.host.perform m.history (.print value) with
      | ok answer => exact leaves_push _ (history _ h)
      | error error => exact leaves_failWith (history _ h) _
  | processYield | processWake =>
    cases hi
    exact leaves_inProcess h (leaves_withTop h fun _ _ h => processEvent_leaves h)
  | finish =>
    cases hi
    exact leaves_withTop h fun _ _ h => leaves_request h fun _ _ h => leaves_halt h _
  | processFail =>
    cases hi
    exact leaves_inProcess h
      (leaves_withTop h fun _ _ h => leaves_request h fun _ _ h => leaves_halt h _)
  | observeStep => cases hi; exact h
  | pop => cases hi; exact leaves_withTop h fun _ _ h => h
  | resolveTypeRef slot =>
    cases hi
    refine leaves_withSlot h fun value => ?_
    cases unwrapTypeValue value with
    | some schema => exact leaves_push _ h
    | none => exact leaves_failWith h _
  | _ => cases hi
where
  processEvent_leaves {m : Machine} {env : Environment} {kind : ProcessEventKind} {value : Value}
      (h : A ip 0 m) : Leaves (A ip 1) H (execute.processEvent env m kind value) := by
    cases hask : env.host.perform m.history (.processEvent kind value) with
    | ok answer =>
      simp only [execute.processEvent, hask]
      exact leaves_push _ (history _ h)
    | error error =>
      simp only [execute.processEvent, hask]
      exact leaves_failWith (history (.processEvent kind value :: m.history) h) _

end Parts

end ScriptStacks
