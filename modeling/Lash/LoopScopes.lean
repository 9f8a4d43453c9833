import Lash.ScriptDiscipline

/-!
# The loops around an address

Compiled loops nest, and a jump leads to an address with the same loops around it. So
the iterators of a run are the loops around the address where it stands, and what a
loop took for its binding is given back where the run leaves it.
-/

namespace LoopScopes

open ScriptValues ScriptOps ScriptSyntax ScriptFolding ScriptCompiler
open List
open ScriptMachine ScriptStacks ScriptFlows ScriptDiscipline StepMachines

/-- Loops, the innermost first: where each was opened, and its binding. -/
abbrev Scope := List (Nat × String)

def opens : Instruction → Option String
  | .beginIter binding | .beginRangeIter binding _ => some binding
  | _ => none

/-- The loops behind an instruction. -/
def Scope.after (σ : Scope) (a : Nat) : Instruction → Scope
  | .beginIter binding | .beginRangeIter binding _ => (a, binding) :: σ
  | .endIter => σ.tail
  | _ => σ

def loopsAround (code : Code) : Nat → Scope
  | 0 => []
  | a + 1 =>
    match code[a]? with
    | some i => (loopsAround code a).after a i
    | none => loopsAround code a

/-- Where an instruction jumps, if it jumps. The machine takes an open break for a jump behind
the last address. -/
def jumpsTo (brk : Nat) : Instruction → Option Nat
  | .jump target | .jumpIfFalse target | .jumpIfTrue target | .jumpIfCompareFalse _ target
  | .jumpIfSlotNumberCompareFalse _ _ _ target
  | .jumpIfSlotNumberBinaryCompareFalse _ _ _ _ _ target | .iterNext target => some target
  | .breakJump => some brk
  | _ => none

/-- Every instruction of a piece is as `R` says for its address. -/
def Along (R : Nat → Instruction → Prop) : Nat → Code → Prop
  | _, [] => True
  | a, i :: c => R a i ∧ Along R (a + 1) c

/-- The piece stands where the loops are those of `s`. -/
def Laid (s : Nat → Scope) : Nat → Code → Prop :=
  Along fun a i => s (a + 1) = (s a).after a i

/-- The jumps of the piece lead to addresses with the same loops. -/
def Level (s : Nat → Scope) (brk : Nat) : Nat → Code → Prop :=
  Along fun a i => ∀ target, jumpsTo brk i = some target → s target = s a

/-- A piece of code closes the loops it opens, and its jumps stay at the level of their loops
when the two addresses of the loop around it are at its own level. -/
def Nests (b : Bool) (loop a : Nat) (c : Code) : Prop :=
  ∀ s, Laid s a c → s (a + c.length) = s a ∧
    ∀ brk, (b = true → s loop = s a ∧ s brk = s a) → Level s brk a c

variable {R : Nat → Instruction → Prop} {a k q brk : Nat} {c d : Code} {i : Instruction}

theorem along_append : Along R a (c ++ d) ↔ Along R a c ∧ Along R (a + c.length) d := by
  induction c generalizing a with
  | nil => simp [Along]
  | cons i c ih => simp [Along, ih, and_assoc, Nat.add_assoc, Nat.add_comm 1]

theorem along_map (f : Instruction → Instruction) :
    Along R a (c.map f) ↔ Along (fun a i => R a (f i)) a c := by
  induction c generalizing a with
  | nil => rfl
  | cons i c ih => exact and_congr_right fun _ => ih

theorem along_iff : Along R a c ↔ ∀ k i, (c)[k]? = some i → R (a + k) i := by
  induction c generalizing a with
  | nil => simp [Along]
  | cons j c ih =>
    rw [Along, ih]
    constructor
    · rintro ⟨hj, hc⟩ k i hi
      cases k with
      | zero => exact Option.some.inj hi ▸ hj
      | succ k =>
        have h := hc k i hi
        rwa [Nat.add_assoc, Nat.add_comm 1 k] at h
    · intro h
      refine ⟨h 0 j rfl, fun k i hi => ?_⟩
      rw [Nat.add_assoc, Nat.add_comm 1 k]
      exact h (k + 1) i hi

theorem effect_level (hi : stackEffect i = some (k, q)) :
    (∀ (σ : Scope) a, σ.after a i = σ) ∧ ∀ brk, jumpsTo brk i = none := by
  cases i with
  | jump | breakJump | jumpIfFalse | jumpIfTrue | jumpIfCompareFalse | beginIter | beginRangeIter
  | iterNext | endIter | jumpIfSlotNumberCompareFalse
  | jumpIfSlotNumberBinaryCompareFalse => cases hi
  | _ => exact ⟨fun _ _ => rfl, fun _ => rfl⟩

theorem jump_level {target : Nat} (hi : jumpEffect i = some (k, target)) :
    (∀ (σ : Scope) a, σ.after a i = σ) ∧ ∀ brk, jumpsTo brk i = some target := by
  cases i with
  | jumpIfFalse | jumpIfTrue | jumpIfCompareFalse | jumpIfSlotNumberCompareFalse
  | jumpIfSlotNumberBinaryCompareFalse => cases hi; exact ⟨fun _ _ => rfl, fun _ => rfl⟩
  | _ => cases hi

theorem begin_level (hi : beginEffect i = some q) :
    (∀ (σ : Scope) a, (σ.after a i).tail = σ) ∧ ∀ brk, jumpsTo brk i = none := by
  cases i with
  | beginIter | beginRangeIter => exact ⟨fun _ _ => rfl, fun _ => rfl⟩
  | _ => cases hi

variable {stop : Nat}

theorem laid_patched {s : Nat → Scope} : Laid s a (c.map (patchBreak stop)) ↔ Laid s a c := by
  have h : ∀ (σ : Scope) a i, σ.after a (patchBreak stop i) = σ.after a i := by
    intro σ a i
    cases i <;> rfl
  simp only [Laid, along_map, h]

theorem level_patched {s : Nat → Scope} :
    Level s brk a (c.map (patchBreak stop)) ↔ Level s stop a c := by
  have h : ∀ i, jumpsTo brk (patchBreak stop i) = jumpsTo stop i := by
    intro i
    cases i <;> rfl
  simp only [Level, along_map, h]

/-! ## Pieces of code -/

variable {b : Bool} {loop : Nat}

theorem nests_one (hi : ∀ (σ : Scope) a, σ.after a i = σ)
    (ht : ∀ (s : Nat → Scope) brk, (b = true → s loop = s a ∧ s brk = s a) →
      ∀ t, jumpsTo brk i = some t → s t = s a) : Nests b loop a [i] :=
  fun s h => ⟨h.1.trans (hi (s a) a), fun brk hb => ⟨ht s brk hb, trivial⟩⟩

theorem nests_instruction (hi : stackEffect i = some (k, q)) : Nests b loop a [i] := by
  refine nests_one (effect_level hi).1 fun s brk _ t ht => ?_
  rw [(effect_level hi).2] at ht
  cases ht

theorem nests_append (hc : Nests b loop a c) (hd : Nests b loop (a + c.length) d) :
    Nests b loop a (c ++ d) := by
  intro s h
  obtain ⟨hlaid, hlaid'⟩ := along_append.mp h
  obtain ⟨heven, hlevel⟩ := hc s hlaid
  obtain ⟨heven', hlevel'⟩ := hd s hlaid'
  rw [length_append, ← Nat.add_assoc, heven', heven]
  refine ⟨rfl, fun brk hb => along_append.mpr ⟨hlevel brk hb, hlevel' brk ?_⟩⟩
  rw [heven]
  exact hb

theorem nests_weaken {r : Nat} (hc : Nests false loop a c) : Nests b r a c := by
  intro s h
  refine ⟨(hc s h).1, fun brk _ => (hc s h).2 brk ?_⟩
  rintro ⟨⟩

variable {jump : Nat → Instruction}

theorem nests_branch {e t : Code} {elseStart : Nat}
    (helse : elseStart = a + c.length + 1 + t.length + 1)
    (hjump : jumpEffect (jump elseStart) = some (q, elseStart)) (hc : Nests false loop a c)
    (ht : Nests b loop (a + c.length + 1) t) (he : Nests b loop elseStart e) :
    Nests b loop a (c ++ jump elseStart :: (t ++ .jump (elseStart + e.length) :: e)) := by
  intro s h
  obtain ⟨hlc, hj, hrest⟩ := along_append.mp h
  obtain ⟨hlt, hj', hle⟩ := along_append.mp hrest
  rw [← helse] at hj' hle
  obtain ⟨hc, hc'⟩ := hc s hlc
  obtain ⟨ht, ht'⟩ := ht s hlt
  obtain ⟨he, he'⟩ := he s hle
  rw [(jump_level hjump).1, hc] at hj
  have hj' : s elseStart = s a := hj'.trans (ht.trans hj)
  have hlen : a + (c ++ jump elseStart :: (t ++ .jump (elseStart + e.length) :: e)).length =
      elseStart + e.length := by
    simp only [length_append, length_cons]
    omega
  rw [hlen]
  refine ⟨he.trans hj', fun brk hb => along_append.mpr ⟨hc' brk nofun, ?_,
    along_append.mpr ⟨ht' brk ?_, ?_, ?_⟩⟩⟩
  · intro target htarget
    cases htarget.symm.trans ((jump_level hjump).2 brk)
    exact hj'.trans hc.symm
  · rw [hj]
    exact hb
  · rintro target ⟨⟩
    exact he.trans (hj'.trans (ht.trans hj).symm)
  · rw [← helse]
    refine he' brk ?_
    rw [hj']
    exact hb

theorem nests_test (hstop : stop = a + c.length + 1 + d.length)
    (hjump : jumpEffect (jump stop) = some (q, stop)) (hc : Nests false loop a c)
    (hd : Nests b loop (a + c.length + 1) d) : Nests b loop a (c ++ jump stop :: d) := by
  intro s h
  obtain ⟨hlc, hj, hld⟩ := along_append.mp h
  obtain ⟨hc, hc'⟩ := hc s hlc
  obtain ⟨hd, hd'⟩ := hd s hld
  rw [(jump_level hjump).1, hc] at hj
  rw [← hstop, hj] at hd
  have hlen : a + (c ++ jump stop :: d).length = stop := by
    simp only [length_append, length_cons]
    omega
  rw [hlen]
  refine ⟨hd, fun brk hb => along_append.mpr ⟨hc' brk nofun, ?_, hd' brk ?_⟩⟩
  · intro target htarget
    cases htarget.symm.trans ((jump_level hjump).2 brk)
    exact hd.trans hc.symm
  · rw [hj]
    exact hb

theorem nests_repeats (hstop : stop = a + c.length + 1 + d.length + 1)
    (hjump : jumpEffect (jump stop) = some (q, stop)) (hc : Nests false a a c)
    (hd : Nests true a (a + c.length + 1) d) :
    Nests b loop a (c ++ jump stop :: (d.map (patchBreak stop) ++ [Instruction.jump a])) := by
  intro s h
  obtain ⟨hlc, hj, hrest⟩ := along_append.mp h
  obtain ⟨hld, hback⟩ := along_append.mp hrest
  obtain ⟨hc, hc'⟩ := hc s hlc
  obtain ⟨hd, hd'⟩ := hd s (laid_patched.mp hld)
  rw [(jump_level hjump).1, hc] at hj
  rw [hj] at hd
  rw [length_map] at hback
  have hend : s stop = s a := by
    rw [hstop]
    exact hback.1.trans hd
  have hlen :
      a + (c ++ jump stop :: (d.map (patchBreak stop) ++ [Instruction.jump a])).length = stop := by
    simp only [length_append, length_cons, length_map, length_nil]
    omega
  rw [hlen]
  refine ⟨hend, fun brk _ => along_append.mpr ⟨hc' brk nofun, ?_,
    along_append.mpr ⟨level_patched.mpr (hd' stop fun _ => ?_), ?_, trivial⟩⟩⟩
  · intro target htarget
    cases htarget.symm.trans ((jump_level hjump).2 brk)
    exact hend.trans hc.symm
  · exact ⟨hj.symm, hend.trans hj.symm⟩
  · rintro target ⟨⟩
    rw [length_map]
    exact hd.symm

theorem nests_iteration {inner : Bool} (hi : beginEffect i = some q)
    (hstop : stop = a + c.length + 1 + 1 + d.length + 1) (hc : Nests b loop a c)
    (hd : Nests inner (a + c.length + 1) (a + c.length + 1 + 1) d) :
    Nests b loop a ((c ++ [i]) ++ Instruction.iterNext stop ::
      (d.map (patchBreak stop) ++ [Instruction.jump (a + c.length + 1), .endIter])) := by
  intro s h
  obtain ⟨hopen, hrest⟩ := along_append.mp h
  obtain ⟨hlc, hbegin, -⟩ := along_append.mp hopen
  rw [length_append, length_singleton, ← Nat.add_assoc] at hrest
  obtain ⟨hnext, hrest⟩ := hrest
  obtain ⟨hld, hrest⟩ := along_append.mp hrest
  rw [length_map] at hrest
  obtain ⟨hback, hclose, -⟩ := hrest
  obtain ⟨hc, hc'⟩ := hc s hlc
  obtain ⟨hd, hd'⟩ := hd s (laid_patched.mp hld)
  have hend : s stop = s (a + c.length + 1) := by
    rw [hstop]
    exact hback.trans (hd.trans hnext)
  have hafter : s (stop + 1) = s a := by
    rw [← hstop, hend, hbegin, hc] at hclose
    exact hclose.trans ((begin_level hi).1 _ _)
  have hlen : a + ((c ++ [i]) ++ Instruction.iterNext stop :: (d.map (patchBreak stop) ++
        [Instruction.jump (a + c.length + 1), .endIter])).length = stop + 1 := by
    simp only [length_append, length_cons, length_map, length_nil]
    omega
  rw [hlen]
  refine ⟨hafter, fun brk hb => along_append.mpr ⟨along_append.mpr ⟨hc' brk hb, ?_, trivial⟩, ?_⟩⟩
  · intro target htarget
    cases htarget.symm.trans ((begin_level hi).2 brk)
  rw [length_append, length_singleton, ← Nat.add_assoc]
  refine ⟨?_, along_append.mpr ⟨level_patched.mpr (hd' stop fun _ => ?_), ?_, nofun, trivial⟩⟩
  · rintro target ⟨⟩
    exact hend
  · exact ⟨hnext.symm, hend.trans hnext.symm⟩
  · rintro target ⟨⟩
    rw [length_map]
    exact (hd.trans hnext).symm

instance nests_composes : Composes fun b loop a _ _ c => Nests b loop a c where
  nil _ _ := ⟨rfl, fun _ _ => trivial⟩
  instruction := nests_instruction
  append := nests_append
  weaken := nests_weaken
  frame _ h := h
  breaks := nests_one (fun _ _ => rfl) fun _ _ hb _ ht => by
    cases ht
    exact (hb rfl).2
  continues := nests_one (fun _ _ => rfl) fun _ _ hb _ ht => by
    cases ht
    exact (hb rfl).1
  ends hi := by
    rcases hi with rfl | rfl
    · exact nests_instruction rfl
    · exact nests_instruction rfl
  branch := nests_branch
  test := nests_test
  repeats := nests_repeats
  iteration hi _ := nests_iteration hi

/-- The jumps of a program lead to addresses with the same loops around. -/
theorem program_level (cx : CompileContext) {main : Expr} (hmain : isStatement false main = true) :
    Level (loopsAround (compileProgram cx main)) usizeMax 0 (compileProgram cx main) := by
  have hlaid : Laid (loopsAround (compileProgram cx main)) 0 (compileProgram cx main) := by
    refine along_iff.mpr fun k i hi => ?_
    rw [Nat.zero_add, loopsAround, hi]
  have hcode : Nests false 0 0 (compileExpr cx 0 .value main 0 noConsts).code :=
    flow_statement (P := fun b loop a _ _ c => Nests b loop a c) main false hmain .value (by simp)
      (.inl fun h => h) 0 0 noConsts
  have hwhole : Nests false 0 0 (compileProgram cx main) := by
    rw [compileProgram]
    split
    · rw [append_nil]
      exact hcode
    · exact nests_append hcode (nests_instruction rfl)
  exact (hwhole _ hlaid).2 usizeMax fun h => by cases h

/-! ## One step -/

variable {I : List IterState} {S : Slots} {W : String → Prop} {code : Code} {env : Environment}
variable {m m' : Machine} {x : String}

/-- A machine with these iterators, whose slots are the old ones where `W` forbids a write. -/
structure Keeps (I : List IterState) (S : Slots) (W : String → Prop) (ip : Nat) (m : Machine) :
    Prop where
  ip_eq : m.ip = ip
  iters_eq : m.iters = I
  slots_eq : ∀ x, ¬ W x → m.slots x = S x

/-- A run that ended with the open loops undone. -/
def GivesBack (I : List IterState) (S : Slots) (W : String → Prop) (h : Halted) : Prop :=
  ∃ s : Slots, (∀ x, ¬ W x → s x = S x) ∧ h.slots = unwind I s

theorem Keeps.givesBack {ip : Nat} (h : Keeps I S W ip m) (result : Except VmFailure VmOutcome)
    (history : History) : GivesBack I S W ⟨result, unwind m.iters m.slots, history⟩ :=
  ⟨m.slots, h.slots_eq, by rw [h.iters_eq]⟩

instance keeps_holding : Holding (fun ip _ => Keeps I S W ip) (GivesBack I S W) W where
  pop h _ := ⟨h.ip_eq, h.iters_eq, h.slots_eq⟩
  drop h := ⟨h.ip_eq, h.iters_eq, h.slots_eq⟩
  push _ h := ⟨h.ip_eq, h.iters_eq, h.slots_eq⟩
  goto _ h := ⟨rfl, h.iters_eq, h.slots_eq⟩
  write hname _ h := by
    refine ⟨h.ip_eq, h.iters_eq, fun x hx => ?_⟩
    refine (if_neg fun heq => ?_).trans (h.slots_eq x hx)
    exact hx (heq ▸ hname)
  history _ h := ⟨h.ip_eq, h.iters_eq, h.slots_eq⟩
  low h _ := h.givesBack _ _
  raised _ h := h.givesBack _ _
  ended _ h := h.givesBack _ _

/-- The instruction where the run stands writes the slot. -/
def Writes (code : Code) (m : Machine) (x : String) : Prop :=
  ∃ i, code[m.ip]? = some i ∧ written i = some x

/-- What a step may do to the iterators, the bindings and the loops around. -/
inductive Moves (code : Code) (m m' : Machine) : Prop where
  | stays (iters : m'.iters = m.iters) (loops : loopsAround code m'.ip = loopsAround code m.ip)
      (slots : ∀ x, ¬ Writes code m x → m'.slots x = m.slots x)
  | opened (cursor : IterCursor) (binding : String)
      (iters : m'.iters = ⟨cursor, binding, m.slots binding⟩ :: m.iters)
      (loops : loopsAround code m'.ip = (m.ip, binding) :: loopsAround code m.ip)
      (slots : m'.slots = m.slots)
  | advanced (it : IterState) (rest : List IterState) (cursor : IterCursor) (value : Value)
      (iters : m.iters = it :: rest ∧ m'.iters = { it with cursor := cursor } :: rest)
      (loops : loopsAround code m'.ip = loopsAround code m.ip)
      (slots : m'.slots = setSlot m.slots it.binding (some value))
  | closed (it : IterState) (rest : List IterState)
      (iters : m.iters = it :: rest ∧ m'.iters = rest)
      (loops : loopsAround code m'.ip = (loopsAround code m.ip).tail)
      (slots : m'.slots = setSlot m.slots it.binding it.previous)

/-- The iterators are the loops around the address. -/
def Mirrors (code : Code) (m : Machine) : Prop :=
  m.iters.map (·.binding) = (loopsAround code m.ip).map (·.2)

theorem execute_opens {binding : String} (hi : opens i = some binding) :
    Leaves (fun m' => m'.ip = m.ip ∧ m'.slots = m.slots ∧
        ∃ cursor, m'.iters = ⟨cursor, binding, m.slots binding⟩ :: m.iters)
      (fun h => h.slots = unwind m.iters m.slots) (execute env m i) := by
  cases i with
  | beginIter binding =>
    cases hi
    simp only [execute, Machine.withTop]
    cases m.stack with
    | nil => rfl
    | cons value rest =>
      simp only
      cases iterableValues value with
      | error error => rfl
      | ok values => exact ⟨rfl, rfl, _, rfl⟩
  | beginRangeIter binding argc =>
    cases hi
    simp only [execute, Machine.withTail]
    split
    · rfl
    · cases rangeBounds (m.stack.take argc).reverse with
      | error error => rfl
      | ok bounds => exact ⟨rfl, rfl, _, rfl⟩
  | _ => cases hi

/-- What an instruction that opens or closes no loop does to a machine. -/
theorem execute_stays (hopens : opens i = none) (hend : i ≠ .endIter)
    (hnext : ∀ t, i ≠ .iterNext t) :
    Leaves (fun m' => ∃ t, (t = m.ip ∨ jumpsTo usizeMax i = some t) ∧
        Keeps m.iters m.slots (written i = some ·) t m')
      (GivesBack m.iters m.slots (written i = some ·)) (execute env m i) := by
  have hstart : Keeps m.iters m.slots (written i = some ·) m.ip m := ⟨rfl, rfl, fun _ _ => rfl⟩
  cases heffect : stackEffect i with
  | some effect =>
    exact (execute_leaves (A := fun ip _ => Keeps m.iters m.slots (written i = some ·) ip) env
      heffect (fun _ h => h) hstart).weaken (fun _ h => ⟨_, Or.inl rfl, h⟩) fun _ h => h
  | none =>
    cases hjumps : jumpEffect i with
    | some effect =>
      refine (execute_jumps (A := fun ip _ => Keeps m.iters m.slots (written i = some ·) ip)
        (j := 0) hjumps hstart).weaken (fun m' h => ?_) fun _ h => h
      rcases h with h | h
      · exact ⟨_, Or.inl rfl, h⟩
      · exact ⟨_, Or.inr ((jump_level hjumps).2 _), h⟩
    | none =>
      cases i with
      | jump target => exact ⟨_, Or.inr rfl, rfl, rfl, fun _ _ => rfl⟩
      | breakJump => exact ⟨_, Or.inr rfl, rfl, rfl, fun _ _ => rfl⟩
      | beginIter | beginRangeIter => cases hopens
      | iterNext target => exact absurd rfl (hnext target)
      | endIter => exact absurd rfl hend
      | jumpIfFalse | jumpIfTrue | jumpIfCompareFalse | jumpIfSlotNumberCompareFalse
      | jumpIfSlotNumberBinaryCompareFalse => cases hjumps
      | _ => cases heffect

theorem step_moves (env : Environment) (hlevel : Level (loopsAround code) usizeMax 0 code)
    (hm : Mirrors code m) :
    Leaves (Moves code m) (GivesBack m.iters m.slots (Writes code m)) (step code env m) := by
  cases hi : code[m.ip]? with
  | none =>
    rw [step, hi]
    exact ⟨m.slots, fun _ _ => rfl, rfl⟩
  | some i =>
    have hnext : loopsAround code (m.ip + 1) = (loopsAround code m.ip).after m.ip i := by
      rw [loopsAround, hi]
    have hjump : ∀ t, jumpsTo usizeMax i = some t → loopsAround code t = loopsAround code m.ip := by
      have h := along_iff.mp hlevel m.ip i hi
      rwa [Nat.zero_add] at h
    rw [step_eq hi]
    cases hopens : opens i with
    | some binding =>
      have hafter : (loopsAround code m.ip).after m.ip i =
          (m.ip, binding) :: loopsAround code m.ip := by
        cases i <;> cases hopens <;> rfl
      refine (execute_opens hopens).weaken ?_ fun h hslots => ⟨m.slots, fun _ _ => rfl, hslots⟩
      rintro m' ⟨hip, hslots, cursor, hiters⟩
      exact .opened cursor binding hiters (by rw [hip, hnext, hafter]) hslots
    | none =>
      by_cases hend : i = .endIter
      · subst hend
        cases hiters : m.iters with
        | nil =>
          have hnone : loopsAround code m.ip = [] := by simpa [Mirrors, hiters] using hm
          simp only [execute]
          exact .stays hiters.symm (by rw [hnext, hnone]; rfl) fun _ _ => rfl
        | cons it rest =>
          simp only [execute]
          exact .closed it rest ⟨hiters, rfl⟩ hnext rfl
      by_cases hiter : ∃ t, i = .iterNext t
      · obtain ⟨t, rfl⟩ := hiter
        cases hiters : m.iters with
        | nil =>
          simp only [execute]
          exact ⟨m.slots, fun _ _ => rfl, by rw [← hiters]⟩
        | cons it rest =>
          simp only [execute]
          cases it.cursor.nextValue with
          | none => exact .stays hiters.symm (hjump t rfl) fun _ _ => rfl
          | some found => exact .advanced it rest found.2 found.1 ⟨hiters, rfl⟩ hnext rfl
      · have hsame : (loopsAround code m.ip).after m.ip i = loopsAround code m.ip := by
          cases i with
          | beginIter | beginRangeIter => cases hopens
          | endIter => exact absurd rfl hend
          | _ => rfl
        refine (execute_stays hopens hend fun t h => hiter ⟨t, h⟩).weaken ?_ ?_
        · rintro m' ⟨t, ht, hkeeps⟩
          refine .stays hkeeps.iters_eq ?_ fun x hx => hkeeps.slots_eq x fun h => hx ⟨i, hi, h⟩
          rw [hkeeps.ip_eq]
          rcases ht with rfl | ht
          · exact hnext.trans hsame
          · exact hjump t ht
        · rintro h ⟨s, hs, hslots⟩
          exact ⟨s, fun x hx => hs x fun h => hx ⟨i, hi, h⟩, hslots⟩

/-! ## Runs -/

variable {p : Nat} {σ : Scope} {v : Option Value} {s t : Slots}

theorem Moves.mirrors (h : Moves code m m') (hm : Mirrors code m) : Mirrors code m' := by
  unfold Mirrors at *
  cases h with
  | stays iters loops _ => rw [iters, loops, hm]
  | opened cursor binding iters loops _ => rw [iters, loops, map_cons, map_cons, hm]
  | advanced it rest cursor value iters loops _ =>
    rw [iters.2, loops, ← hm, iters.1]
    rfl
  | closed it rest iters loops _ => rw [iters.2, loops, map_tail, ← hm, iters.1]; rfl

/-- The loop opened at `p` with the binding `b` is open, and will give back `v`. -/
def Open (code : Code) (I : List IterState) (σ : Scope) (p : Nat) (b : String) (v : Option Value)
    (m : Machine) : Prop :=
  ∃ J it τ, m.iters = J ++ it :: I ∧ it.binding = b ∧ it.previous = v ∧
    loopsAround code m.ip = τ ++ (p, b) :: σ ∧ J.length = τ.length

/-- The loop stays open, or is closed and has given back. -/
theorem Open.moves {b : String} (ho : Open code I σ p b v m) (h : Moves code m m') :
    Open code I σ p b v m' ∨ loopsAround code m'.ip = σ ∧ m'.iters = I ∧ m'.slots b = v := by
  obtain ⟨J, it, τ, hiters, rfl, rfl, hloops, hlen⟩ := ho
  cases h with
  | stays iters loops _ =>
    exact Or.inl ⟨J, it, τ, iters.trans hiters, rfl, rfl, loops.trans hloops, hlen⟩
  | opened cursor binding iters loops _ =>
    exact Or.inl ⟨_ :: J, it, (m.ip, binding) :: τ, iters.trans (congrArg _ hiters), rfl, rfl,
      loops.trans (congrArg _ hloops), congrArg (· + 1) hlen⟩
  | advanced it' rest cursor value iters loops _ =>
    rw [hiters] at iters
    obtain ⟨hsplit, hiters'⟩ := iters
    cases J with
    | nil =>
      cases hsplit
      exact Or.inl ⟨[], _, τ, hiters', rfl, rfl, loops.trans hloops, hlen⟩
    | cons top J =>
      cases hsplit
      exact Or.inl ⟨_ :: J, it, τ, hiters', rfl, rfl, loops.trans hloops, hlen⟩
  | closed it' rest iters loops slots =>
    rw [hiters] at iters
    obtain ⟨hsplit, hiters'⟩ := iters
    rw [hloops] at loops
    cases J with
    | nil =>
      cases hsplit
      cases length_eq_zero_iff.mp hlen.symm
      exact Or.inr ⟨loops, hiters', by rw [slots, setSlot, if_pos rfl]⟩
    | cons top J =>
      cases hsplit
      cases τ with
      | nil => cases hlen
      | cons _ τ => exact Or.inl ⟨J, it, τ, hiters', rfl, rfl, loops, Nat.succ.inj hlen⟩

theorem unwind_append (I J : List IterState) (s : Slots) :
    unwind (J ++ I) s = unwind I (unwind J s) := by
  induction J generalizing s with
  | nil => rfl
  | cons it J ih => exact ih _

theorem unwind_eq (I : List IterState) (h : s x = t x ∨ ∃ it ∈ I, it.binding = x) :
    unwind I s x = unwind I t x := by
  induction I generalizing s t with
  | nil =>
    rcases h with h | ⟨it, hit, -⟩
    · exact h
    · cases hit
  | cons it I ih =>
    apply ih
    by_cases hx : x = it.binding
    · exact Or.inl (by rw [setSlot, setSlot, if_pos hx, if_pos hx])
    · refine h.imp (fun h => by rw [setSlot, setSlot, if_neg hx, if_neg hx, h]) ?_
      rintro ⟨other, hother, rfl⟩
      rcases mem_cons.mp hother with rfl | hother
      · exact absurd rfl hx
      · exact ⟨other, hother, rfl⟩

/-- Only loops that bind it assign the slot, or what runs inside of them. -/
def LoopOnly (code : Code) (x : String) : Prop :=
  ∀ a i, code[a]? = some i → written i = some x → x ∈ (loopsAround code a).map (·.2)

theorem unwind_writes (hx : LoopOnly code x) (hm : Mirrors code m)
    (hs : ∀ y, ¬ Writes code m y → s y = m.slots y) :
    unwind m.iters s x = unwind m.iters m.slots x := by
  apply unwind_eq
  by_cases hwrites : Writes code m x
  · obtain ⟨i, hi, hwritten⟩ := hwrites
    have hmem : x ∈ m.iters.map (·.binding) := by
      rw [hm]
      exact hx m.ip i hi hwritten
    obtain ⟨it, hit, rfl⟩ := mem_map.mp hmem
    exact Or.inr ⟨it, hit, rfl⟩
  · exact Or.inl (hs x hwrites)

theorem Moves.unwinds (h : Moves code m m') (hx : LoopOnly code x) (hm : Mirrors code m) :
    unwind m'.iters m'.slots x = unwind m.iters m.slots x := by
  cases h with
  | stays iters _ slots =>
    rw [iters]
    exact unwind_writes hx hm slots
  | opened cursor binding iters _ slots =>
    rw [iters, slots]
    refine unwind_eq m.iters (Or.inl ?_)
    by_cases hname : x = binding
    · rw [setSlot, if_pos hname, hname]
    · rw [setSlot, if_neg hname]
  | advanced it rest cursor value iters _ slots =>
    rw [iters.2, slots, iters.1]
    refine unwind_eq rest (Or.inl ?_)
    by_cases hname : x = it.binding
    · simp only [setSlot, if_pos hname]
    · simp only [setSlot, if_neg hname]
  | closed it rest iters _ slots =>
    rw [iters.2, slots, iters.1]
    rfl

theorem around_lt {a : Nat} {l : Nat × String} (hl : l ∈ loopsAround code a) : l.1 < a := by
  induction a with
  | zero => cases hl
  | succ a ih =>
    rw [loopsAround] at hl
    have hold : l ∈ loopsAround code a → l.1 < a + 1 := fun h => Nat.lt_succ_of_lt (ih h)
    split at hl
    · rename_i i _
      cases i with
      | beginIter | beginRangeIter =>
        rcases mem_cons.mp hl with rfl | hl
        · exact Nat.lt_succ_self a
        · exact hold hl
      | endIter => exact hold (mem_of_mem_tail hl)
      | _ => exact hold hl
    · exact hold hl

theorem step_inl (hlevel : Level (loopsAround code) usizeMax 0 code) (hm : Mirrors code m)
    (hstep : step code env m = .inl m') : Moves code m m' := by
  have h := step_moves env hlevel hm
  rwa [hstep] at h

theorem step_inr {h : Halted} (hlevel : Level (loopsAround code) usizeMax 0 code)
    (hm : Mirrors code m) (hstep : step code env m = .inr h) :
    GivesBack m.iters m.slots (Writes code m) h := by
  have h := step_moves env hlevel hm
  rwa [hstep] at h

/-- A run stays inside a loop that it opens until the binding is what it was before. -/
theorem leads_loop (hlevel : Level (loopsAround code) usizeMax 0 code) (hm : Mirrors code m)
    {b : String} (hi : code[m.ip]? = some i) (hopens : opens i = some b)
    (hstep : step code env m = .inl m') (n : Nat) :
    Leads (step code env) (fun t => (m.ip, b) ∈ loopsAround code t.ip)
      (fun t => (m.ip, b) ∉ loopsAround code t.ip ∧ t.iters = m.iters ∧ t.slots b = m.slots b)
      (fun h => ∃ s : Slots, s b = m.slots b ∧ h.slots = unwind m.iters s) n m' := by
  have hmoves := step_inl hlevel hm hstep
  have hopen : Open code m.iters (loopsAround code m.ip) m.ip b (m.slots b) m' := by
    rw [step_eq hi] at hstep
    have h := @execute_opens _ env { m with ip := m.ip + 1 } _ hopens
    rw [hstep] at h
    obtain ⟨hip, -, cursor, hiters⟩ := h
    refine ⟨[], _, [], hiters, rfl, rfl, ?_, rfl⟩
    rw [hip, loopsAround, hi]
    cases i <;> cases hopens <;> rfl
  refine Leads.always (fun t => Mirrors code t ∧
    Open code m.iters (loopsAround code m.ip) m.ip b (m.slots b) t) ?_ ?_ ?_
    ⟨hmoves.mirrors hm, hopen⟩ n
  · rintro t ⟨-, J, it, τ, -, -, -, hloops, -⟩
    rw [hloops]
    exact mem_append_right τ mem_cons_self
  · rintro t t' ⟨hmt, ht⟩ hstep
    have hmoves := step_inl hlevel hmt hstep
    rcases ht.moves hmoves with ht' | ⟨hloops, hiters, hslots⟩
    · exact Or.inl ⟨hmoves.mirrors hmt, ht'⟩
    · refine Or.inr ⟨fun hmem => ?_, hiters, hslots⟩
      rw [hloops] at hmem
      exact Nat.lt_irrefl _ (around_lt hmem)
  · rintro t h ⟨hmt, J, it, τ, hiters, rfl, hprevious, -, -⟩ hstep
    obtain ⟨s, -, hslots⟩ := step_inr hlevel hmt hstep
    rw [hslots, hiters, unwind_append]
    exact ⟨_, (if_pos rfl).trans hprevious, rfl⟩

/-- The iterators of every run are the loops around the address where it stands. A run stays
inside a loop until its binding is what it was before, or ends inside it and gives the binding
back before the loops around. At the end a slot that only loops assign is as it was. -/
theorem loop_bindings_given_back (env : Environment) (cx : CompileContext) {main : Expr}
    (hmain : isStatement false main = true) (slots : Slots) (history : History) :
    (∀ m, Reaches (step (compileProgram cx main) env) (initial slots history) m →
      m.iters.map (·.binding) = (loopsAround (compileProgram cx main) m.ip).map (·.2) ∧
      ∀ i b m', (compileProgram cx main)[m.ip]? = some i → opens i = some b →
        step (compileProgram cx main) env m = .inl m' → ∀ n,
        Leads (step (compileProgram cx main) env)
          (fun t => (m.ip, b) ∈ loopsAround (compileProgram cx main) t.ip)
          (fun t => (m.ip, b) ∉ loopsAround (compileProgram cx main) t.ip ∧
            t.iters = m.iters ∧ t.slots b = m.slots b)
          (fun h => ∃ s : Slots, s b = m.slots b ∧ h.slots = unwind m.iters s) n m') ∧
    ∀ h x, Halts (step (compileProgram cx main) env) (initial slots history) h →
      LoopOnly (compileProgram cx main) x → h.slots x = slots x := by
  have hlevel := program_level cx hmain
  have hstart : Mirrors (compileProgram cx main) (initial slots history) := rfl
  constructor
  · intro m hreach
    have hm := hreach.always (Mirrors (compileProgram cx main))
      (fun s t hs hstep => (step_inl hlevel hs hstep).mirrors hs) hstart
    exact ⟨hm, fun i b m' hi hopens hstep n => leads_loop hlevel hm hi hopens hstep n⟩
  · intro h x hhalts hx
    refine Leads.halts (P := fun _ => True) (R := fun h => h.slots x = slots x) (fun n => ?_) hhalts
    refine Leads.always (fun m => Mirrors (compileProgram cx main) m ∧
      unwind m.iters m.slots x = slots x) (fun _ _ => trivial) ?_ ?_ ⟨hstart, rfl⟩ n
    · rintro m m' ⟨hm, hslots⟩ hstep
      have hmoves := step_inl hlevel hm hstep
      exact Or.inl ⟨hmoves.mirrors hm, (hmoves.unwinds hx hm).trans hslots⟩
    · rintro m h ⟨hm, hslots⟩ hstep
      obtain ⟨s, hs, hend⟩ := step_inr hlevel hm hstep
      rw [hend, unwind_writes hx hm hs, hslots]

/-- `for x in [null] { for x in [true] { x = false; break } }` -/
def nestedLoops : Expr :=
  .forIn "x" (.list [.null]) (.block [.forIn "x" (.list [.bool true])
    (.block [.assign "x" [] (.bool false), .breakLoop])])

theorem nestedLoops_loopOnly : LoopOnly (compileProgram trackedContext nestedLoops) "x" := by
  have hall : ∀ a < 14, ∀ i ∈ (compileProgram trackedContext nestedLoops)[a]?,
      written i = some "x" →
        "x" ∈ (loopsAround (compileProgram trackedContext nestedLoops) a).map (·.2) := by
    decide
  exact fun a i hi => hall a (List.getElem?_eq_some_iff.mp hi).1 i hi

theorem loop_bindings_given_back_nested :
    ∃ h, Halts (step (compileProgram trackedContext nestedLoops) nullHost)
      (initial (fun _ => none) []) h ∧ h.slots "x" = none := by
  refine ⟨_, ⟨15, rfl⟩, ?_⟩
  exact (loop_bindings_given_back nullHost trackedContext rfl _ _).2 _ "x" ⟨15, rfl⟩
    nestedLoops_loopOnly

end LoopScopes
