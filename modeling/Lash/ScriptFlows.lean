import Lash.ScriptStacks

/-!
# The stacks along a piece of code

A piece of code flows from one height of the operand stack to another when every run
that enters it stays inside it, without finding a stack too low, until it stands at
the end with the second height, or has left for one of the two addresses of the loop
around it with the height of the loop. Pieces of code compose as their heights do.
-/

namespace ScriptFlows

open ScriptValues ScriptOps ScriptCompiler
open List
open ScriptMachine ScriptStacks StepMachines

/-- The piece of code stands at the address, its open breaks written to the end of the loop. -/
def CodeAt (code : Code) (brk a : Nat) (c : Code) : Prop :=
  ∀ k i, (c)[k]? = some i → code[a + k]? = some (patchBreak brk i)

/-- The run has left for one of the two addresses of the loop around. -/
def Exits (inLoop : Bool) (brk loop : Nat) (S : List Value) (I : List IterState) (m : Machine) :
    Prop :=
  inLoop = true ∧ (Above brk S I 0 m ∨ Above loop S I 0 m)

/-- A piece of code takes the stacks from one height to another, and has open breaks only where
there is a loop around. -/
structure Flow (env : Environment) (inLoop : Bool) (loop a j k : Nat) (c : Code) : Prop where
  closed : inLoop = false → ∀ i ∈ c, i ≠ .breakJump
  leads : ∀ code brk S I m n, CodeAt code brk a c → Above a S I j m →
    Leads (step code env) (Inside a (a + c.length))
      (fun m => Above (a + c.length) S I k m ∨ Exits inLoop brk loop S I m) Fine n m

variable {env : Environment} {inLoop : Bool} {loop brk a j k r : Nat} {code c d : Code}
variable {S : List Value} {I : List IterState} {m : Machine}

theorem CodeAt.left (h : CodeAt code brk a (c ++ d)) : CodeAt code brk a c := by
  intro i x hx
  apply h
  have hlt : i < c.length := (List.getElem?_eq_some_iff.mp hx).1
  rw [getElem?_append_left hlt]
  exact hx

theorem CodeAt.right (h : CodeAt code brk a (c ++ d)) : CodeAt code brk (a + c.length) d := by
  intro i x hx
  have hget : (c ++ d)[c.length + i]? = some x := by
    rw [getElem?_append_right (Nat.le_add_right _ _), Nat.add_sub_cancel_left]
    exact hx
  rw [Nat.add_assoc]
  exact h _ x hget

variable {i : Instruction}

theorem CodeAt.head (h : CodeAt code brk a (i :: c)) : code[a]? = some (patchBreak brk i) :=
  h 0 i rfl

theorem CodeAt.tail (h : CodeAt code brk a (i :: c)) : CodeAt code brk (a + 1) c := by
  intro k x hx
  rw [Nat.add_assoc, Nat.add_comm 1 k]
  exact h (k + 1) x hx

theorem patchBreak_eq (s : Nat) (hi : i ≠ .breakJump) : patchBreak s i = i := by
  cases i with
  | breakJump => exact absurd rfl hi
  | _ => rfl

theorem patchBreak_patchBreak (s t : Nat) (i : Instruction) :
    patchBreak s (patchBreak t i) = patchBreak t i := by
  cases i <;> rfl

/-- What is written into the breaks of an inner loop stays. -/
theorem CodeAt.patched {t : Nat} (h : CodeAt code brk a (c.map (patchBreak t))) :
    CodeAt code t a c := by
  intro k x hx
  have hget : (c.map (patchBreak t))[k]? = some (patchBreak t x) := by
    rw [getElem?_map, hx]
    rfl
  rw [h k _ hget, patchBreak_patchBreak]

theorem step_eq (hcode : code[m.ip]? = some i) :
    step code env m = execute env { m with ip := m.ip + 1 } i := by
  rw [step, hcode]

variable {P Q : Machine → Prop} {n : Nat}

/-- One step along an instruction, whatever it may lead to. -/
theorem leads_instruction {T : Machine → Prop} (hcode : code[a]? = some i) (h : Above a S I j m)
    (hP : P m) (hexec : Leaves T Fine (execute env { m with ip := m.ip + 1 } i))
    (hT : ∀ n' m', n' < n → T m' → Leads (step code env) P Q Fine n' m') :
    Leads (step code env) P Q Fine n m := by
  have hstep : step code env m = execute env { m with ip := m.ip + 1 } i :=
    step_eq (by rw [h.ip_eq]; exact hcode)
  refine Leads.next T hP (fun m' hm' => ?_) (fun r hr => ?_) hT
  · rw [hstep] at hm'
    rw [hm'] at hexec
    exact hexec
  · rw [hstep] at hr
    rw [hr] at hexec
    exact hexec

/-! ## Straight pieces -/

theorem flow_nil : Flow env inLoop loop a k k [] where
  closed _ _ hi := absurd hi List.not_mem_nil
  leads _ _ _ _ _ _ _ h := .here (Or.inl h)

theorem flow_instruction (hi : stackEffect i = some (j, k)) : Flow env inLoop loop a j k [i] := by
  have hbreak : i ≠ .breakJump := by
    rintro rfl
    cases hi
  refine ⟨fun _ x hx => by rwa [mem_singleton.mp hx], ?_⟩
  intro code brk S I m n hcode h
  have hpatch : patchBreak brk i = i := patchBreak_eq brk hbreak
  have hget : code[a]? = some i := by
    rw [hcode.head, hpatch]
  refine leads_instruction (T := Above (a + 1) S I k) hget h
    (h.inside (Nat.le_refl a) (Nat.lt_succ_self a)) ?_ ?_
  · exact execute_leaves (A := fun ip j => Above ip S I j) env hi (fun _ _ => trivial) h.next
  · intro n' m' _ hm'
    exact .here (Or.inl hm')

theorem Flow.weaken (h : Flow env false loop a j k c) : Flow env inLoop r a j k c := by
  refine ⟨fun _ => h.closed rfl, ?_⟩
  intro code brk S I m n hcode hm
  refine (h.leads code brk S I m n hcode hm).weaken (fun _ h => h) fun t ht => ?_
  rcases ht with ht | ⟨hfalse, -⟩
  · exact Or.inl ht
  · cases hfalse

theorem Flow.frame (x : Nat) (h : Flow env false loop a j k c) :
    Flow env inLoop r a (x + j) (x + k) c := by
  refine ⟨fun _ => h.closed rfl, ?_⟩
  intro code brk S I m n hcode hm
  rw [Nat.add_comm x j] at hm
  obtain ⟨L, hlen, hL⟩ := hm.frame
  refine (h.leads code brk (L ++ S) I m n hcode hL).weaken (fun _ h => h) fun t ht => ?_
  rcases ht with ht | ⟨hfalse, -⟩
  · rw [Nat.add_comm x k]
    exact Or.inl (ht.unframe hlen)
  · cases hfalse

theorem inside_left {b l : Nat} (h : Inside a (a + b) m) : Inside a (a + (b + l)) m :=
  ⟨h.1, Nat.lt_of_lt_of_le h.2 (by omega)⟩

theorem inside_right {b l : Nat} (h : Inside (a + b) (a + b + l) m) : Inside a (a + (b + l)) m :=
  ⟨Nat.le_trans (Nat.le_add_right a b) h.1, Nat.lt_of_lt_of_le h.2 (by omega)⟩

theorem Flow.append (h : Flow env inLoop loop a j k c)
    (h' : Flow env inLoop loop (a + c.length) k r d) : Flow env inLoop loop a j r (c ++ d) := by
  refine ⟨fun hb i hi => ?_, ?_⟩
  · rcases mem_append.mp hi with hi | hi
    · exact h.closed hb i hi
    · exact h'.closed hb i hi
  intro code brk S I m n hcode hm
  rw [length_append]
  refine (h.leads code brk S I m n hcode.left hm).bind (fun _ h => inside_left h)
    fun n' m' _ hm' => ?_
  rcases hm' with hm' | hexit
  · refine (h'.leads code brk S I m' n' hcode.right hm').weaken (fun _ h => inside_right h)
      fun t ht => ?_
    rw [← Nat.add_assoc]
    exact ht
  · exact .here (Or.inr hexit)

/-! ## Jumps -/

theorem flow_break : Flow env true loop a 0 k [.breakJump] := by
  refine ⟨by simp, ?_⟩
  intro code brk S I m n hcode h
  refine leads_instruction (T := Above brk S I 0) hcode.head h
    (h.inside (Nat.le_refl a) (Nat.lt_succ_self a)) ?_ ?_
  · exact ⟨rfl, h.iters_eq, h.stack_eq⟩
  · intro n' m' _ hm'
    exact .here (Or.inr ⟨rfl, Or.inl hm'⟩)

theorem flow_continue : Flow env true loop a 0 k [.jump loop] := by
  refine ⟨by simp, ?_⟩
  intro code brk S I m n hcode h
  refine leads_instruction (T := Above loop S I 0) hcode.head h
    (h.inside (Nat.le_refl a) (Nat.lt_succ_self a)) ?_ ?_
  · exact ⟨rfl, h.iters_eq, h.stack_eq⟩
  · intro n' m' _ hm'
    exact .here (Or.inr ⟨rfl, Or.inr hm'⟩)

variable {A : Nat → Nat → Machine → Prop} {H : Halted → Prop} {writes : String → Prop} {ip : Nat}

theorem execute_ends [Holding A H writes] (hi : i = .finish ∨ i = .processFail) (h : A ip 1 m) :
    Leaves Q H (execute env m i) := by
  unfold execute
  rcases hi with rfl | rfl
  · exact leaves_withTop h fun _ _ h => leaves_request h fun _ _ h => leaves_halt h _
  · exact leaves_inProcess h
      (leaves_withTop h fun _ _ h => leaves_request h fun _ _ h => leaves_halt h _)

/-- An instruction that ends every run that does not fail. -/
theorem flow_ends (hi : i = .finish ∨ i = .processFail) : Flow env inLoop loop a 1 k [i] := by
  have hbreak : i ≠ .breakJump := by
    rcases hi with rfl | rfl <;> simp
  refine ⟨fun _ x hx => by rwa [mem_singleton.mp hx], ?_⟩
  intro code brk S I m n hcode h
  have hget : code[a]? = some i := by
    rw [hcode.head, patchBreak_eq brk hbreak]
  refine leads_instruction (T := fun _ => False) hget h
    (h.inside (Nat.le_refl a) (Nat.lt_succ_self a))
    (execute_ends (A := fun ip j => Above ip S I j) hi h.next) ?_
  · intro n' m' _ hm'
    exact hm'.elim

theorem leads_jump {target : Nat} (hcode : code[a]? = some (.jump target)) (h : Above a S I j m)
    (hP : P m)
    (hT : ∀ n' m', n' < n → Above target S I j m' → Leads (step code env) P Q Fine n' m') :
    Leads (step code env) P Q Fine n m := by
  refine leads_instruction (T := Above target S I j) hcode h hP ?_ hT
  exact ⟨rfl, h.iters_eq, h.stack_eq⟩

/-- How many values a conditional jump takes, and where it goes. -/
def jumpEffect : Instruction → Option (Nat × Nat)
  | .jumpIfFalse target | .jumpIfTrue target => some (1, target)
  | .jumpIfCompareFalse _ target => some (2, target)
  | .jumpIfSlotNumberCompareFalse _ _ _ target
  | .jumpIfSlotNumberBinaryCompareFalse _ _ _ _ _ target => some (0, target)
  | _ => none

theorem execute_jumps [Holding A H writes] {target : Nat} (hi : jumpEffect i = some (k, target))
    (h : A ip (j + k) m) : Leaves (fun m' => A ip j m' ∨ A target j m') H (execute env m i) := by
  unfold execute
  cases i with
  | jumpIfFalse t | jumpIfTrue t => cases hi; exact leaves_withTop h fun _ _ h => leaves_branch _ h
  | jumpIfCompareFalse op t =>
    cases hi
    exact leaves_withTwo h fun _ _ _ h => leaves_branch _ h
  | jumpIfSlotNumberCompareFalse slot op right t =>
    cases hi
    exact leaves_withSlot h fun _ => leaves_branch _ h
  | jumpIfSlotNumberBinaryCompareFalse slot binaryOp binaryRight compareOp compareRight t =>
    cases hi
    refine leaves_withSlot h fun left => ?_
    cases binaryInstruction binaryOp left (.number binaryRight) with
    | ok value => exact leaves_branch _ h
    | error error => exact leaves_failWith h _
  | _ => cases hi

theorem leads_branch {target : Nat} (hi : jumpEffect i = some (k, target))
    (hcode : code[a]? = some i) (h : Above a S I (j + k) m) (hP : P m)
    (hnext : ∀ n' m', n' < n → Above (a + 1) S I j m' → Leads (step code env) P Q Fine n' m')
    (htarget : ∀ n' m', n' < n → Above target S I j m' → Leads (step code env) P Q Fine n' m') :
    Leads (step code env) P Q Fine n m := by
  refine leads_instruction (T := fun m' => Above (a + 1) S I j m' ∨ Above target S I j m')
    hcode h hP (execute_jumps (A := fun ip j => Above ip S I j) hi h.next) fun n' m' hn hm' => ?_
  rcases hm' with hm' | hm'
  · exact hnext n' m' hn hm'
  · exact htarget n' m' hn hm'

/-! ## Conditions, branches and loops -/

variable {t e : Code} {q target : Nat} {jump : Nat → Instruction}

theorem jump_ne_breakJump (hi : jumpEffect i = some (k, target)) : i ≠ .breakJump := by
  rintro rfl
  cases hi

/-- A condition with its jump: the run goes on behind the jump or at its target. -/
theorem leads_condition (hjump : jumpEffect (jump target) = some (q, target))
    (hc : Flow env false loop a k (k + q) c) (hcode : CodeAt code brk a (c ++ jump target :: d))
    (h : Above a S I k m) (hP : ∀ m, Inside a (a + c.length + 1) m → P m)
    (hnext : ∀ n' m', n' < n → Above (a + c.length + 1) S I k m' →
      Leads (step code env) P Q Fine n' m') (htarget : ∀ n' m', n' < n → Above target S I k m' →
      Leads (step code env) P Q Fine n' m') : Leads (step code env) P Q Fine n m := by
  refine (hc.leads code brk S I m n hcode.left h).bind (fun m hm => hP m ⟨hm.1, ?_⟩) ?_
  · exact Nat.lt_succ_of_lt hm.2
  · intro n₁ m₁ hn₁ hm₁
    rcases hm₁ with hm₁ | ⟨hfalse, -⟩
    · have hget : code[a + c.length]? = some (jump target) := by
        rw [hcode.right.head, patchBreak_eq brk (jump_ne_breakJump hjump)]
      refine leads_branch hjump hget hm₁
        (hP m₁ (hm₁.inside (Nat.le_add_right _ _) (Nat.lt_succ_self _))) ?_ ?_
      · intro n' m' hn' hm'
        exact hnext n' m' (by omega) hm'
      · intro n' m' hn' hm'
        exact htarget n' m' (by omega) hm'
    · cases hfalse

theorem patched_ne_breakJump {s : Nat} (hi : i ∈ c.map (patchBreak s)) : i ≠ .breakJump := by
  obtain ⟨x, -, rfl⟩ := mem_map.mp hi
  cases x <;> simp [patchBreak]

theorem flow_if {elseStart : Nat} (helse : elseStart = a + c.length + 1 + t.length + 1)
    (hjump : jumpEffect (jump elseStart) = some (q, elseStart)) (hc : Flow env false loop a 0 q c)
    (ht : Flow env inLoop loop (a + c.length + 1) 0 k t)
    (he : Flow env inLoop loop elseStart 0 k e) :
    Flow env inLoop loop a 0 k
      (c ++ jump elseStart :: (t ++ .jump (elseStart + e.length) :: e)) := by
  refine ⟨fun hb i hi => ?_, ?_⟩
  · simp only [mem_append, mem_cons] at hi
    rcases hi with hi | rfl | hi | rfl | hi
    · exact hc.closed rfl i hi
    · exact jump_ne_breakJump hjump
    · exact ht.closed hb i hi
    · simp
    · exact he.closed hb i hi
  intro code brk S I m n hcode h
  have hthen := hcode.right.tail
  have hlen : a + (c ++ jump elseStart :: (t ++ .jump (elseStart + e.length) :: e)).length =
      elseStart + e.length := by
    simp only [length_append, length_cons]
    omega
  rw [hlen]
  rw [← Nat.zero_add q] at hc
  refine leads_condition hjump hc hcode h (fun m hm => ⟨hm.1, ?_⟩) ?_ ?_
  · exact Nat.lt_of_lt_of_le hm.2 (by omega)
  · intro n₁ m₁ _ hm₁
    refine (ht.leads code brk S I m₁ n₁ hthen.left hm₁).bind (fun m hm => ⟨?_, ?_⟩) ?_
    · exact Nat.le_trans (by omega) hm.1
    · exact Nat.lt_of_lt_of_le hm.2 (by omega)
    · intro n₂ m₂ _ hm₂
      rcases hm₂ with hm₂ | hexit
      · refine leads_jump hthen.right.head hm₂ (hm₂.inside (by omega) (by omega)) ?_
        intro n₃ m₃ _ hm₃
        exact .here (Or.inl hm₃)
      · exact .here (Or.inr hexit)
  · intro n₁ m₁ _ hm₁
    have hcodeElse : CodeAt code brk elseStart e := by
      rw [helse]
      exact hthen.right.tail
    refine (he.leads code brk S I m₁ n₁ hcodeElse hm₁).weaken (fun m hm => ⟨?_, hm.2⟩) fun _ h => h
    exact Nat.le_trans (by omega) hm.1

variable {stop : Nat}

theorem flow_test (hstop : stop = a + c.length + 1 + d.length)
    (hjump : jumpEffect (jump stop) = some (q, stop)) (hc : Flow env false loop a k (k + q) c)
    (hd : Flow env inLoop loop (a + c.length + 1) k k d) :
    Flow env inLoop loop a k k (c ++ jump stop :: d) := by
  refine ⟨fun hb i hi => ?_, ?_⟩
  · simp only [mem_append, mem_cons] at hi
    rcases hi with hi | rfl | hi
    · exact hc.closed rfl i hi
    · exact jump_ne_breakJump hjump
    · exact hd.closed hb i hi
  intro code brk S I m n hcode h
  have hlen : a + (c ++ jump stop :: d).length = stop := by
    simp only [length_append, length_cons]
    omega
  rw [hlen]
  refine leads_condition hjump hc hcode h (fun m hm => ⟨hm.1, ?_⟩) ?_ ?_
  · exact Nat.lt_of_lt_of_le hm.2 (by omega)
  · intro n₁ m₁ _ hm₁
    refine (hd.leads code brk S I m₁ n₁ hcode.right.tail hm₁).weaken (fun m hm => ⟨?_, ?_⟩) ?_
    · exact Nat.le_trans (by omega) hm.1
    · exact Nat.lt_of_lt_of_le hm.2 (by omega)
    · rw [hstop]
      exact fun _ h => h
  · intro n₁ m₁ _ hm₁
    exact .here (Or.inl hm₁)

theorem flow_while (hstop : stop = a + c.length + 1 + d.length + 1)
    (hjump : jumpEffect (jump stop) = some (q, stop)) (hc : Flow env false a a 0 q c)
    (hd : Flow env true a (a + c.length + 1) 0 0 d) :
    Flow env inLoop loop a 0 0
      (c ++ jump stop :: (d.map (patchBreak stop) ++ [Instruction.jump a])) := by
  refine ⟨fun _ i hi => ?_, ?_⟩
  · rw [mem_append, mem_cons, mem_append, mem_singleton] at hi
    rcases hi with hi | rfl | hi | rfl
    · exact hc.closed rfl i hi
    · exact jump_ne_breakJump hjump
    · exact patched_ne_breakJump hi
    · simp
  intro code brk S I m n hcode h
  have hbody := hcode.right.tail
  have hlen :
      a + (c ++ jump stop :: (d.map (patchBreak stop) ++ [Instruction.jump a])).length = stop := by
    simp only [length_append, length_cons, length_map, length_nil]
    omega
  rw [hlen]
  rw [← Nat.zero_add q] at hc
  induction n using Nat.strongRecOn generalizing m with
  | ind n ih =>
    refine leads_condition hjump hc hcode h (fun m hm => ⟨hm.1, ?_⟩) ?_ ?_
    · exact Nat.lt_of_lt_of_le hm.2 (by omega)
    · intro n₁ m₁ hn₁ hm₁
      refine (hd.leads code stop S I m₁ n₁ hbody.left.patched hm₁).bind (fun m hm => ⟨?_, ?_⟩) ?_
      · exact Nat.le_trans (by omega) hm.1
      · exact Nat.lt_of_lt_of_le hm.2 (by omega)
      · intro n₂ m₂ hn₂ hm₂
        rcases hm₂ with hm₂ | ⟨-, hm₂ | hm₂⟩
        · have hback := hbody.right.head
          rw [length_map] at hback
          refine leads_jump hback hm₂ (hm₂.inside (by omega) (by omega)) ?_
          intro n₃ m₃ hn₃ hm₃
          exact ih n₃ (by omega) m₃ hm₃
        · exact .here (Or.inl hm₂)
        · exact ih n₂ (by omega) m₂ hm₂
    · intro n₁ m₁ _ hm₁
      exact .here (Or.inl hm₁)

/-- The body of a loop over an iterator runs above `k` values with the iterator on top. Only a loop
that runs above nothing may be left by its breaks. -/
theorem flow_iterLoop {it : IterState} (hk : inLoop = true → k = 0)
    (hstop : stop = a + 1 + d.length + 1) (hd : Flow env inLoop a (a + 1) k k d)
    (hcode : CodeAt code brk a
      (Instruction.iterNext stop :: (d.map (patchBreak stop) ++ [Instruction.jump a, .endIter])))
    (h : Above a S (it :: I) k m) :
    Leads (step code env) (Inside a (stop + 1)) (Above (stop + 1) S I k) Fine n m := by
  have hbody := hcode.tail
  have hend : code[stop]? = some .endIter := by
    have hlast := hbody.right.tail.head
    rw [length_map, ← hstop] at hlast
    exact hlast
  have hclose : ∀ n m it, Above stop S (it :: I) k m →
      Leads (step code env) (Inside a (stop + 1)) (Above (stop + 1) S I k) Fine n m := by
    intro n m it h
    refine leads_instruction (T := Above (stop + 1) S I k) hend h
      (h.inside (by omega) (by omega)) ?_ fun _ _ _ hm' => .here hm'
    simp only [execute, h.iters_eq]
    exact ⟨by rw [h.ip_eq], rfl, h.stack_eq⟩
  induction n using Nat.strongRecOn generalizing m it with
  | ind n ih =>
    refine leads_instruction (T := fun m' => Above stop S (it :: I) k m' ∨
      ∃ it', Above (a + 1) S (it' :: I) k m') hcode.head h
      (h.inside (Nat.le_refl a) (by omega)) ?_ ?_
    · simp only [patchBreak, execute, h.iters_eq]
      cases it.cursor.nextValue with
      | none => exact Or.inl ⟨rfl, rfl, h.stack_eq⟩
      | some found => exact Or.inr ⟨_, by rw [h.ip_eq], rfl, h.stack_eq⟩
    · intro n₁ m₁ hn₁ hm₁
      rcases hm₁ with hm₁ | ⟨it', hm₁⟩
      · exact hclose n₁ m₁ it hm₁
      · refine (hd.leads code stop S (it' :: I) m₁ n₁ hbody.left.patched hm₁).bind
          (fun m hm => ⟨?_, ?_⟩) ?_
        · exact Nat.le_trans (by omega) hm.1
        · exact Nat.lt_of_lt_of_le hm.2 (by omega)
        · intro n₂ m₂ hn₂ hm₂
          rcases hm₂ with hm₂ | ⟨hin, hm₂ | hm₂⟩
          · have hback := hbody.right.head
            rw [length_map] at hback
            refine leads_jump hback hm₂ (hm₂.inside (by omega) (by omega)) ?_
            intro n₃ m₃ hn₃ hm₃
            exact ih n₃ (by omega) hm₃
          · rw [hk hin]
            rw [hk hin] at hclose
            exact hclose n₂ m₂ it' hm₂
          · rw [hk hin]
            rw [hk hin] at ih
            exact ih n₂ (by omega) hm₂

/-- How many values an instruction that opens a loop takes. -/
def beginEffect : Instruction → Option Nat
  | .beginIter _ => some 1
  | .beginRangeIter _ argc => some argc
  | _ => none

theorem execute_begins (hi : beginEffect i = some q) (h : Above ip S I (q + k) m) :
    match execute env m i with
    | .inl m' => ∃ it, Above ip S (it :: I) k m'
    | .inr h => Fine h := by
  cases i with
  | beginIter binding =>
    cases hi
    have htall := h.tall
    cases hstack : m.stack with
    | nil => simp [hstack] at htall
    | cons value rest =>
      have hpop := Above.pop (j := k) (by rw [Nat.add_comm]; exact h) hstack
      simp only [execute, Machine.withTop, hstack]
      cases iterableValues value with
      | error error => exact fine_raised _ _ _
      | ok values => exact ⟨_, hpop.ip_eq, by rw [h.iters_eq], hpop.stack_eq⟩
  | beginRangeIter binding argc =>
    have hargc : argc = q := Option.some.inj hi
    subst hargc
    have hdrop := h.drop
    simp only [execute, Machine.withTail, if_neg h.tall]
    cases rangeBounds (m.stack.take argc).reverse with
    | error error => exact fine_raised _ _ _
    | ok bounds => exact ⟨_, hdrop.ip_eq, by rw [h.iters_eq], hdrop.stack_eq⟩
  | _ => cases hi

/-- What opens a loop, and the loop. -/
theorem flow_iteration {b : Bool} (hi : beginEffect i = some q) (hk : b = true → k = 0)
    (hstop : stop = a + c.length + 1 + 1 + d.length + 1) (hc : Flow env inLoop loop a k (q + k) c)
    (hd : Flow env b (a + c.length + 1) (a + c.length + 1 + 1) k k d) :
    Flow env inLoop loop a k k ((c ++ [i]) ++ Instruction.iterNext stop ::
        (d.map (patchBreak stop) ++ [Instruction.jump (a + c.length + 1), .endIter])) := by
  have hne : i ≠ .breakJump := by
    rintro rfl
    cases hi
  refine ⟨fun hb x hx => ?_, ?_⟩
  · simp only [mem_append, mem_cons, not_mem_nil, or_false] at hx
    rcases hx with (hx | rfl) | rfl | hx | rfl | rfl
    · exact hc.closed hb x hx
    · exact hne
    · simp
    · exact patched_ne_breakJump hx
    · simp
    · simp
  intro code brk S I m n hcode h
  have hlen : a + ((c ++ [i]) ++ Instruction.iterNext stop :: (d.map (patchBreak stop) ++
        [Instruction.jump (a + c.length + 1), .endIter])).length = stop + 1 := by
    simp only [length_append, length_cons, length_map, length_nil]
    omega
  rw [hlen]
  have hbegin : code[a + c.length]? = some i := by
    rw [hcode.left.right.head, patchBreak_eq brk hne]
  have hloop : CodeAt code brk (a + c.length + 1) (.iterNext stop ::
      (d.map (patchBreak stop) ++ [Instruction.jump (a + c.length + 1), .endIter])) := by
    have hright := hcode.right
    rw [length_append] at hright
    exact hright
  refine (hc.leads code brk S I m n hcode.left.left h).bind (fun m hm => ⟨hm.1, ?_⟩) ?_
  · exact Nat.lt_of_lt_of_le hm.2 (by omega)
  · intro n₁ m₁ _ hm₁
    rcases hm₁ with hm₁ | hexit
    · refine leads_instruction (T := fun m' => ∃ it, Above (a + c.length + 1) S (it :: I) k m')
        hbegin hm₁ (hm₁.inside (by omega) (by omega)) (execute_begins hi hm₁.next) ?_
      intro n₂ m₂ _ hm₂
      obtain ⟨it, hm₂⟩ := hm₂
      refine (flow_iterLoop hk hstop hd hloop hm₂).weaken (fun m hm => ⟨?_, hm.2⟩)
        fun _ h => Or.inl h
      exact Nat.le_trans (by omega) hm.1
    · exact .here (Or.inr hexit)

/-! ## What composes as the heights do -/

/-- What is true of pieces of code and stays true when they are put together as the compiler
puts them together. -/
class Composes (P : Bool → Nat → Nat → Nat → Nat → Code → Prop) : Prop where
  nil {b : Bool} {loop a k : Nat} : P b loop a k k []
  instruction {b : Bool} {loop a j k : Nat} {i : Instruction} (hi : stackEffect i = some (j, k)) :
    P b loop a j k [i]
  append {b : Bool} {loop a j k r : Nat} {c d : Code} (hc : P b loop a j k c)
    (hd : P b loop (a + c.length) k r d) : P b loop a j r (c ++ d)
  weaken {b : Bool} {loop r a j k : Nat} {c : Code} (hc : P false loop a j k c) : P b r a j k c
  frame {loop a j k : Nat} {c : Code} (x : Nat) (hc : P false loop a j k c) :
    P false loop a (x + j) (x + k) c
  breaks {loop a k : Nat} : P true loop a 0 k [.breakJump]
  continues {loop a k : Nat} : P true loop a 0 k [.jump loop]
  ends {b : Bool} {loop a k : Nat} {i : Instruction} (hi : i = .finish ∨ i = .processFail) :
    P b loop a 1 k [i]
  branch {b : Bool} {loop a k q elseStart : Nat} {c t e : Code} {jump : Nat → Instruction}
    (helse : elseStart = a + c.length + 1 + t.length + 1)
    (hjump : jumpEffect (jump elseStart) = some (q, elseStart)) (hc : P false loop a 0 q c)
    (ht : P b loop (a + c.length + 1) 0 k t) (he : P b loop elseStart 0 k e) :
    P b loop a 0 k (c ++ jump elseStart :: (t ++ .jump (elseStart + e.length) :: e))
  test {b : Bool} {loop a k q stop : Nat} {c d : Code} {jump : Nat → Instruction}
    (hstop : stop = a + c.length + 1 + d.length)
    (hjump : jumpEffect (jump stop) = some (q, stop)) (hc : P false loop a k (k + q) c)
    (hd : P b loop (a + c.length + 1) k k d) : P b loop a k k (c ++ jump stop :: d)
  repeats {b : Bool} {loop a q stop : Nat} {c d : Code} {jump : Nat → Instruction}
    (hstop : stop = a + c.length + 1 + d.length + 1)
    (hjump : jumpEffect (jump stop) = some (q, stop)) (hc : P false a a 0 q c)
    (hd : P true a (a + c.length + 1) 0 0 d) :
    P b loop a 0 0 (c ++ jump stop :: (d.map (patchBreak stop) ++ [Instruction.jump a]))
  iteration {b inner : Bool} {loop a k q stop : Nat} {c d : Code} {i : Instruction}
    (hi : beginEffect i = some q) (hk : inner = true → k = 0)
    (hstop : stop = a + c.length + 1 + 1 + d.length + 1) (hc : P b loop a k (q + k) c)
    (hd : P inner (a + c.length + 1) (a + c.length + 1 + 1) k k d) :
    P b loop a k k ((c ++ [i]) ++ Instruction.iterNext stop ::
      (d.map (patchBreak stop) ++ [Instruction.jump (a + c.length + 1), .endIter]))

instance flow_composes : Composes (Flow env) where
  nil := flow_nil
  instruction := flow_instruction
  append := Flow.append
  weaken := Flow.weaken
  frame := Flow.frame
  breaks := flow_break
  continues := flow_continue
  ends := flow_ends
  branch := flow_if
  test := flow_test
  repeats := flow_while
  iteration := flow_iteration

end ScriptFlows
