import Lash.ScriptExpressions

/-!
# Ranges

A loop over a range steps a cursor, and the builtin of the same name fills a list. Both cut an
addition off at the limits of 64 bits, where the end of the range is reached at the latest. So
they go through the same numbers, of which there are as many as the length that was checked.
The variable of the loop is an ordinary binding, not a read-only one.
-/

namespace ScriptRanges

open ScriptNumbers ScriptValues ScriptOps ScriptMachine ScriptOperands ScriptExpressions List Int64

/-! ## The builtin -/

/-- The condition of the loop that fills the list, for the sign of the step. -/
def fills (stop step value : Int) : Prop := if 0 < step then value < stop else stop < value

/-- What a run of this loop pushes. -/
inductive Pushes (stop step : Int) : Int → List Value → Prop where
  | exit {value : Int} (h : ¬ fills stop step value) : Pushes stop step value []
  | push {value : Int} {items : List Value} (h : fills stop step value)
      (rest : Pushes stop step (saturatingAdd value step) items) :
      Pushes stop step value (.number (ofInt value) :: items)

/-- The source's `build_range`. -/
inductive BuildsRange (start stop step : Int) : List Value → Prop where
  | empty (h : rangeLen start stop step = 0) : BuildsRange start stop step []
  | filled {items : List Value} (h : rangeLen start stop step ≠ 0)
      (pushes : Pushes stop step start items) : BuildsRange start stop step items

/-- The source's `execute_range_builtin`. -/
inductive ExecutesRange (values : List Value) : Result → Prop where
  | fails {error : RuntimeError} (h : rangeBounds values = .error error) :
      ExecutesRange values (.error error)
  | builds {bounds : RangeBounds} {items : List Value} (h : rangeBounds values = .ok bounds)
      (builds : BuildsRange bounds.start.toInt bounds.stop.toInt bounds.step.toInt items) :
      ExecutesRange values (.ok (.list items))

/-! ## The loop -/

/-- What `for binding in range(values)` binds, one value after the other, if it starts with
the values on top of the stack; or the error that it starts with. -/
inductive Iterates (env : Environment) (before : Machine) (binding : String)
    (values : List Value) : Result → Prop where
  | fails {error : RuntimeError}
      (h : execute env { before with stack := values.reverse ++ before.stack }
        (.beginRangeIter binding values.length) = before.failWith error) :
      Iterates env before binding values (.error error)
  | visits {cursor : IterCursor} {items : List Value}
      (h : execute env { before with stack := values.reverse ++ before.stack }
        (.beginRangeIter binding values.length) =
          .inl { before with iters := ⟨cursor, binding, before.slots binding⟩ :: before.iters })
      (visited : Enumerates cursor items) :
      Iterates env before binding values (.ok (.list items))

/-! ## The numbers of a range -/

/-- The first numbers of an arithmetic progression. -/
def progression (start step : Int) (n : Nat) : List Value :=
  (List.range n).map fun (k : Nat) => .number (ofInt (start + (k : Int) * step))

theorem progression_succ (start step : Int) (n : Nat) : progression start step (n + 1) =
      .number (ofInt start) :: progression (start + step) step n := by
  simp only [progression, range_succ_eq_map, map_cons, map_map]
  refine cons_eq_cons.mpr ⟨by simp, map_congr_left fun k _ => ?_⟩
  simp only [Function.comp_apply, Int.natCast_succ]
  congr 2
  rw [Int.add_mul]
  omega

theorem length_progression (start step : Int) (n : Nat) :
    (progression start step n).length = n := by
  rw [progression, length_map, length_range]

section Steps

variable {x stop step : Int}

theorem rangeDone_iff (hstep : step ≠ 0) : rangeDone x stop step = true ↔ ¬ fills stop step x := by
  simp only [rangeDone, decide_eq_true_eq, fills]
  split <;> omega

theorem rangeLen_of_done (hdone : rangeDone x stop step = true) : rangeLen x stop step = 0 := by
  simp only [rangeDone, decide_eq_true_eq] at hdone
  rw [rangeLen, if_pos hdone]

/-- Before the end the length is the distance in steps, rounded up. -/
theorem rangeLen_of_goes (hstep : step ≠ 0) (hgoes : ¬ rangeDone x stop step = true) :
    0 < ((stop - x).natAbs : Int) ∧
      rangeLen x stop step = ((stop - x).natAbs + step.natAbs - 1) / step.natAbs := by
  simp only [rangeDone, decide_eq_true_eq] at hgoes
  refine ⟨by omega, ?_⟩
  rw [rangeLen, if_neg hgoes]
  split
  · have hdistance : ((stop - x).natAbs : Int) = stop - x := by omega
    simp only [hdistance]
  · have hdistance : ((stop - x).natAbs : Int) = x - stop := by omega
    simp only [hdistance]

theorem rangeLen_nonneg (hstep : step ≠ 0) : 0 ≤ rangeLen x stop step := by
  by_cases hdone : rangeDone x stop step = true
  · exact Int.le_of_eq (rangeLen_of_done hdone).symm
  · obtain ⟨hpos, hlen⟩ := rangeLen_of_goes hstep hdone
    rw [hlen]
    exact Int.ediv_nonneg (by omega) (by omega)

/-- One step to go. -/
theorem ediv_one {d s : Int} (hd : 0 < d) (hle : d ≤ s) : (d + s - 1) / s = 1 := by
  have hlow : 1 ≤ (d + s - 1) / s := (Int.le_ediv_iff_mul_le (by omega)).mpr (by omega)
  have hhigh : (d + s - 1) / s < 2 := Int.ediv_lt_of_lt_mul (by omega) (by omega)
  omega

/-- More than one step to go. -/
theorem ediv_more {d s : Int} (hs : 0 < s) : (d + s - 1) / s = (d - s + s - 1) / s + 1 := by
  have hsum : d + s - 1 = (d - s + s - 1) + s * 1 := by omega
  rw [hsum, Int.add_mul_ediv_left _ _ (by omega)]

/-- The length that is checked counts the numbers before the end. An addition is cut off only
where the end is reached. -/
theorem rangeLen_step (hstep : step ≠ 0) (hlow : minValue.toInt ≤ stop)
    (hhigh : stop ≤ maxValue.toInt) (hmin : minValue.toInt ≤ x)
    (hmax : x ≤ maxValue.toInt) (hgoes : ¬ rangeDone x stop step = true) :
    rangeLen x stop step = rangeLen (saturatingAdd x step) stop step + 1 ∧
      (saturatingAdd x step = x + step ∨ rangeDone (saturatingAdd x step) stop step = true) := by
  obtain ⟨hpos, hlen⟩ := rangeLen_of_goes hstep hgoes
  simp only [rangeDone, decide_eq_true_eq] at hgoes
  by_cases hlast : (stop - x).natAbs ≤ step.natAbs
  · have hdone : rangeDone (saturatingAdd x step) stop step = true := by
      rw [rangeDone, decide_eq_true_eq]
      unfold saturatingAdd
      omega
    rw [hlen, rangeLen_of_done hdone, ediv_one hpos (by omega)]
    exact ⟨rfl, .inr hdone⟩
  · have hadd : saturatingAdd x step = x + step := by
      unfold saturatingAdd
      omega
    have hgoes' : ¬ rangeDone (x + step) stop step = true := by
      simp only [rangeDone, decide_eq_true_eq]
      omega
    have hnear : ((stop - (x + step)).natAbs : Int) = (stop - x).natAbs - step.natAbs := by
      omega
    rw [hadd, hlen, (rangeLen_of_goes hstep hgoes').2, hnear]
    exact ⟨ediv_more (by omega), .inl rfl⟩

end Steps

variable {values : List Value}

/-- A cursor goes through one list of values only. -/
theorem Enumerates.unique {cursor : IterCursor} {values' : List Value}
    (h : Enumerates cursor values) (h' : Enumerates cursor values') : values = values' := by
  induction h generalizing values' with
  | done hnone =>
    cases h' with
    | done => rfl
    | next hsome => exact absurd (hnone.symm.trans hsome) nofun
  | next hsome _ ih =>
    cases h' with
    | done hnone => exact absurd (hnone.symm.trans hsome) nofun
    | next hsome' hrest =>
      obtain ⟨rfl, rfl⟩ := Prod.mk.inj (Option.some.inj (hsome.symm.trans hsome'))
      exact congrArg _ (ih hrest)

variable {items : List Value}

/-- The loop of the builtin pushes what the cursor goes through, and nothing else. -/
theorem pushes_iff {stop step x : Int} (hstep : step ≠ 0) :
    Pushes stop step x items ↔ Enumerates (.range x stop step) items := by
  constructor
  · intro h
    induction h with
    | exit h =>
      refine .done ?_
      rw [IterCursor.nextValue, if_pos ((rangeDone_iff hstep).mpr h)]
    | push h _ ih =>
      refine .next ?_ ih
      rw [IterCursor.nextValue, if_neg fun hdone => (rangeDone_iff hstep).mp hdone h]
  · intro h
    generalize hcursor : IterCursor.range x stop step = cursor at h
    induction h generalizing x with
    | done hnone =>
      subst hcursor
      rw [IterCursor.nextValue] at hnone
      split at hnone
      · next hdone => exact .exit ((rangeDone_iff hstep).mp hdone)
      · cases hnone
    | next hsome _ ih =>
      subst hcursor
      rw [IterCursor.nextValue] at hsome
      split at hsome
      · cases hsome
      · next hgoes =>
        obtain ⟨rfl, rfl⟩ := Prod.mk.inj (Option.some.inj hsome)
        refine .push ?_ (ih rfl)
        exact not_not.mp fun h => hgoes ((rangeDone_iff hstep).mpr h)

section Numbers

variable {x stop step : Int}

/-- A range is the progression of the length that is checked. -/
theorem rangeItemsFrom_eq (hstep : step ≠ 0) (hlow : minValue.toInt ≤ stop)
    (hhigh : stop ≤ maxValue.toInt) (fuel : Nat) (hmin : minValue.toInt ≤ x)
    (hmax : x ≤ maxValue.toInt) (hfuel : rangeLen x stop step ≤ fuel) :
    rangeItemsFrom stop step fuel x = progression x step (rangeLen x stop step).toNat := by
  induction fuel generalizing x with
  | zero =>
    have hnonneg : 0 ≤ rangeLen x stop step := rangeLen_nonneg hstep
    have hzero : rangeLen x stop step = 0 := by omega
    rw [hzero]
    rfl
  | succ fuel ih =>
    rw [rangeItemsFrom]
    by_cases hdone : rangeDone x stop step = true
    · rw [if_pos hdone, rangeLen_of_done hdone]
      rfl
    · obtain ⟨hlen, hadd⟩ := rangeLen_step hstep hlow hhigh hmin hmax hdone
      obtain ⟨hlower, hupper⟩ := saturatingAdd_bounds x step
      have hnonneg : 0 ≤ rangeLen (saturatingAdd x step) stop step := rangeLen_nonneg hstep
      rw [if_neg hdone, ih hlower hupper (by omega), hlen, Int.toNat_add hnonneg (by omega)]
      refine Eq.trans ?_ (progression_succ x step _).symm
      rcases hadd with hadd | hlast
      · rw [hadd]
      · rw [rangeLen_of_done hlast]
        rfl

theorem rangeItems_eq (hstep : step ≠ 0) (hlow : minValue.toInt ≤ stop)
    (hhigh : stop ≤ maxValue.toInt) (hmin : minValue.toInt ≤ x)
    (hmax : x ≤ maxValue.toInt) :
    rangeItems x stop step = progression x step (rangeLen x stop step).toNat := by
  refine rangeItemsFrom_eq hstep hlow hhigh _ hmin hmax ?_
  by_cases hdone : rangeDone x stop step = true
  · rw [rangeLen_of_done hdone]
    omega
  · -- a step covers at least one number, so the length is at most the distance
    obtain ⟨hpos, hlen⟩ := rangeLen_of_goes hstep hdone
    rw [hlen]
    refine Int.ediv_le_of_le_mul (by omega) ?_
    have hcover := Int.mul_nonneg (a := ((stop - x).natAbs : Int) - 1)
      (b := (step.natAbs : Int) - 1) (by omega) (by omega)
    rw [Int.sub_mul, Int.mul_sub] at hcover
    omega

end Numbers

/-! ## The same numbers -/

/-- The loop that fills the list ends with what the list holds in the model of the builtin. -/
theorem buildsRange_iff {bounds : RangeBounds} (h : rangeBounds values = .ok bounds) :
    BuildsRange bounds.start.toInt bounds.stop.toInt bounds.step.toInt items ↔
      items = rangeItems bounds.start.toInt bounds.stop.toInt bounds.step.toInt := by
  have hstep := rangeBounds_step h
  have hitems := enumerates_range h
  constructor
  · rintro (hzero | ⟨_, hpushes⟩)
    · rw [rangeItems_eq hstep (minValue_le_toInt _) (toInt_le _)
        (minValue_le_toInt _) (toInt_le _), hzero]
      rfl
    · exact Enumerates.unique ((pushes_iff hstep).mp hpushes) hitems
  · rintro rfl
    by_cases hzero : rangeLen bounds.start.toInt bounds.stop.toInt bounds.step.toInt = 0
    · rw [rangeItems_eq hstep (minValue_le_toInt _) (toInt_le _)
        (minValue_le_toInt _) (toInt_le _), hzero]
      exact .empty hzero
    · exact .filled hzero ((pushes_iff hstep).mpr hitems)

theorem executesRange_iff {result : Result} :
    ExecutesRange values result ↔ executeRangeBuiltin values = result := by
  unfold executeRangeBuiltin
  constructor
  · intro h
    cases h with
    | fails h => rw [h]
    | builds h hbuilds => rw [h, (buildsRange_iff h).mp hbuilds]
  · rintro rfl
    rcases h : rangeBounds values with error | bounds
    · exact .fails h
    · exact .builds h ((buildsRange_iff h).mpr rfl)

theorem begins_range (env : Environment) (before : Machine) (binding : String)
    (values : List Value) :
    execute env { before with stack := values.reverse ++ before.stack }
        (.beginRangeIter binding values.length) =
      match rangeBounds values with
      | .ok bounds => .inl { before with iters :=
          ⟨.range bounds.start.toInt bounds.stop.toInt bounds.step.toInt, binding,
            before.slots binding⟩ :: before.iters }
      | .error error => before.failWith error := by
  obtain ⟨ip, S, slots, I, history⟩ := before
  unfold execute
  refine (withTail_values rfl).trans ?_
  rcases rangeBounds values with error | bounds
  · rfl
  · rfl

theorem failWith_injective {m : Machine} {error error' : RuntimeError}
    (h : m.failWith error = m.failWith error') : error = error' := by
  unfold Machine.failWith Machine.halt at h
  simpa using h

theorem iterates_iff {env : Environment} {before : Machine} {binding : String} {result : Result} :
    Iterates env before binding values result ↔ executeRangeBuiltin values = result := by
  unfold executeRangeBuiltin
  have hbegin := begins_range env before binding values
  rcases hbounds : rangeBounds values with error | bounds
  · rw [hbounds] at hbegin
    constructor
    · intro h
      cases h with
      | fails h => exact congrArg _ (failWith_injective (hbegin.symm.trans h))
      | visits h _ => exact absurd (hbegin.symm.trans h) nofun
    · rintro rfl
      exact .fails hbegin
  · rw [hbounds] at hbegin
    constructor
    · intro h
      cases h with
      | fails h => exact absurd (hbegin.symm.trans h) nofun
      | visits h hvisited =>
        have hmachine := Sum.inl.inj (hbegin.symm.trans h)
        injection hmachine with _ _ _ hiters _
        injection (cons.inj hiters).1 with hcursor _ _
        subst hcursor
        exact congrArg (Except.ok ∘ Value.list)
          (Enumerates.unique (enumerates_range hbounds) hvisited)
    · rintro rfl
      exact .visits hbegin (enumerates_range hbounds)

/-- The length of a range was checked before anything is made of it. -/
theorem rangeBounds_checked {bounds : RangeBounds} (h : rangeBounds values = .ok bounds) :
    checkedRange bounds.start bounds.stop bounds.step = .ok bounds := by
  have hchecked : ∀ start stop step, checkedRange start stop step = .ok bounds →
      checkedRange bounds.start bounds.stop bounds.step = .ok bounds := by
    intro start stop step h
    have hok := h
    unfold checkedRange at h
    split at h
    · cases h
    · split at h
      · cases h
      · cases h
        exact hok
  unfold rangeBounds at h
  split at h
  · split at h
    · exact hchecked _ _ _ h
    · cases h
  · split at h
    · exact hchecked _ _ _ h
    · cases h
    · cases h
  · split at h
    · exact hchecked _ _ _ h
    · cases h
    · cases h
    · cases h
  · cases h

/-- What a check of three bounds says: they are refused for a reason, or the cursor ends after
the numbers of the progression before the end, a million of them at most. -/
theorem checkedRange_cases (start stop step : Int64) : match checkedRange start stop step with
    | .error _ => step = 0 ∨ 1000000 < rangeLen start.toInt stop.toInt step.toInt
    | .ok _ => ∃ n : Nat, n ≤ 1000000 ∧
        rangeItems start.toInt stop.toInt step.toInt = progression start.toInt step.toInt n ∧
        (n : Int) = rangeLen start.toInt stop.toInt step.toInt ∧
        Enumerates (.range start.toInt stop.toInt step.toInt)
          (progression start.toInt step.toInt n) := by
  unfold checkedRange
  by_cases hstep : step.toInt = 0
  · rw [if_pos hstep]
    exact .inl (toInt_inj.mp hstep)
  · by_cases hlen : maxRangeItems < rangeLen start.toInt stop.toInt step.toInt
    · rw [if_neg hstep, if_pos hlen]
      exact .inr hlen
    · rw [if_neg hstep, if_neg hlen]
      have hnonneg : 0 ≤ rangeLen start.toInt stop.toInt step.toInt := rangeLen_nonneg hstep
      have hitems := rangeItems_eq hstep (minValue_le_toInt stop) (toInt_le stop)
        (minValue_le_toInt start) (toInt_le start)
      unfold maxRangeItems at hlen
      refine ⟨(rangeLen start.toInt stop.toInt step.toInt).toNat, by omega, hitems, by omega, ?_⟩
      rw [← hitems]
      exact enumerates_rangeFrom hstep (minValue_le_toInt _) (toInt_le _) _ _
        (minValue_le_toInt _) (toInt_le _) (Or.inr (Nat.le_refl _))

/-- The builtin makes no list of more than a million numbers. -/
theorem executeRangeBuiltin_length (h : executeRangeBuiltin values = .ok (.list items)) :
    items.length ≤ 1000000 := by
  unfold executeRangeBuiltin at h
  split at h
  · next bounds hbounds =>
      cases h
      have hcases := checkedRange_cases bounds.start bounds.stop bounds.step
      rw [rangeBounds_checked hbounds] at hcases
      obtain ⟨n, hle, hitems, _⟩ := hcases
      rw [hitems, length_progression]
      exact hle
  · cases h

/-- A loop over a range binds the numbers of the list that the builtin makes of the same
arguments, in this order and a million at most, or it fails as the builtin does. For each three
bounds of 64 bits either they are refused, or the cursor ends after the numbers of the
progression before the end. -/
theorem range_loop_is_range_list : (∀ env before binding values, ∃ result,
      (∀ r, Iterates env before binding values r ↔ r = result) ∧
      (∀ r, ExecutesRange values r ↔ r = result) ∧
      ∀ items, result = .ok (.list items) → items.length ≤ 1000000) ∧
    ∀ start stop step : Int64, match checkedRange start stop step with
      | .error _ => step = 0 ∨ 1000000 < rangeLen start.toInt stop.toInt step.toInt
      | .ok _ => ∃ n : Nat, n ≤ 1000000 ∧ (n : Int) = rangeLen start.toInt stop.toInt step.toInt ∧
          Enumerates (.range start.toInt stop.toInt step.toInt)
            (progression start.toInt step.toInt n) := by
  refine ⟨fun env before binding values =>
    ⟨executeRangeBuiltin values, fun r => ?_, fun r => ?_, fun items => ?_⟩,
    fun start stop step => ?_⟩
  · rw [iterates_iff]
    exact eq_comm
  · rw [executesRange_iff]
    exact eq_comm
  · exact executeRangeBuiltin_length
  · have hcases := checkedRange_cases start stop step
    rcases hchecked : checkedRange start stop step with error | bounds
    · rw [hchecked] at hcases
      exact hcases
    · rw [hchecked] at hcases
      obtain ⟨n, hle, _, hlen, hvisits⟩ := hcases
      exact ⟨n, hle, hlen, hvisits⟩

end ScriptRanges
