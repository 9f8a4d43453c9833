import Lash.Doubles
import Lash.ScriptExpressions

/-!
# Operands that are evaluated twice

Two operands that the compiler finds equal are one operand, and one that it finds
pure has the same value each time: it makes no request and depends on none.
-/

namespace ScriptRepeats

open ScriptNumbers ScriptOps ScriptSyntax ScriptCompiler
open Bool
open ScriptMachine ScriptEvaluation ScriptConstants ScriptExpressions

variable {A B : Type} {env : Environment} {cx : CompileContext} {slots : Slots}

/-! ## Equal operands -/

theorem literal_eq {x y : Float} (hx : isNegative x = false) (hy : isNegative y = false)
    (h : (x == y) = true) : x = y := by
  rcases Doubles.eq_of_beq h with heq | ⟨s, t, hs, ht⟩
  · exact heq
  · cases s with
    | negative =>
      rw [isNegative, hs] at hx
      cases hx
    | positive =>
      cases t with
      | negative =>
        rw [isNegative, ht] at hy
        cases hy
      | positive => exact Doubles.eq_of_unpack (hs.trans ht.symm)

mutual
theorem typeSame_eq (a b : TypeExpr) (h : a.same b = true) : a = b := by
  cases a with
  | list item =>
    cases b with
    | list other =>
      simp only [TypeExpr.same] at h
      rw [typeSame_eq item other h]
    | _ => simp [TypeExpr.same] at h
  | triggerHandle event =>
    cases b with
    | triggerHandle other =>
      simp only [TypeExpr.same] at h
      rw [typeSame_eq event other h]
    | _ => simp [TypeExpr.same] at h
  | object fields =>
    cases b with
    | object others =>
      simp only [TypeExpr.same] at h
      rw [sameFields_eq fields others h]
    | _ => simp [TypeExpr.same] at h
  | union variants =>
    cases b with
    | union others =>
      simp only [TypeExpr.same] at h
      rw [sameTypes_eq variants others h]
    | _ => simp [TypeExpr.same] at h
  | process input output count =>
    cases b with
    | process input' output' count' =>
      simp only [TypeExpr.same, and_eq_true, beq_iff_eq] at h
      rw [typeSame_eq input input' h.1.1, typeSame_eq output output' h.1.2, h.2]
    | _ => simp [TypeExpr.same] at h
  | enum values =>
    cases b with
    | enum others =>
      simp only [TypeExpr.same, beq_iff_eq] at h
      rw [h]
    | _ => simp [TypeExpr.same] at h
  | ref name =>
    cases b with
    | ref other =>
      simp only [TypeExpr.same, beq_iff_eq] at h
      rw [h]
    | _ => simp [TypeExpr.same] at h
  | _ =>
    cases b with
    | list _ | triggerHandle _ | object _ | union _ | process _ _ _ | enum _ | ref _ =>
      simp [TypeExpr.same] at h
    | _ => first | rfl | (simp [TypeExpr.same] at h)
theorem sameTypes_eq (as bs : List TypeExpr) (h : sameTypes as bs = true) : as = bs := by
  cases as with
  | nil =>
    cases bs with
    | nil => rfl
    | cons _ _ => simp [sameTypes] at h
  | cons a as =>
    cases bs with
    | nil => simp [sameTypes] at h
    | cons b bs =>
      have hparts := and_eq_true_iff.mp h
      rw [typeSame_eq a b hparts.1, sameTypes_eq as bs hparts.2]
theorem sameFields_eq (as bs : List (TypeField TypeExpr)) (h : sameFields as bs = true) :
    as = bs := by
  cases as with
  | nil =>
    cases bs with
    | nil => rfl
    | cons _ _ => simp [sameFields] at h
  | cons a as =>
    cases bs with
    | nil => simp [sameFields] at h
    | cons b bs =>
      obtain ⟨name, ty, opt⟩ := a
      obtain ⟨name', ty', opt'⟩ := b
      simp only [sameFields, and_eq_true, beq_iff_eq] at h
      rw [h.1.1.1, h.1.1.2, typeSame_eq ty ty' h.1.2, sameFields_eq as bs h.2]
end

theorem same_ctorIdx {a b : Expr} (h : a.same b = true) : a.ctorIdx = b.ctorIdx := by
  rw [Expr.same.eq_def] at h
  split at h
  all_goals first | rfl | cases h

theorem sameEntries_cons (a b : String × Expr) (as bs : List (String × Expr)) :
    sameEntries (a :: as) (b :: bs) = (a.1 == b.1 && a.2.same b.2 && sameEntries as bs) := by
  cases a
  cases b
  rw [sameEntries]

mutual
/-- Operands that compare equal are one operand. -/
theorem same_eq (a b : Expr) (ha : isOperand a = true) (hb : isOperand b = true)
    (h : a.same b = true) : a = b := by
  cases a with
  | null =>
    cases b with
    | null => rfl
    | _ => cases same_ctorIdx h
  | number x =>
    cases b with
    | number y =>
      simp only [isOperand, not_eq_true'] at ha hb
      simp only [Expr.same] at h
      rw [literal_eq ha hb h]
    | _ => cases same_ctorIdx h
  | bool x | string x | «variable» x | processRef x | waitSignal x | resourceRef x =>
    cases b with
    | bool y | string y | «variable» y | processRef y | waitSignal y | resourceRef y =>
      first
        | (cases same_ctorIdx h; done)
        | (simp only [Expr.same, beq_iff_eq] at h; rw [h])
    | _ => cases same_ctorIdx h
  | typeLiteral ty =>
    cases b with
    | typeLiteral ty' =>
      simp only [Expr.same] at h
      rw [typeSame_eq ty ty' h]
    | _ => cases same_ctorIdx h
  | tuple es | list es =>
    cases b with
    | tuple es' | list es' =>
      first
        | (cases same_ctorIdx h; done)
        | (simp only [Expr.same] at h; rw [sameExprs_eq es es' ha hb h])
    | _ => cases same_ctorIdx h
  | builtinCall name es =>
    cases b with
    | builtinCall name' es' =>
      simp only [Expr.same, and_eq_true, beq_iff_eq] at h
      rw [h.1, sameExprs_eq es es' ha hb h.2]
    | _ => cases same_ctorIdx h
  | record entries =>
    cases b with
    | record entries' =>
      simp only [Expr.same] at h
      rw [sameEntries_eq entries entries' ha hb h]
    | _ => cases same_ctorIdx h
  | startProcess p entries =>
    cases b with
    | startProcess p' entries' =>
      simp only [Expr.same, and_eq_true, beq_iff_eq] at h
      rw [h.1, sameEntries_eq entries entries' ha hb h.2]
    | _ => cases same_ctorIdx h
  | listComprehension e clauses =>
    cases b with
    | listComprehension e' clauses' =>
      have ha' := and_eq_true_iff.mp ha
      have hb' := and_eq_true_iff.mp hb
      simp only [Expr.same, and_eq_true] at h
      rw [same_eq e e' ha'.2 hb'.2 h.1, sameClauses_eq clauses clauses' ha'.1 hb'.1 h.2]
    | _ => cases same_ctorIdx h
  | ifElse c t e =>
    cases b with
    | ifElse c' t' e' =>
      have ha' := and_eq_true_iff.mp ha
      have hb' := and_eq_true_iff.mp hb
      have ha'' := and_eq_true_iff.mp ha'.1
      have hb'' := and_eq_true_iff.mp hb'.1
      simp only [Expr.same, and_eq_true] at h
      rw [same_eq c c' ha''.1 hb''.1 h.1.1, same_eq t t' ha''.2 hb''.2 h.1.2,
        same_eq e e' ha'.2 hb'.2 h.2]
    | _ => cases same_ctorIdx h
  | receiverCall r op es =>
    cases b with
    | receiverCall r' op' es' =>
      have ha' := and_eq_true_iff.mp ha
      have hb' := and_eq_true_iff.mp hb
      simp only [Expr.same, and_eq_true, beq_iff_eq] at h
      rw [same_eq r r' ha'.1 hb'.1 h.1.1, h.1.2, sameExprs_eq es es' ha'.2 hb'.2 h.2]
    | _ => cases same_ctorIdx h
  | await e | sleepFor e | sleepUntil e | resultUnwrap e =>
    cases b with
    | await e' | sleepFor e' | sleepUntil e' | resultUnwrap e' =>
      first
        | (cases same_ctorIdx h; done)
        | (simp only [Expr.same] at h; rw [same_eq e e' ha hb h])
    | _ => cases same_ctorIdx h
  | hostDescriptorConstructor op e | unary op e =>
    cases b with
    | hostDescriptorConstructor op' e' | unary op' e' =>
      first
        | (cases same_ctorIdx h; done)
        | (simp only [Expr.same, and_eq_true, beq_iff_eq] at h; rw [h.1, same_eq e e' ha hb h.2])
    | _ => cases same_ctorIdx h
  | field e name =>
    cases b with
    | field e' name' =>
      simp only [Expr.same, and_eq_true, beq_iff_eq] at h
      rw [same_eq e e' ha hb h.1, h.2]
    | _ => cases same_ctorIdx h
  | index x y =>
    cases b with
    | index x' y' =>
      have ha' := and_eq_true_iff.mp ha
      have hb' := and_eq_true_iff.mp hb
      simp only [Expr.same, and_eq_true] at h
      rw [same_eq x x' ha'.1 hb'.1 h.1, same_eq y y' ha'.2 hb'.2 h.2]
    | _ => cases same_ctorIdx h
  | signalRun x op y | binary x op y =>
    cases b with
    | signalRun x' op' y' | binary x' op' y' =>
      first
        | (cases same_ctorIdx h; done)
        | (have ha' := and_eq_true_iff.mp ha
           have hb' := and_eq_true_iff.mp hb
           simp only [Expr.same, and_eq_true, beq_iff_eq] at h
           rw [same_eq x x' ha'.1 hb'.1 h.1.1, h.1.2, same_eq y y' ha'.2 hb'.2 h.2])
    | _ => cases same_ctorIdx h
  | _ => cases ha
termination_by structural a
theorem sameExprs_eq (as bs : List Expr) (ha : allOperands as = true)
    (hb : allOperands bs = true) (h : sameExprs as bs = true) : as = bs := by
  cases as with
  | nil =>
    cases bs with
    | nil => rfl
    | cons _ _ => simp [sameExprs] at h
  | cons a as =>
    cases bs with
    | nil => simp [sameExprs] at h
    | cons b bs =>
      have ha' := and_eq_true_iff.mp ha
      have hb' := and_eq_true_iff.mp hb
      rw [sameExprs, and_eq_true] at h
      rw [same_eq a b ha'.1 hb'.1 h.1, sameExprs_eq as bs ha'.2 hb'.2 h.2]
termination_by structural as
theorem sameEntries_eq (as bs : List (String × Expr)) (ha : entryOperands as = true)
    (hb : entryOperands bs = true) (h : sameEntries as bs = true) : as = bs := by
  cases as with
  | nil =>
    cases bs with
    | nil => rfl
    | cons _ _ => simp [sameEntries] at h
  | cons a as =>
    cases bs with
    | nil => simp [sameEntries] at h
    | cons b bs =>
      have ha' := and_eq_true_iff.mp ha
      have hb' := and_eq_true_iff.mp hb
      rw [sameEntries_cons, and_eq_true, and_eq_true, beq_iff_eq] at h
      have hvalue := same_eq a.2 b.2 ha'.1 hb'.1 h.1.2
      rw [Prod.ext h.1.1 hvalue, sameEntries_eq as bs ha'.2 hb'.2 h.2]
termination_by structural as
theorem sameClauses_eq (as bs : List (ListComprehensionClause Expr))
    (ha : clauseOperands as = true) (hb : clauseOperands bs = true)
    (h : sameClauses as bs = true) : as = bs := by
  cases as with
  | nil =>
    cases bs with
    | nil => rfl
    | cons _ _ => simp [sameClauses] at h
  | cons a as =>
    cases bs with
    | nil => cases a <;> simp [sameClauses] at h
    | cons b bs =>
      cases a with
      | each x e =>
        cases b with
        | each y e' =>
          have ha' := and_eq_true_iff.mp ha
          have hb' := and_eq_true_iff.mp hb
          simp only [sameClauses, and_eq_true, beq_iff_eq] at h
          rw [h.1.1, same_eq e e' ha'.1 hb'.1 h.1.2, sameClauses_eq as bs ha'.2 hb'.2 h.2]
        | test _ => simp [sameClauses] at h
      | test e =>
        cases b with
        | each _ _ => simp [sameClauses] at h
        | test e' =>
          have ha' := and_eq_true_iff.mp ha
          have hb' := and_eq_true_iff.mp hb
          simp only [sameClauses, and_eq_true] at h
          rw [same_eq e e' ha'.1 hb'.1 h.1, sameClauses_eq as bs ha'.2 hb'.2 h.2]
termination_by structural as
end

/-! ## Pure operands -/

/-- A computation that makes no request and does not depend on those made. -/
def IsPure (x : Eval A) : Prop := ∃ r, x = compute r

theorem isPure_pure (v : A) : IsPure (pure v : Eval A) := ⟨.ok v, rfl⟩

theorem isPure_compute (r : Except RuntimeError A) : IsPure (compute r) := ⟨r, rfl⟩

theorem IsPure.bind {x : Eval A} {f : A → Eval B} (hx : IsPure x) (hf : ∀ v, IsPure (f v)) :
    IsPure (x >>= f) := by
  obtain ⟨r, rfl⟩ := hx
  cases r with
  | error error => exact ⟨.error error, rfl⟩
  | ok v => exact hf v

theorem isPure_loadSlot (name : String) : IsPure (loadSlot slots name) := by
  unfold loadSlot
  cases slots name with
  | none => exact isPure_compute _
  | some value => exact isPure_pure value

mutual
/-- The source's `is_pure_expr` finds operands that can be evaluated twice. -/
theorem isPure_operand (e : Expr) (he : isOperand e = true) (hpure : isPureExpr e = true) :
    IsPure (evalOperand env cx slots e) := by
  cases e with
  | null | bool _ | number _ | string _ | processRef _ | resourceRef _ =>
    rw [evalOperand]
    exact isPure_pure _
  | «variable» name =>
    rw [evalOperand]
    exact isPure_loadSlot name
  | tuple es =>
    rw [evalOperand]
    exact (isPure_all es he hpure).bind fun _ => isPure_pure _
  | list es =>
    rw [evalOperand]
    exact (isPure_all es he hpure).bind fun _ => isPure_pure _
  | record entries =>
    rw [evalOperand]
    exact (isPure_entries entries he hpure).bind fun _ => isPure_pure _
  | ifElse c t e =>
    have hparts := and_eq_true_iff.mp he
    have hfirst := and_eq_true_iff.mp hparts.1
    have hpures := and_eq_true_iff.mp hpure
    have hpureFirst := and_eq_true_iff.mp hpures.1
    have hthen := isPure_operand t hfirst.2 hpureFirst.2
    have helse := isPure_operand e hparts.2 hpures.2
    rw [evalOperand]
    refine (isPure_operand c hfirst.1 hpureFirst.1).bind fun v => ?_
    split
    · exact hthen
    · exact helse
  | hostDescriptorConstructor typeName e =>
    rw [evalOperand]
    exact (isPure_operand e he hpure).bind fun _ => isPure_pure _
  | resultUnwrap e =>
    have hinner := isPure_operand e he hpure
    rw [eval_unwrap]
    · exact hinner.bind fun _ => isPure_compute _
    · rintro handle rfl
      cases hpure
    · rintro receiver operation args rfl
      cases hpure
  | builtinCall name args =>
    have hargs := isPure_all args he hpure
    have hgeneric : (∀ template valueArgs, name = "format" → args ≠ .string template :: valueArgs) →
        (∀ value schema, name = "validate" → args ≠ [value, schema]) →
        IsPure (evalOperand env cx slots (.builtinCall name args)) := by
      intro hformat hvalidate
      rw [evalOperand_builtin hformat hvalidate]
      exact hargs.bind fun _ => isPure_compute _
    by_cases hformat : name = "format"
    · cases args with
      | nil => exact hgeneric (by simp) (by simp)
      | cons template valueArgs =>
        have hrest := isPure_all valueArgs (and_eq_true_iff.mp he).2
          (and_eq_true_iff.mp hpure).2
        cases template with
        | string template =>
          rw [hformat, evalOperand]
          exact hrest.bind fun _ => isPure_compute _
        | _ => exact hgeneric (by simp) (by simp [hformat])
    · by_cases hvalidate : name = "validate"
      · match args, he, hpure, hgeneric with
        | [value, schema], he, hpure, _ =>
          have hparts := and_eq_true_iff.mp he
          have hlast := and_eq_true_iff.mp hparts.2
          have hpures := and_eq_true_iff.mp hpure
          have hpureLast := and_eq_true_iff.mp hpures.2
          have hschema := isPure_operand schema hlast.1 hpureLast.1
          rw [hvalidate, evalOperand]
          exact (isPure_operand value hparts.1 hpures.1).bind fun _ =>
            hschema.bind fun _ => isPure_compute _
        | [], _, _, hgeneric => exact hgeneric (by simp) (by simp)
        | [_], _, _, hgeneric => exact hgeneric (by simp [hformat]) (by simp)
        | _ :: _ :: _ :: _, _, _, hgeneric => exact hgeneric (by simp [hformat]) (by simp)
      · exact hgeneric (fun _ _ h => absurd h hformat) fun _ _ h => absurd h hvalidate
  | field e name =>
    rw [evalOperand]
    exact (isPure_operand e he hpure).bind fun _ => isPure_compute _
  | index target index =>
    have hparts := and_eq_true_iff.mp he
    have hpures := and_eq_true_iff.mp hpure
    have hindex := isPure_operand index hparts.2 hpures.2
    rw [evalOperand]
    exact (isPure_operand target hparts.1 hpures.1).bind fun _ =>
      hindex.bind fun _ => isPure_compute _
  | unary op e =>
    rw [evalOperand]
    exact (isPure_operand e he hpure).bind fun _ => isPure_compute _
  | binary left op right =>
    have hparts := and_eq_true_iff.mp he
    have hpures := and_eq_true_iff.mp hpure
    have hleft := isPure_operand left hparts.1 hpures.1
    have hright := isPure_operand right hparts.2 hpures.2
    by_cases hand : op = .and
    · rw [hand, evalOperand]
      refine hleft.bind fun v => ?_
      split
      · exact hright.bind fun _ => isPure_pure _
      · exact isPure_pure _
    · by_cases hor : op = .or
      · rw [hor, evalOperand]
        refine hleft.bind fun v => ?_
        split
        · exact isPure_pure _
        · exact hright.bind fun _ => isPure_pure _
      · rw [evalOperand_binary hand hor]
        exact hleft.bind fun _ => hright.bind fun _ => isPure_compute _
  | typeLiteral ty =>
    rw [evalOperand]
    exact (isPure_compute _).bind fun _ => isPure_pure _
  | listComprehension _ _ | startProcess _ _ | receiverCall _ _ _ | await _ | sleepFor _
  | sleepUntil _ | waitSignal _ | signalRun _ _ _ => cases hpure
  | _ => cases he
theorem isPure_all (es : List Expr) (hes : allOperands es = true) (hpure : allPure es = true) :
    IsPure (evalAll env cx slots es) := by
  cases es with
  | nil =>
    rw [evalAll]
    exact isPure_pure _
  | cons e rest =>
    have hparts := and_eq_true_iff.mp hes
    have hpures := and_eq_true_iff.mp hpure
    have hrest := isPure_all rest hparts.2 hpures.2
    rw [evalAll]
    exact (isPure_operand e hparts.1 hpures.1).bind fun _ =>
      hrest.bind fun _ => isPure_pure _
theorem isPure_entries (entries : List (String × Expr)) (hes : entryOperands entries = true)
    (hpure : entriesPure entries = true) : IsPure (evalEntries env cx slots entries) := by
  cases entries with
  | nil =>
    rw [evalEntries]
    exact isPure_pure _
  | cons entry rest =>
    have hparts := and_eq_true_iff.mp hes
    have hpures := and_eq_true_iff.mp hpure
    have hrest := isPure_entries rest hparts.2 hpures.2
    rw [evalEntries]
    exact (isPure_operand entry.2 hparts.1 hpures.1).bind fun _ =>
      hrest.bind fun _ => isPure_pure _
end

end ScriptRepeats
