import Lash.ScriptEvaluation

/-!
# What the compiler computes ahead is what the run would compute

Where the slots of a run hold what the table of the compiler says, an operand that is
folded has the folded value: it raises no error and makes no request.
-/

namespace ScriptConstants

open ScriptValues ScriptOps ScriptBuiltins ScriptSyntax ScriptFolding ScriptCompiler
open Option
open ScriptMachine ScriptEvaluation

/-- The slots hold what the table says. -/
def Holds (κ : Consts) (slots : Slots) : Prop :=
  ∀ name value, κ name = some value → slots name = some value

variable {κ : Consts} {slots : Slots} {env : Environment} {cx : CompileContext}

theorem holds_noConsts : Holds noConsts slots := by
  intro name value h
  cases h

variable {name : String}

theorem Holds.set {value : Option Value} {new : Value} (h : Holds κ slots)
    (hvalue : value = none ∨ value = some new) :
    Holds (setConst κ name value) (setSlot slots name (some new)) := by
  intro x v hx
  by_cases hname : x = name
  · rw [setConst, if_pos hname] at hx
    rw [setSlot, if_pos hname]
    rcases hvalue with hnone | hsome
    · rw [hnone] at hx
      cases hx
    · rw [← hsome, hx]
  · rw [setConst, if_neg hname] at hx
    rw [setSlot, if_neg hname]
    exact h x v hx

variable {value : Value}

theorem loadSlot_of_holds (h : Holds κ slots) (hname : κ name = some value) :
    loadSlot slots name = pure value := by
  rw [loadSlot, h name value hname]

theorem compute_of_toOption {x : Result} (h : x.toOption = some value) :
    compute x = pure value := by
  cases x with
  | ok result =>
    have heq : result = value := some.inj h
    rw [heq]
    rfl
  | error error => cases h

/-! ## Types -/

mutual
theorem evalType_of_fold (h : Holds κ slots) (ty : TypeExpr) {value : Value}
    (hfold : foldTypeExpr κ ty = some value) : evalType slots ty = .ok value := by
  cases ty with
  | ref name =>
    obtain ⟨bound, hname, hschema⟩ := bind_eq_some_iff.mp hfold
    rw [evalType, typeSlot, h name bound hname]
    simp only [hschema]
  | list item =>
    obtain ⟨inner, hitem, rfl⟩ := map_eq_some_iff.mp hfold
    rw [evalType, evalType_of_fold h item hitem]
    rfl
  | object fields =>
    obtain ⟨inner, hfields, rfl⟩ := map_eq_some_iff.mp hfold
    rw [evalType, evalTypeFields_of_fold h fields hfields]
    rfl
  | union variants =>
    obtain ⟨inner, hvariants, rfl⟩ := map_eq_some_iff.mp hfold
    rw [evalType, evalTypes_of_fold h variants hvariants]
    rfl
  | _ =>
    cases hfold
    rfl
theorem evalTypes_of_fold (h : Holds κ slots) (tys : List TypeExpr) {values : List Value}
    (hfold : foldTypeExprs κ tys = some values) : evalTypes slots tys = .ok values := by
  cases tys with
  | nil =>
    cases hfold
    rfl
  | cons ty rest =>
    obtain ⟨value, hvalue, htail⟩ := bind_eq_some_iff.mp hfold
    obtain ⟨others, hothers, hcons⟩ := bind_eq_some_iff.mp htail
    cases hcons
    rw [evalTypes, evalType_of_fold h ty hvalue, evalTypes_of_fold h rest hothers]
    rfl
theorem evalTypeFields_of_fold (h : Holds κ slots) (fields : List (TypeField TypeExpr))
    {values : List (String × Value)} (hfold : foldTypeFields κ fields = some values) :
    evalTypeFields slots fields = .ok values := by
  cases fields with
  | nil =>
    cases hfold
    rfl
  | cons field rest =>
    obtain ⟨value, hvalue, htail⟩ := bind_eq_some_iff.mp hfold
    obtain ⟨others, hothers, hcons⟩ := bind_eq_some_iff.mp htail
    cases hcons
    rw [evalTypeFields, evalType_of_fold h field.ty hvalue, evalTypeFields_of_fold h rest hothers]
    rfl
end

/-! ## Operands -/

variable {values : List Value}

theorem foldBuiltin_execute (h : foldBuiltin name values = some value) (builtins : Builtins) :
    executeIntrinsic builtins (resolveIntrinsic name values.length) values = .ok value ∧
      name ≠ "format" ∧ name ≠ "validate" := by
  have hok : ∀ {x : Result}, x.toOption = some value → x = .ok value := by
    intro x hx
    cases x with
    | ok result => rw [some.inj hx]
    | error error => cases hx
  unfold foldBuiltin at h
  split at h
  · next hop =>
      have hname : name = "len" := by
        unfold intrinsicForBuiltin at hop
        split at hop <;> first | rfl | cases hop
      subst hname
      split at h
      · exact ⟨hok h, by decide, by decide⟩
      · cases h
  · next hop =>
      have hname : name = "range" := by
        unfold intrinsicForBuiltin at hop
        split at hop <;> first | rfl | cases hop
      subst hname
      have hrange := hok h
      refine ⟨?_, by decide, by decide⟩
      match values, hrange with
      | [_], hrange => exact hrange
      | [_, _], hrange => exact hrange
      | [_, _, _], hrange => exact hrange
      | [], hrange => cases hrange
      | _ :: _ :: _ :: _ :: _, hrange => cases hrange
  · next hop =>
      have hname : name = "ceil_div" := by
        unfold intrinsicForBuiltin at hop
        split at hop <;> first | rfl | cases hop
      subst hname
      have hdiv := hok h
      refine ⟨?_, by decide, by decide⟩
      match values, hdiv with
      | [_, _], hdiv => exact hdiv
      | [], hdiv => cases hdiv
      | [_], hdiv => cases hdiv
      | _ :: _ :: _ :: _, hdiv => cases hdiv
  · next hop =>
      have hname : name = "floor_div" := by
        unfold intrinsicForBuiltin at hop
        split at hop <;> first | rfl | cases hop
      subst hname
      have hdiv := hok h
      refine ⟨?_, by decide, by decide⟩
      match values, hdiv with
      | [_, _], hdiv => exact hdiv
      | [], hdiv => cases hdiv
      | [_], hdiv => cases hdiv
      | _ :: _ :: _ :: _, hdiv => cases hdiv
  · next hop =>
      have hname : name = "push" := by
        unfold intrinsicForBuiltin at hop
        split at hop <;> first | rfl | cases hop
      subst hname
      split at h
      · cases h
        exact ⟨rfl, by decide, by decide⟩
      · cases h
  · cases h

theorem evalOperand_builtin {args : List Expr}
    (hformat : ∀ template valueArgs, name = "format" → args ≠ .string template :: valueArgs)
    (hvalidate : ∀ value schema, name = "validate" → args ≠ [value, schema]) :
    evalOperand env cx slots (.builtinCall name args) = (do
      let values ← evalAll env cx slots args
      compute (executeIntrinsic env.builtins (resolveIntrinsic name args.length) values)) := by
  rw [evalOperand]
  · exact hformat
  · exact hvalidate

theorem evalOperand_binary {left right : Expr} {op : BinaryOp} (hand : op ≠ .and) (hor : op ≠ .or) :
    evalOperand env cx slots (.binary left op right) = (do
      let left ← evalOperand env cx slots left
      let right ← evalOperand env cx slots right
      compute (evalBinaryValues op left right)) := by
  rw [evalOperand]
  · simp only [binaryInstruction_eq hand hor]
  · exact hand
  · exact hor

theorem foldAll_length {es : List Expr} (h : foldAll κ es = some values) :
    values.length = es.length := by
  induction es generalizing values with
  | nil => cases h; rfl
  | cons e rest ih =>
    obtain ⟨value, hvalue, htail⟩ := bind_eq_some_iff.mp h
    obtain ⟨others, hothers, hcons⟩ := bind_eq_some_iff.mp htail
    cases hcons
    rw [List.length_cons, List.length_cons, ih hothers]

mutual
/-- An operand that is folded has the folded value. -/
theorem evalOperand_of_fold (h : Holds κ slots) (e : Expr) (he : isOperand e = true)
    {value : Value} (hfold : foldCompileTimeExpr κ e = some value) :
    evalOperand env cx slots e = pure value := by
  cases e with
  | null | bool value | number value | string value | resourceRef resource => cases hfold; rfl
  | «variable» name => exact loadSlot_of_holds h hfold
  | tuple items | list items =>
    obtain ⟨values, hitems, rfl⟩ := map_eq_some_iff.mp hfold
    rw [evalOperand, evalAll_of_fold h items he hitems, pure_bind]
  | record entries =>
    obtain ⟨values, hentries, rfl⟩ := map_eq_some_iff.mp hfold
    obtain ⟨heval, hkeys⟩ := evalEntries_of_fold h entries he hentries
    rw [evalOperand, heval, pure_bind, buildRecord, ← hkeys, List.zip_map', List.map_id']
  | builtinCall name args =>
    obtain ⟨values, hargs, hbuiltin⟩ := bind_eq_some_iff.mp hfold
    obtain ⟨hexecute, hformat, hvalidate⟩ := foldBuiltin_execute hbuiltin env.builtins
    rw [evalOperand_builtin (fun _ _ h => absurd h hformat) fun _ _ h => absurd h hvalidate,
      evalAll_of_fold h args he hargs, pure_bind, ← foldAll_length hargs, hexecute]
    rfl
  | field target name =>
    obtain ⟨inner, htarget, hread⟩ := bind_eq_some_iff.mp hfold
    rw [evalOperand, evalOperand_of_fold h target he htarget, pure_bind]
    exact compute_of_toOption hread
  | index target index =>
    have hparts := Bool.and_eq_true_iff.mp he
    obtain ⟨inner, htarget, htail⟩ := bind_eq_some_iff.mp hfold
    obtain ⟨position, hindex, hread⟩ := bind_eq_some_iff.mp htail
    rw [evalOperand, evalOperand_of_fold h target hparts.1 htarget, pure_bind,
      evalOperand_of_fold h index hparts.2 hindex, pure_bind]
    exact compute_of_toOption hread
  | unary op e =>
    obtain ⟨inner, hinner, hop⟩ := bind_eq_some_iff.mp hfold
    rw [evalOperand, evalOperand_of_fold h e he hinner, pure_bind]
    exact compute_of_toOption hop
  | ifElse condition thenBlock elseBlock =>
    have hparts := Bool.and_eq_true_iff.mp he
    have hfirst := Bool.and_eq_true_iff.mp hparts.1
    obtain ⟨test, htest, hbranch⟩ := bind_eq_some_iff.mp hfold
    rw [evalOperand, evalOperand_of_fold h condition hfirst.1 htest, pure_bind]
    by_cases htruthy : isTruthy test = true
    · rw [if_pos htruthy] at hbranch ⊢
      exact evalOperand_of_fold h thenBlock hfirst.2 hbranch
    · rw [if_neg htruthy] at hbranch ⊢
      exact evalOperand_of_fold h elseBlock hparts.2 hbranch
  | binary left op right =>
    have hparts := Bool.and_eq_true_iff.mp he
    by_cases hand : op = .and
    · subst hand
      obtain ⟨first, hleft, htail⟩ := bind_eq_some_iff.mp hfold
      rw [evalOperand, evalOperand_of_fold h left hparts.1 hleft, pure_bind]
      by_cases htruthy : isTruthy first = true
      · rw [if_pos htruthy] at htail ⊢
        obtain ⟨second, hright, hsome⟩ := bind_eq_some_iff.mp htail
        cases hsome
        rw [evalOperand_of_fold h right hparts.2 hright, pure_bind]
      · rw [if_neg htruthy] at htail ⊢
        cases htail
        rfl
    · by_cases hor : op = .or
      · subst hor
        obtain ⟨first, hleft, htail⟩ := bind_eq_some_iff.mp hfold
        rw [evalOperand, evalOperand_of_fold h left hparts.1 hleft, pure_bind]
        by_cases htruthy : isTruthy first = true
        · rw [if_pos htruthy] at htail ⊢
          cases htail
          rfl
        · rw [if_neg htruthy] at htail ⊢
          obtain ⟨second, hright, hsome⟩ := bind_eq_some_iff.mp htail
          cases hsome
          rw [evalOperand_of_fold h right hparts.2 hright, pure_bind]
      · rw [foldCompileTimeExpr] at hfold
        · obtain ⟨first, hleft, htail⟩ := bind_eq_some_iff.mp hfold
          obtain ⟨second, hright, hop⟩ := bind_eq_some_iff.mp htail
          rw [evalOperand_binary hand hor, evalOperand_of_fold h left hparts.1 hleft, pure_bind,
            evalOperand_of_fold h right hparts.2 hright, pure_bind]
          exact compute_of_toOption hop
        · exact hand
        · exact hor
  | typeLiteral ty =>
    obtain ⟨schema, hty, rfl⟩ := map_eq_some_iff.mp hfold
    rw [evalOperand, evalType_of_fold h ty hty]
    rfl
  | _ => first | cases hfold | cases he
theorem evalAll_of_fold (h : Holds κ slots) (es : List Expr) (hes : allOperands es = true)
    {values : List Value} (hfold : foldAll κ es = some values) :
    evalAll env cx slots es = pure values := by
  cases es with
  | nil => cases hfold; rfl
  | cons e rest =>
    have hparts := Bool.and_eq_true_iff.mp hes
    obtain ⟨value, hvalue, htail⟩ := bind_eq_some_iff.mp hfold
    obtain ⟨others, hothers, hcons⟩ := bind_eq_some_iff.mp htail
    cases hcons
    rw [evalAll, evalOperand_of_fold h e hparts.1 hvalue, pure_bind,
      evalAll_of_fold h rest hparts.2 hothers, pure_bind]
theorem evalEntries_of_fold (h : Holds κ slots) (entries : List (String × Expr))
    (hes : entryOperands entries = true) {values : List (String × Value)}
    (hfold : foldEntries κ entries = some values) :
    evalEntries env cx slots entries = pure (values.map Prod.snd) ∧
      values.map Prod.fst = entries.map Prod.fst := by
  cases entries with
  | nil => cases hfold; exact ⟨rfl, rfl⟩
  | cons entry rest =>
    have hparts := Bool.and_eq_true_iff.mp hes
    obtain ⟨value, hvalue, htail⟩ := bind_eq_some_iff.mp hfold
    obtain ⟨others, hothers, hcons⟩ := bind_eq_some_iff.mp htail
    cases hcons
    obtain ⟨heval, hkeys⟩ := evalEntries_of_fold h rest hparts.2 hothers
    refine ⟨?_, by simp [hkeys]⟩
    rw [evalEntries, evalOperand_of_fold h entry.2 hparts.1 hvalue, pure_bind, heval, pure_bind]
    rfl
end

end ScriptConstants
