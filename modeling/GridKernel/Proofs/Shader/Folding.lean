import GridKernel.Proofs.Number.Widening
import GridKernel.Proofs.Shader.Terms

namespace GridKernel

namespace Expr

inductive Constant : Expr → Prop where
  | const (v : Double) : Constant (.const v)
  | unary (op : UnaryOp) {input : Expr} (constant : Constant input) : Constant (.unary op input)
  | binary (op : BinaryOp) {left right : Expr} (first : Constant left) (second : Constant right) : Constant (.binary op left right)
  | select {cond yes no : Expr} (test : Constant cond) (first : Constant yes) (second : Constant no) :
      Constant (.select cond yes no)

theorem Constant.folds {e : Expr} (constant : e.Constant) : ∃ v, e.fold = some v := by
  induction constant with
  | const v => exact ⟨_, rfl⟩
  | unary op _ ih =>
    obtain ⟨v, folded⟩ := ih
    exact ⟨_, by rw [fold, folded]; rfl⟩
  | binary op _ _ ihLeft ihRight =>
    obtain ⟨a, first⟩ := ihLeft
    obtain ⟨b, second⟩ := ihRight
    exact ⟨_, by rw [fold, first, second]; rfl⟩
  | select _ _ _ ihCond ihYes ihNo =>
    obtain ⟨c, test⟩ := ihCond
    obtain ⟨y, first⟩ := ihYes
    obtain ⟨n, second⟩ := ihNo
    exact ⟨_, by rw [fold, test, first, second]; rfl⟩

theorem constant_of_fold {e : Expr} {v : Float} (folded : e.fold = some v) : e.Constant := by
  fun_induction Expr.fold e generalizing v with
  | case1 c => exact .const c
  | case2 op input ih =>
    obtain ⟨a, first, _⟩ := Option.bind_eq_some_iff.mp folded
    exact .unary op (ih first)
  | case3 op left right ihLeft ihRight =>
    obtain ⟨a, first, rest⟩ := Option.bind_eq_some_iff.mp folded
    obtain ⟨b, second, _⟩ := Option.bind_eq_some_iff.mp rest
    exact .binary op (ihLeft first) (ihRight second)
  | case4 cond yes no ihCond ihYes ihNo =>
    obtain ⟨c, test, rest⟩ := Option.bind_eq_some_iff.mp folded
    obtain ⟨y, first, rest⟩ := Option.bind_eq_some_iff.mp rest
    obtain ⟨n, second, _⟩ := Option.bind_eq_some_iff.mp rest
    exact .select (ihCond test) (ihYes first) (ihNo second)
  | case5 => cases folded

-- Some subtrees of the first expression, at any depth, stand as their values in the second.
mutual

inductive Folded : Expr → Expr → Prop where
  | value {e : Expr} {v : Float} (folded : e.fold = some v) : Folded e (.const (.ofFloat v))
  | same (e : Expr) : Folded e e
  | index (param : Nat) {indices others : List Expr} (inner : FoldedAll indices others) :
      Folded (.index param indices) (.index param others)
  | unary (op : UnaryOp) {input other : Expr} (inner : Folded input other) : Folded (.unary op input) (.unary op other)
  | binary (op : BinaryOp) {left right before after : Expr} (first : Folded left before) (second : Folded right after) :
      Folded (.binary op left right) (.binary op before after)
  | select {cond yes no test one two : Expr} (tested : Folded cond test) (first : Folded yes one) (second : Folded no two) :
      Folded (.select cond yes no) (.select test one two)
  | call (name : String) {args others : List Expr} (inner : FoldedAll args others) : Folded (.call name args) (.call name others)

inductive FoldedAll : List Expr → List Expr → Prop where
  | nil : FoldedAll [] []
  | cons {e f : Expr} {es fs : List Expr} (head : Folded e f) (tail : FoldedAll es fs) : FoldedAll (e :: es) (f :: fs)

end

theorem FoldedAll.length_eq {es fs : List Expr} (folded : FoldedAll es fs) : fs.length = es.length := by
  induction es generalizing fs with
  | nil => cases folded; rfl
  | cons e es ih =>
    cases folded with
    | cons head tail => rw [List.length_cons, List.length_cons, ih tail]

end Expr

namespace Env

variable (env : Env)

-- Only a parameter can be handed on as an array, and no parameter folds.
theorem arrayFor_folded (callee : String) {e f : Expr} (folded : e.Folded f) : env.arrayFor callee f = env.arrayFor callee e := by
  cases folded with
  | value value =>
    cases e with
    | param index => cases value
    | _ => rfl
  | _ => rfl

variable (locals : Locals)

mutual

theorem eval_folded (e f : Expr) (folded : e.Folded f) : env.eval locals f = env.eval locals e := by
  cases folded with
  | value value =>
    rw [Shader.fold_eval env locals e _ value, eval, Double.toFloat_ofFloat]
  | same => rfl
  | index param inner => rw [eval, eval, evalAll_folded _ _ inner]
  | unary op inner => rw [eval, eval, eval_folded _ _ inner]
  | binary op first second => rw [eval, eval, eval_folded _ _ first, eval_folded _ _ second]
  | select tested first second => rw [eval, eval, eval_folded _ _ tested, eval_folded _ _ first, eval_folded _ _ second]
  | call name inner => simp only [eval, inner.length_eq, evalArgs_folded name _ _ _ inner]

theorem evalAll_folded (es fs : List Expr) (folded : Expr.FoldedAll es fs) : env.evalAll locals fs = env.evalAll locals es := by
  cases folded with
  | nil => rfl
  | cons head tail => rw [evalAll, evalAll, eval_folded _ _ head, evalAll_folded _ _ tail]

theorem evalArgs_folded (callee : String) (types : List ValueType) (es fs : List Expr) (folded : Expr.FoldedAll es fs) :
    env.evalArgs locals callee types fs = env.evalArgs locals callee types es := by
  cases folded with
  | nil => rfl
  | cons head tail =>
    cases types with
    | nil => rfl
    | cons type types =>
      simp only [evalArgs, env.arrayFor_folded callee head, eval_folded _ _ head, evalArgs_folded callee types _ _ tail]

end

end Env

-- Exactly the expressions of constants and operators fold, to the number that evaluation gives them in every frame. An
-- expression with some of its subtrees folded evaluates as before, to the same number or the same failure.
theorem folding_agrees_with_evaluation (e : Expr) :
    (∀ v, e.fold = some v → ∀ (env : Env) (locals : Locals), env.eval locals e = .ok v) ∧
    ((∃ v, e.fold = some v) ↔ e.Constant) ∧
    ∀ f, e.Folded f → ∀ (env : Env) (locals : Locals), env.eval locals f = env.eval locals e := by
  refine ⟨fun v folded env locals => Shader.fold_eval env locals e v folded, ⟨?_, fun constant => constant.folds⟩,
    fun f folded env locals => env.eval_folded locals e f folded⟩
  rintro ⟨v, folded⟩
  exact Expr.constant_of_fold folded

-- The negative zero is no truth and a NaN is one.
def signs : Expr :=
  .select (.const ⟨0x8000000000000000⟩) (.unary .sqrt (.const ⟨0xbff0000000000000⟩))
    (.select (.const ⟨0x7ff8000000000000⟩) (.unary .neg (.const ⟨0⟩)) (.const ⟨0x3ff0000000000000⟩))

-- The sum waits for the thread, but one of its terms folds, inside the argument of a helper.
theorem signs_fold :
    signs.fold = some (-0.0) ∧ signs.Constant ∧
      ∀ (env : Env) (locals : Locals), env.eval locals signs = .ok (-0.0) ∧
        env.eval locals (.call "f" [.binary .add (.thread .x) (.const (.ofFloat (-0.0)))]) =
          env.eval locals (.call "f" [.binary .add (.thread .x) signs]) := by
  have folded : signs.fold = some (-0.0) := by decide
  obtain ⟨value, known, _⟩ := folding_agrees_with_evaluation signs
  obtain ⟨_, _, within⟩ := folding_agrees_with_evaluation (.call "f" [.binary .add (.thread .x) signs])
  refine ⟨folded, known.mp ⟨_, folded⟩, fun env locals => ⟨value _ folded env locals, within _ ?_ env locals⟩⟩
  exact .call "f" (.cons (.binary .add (.same _) (.value folded)) .nil)

end GridKernel
