import GridKernel.Eval.Machine
import GridKernel.Proofs.Outcome

namespace GridKernel

-- Arguments that no evaluation can tell apart: equal numbers, or arrays with equal reads.
inductive Value.Alike : Value → Value → Prop where
  | scalar (v : Float) : Alike (.scalar v) (.scalar v)
  | array {v w : View} (loads : ∀ indices, v.load indices = w.load indices) : Alike (.array v) (.array w)

theorem Value.Alike.number {v w : Value} (alike : v.Alike w) : v.number = w.number := by
  cases alike <;> rfl

abbrev AlikeArgs : List Value → List Value → Prop := List.Forall₂ Value.Alike

namespace Env

structure Alike (a b : Env) : Prop where
  lookup : a.lookup = b.lookup
  context : a.context = b.context
  args : AlikeArgs a.args b.args
  enter : ∀ callee values others, AlikeArgs values others → a.enter callee values = b.enter callee others

theorem alike_arg {a b : Env} (alike : a.Alike b) (index : Nat) :
    a.args[index]? = none ∧ b.args[index]? = none ∨
      ∃ v w, a.args[index]? = some v ∧ b.args[index]? = some w ∧ v.Alike w := by
  obtain ⟨_, _, args, _⟩ := alike
  revert args
  generalize a.args = as
  generalize b.args = bs
  intro args
  induction args generalizing index with
  | nil => simp
  | cons head _ ih =>
    cases index with
    | zero => exact .inr ⟨_, _, rfl, rfl, head⟩
    | succ index => simpa using ih index

theorem alike_scalarArg {a b : Env} (alike : a.Alike b) (index : Nat) :
    a.scalarArg index = b.scalarArg index := by
  unfold scalarArg
  rcases alike_arg alike index with ⟨first, second⟩ | ⟨v, w, first, second, same⟩
  · rw [first, second]
  · rw [first, second]
    cases same <;> rfl

theorem alike_arrayArg {a b : Env} (alike : a.Alike b) (index : Nat) :
    a.arrayArg? index = none ∧ b.arrayArg? index = none ∨
      ∃ v w, a.arrayArg? index = some v ∧ b.arrayArg? index = some w ∧
        ∀ indices, v.load indices = w.load indices := by
  unfold arrayArg?
  rcases alike_arg alike index with ⟨first, second⟩ | ⟨v, w, first, second, same⟩
  · rw [first, second]
    exact .inl ⟨rfl, rfl⟩
  · rw [first, second]
    cases same with
    | scalar => exact .inl ⟨rfl, rfl⟩
    | array loads => exact .inr ⟨_, _, rfl, rfl, loads⟩

theorem alike_arrayFor {a b : Env} (alike : a.Alike b) (callee : String) (e : Expr) :
    SameResult Value.Alike (a.arrayFor callee e) (b.arrayFor callee e) := by
  cases e with
  | param index =>
    unfold arrayFor
    rcases alike_arrayArg alike index with ⟨first, second⟩ | ⟨v, w, first, second, loads⟩
    · simp only [first, second]
      exact .error _
    · simp only [first, second]
      exact .ok (.array loads)
  | _ => exact .error _

mutual

theorem alike_eval {a b : Env} (alike : a.Alike b) (locals : Locals) (e : Expr) :
    a.eval locals e = b.eval locals e := by
  cases e with
  | const v => simp only [eval]
  | param index => simpa only [eval] using alike_scalarArg alike index
  | var slot => simp only [eval]
  | thread axis => simp only [eval, alike.context]
  | extent axis => simp only [eval, alike.context]
  | index param indices =>
    simp only [eval]
    rcases alike_arrayArg alike param with ⟨first, second⟩ | ⟨v, w, first, second, loads⟩
    · simp only [first, second]
    · simp only [first, second, alike_evalAll alike locals indices, loads]
  | unary op input => simp only [eval, alike_eval alike locals input]
  | binary op left right =>
    simp only [eval, alike_eval alike locals left, alike_eval alike locals right]
  | select cond yes no =>
    simp only [eval, alike_eval alike locals cond, alike_eval alike locals yes,
      alike_eval alike locals no]
  | call name args =>
    simp only [eval, alike.lookup]
    cases found : b.lookup name with
    | none => rfl
    | some callee =>
      simp only
      split
      · rfl
      · have passed := alike_evalArgs alike locals name callee.paramTypes args
        revert passed
        generalize a.evalArgs locals name callee.paramTypes args = first
        generalize b.evalArgs locals name callee.paramTypes args = second
        intro passed
        cases passed with
        | error => rfl
        | ok related => exact alike.enter callee _ _ related

theorem alike_evalAll {a b : Env} (alike : a.Alike b) (locals : Locals) (es : List Expr) :
    a.evalAll locals es = b.evalAll locals es := by
  cases es with
  | nil => simp only [evalAll]
  | cons e es => simp only [evalAll, alike_eval alike locals e, alike_evalAll alike locals es]

theorem alike_evalArgs {a b : Env} (alike : a.Alike b) (locals : Locals) (callee : String)
    (types : List ValueType) (es : List Expr) :
    SameResult AlikeArgs (a.evalArgs locals callee types es) (b.evalArgs locals callee types es) := by
  cases es with
  | nil => cases types <;> exact .ok .nil
  | cons e es =>
    cases types with
    | nil => exact .ok .nil
    | cons type types =>
      have tail := alike_evalArgs alike locals callee types es
      have number (wrap : Float → Float) : SameResult Value.Alike
          ((a.eval locals e).map fun v => .scalar (wrap v))
          ((b.eval locals e).map fun v => .scalar (wrap v)) := by
        rw [alike_eval alike locals e]
        cases b.eval locals e with
        | error => exact .error _
        | ok v => exact .ok (.scalar _)
      simp only [evalArgs]
      cases type with
      | float => exact .cons (number id) tail
      | int => exact .cons (number Whole.trunc) tail
      | floatArray => exact .cons (alike_arrayFor alike callee e) tail

end

theorem alike_below {a b : Env} (alike : a.Alike b) (counter : Nat) (stop : Expr) :
    a.below counter stop = b.below counter stop := by
  funext locals
  simp only [below, alike_eval alike locals stop]

mutual

theorem alike_exec {a b : Env} (alike : a.Alike b) (s : Stmt) (locals : Locals) :
    a.exec s locals = b.exec s locals := by
  cases s with
  | declare slot value => simp only [exec, alike_eval alike locals value]
  | assign slot value => simp only [exec, alike_eval alike locals value]
  | loop counter start stop body =>
    have step : a.execBlock body = b.execBlock body := funext (alike_execBlock alike body)
    simp only [exec, alike_eval alike locals start, alike_below alike counter stop, step]
  | branch cond yes no =>
    simp only [exec, alike_eval alike locals cond, alike_execBlock alike yes locals,
      alike_execBlock alike no locals]
  | ret value => simp only [exec, alike_eval alike locals value]

theorem alike_execBlock {a b : Env} (alike : a.Alike b) (ss : List Stmt) (locals : Locals) :
    a.execBlock ss locals = b.execBlock ss locals := by
  cases ss with
  | nil => simp only [execBlock]
  | cons s ss =>
    have rest : a.execBlock ss = b.execBlock ss := funext (alike_execBlock alike ss)
    simp only [execBlock, alike_exec alike s locals, rest]

end

theorem alike_runFrom {a b : Env} (alike : a.Alike b) (ss : List Stmt) (locals : Locals) :
    a.runFrom ss locals = b.runFrom ss locals := by
  simp only [runFrom, alike_execBlock alike ss locals]

end Env

theorem alike_enter (lookup : String → Option Definition) (context : Context) (depth : Nat)
    (callee : Definition) (values others : List Value) (alike : AlikeArgs values others) :
    enter lookup context depth callee values = enter lookup context depth callee others := by
  induction depth generalizing callee values others with
  | zero => rfl
  | succ depth ih =>
    simp only [enter]
    cases callee.body with
    | kernel body =>
      have same : Env.Alike ⟨lookup, context, enter lookup context depth, values⟩
          ⟨lookup, context, enter lookup context depth, others⟩ := ⟨rfl, rfl, alike, ih⟩
      simp only [Env.alike_runFrom same]
    | native arity apply =>
      have numbers : values.map Value.number = others.map Value.number := by
        induction alike with
        | nil => rfl
        | cons head _ ih => simp only [List.map_cons, head.number, ih]
      simp only [numbers]

theorem alike_evaluate (lookup : String → Option Definition) (context : Context) (body : Body)
    (values others : List Value) (alike : AlikeArgs values others) :
    evaluate lookup context body values = evaluate lookup context body others := by
  have same : Env.Alike ⟨lookup, context, enter lookup context maxCallDepth, values⟩
      ⟨lookup, context, enter lookup context maxCallDepth, others⟩ :=
    ⟨rfl, rfl, alike, alike_enter lookup context maxCallDepth⟩
  exact Env.alike_runFrom same _ _

end GridKernel
