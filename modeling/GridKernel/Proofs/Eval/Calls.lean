import GridKernel.Eval.Machine
import GridKernel.Proofs.Eval.Views
import Mathlib.Data.List.Basic

namespace GridKernel

-- Failures that arise without a call.
def EvalError.IsOwn : EvalError → Prop
  | .typeMismatch _ => True
  | .loopLimit => True
  | .missingReturn => True
  | .badLocal _ => True
  | .overflow => True
  | _ => False

-- Two computations that come to the same end, which is a value or a failure of a given kind.
inductive EndAlike {α : Type} (Fails : EvalError → Prop) : Except EvalError α → Except EvalError α → Prop where
  | ok (a : α) : EndAlike Fails (.ok a) (.ok a)
  | error {failure : EvalError} (fails : Fails failure) : EndAlike Fails (.error failure) (.error failure)

namespace EndAlike

variable {α β : Type} {Fails : EvalError → Prop} {x y : Except EvalError α}

theorem eq (alike : EndAlike Fails x y) : x = y := by
  cases alike <;> rfl

theorem fails {failure : EvalError} (alike : EndAlike Fails x y) (failed : x = .error failure) : Fails failure := by
  cases alike with
  | ok a => cases failed
  | error fails =>
    cases failed
    exact fails

theorem bind {f g : α → Except EvalError β} (first : EndAlike Fails x y) (next : ∀ a, EndAlike Fails (f a) (g a)) :
    EndAlike Fails (x >>= f) (y >>= g) := by
  cases first with
  | ok a => exact next a
  | error fails => exact .error fails

theorem map {f : α → β} (alike : EndAlike Fails x y) : EndAlike Fails (x.map f) (y.map f) := by
  cases alike with
  | ok a => exact .ok _
  | error fails => exact .error fails

theorem self (x : Except EvalError α) (fails : ∀ failure, x = .error failure → Fails failure) : EndAlike Fails x x := by
  cases x with
  | ok a => exact .ok a
  | error failure => exact .error (fails failure rfl)

end EndAlike

theorem Locals.read_alike {Fails : EvalError → Prop} (own : ∀ failure, failure.IsOwn → Fails failure) (locals : Locals)
    (slot : Nat) : EndAlike Fails (locals.read slot) (locals.read slot) := by
  apply EndAlike.self
  intro failure failed
  unfold Locals.read at failed
  split at failed <;> cases failed
  exact own _ trivial

theorem Locals.write_alike {Fails : EvalError → Prop} (own : ∀ failure, failure.IsOwn → Fails failure) (locals : Locals)
    (slot : Nat) (value : Float) : EndAlike Fails (locals.write slot value) (locals.write slot value) := by
  apply EndAlike.self
  intro failure failed
  unfold Locals.write at failed
  split at failed <;> cases failed
  exact own _ trivial

theorem View.load_alike {Fails : EvalError → Prop} (own : ∀ failure, failure.IsOwn → Fails failure) (view : View)
    (indices : List Float) : EndAlike Fails (view.load indices) (view.load indices) := by
  apply EndAlike.self
  intro failure failed
  rw [View.load_error failed]
  exact own _ trivial

namespace Env

-- Where a failure of some nodes in a frame comes from.
inductive Blames (env : Env) (nodes : List Expr) : EvalError → Prop where
  | own {failure : EvalError} (own : failure.IsOwn) : Blames env nodes failure
  | unknown {name : String} {args : List Expr} (call : .call name args ∈ nodes) (absent : env.lookup name = none) :
      Blames env nodes (.unknownFunction name)
  | arity {name : String} {args : List Expr} {callee : Definition} (call : .call name args ∈ nodes)
      (known : env.lookup name = some callee) (differ : callee.paramTypes.length ≠ args.length) :
      Blames env nodes (.arityMismatch name callee.paramTypes.length args.length)
  | callee {name : String} {args : List Expr} {callee : Definition} {values : List Value} {failure : EvalError}
      (call : .call name args ∈ nodes) (known : env.lookup name = some callee)
      (failed : env.enter callee values = .error failure) : Blames env nodes failure

-- Two frames that have the same arguments and give the calls among the nodes the same answers.
structure Answers (a b : Env) (nodes : List Expr) : Prop where
  context : a.context = b.context
  args : a.args = b.args
  lookup : ∀ name args, .call name args ∈ nodes → a.lookup name = b.lookup name
  enter : ∀ name args callee values, .call name args ∈ nodes → a.lookup name = some callee →
    a.enter callee values = b.enter callee values

theorem Answers.refl (a : Env) (nodes : List Expr) : a.Answers a nodes := by
  constructor <;> intros <;> rfl

variable {a b : Env} {nodes : List Expr}

theorem scalarArg_alike (answers : a.Answers b nodes) (index : Nat) :
    EndAlike (a.Blames nodes) (a.scalarArg index) (b.scalarArg index) := by
  unfold scalarArg
  rw [← answers.args]
  split
  · exact .ok _
  · exact .error (.own trivial)
  · exact .error (.own trivial)

theorem arrayArg?_alike (answers : a.Answers b nodes) (index : Nat) : a.arrayArg? index = b.arrayArg? index := by
  unfold arrayArg?
  rw [← answers.args]

theorem arrayFor_alike (answers : a.Answers b nodes) (callee : String) (e : Expr) :
    EndAlike (a.Blames nodes) (a.arrayFor callee e) (b.arrayFor callee e) := by
  cases e with
  | param index =>
    simp only [arrayFor, ← arrayArg?_alike answers]
    split
    · exact .ok _
    · exact .error (.own trivial)
  | const | var | thread | extent | index | unary | binary | select | call => exact .error (.own trivial)

mutual

theorem eval_alike (answers : a.Answers b nodes) (locals : Locals) (e : Expr) (within : e.nodes ⊆ nodes) :
    EndAlike (a.Blames nodes) (a.eval locals e) (b.eval locals e) := by
  cases e with
  | const v =>
    simp only [eval]
    exact .ok _
  | param index =>
    simp only [eval]
    exact scalarArg_alike answers index
  | var slot =>
    simp only [eval]
    exact locals.read_alike (fun _ own => .own own) slot
  | thread axis | extent axis =>
    simp only [eval, answers.context]
    exact .ok _
  | index param indices =>
    simp only [Expr.nodes, List.cons_subset] at within
    simp only [eval, ← arrayArg?_alike answers]
    split
    · exact .error (.own trivial)
    · apply (evalAll_alike answers locals indices within.2).bind
      intro values
      exact View.load_alike (fun _ own => .own own) _ values
  | unary op input =>
    simp only [Expr.nodes, List.cons_subset] at within
    simp only [eval]
    apply (eval_alike answers locals input within.2).bind
    intro v
    exact .ok _
  | binary op left right =>
    simp only [Expr.nodes, List.cons_subset, List.append_subset] at within
    obtain ⟨_, inLeft, inRight⟩ := within
    simp only [eval]
    apply (eval_alike answers locals left inLeft).bind
    intro v
    apply (eval_alike answers locals right inRight).bind
    intro w
    exact .ok _
  | select cond yes no =>
    simp only [Expr.nodes, List.cons_subset, List.append_subset] at within
    obtain ⟨_, ⟨inCond, inYes⟩, inNo⟩ := within
    simp only [eval]
    apply (eval_alike answers locals cond inCond).bind
    intro c
    split
    · exact eval_alike answers locals yes inYes
    · exact eval_alike answers locals no inNo
  | call name args =>
    simp only [Expr.nodes, List.cons_subset] at within
    obtain ⟨call, inside⟩ := within
    simp only [eval, ← answers.lookup name args call]
    split
    · rename_i absent
      exact .error (.unknown call absent)
    · rename_i callee known
      split
      · rename_i differ
        exact .error (.arity call known differ)
      · apply (evalArgs_alike answers locals name callee.paramTypes args inside).bind
        intro values
        rw [← answers.enter name args callee values call known]
        apply EndAlike.self
        intro failure failed
        exact .callee call known failed

theorem evalAll_alike (answers : a.Answers b nodes) (locals : Locals) (es : List Expr) (within : Expr.nodesOf es ⊆ nodes) :
    EndAlike (a.Blames nodes) (a.evalAll locals es) (b.evalAll locals es) := by
  cases es with
  | nil =>
    simp only [evalAll]
    exact .ok _
  | cons e es =>
    simp only [Expr.nodesOf, List.append_subset] at within
    simp only [evalAll]
    apply (eval_alike answers locals e within.1).bind
    intro v
    apply (evalAll_alike answers locals es within.2).bind
    intro vs
    exact .ok _

theorem evalArgs_alike (answers : a.Answers b nodes) (locals : Locals) (callee : String) (types : List ValueType)
    (es : List Expr) (within : Expr.nodesOf es ⊆ nodes) :
    EndAlike (a.Blames nodes) (a.evalArgs locals callee types es) (b.evalArgs locals callee types es) := by
  cases es with
  | nil => cases types <;> exact .ok _
  | cons e es =>
    cases types with
    | nil => exact .ok _
    | cons type types =>
      simp only [Expr.nodesOf, List.append_subset] at within
      have value := eval_alike answers locals e within.1
      have rest (value : Value) : EndAlike (a.Blames nodes)
          (do let values ← a.evalArgs locals callee types es; .ok (value :: values))
          (do let values ← b.evalArgs locals callee types es; .ok (value :: values)) := by
        apply (evalArgs_alike answers locals callee types es within.2).bind
        intro values
        exact .ok _
      simp only [evalArgs]
      cases type with
      | float | int => exact value.map.bind rest
      | floatArray => exact (arrayFor_alike answers callee e).bind rest

end

theorem iterate_alike {Fails : EvalError → Prop} (limit : Fails .loopLimit)
    {test other : Locals → Except EvalError Bool} {step next : Locals → Except EvalError Flow}
    (tests : ∀ locals, EndAlike Fails (test locals) (other locals))
    (steps : ∀ locals, EndAlike Fails (step locals) (next locals)) (budget : Nat) (locals : Locals) :
    EndAlike Fails (iterate test step budget locals) (iterate other next budget locals) := by
  induction budget generalizing locals with
  | zero =>
    unfold iterate
    rw [← (tests locals).eq]
    split
    · rename_i failed
      exact .error ((tests locals).fails failed)
    · exact .ok _
    · exact .error limit
  | succ left ih =>
    unfold iterate
    rw [← (tests locals).eq, ← (steps locals).eq]
    split
    · rename_i failed
      exact .error ((tests locals).fails failed)
    · exact .ok _
    · dsimp only
      split
      · exact ih _
      · apply EndAlike.self
        intro failure failed
        exact (steps locals).fails failed

theorem below_alike (answers : a.Answers b nodes) (counter : Nat) (stop : Expr) (within : stop.nodes ⊆ nodes)
    (locals : Locals) : EndAlike (a.Blames nodes) (a.below counter stop locals) (b.below counter stop locals) := by
  apply (eval_alike answers locals stop within).bind
  intro bound
  apply (locals.read_alike (fun _ own => .own own) counter).bind
  intro v
  exact .ok _

theorem advance_alike {Fails : EvalError → Prop} (own : ∀ failure, failure.IsOwn → Fails failure) (counter : Nat)
    (flow : Flow) : EndAlike Fails (advance counter flow) (advance counter flow) := by
  cases flow with
  | done v => exact .ok _
  | next locals =>
    apply (locals.read_alike own counter).bind
    intro v
    apply (locals.write_alike own counter _).bind
    intro after
    exact .ok _

mutual

theorem exec_alike (answers : a.Answers b nodes) (stmt : Stmt) (within : stmt.nodes ⊆ nodes) (locals : Locals) :
    EndAlike (a.Blames nodes) (a.exec stmt locals) (b.exec stmt locals) := by
  cases stmt with
  | declare slot value | assign slot value =>
    simp only [exec]
    apply (eval_alike answers locals value within).bind
    intro v
    apply (locals.write_alike (fun _ own => .own own) slot v).bind
    intro after
    exact .ok _
  | loop counter start stop body =>
    simp only [Stmt.nodes, List.append_subset] at within
    obtain ⟨⟨inStart, inStop⟩, inBody⟩ := within
    simp only [exec]
    apply (eval_alike answers locals start inStart).bind
    intro first
    apply (locals.write_alike (fun _ own => .own own) counter first).bind
    intro entered
    apply iterate_alike (.own trivial)
    · exact below_alike answers counter stop inStop
    · intro locals
      apply (execBlock_alike answers body inBody locals).bind
      exact advance_alike (fun _ own => .own own) counter
  | branch cond yes no =>
    simp only [Stmt.nodes, List.append_subset] at within
    obtain ⟨⟨inCond, inYes⟩, inNo⟩ := within
    simp only [exec]
    apply (eval_alike answers locals cond inCond).bind
    intro c
    split
    · exact execBlock_alike answers yes inYes locals
    · exact execBlock_alike answers no inNo locals
  | ret value =>
    simp only [exec]
    apply (eval_alike answers locals value within).bind
    intro v
    exact .ok _

theorem execBlock_alike (answers : a.Answers b nodes) (stmts : List Stmt) (within : Stmt.nodesOf stmts ⊆ nodes)
    (locals : Locals) : EndAlike (a.Blames nodes) (a.execBlock stmts locals) (b.execBlock stmts locals) := by
  cases stmts with
  | nil =>
    simp only [execBlock]
    exact .ok _
  | cons stmt rest =>
    simp only [Stmt.nodesOf, List.append_subset] at within
    have first := exec_alike answers stmt within.1 locals
    simp only [execBlock, ← first.eq]
    split
    · exact execBlock_alike answers rest within.2 _
    · apply EndAlike.self
      intro failure failed
      exact first.fails failed

end

theorem runFrom_alike (answers : a.Answers b nodes) (stmts : List Stmt) (within : Stmt.nodesOf stmts ⊆ nodes)
    (locals : Locals) : EndAlike (a.Blames nodes) (a.runFrom stmts locals) (b.runFrom stmts locals) := by
  have ran := execBlock_alike answers stmts within locals
  unfold runFrom
  rw [← ran.eq]
  split
  · exact .ok _
  · exact .error (.own trivial)
  · rename_i failed
    exact .error (ran.fails failed)

theorem runFrom_blames {env : Env} {body : Body} {locals : Locals} {failure : EvalError}
    (failed : env.runFrom body.stmts locals = .error failure) : env.Blames body.nodes failure :=
  (runFrom_alike (.refl env _) body.stmts (List.Subset.refl _) locals).fails failed

end Env
end GridKernel
