import GridKernel.Eval.Host
import GridKernel.Proofs.Eval.Calls
import GridKernel.Proofs.Function.Reach

namespace GridKernel

mutual

def Expr.Calls (name : String) : Expr → Prop
  | .call callee args => callee = name ∨ CallsIn name args
  | .index _ indices => CallsIn name indices
  | .unary _ input => Calls name input
  | .binary _ left right => Calls name left ∨ Calls name right
  | .select cond yes no => Calls name cond ∨ Calls name yes ∨ Calls name no
  | _ => False

def Expr.CallsIn (name : String) : List Expr → Prop
  | [] => False
  | e :: es => Calls name e ∨ CallsIn name es

end

mutual

def Stmt.Calls (name : String) : Stmt → Prop
  | .declare _ e => e.Calls name
  | .assign _ e => e.Calls name
  | .loop _ start stop body => start.Calls name ∨ stop.Calls name ∨ CallsIn name body
  | .branch cond yes no => cond.Calls name ∨ CallsIn name yes ∨ CallsIn name no
  | .ret e => e.Calls name

def Stmt.CallsIn (name : String) : List Stmt → Prop
  | [] => False
  | s :: ss => Calls name s ∨ CallsIn name ss

end

mutual

theorem Expr.calls_iff (name : String) (e : Expr) : e.Calls name ↔ ∃ args, .call name args ∈ e.nodes := by
  cases e with
  | const | param | var | thread | extent => simp [Calls, nodes]
  | index param indices => simp [Calls, nodes, callsIn_iff name indices]
  | unary op input => simp [Calls, nodes, calls_iff name input]
  | binary op left right => simp [Calls, nodes, calls_iff name left, calls_iff name right, exists_or]
  | select cond yes no =>
    simp [Calls, nodes, calls_iff name cond, calls_iff name yes, calls_iff name no, exists_or]
  | call callee args =>
    simp only [Calls, nodes, callsIn_iff name args, List.mem_cons, Expr.call.injEq, exists_or]
    apply or_congr_left
    constructor
    · intro same
      exact ⟨args, same.symm, rfl⟩
    · rintro ⟨_, same, _⟩
      exact same.symm

theorem Expr.callsIn_iff (name : String) (es : List Expr) : CallsIn name es ↔ ∃ args, .call name args ∈ nodesOf es := by
  cases es with
  | nil => simp [CallsIn, nodesOf]
  | cons e es => simp [CallsIn, nodesOf, calls_iff name e, callsIn_iff name es, exists_or]

end

mutual

theorem Stmt.calls_iff (name : String) (s : Stmt) : s.Calls name ↔ ∃ args, .call name args ∈ s.nodes := by
  cases s with
  | declare _ e | assign _ e | ret e => simp only [Calls, nodes, Expr.calls_iff]
  | loop counter start stop body =>
    simp [Calls, nodes, Expr.calls_iff, callsIn_iff name body, exists_or]
  | branch cond yes no =>
    simp [Calls, nodes, Expr.calls_iff, callsIn_iff name yes, callsIn_iff name no, exists_or]

theorem Stmt.callsIn_iff (name : String) (ss : List Stmt) : CallsIn name ss ↔ ∃ args, .call name args ∈ nodesOf ss := by
  cases ss with
  | nil => simp [CallsIn, nodesOf]
  | cons s ss => simp [CallsIn, nodesOf, calls_iff name s, callsIn_iff name ss, exists_or]

end

-- The names of a body's calls are those that stand in it, however deep.
theorem Body.mem_calls_iff (body : Body) (name : String) : name ∈ body.calls ↔ Stmt.CallsIn name body.stmts := by
  rw [mem_calls, Stmt.callsIn_iff, nodes]

section
variable {r : Registry} {roots : List String} {context : Context}

-- By induction on how many calls may be nested: a helper that is reached calls what is reached.
theorem enter_snapshot (depth : Nat) {name : String} {callee : Definition} (reached : r.Reaches roots name)
    (known : r.get? name = some callee) (values : List Value) :
    enter (r.snapshot roots).get? context depth callee values = enter r.get? context depth callee values := by
  induction depth generalizing name callee values with
  | zero => rfl
  | succ depth ih =>
    simp only [enter]
    cases own : callee.body with
    | native arity apply => rfl
    | kernel body =>
      have below : ∀ other args, .call other args ∈ body.nodes → r.Reaches roots other := by
        intro other args call
        apply Registry.Reaches.call reached known
        rw [own]
        exact Body.mem_calls.mpr ⟨args, call⟩
      have answers : Env.Answers ⟨(r.snapshot roots).get?, context, enter (r.snapshot roots).get? context depth, values⟩
          ⟨r.get?, context, enter r.get? context depth, values⟩ body.nodes := by
        refine ⟨rfl, rfl, ?_, ?_⟩
        · intro other args call
          exact Registry.snapshot_get?_reached (below other args call)
        · intro other args d passed call found
          exact ih (below other args call) (Registry.snapshot_get?.mp found).1 passed
      simp only [(Env.runFrom_alike answers body.stmts (List.Subset.refl _) _).eq]

theorem evaluate_snapshot (r : Registry) (body : Body) (context : Context) (values : List Value) :
    evaluate (r.snapshot body.calls).get? context body values = evaluate r.get? context body values := by
  have reached : ∀ name args, .call name args ∈ body.nodes → r.Reaches body.calls name := fun name args call =>
    .root (Body.mem_calls.mpr ⟨args, call⟩)
  have answers : Env.Answers
      ⟨(r.snapshot body.calls).get?, context, enter (r.snapshot body.calls).get? context maxCallDepth, values⟩
      ⟨r.get?, context, enter r.get? context maxCallDepth, values⟩ body.nodes := by
    refine ⟨rfl, rfl, ?_, ?_⟩
    · intro name args call
      exact Registry.snapshot_get?_reached (reached name args call)
    · intro name args callee passed call found
      exact enter_snapshot maxCallDepth (reached name args call) (Registry.snapshot_get?.mp found).1 passed
  exact (Env.runFrom_alike answers body.stmts (List.Subset.refl _) _).eq

end

def Registry.whole (r : Registry) : Snapshot := ⟨r.functions, []⟩

theorem host_run_snapshot (r : Registry) (body : Body) (types : List ValueType) (grid : Grid) (args : List Arg) :
    Host.run (r.snapshot body.calls) body types grid args = Host.run r.whole body types grid args := by
  have words (values : List Value) : elementWord (r.snapshot body.calls) body grid.sizes values =
      elementWord r.whole body grid.sizes values := by
    funext id
    simp only [elementWord, evaluate_snapshot]
    rfl
  simp only [Host.run, Host.words, words]

theorem snapshots_close_over_calls (registry : Registry) (roots : List String) :
    -- However the waiting names are taken, the work comes to an end, and to one end.
    (WellFounded (fun after before => registry.Turn before after) ∧
      (∀ s pending, pending ≠ [] → ∃ after, registry.Turn (s, pending) after) ∧
      ∀ s, Relation.ReflTransGen registry.Turn ({}, roots) (s, []) ↔ s = registry.snapshot roots) ∧
    ((∀ d, d ∈ (registry.snapshot roots).functions ↔ registry.get? d.name = some d ∧ registry.Reaches roots d.name) ∧
      (∀ name, name ∈ (registry.snapshot roots).missing ↔ registry.get? name = none ∧ registry.Reaches roots name) ∧
      (registry.snapshot roots).names.Nodup ∧
      (registry.snapshot roots).names.Disjoint (registry.snapshot roots).missing) ∧
    ∀ body : Body,
      (∀ name, name ∈ body.calls ↔ Stmt.CallsIn name body.stmts) ∧
      (∀ context values, evaluate (registry.snapshot body.calls).get? context body values =
        evaluate registry.get? context body values) ∧
      ∀ types grid args, Host.run (registry.snapshot body.calls) body types grid args =
        Host.run registry.whole body types grid args := by
  have closing := registry.snapshot_closing roots
  refine ⟨⟨registry.turns_end, fun s pending => registry.turn_exists s, fun s => ⟨?_, ?_⟩⟩,
    ⟨closing.mem_functions, closing.mem_missing, closing.ordered.names, ?_⟩,
    fun body => ⟨body.mem_calls_iff, evaluate_snapshot registry body, host_run_snapshot registry body⟩⟩
  · intro turns
    exact ((Registry.Closing.start registry roots).turns turns).eq closing
  · rintro rfl
    exact Registry.close_turns {} roots (.start registry roots)
  · intro name taken noted
    obtain ⟨d, member, rfl⟩ := List.mem_map.mp taken
    cases (closing.functions d member).1.symm.trans (closing.missing _ noted).1

end GridKernel
