import GridKernel.Eval.Machine
import GridKernel.Proofs.Outcome

namespace GridKernel

def Flow.andThen (next : Locals → Except EvalError Flow) : Flow → Except EvalError Flow
  | .next locals => next locals
  | .done v => .ok (.done v)

def Flow.value : Flow → Except EvalError Float
  | .done v => .ok v
  | .next _ => .error .missingReturn

namespace Env

theorem iterate_zero (test : Locals → Except EvalError Bool) (step : Locals → Except EvalError Flow) (locals : Locals) :
    iterate test step 0 locals =
      test locals >>= fun more => if more then .error .loopLimit else .ok (.next locals) := by
  rw [iterate]
  cases test locals with
  | error e => rfl
  | ok more => cases more <;> rfl

theorem iterate_succ (test : Locals → Except EvalError Bool) (step : Locals → Except EvalError Flow) (left : Nat)
    (locals : Locals) :
    iterate test step (left + 1) locals = test locals >>= fun more =>
      if more then step locals >>= Flow.andThen (iterate test step left) else .ok (.next locals) := by
  rw [iterate]
  cases test locals with
  | error e => rfl
  | ok more =>
    cases more with
    | false => rfl
    | true =>
      dsimp only
      cases step locals with
      | error e => rfl
      | ok flow => cases flow <;> rfl

theorem execBlock_cons (env : Env) (stmt : Stmt) (rest : List Stmt) (locals : Locals) :
    env.execBlock (stmt :: rest) locals = env.exec stmt locals >>= Flow.andThen (env.execBlock rest) := by
  rw [execBlock]
  cases env.exec stmt locals with
  | error e => rfl
  | ok flow => cases flow <;> rfl

theorem runFrom_eq (env : Env) (stmts : List Stmt) (locals : Locals) :
    env.runFrom stmts locals = env.execBlock stmts locals >>= Flow.value := by
  rw [runFrom]
  cases env.execBlock stmts locals with
  | error e => rfl
  | ok flow => cases flow <;> rfl

theorem advance_eq (counter : Nat) : advance counter = Flow.andThen fun locals => advance counter (.next locals) := by
  funext flow
  cases flow <;> rfl

end Env

-- How a statement ends over any store of locals.
inductive Ending (σ : Type) where
  | next (state : σ)
  | done (value : Float)

def Ending.ofFlow : Flow → Ending Locals
  | .next locals => .next locals
  | .done v => .done v

-- A monad to evaluate in, a store of locals whose blocks are entered and left, and a way to make calls. Of the
-- frame only the names, the running element and the arguments are used.
structure Evaluator (m : Type → Type) (σ : Type) where
  env : Env
  lift : {α : Type} → Except EvalError α → m α
  read : σ → Nat → m Float
  declare : σ → Nat → Float → m σ
  assign : σ → Nat → Float → m σ
  enter : σ → m σ
  leave : σ → m σ
  call : Definition → List Value → m Float

namespace Evaluator

variable {m : Type → Type} [Monad m] {σ : Type}

section Definitions

variable (c : Evaluator m σ)

mutual

def eval (s : σ) : Expr → m Float
  | .const v => pure v.toFloat
  | .param index => c.lift (c.env.scalarArg index)
  | .var slot => c.read s slot
  | .thread axis => pure (ofCoordinate (c.env.context.thread.get axis))
  | .extent axis => pure (ofCoordinate (c.env.context.extent.get axis))
  | .index param indices =>
    match c.env.arrayArg? param with
    | none => c.lift (.error (.typeMismatch (.notArray param)))
    | some view => do
      let values ← evalAll s indices
      c.lift (view.load values)
  | .unary op input => do
    let v ← eval s input
    pure (op.apply v)
  | .binary op left right => do
    let a ← eval s left
    let b ← eval s right
    pure (op.apply a b)
  | .select cond yes no => do
    let v ← eval s cond
    if isTrue v then eval s yes else eval s no
  | .call name args =>
    match c.env.lookup name with
    | none => c.lift (.error (.unknownFunction name))
    | some callee =>
      if callee.paramTypes.length ≠ args.length then
        c.lift (.error (.arityMismatch name callee.paramTypes.length args.length))
      else do
        let values ← evalArgs s name callee.paramTypes args
        c.call callee values

def evalAll (s : σ) : List Expr → m (List Float)
  | [] => pure []
  | e :: es => do
    let v ← eval s e
    let vs ← evalAll s es
    pure (v :: vs)

def evalArgs (s : σ) (callee : String) : List ValueType → List Expr → m (List Value)
  | type :: types, e :: es =>
    let first : m Value :=
      match type with
      | .floatArray => c.lift (c.env.arrayFor callee e)
      | .int => do
        let v ← eval s e
        pure (.scalar (Whole.trunc v))
      | .float => do
        let v ← eval s e
        pure (.scalar v)
    do
      let value ← first
      let values ← evalArgs s callee types es
      pure (value :: values)
  | _, _ => pure []

end

def onward (rest : σ → m (Ending σ)) : Ending σ → m (Ending σ)
  | .next s => rest s
  | .done v => pure (.done v)

def finish : Ending σ → m Float
  | .next _ => c.lift (.error .missingReturn)
  | .done v => pure v

-- Run something in a block of its own. A value that is returned leaves all blocks at once.
def inside (block : σ → m (Ending σ)) (s : σ) : m (Ending σ) := do
  let entered ← c.enter s
  let ended ← block entered
  onward (fun last => do
    let left ← c.leave last
    pure (.next left)) ended

def below (counter : Nat) (stop : Expr) (s : σ) : m Bool := do
  let bound ← c.eval s stop
  let v ← c.read s counter
  pure (v < bound)

def advance (counter : Nat) (s : σ) : m (Ending σ) := do
  let v ← c.read s counter
  let after ← c.assign s counter (v + Whole.one)
  pure (.next after)

def iterate (test : σ → m Bool) (step : σ → m (Ending σ)) : Nat → σ → m (Ending σ)
  | 0, s => do
    let more ← test s
    if more then c.lift (.error .loopLimit) else pure (.next s)
  | left + 1, s => do
    let more ← test s
    if more then do
      let ended ← step s
      onward (iterate test step left) ended
    else pure (.next s)

mutual

def exec : Stmt → σ → m (Ending σ)
  | .declare slot value, s => do
    let v ← c.eval s value
    let after ← c.declare s slot v
    pure (.next after)
  | .assign slot value, s => do
    let v ← c.eval s value
    let after ← c.assign s slot v
    pure (.next after)
  | .loop counter start stop body, s => do
    let first ← c.eval s start
    c.inside (fun entered => do
      let begun ← c.declare entered counter first
      c.iterate (c.below counter stop)
        (fun s => do
          let ended ← c.inside (execBlock body) s
          onward (c.advance counter) ended)
        maxIterations begun) s
  | .branch cond yes no, s => do
    let v ← c.eval s cond
    if isTrue v then c.inside (execBlock yes) s else c.inside (execBlock no) s
  | .ret value, s => do
    let v ← c.eval s value
    pure (.done v)

def execBlock : List Stmt → σ → m (Ending σ)
  | [], s => pure (.next s)
  | stmt :: rest, s => do
    let ended ← exec stmt s
    onward (execBlock rest) ended

end

def run (stmts : List Stmt) (s : σ) : m Float := do
  let ended ← c.execBlock stmts s
  c.finish ended

end Definitions

-- The evaluator of the library: one slot for each local of a body, whatever its block.
def plain (env : Env) : Evaluator (Except EvalError) Locals where
  env := env
  lift x := x
  read := Locals.read
  declare := Locals.write
  assign := Locals.write
  enter := .ok
  leave := .ok
  call := env.enter

section Plain

variable {α : Type} (env : Env) (locals : Locals)

mutual

theorem plain_eval (e : Expr) : (plain env).eval locals e = env.eval locals e := by
  cases e with
  | const v | param index | var slot | thread axis | extent axis =>
    simp only [eval, Env.eval]
    rfl
  | index param indices =>
    simp only [eval, Env.eval, plain_evalAll indices]
    rfl
  | unary op input =>
    simp only [eval, Env.eval, plain_eval input]
    rfl
  | binary op left right =>
    simp only [eval, Env.eval, plain_eval left, plain_eval right]
    rfl
  | select cond yes no => simp only [eval, Env.eval, plain_eval cond, plain_eval yes, plain_eval no]
  | call name args =>
    simp only [eval, Env.eval, plain_evalArgs name _ args]
    rfl

theorem plain_evalAll (es : List Expr) : (plain env).evalAll locals es = env.evalAll locals es := by
  cases es with
  | nil => simp only [evalAll, Env.evalAll]; rfl
  | cons e es =>
    simp only [evalAll, Env.evalAll, plain_eval e, plain_evalAll es]
    rfl

theorem plain_evalArgs (callee : String) (types : List ValueType) (es : List Expr) :
    (plain env).evalArgs locals callee types es = env.evalArgs locals callee types es := by
  cases es with
  | nil => cases types <;> rfl
  | cons e es =>
    cases types with
    | nil => rfl
    | cons type types =>
      simp only [evalArgs, Env.evalArgs, plain_eval e, plain_evalArgs callee types es]
      cases type with
      | floatArray => rfl
      | float | int => cases env.eval locals e <;> rfl

end

theorem plain_then {x : Except EvalError α} {f : α → Except EvalError (Ending Locals)} {g : α → Except EvalError Flow}
    (next : ∀ a, f a = (g a).map .ofFlow) : x >>= f = (x >>= g).map Ending.ofFlow := by
  cases x with
  | error e => rfl
  | ok a => exact next a

theorem plain_onward {x : Except EvalError Flow} {f : Locals → Except EvalError (Ending Locals)}
    {g : Locals → Except EvalError Flow} (next : ∀ locals, f locals = (g locals).map .ofFlow) :
    x.map Ending.ofFlow >>= onward f = (x >>= Flow.andThen g).map Ending.ofFlow := by
  cases x with
  | error e => rfl
  | ok flow =>
    cases flow with
    | next locals => exact next locals
    | done v => rfl

theorem plain_inside (block : Locals → Except EvalError (Ending Locals)) :
    (plain env).inside block locals = block locals := by
  change (block locals >>= onward fun last => .ok (.next last)) = block locals
  cases block locals with
  | error e => rfl
  | ok ended => cases ended <;> rfl

theorem plain_iterate {test : Locals → Except EvalError Bool} {step : Locals → Except EvalError (Ending Locals)}
    {step' : Locals → Except EvalError Flow} (steps : ∀ locals, step locals = (step' locals).map .ofFlow) (left : Nat) :
    (plain env).iterate test step left locals = (Env.iterate test step' left locals).map .ofFlow := by
  induction left generalizing locals with
  | zero =>
    rw [iterate, Env.iterate_zero]
    refine plain_then ?_
    intro more
    cases more <;> rfl
  | succ left ih =>
    rw [iterate, Env.iterate_succ]
    refine plain_then ?_
    intro more
    cases more with
    | false => rfl
    | true =>
      change step locals >>= onward _ = (step' locals >>= _).map Ending.ofFlow
      rw [steps]
      exact plain_onward ih

mutual

theorem plain_exec (stmt : Stmt) (locals : Locals) :
    (plain env).exec stmt locals = (env.exec stmt locals).map .ofFlow := by
  cases stmt with
  | declare slot value | assign slot value =>
    rw [exec, Env.exec, plain_eval]
    refine plain_then ?_
    intro v
    exact plain_then fun after => rfl
  | loop counter start stop body =>
    rw [exec, Env.exec, plain_eval]
    refine plain_then ?_
    intro first
    rw [plain_inside]
    refine plain_then ?_
    intro begun
    have tests : (plain env).below counter stop = env.below counter stop := by
      funext locals
      rw [below, plain_eval]
      rfl
    rw [tests]
    refine plain_iterate env begun ?_ maxIterations
    intro locals
    rw [plain_inside, plain_execBlock body locals, Env.advance_eq]
    refine plain_onward ?_
    intro locals
    refine plain_then ?_
    intro v
    exact plain_then fun after => rfl
  | branch cond yes no =>
    rw [exec, Env.exec, plain_eval]
    refine plain_then ?_
    intro v
    split
    · rw [plain_inside]
      exact plain_execBlock yes locals
    · rw [plain_inside]
      exact plain_execBlock no locals
  | ret value =>
    rw [exec, Env.exec, plain_eval]
    exact plain_then fun v => rfl

theorem plain_execBlock (stmts : List Stmt) (locals : Locals) :
    (plain env).execBlock stmts locals = (env.execBlock stmts locals).map .ofFlow := by
  cases stmts with
  | nil =>
    rw [execBlock, Env.execBlock]
    rfl
  | cons stmt rest =>
    rw [execBlock, Env.execBlock_cons, plain_exec stmt locals]
    exact plain_onward (plain_execBlock rest)

end

theorem plain_run (stmts : List Stmt) : (plain env).run stmts locals = env.runFrom stmts locals := by
  rw [run, Env.runFrom_eq, plain_execBlock]
  cases env.execBlock stmts locals with
  | error e => rfl
  | ok flow => cases flow <;> rfl

end Plain

-- Runs that go on, go on from related states; runs that return, return alike.
inductive Follows {τ : Type} (S : σ → τ → Prop) : Ending σ → Ending τ → Prop where
  | next {s : σ} {t : τ} (related : S s t) : Follows S (.next s) (.next t)
  | done (v : Float) : Follows S (.done v) (.done v)

section Simulation

variable {n : Type → Type} [Monad n] {τ : Type} {c : Evaluator m σ} {d : Evaluator n τ}

-- Computations of one evaluator stand to those of another in a relation that sequencing respects, and so does
-- each way they use their locals and make calls.
structure Simulates (c : Evaluator m σ) (d : Evaluator n τ) (R : {α β : Type} → (α → β → Prop) → m α → n β → Prop)
    (S : σ → τ → Prop) : Prop where
  lookup : c.env.lookup = d.env.lookup
  context : c.env.context = d.env.context
  args : c.env.args = d.env.args
  value : ∀ {α β : Type} {P : α → β → Prop} {a : α} {b : β}, P a b → R P (pure a) (pure b)
  seq : ∀ {α β γ δ : Type} {P : α → β → Prop} {Q : γ → δ → Prop} {x : m α} {y : n β} {f : α → m γ} {g : β → n δ},
    R P x y → (∀ a b, P a b → R Q (f a) (g b)) → R Q (x >>= f) (y >>= g)
  lift : ∀ {α : Type} (x : Except EvalError α), R Eq (c.lift x) (d.lift x)
  stops : ∀ {α β : Type} {P : α → β → Prop} (e : EvalError), R P (c.lift (.error e)) (d.lift (.error e))
  read : ∀ {s : σ} {t : τ} (slot : Nat), S s t → R Eq (c.read s slot) (d.read t slot)
  declare : ∀ {s : σ} {t : τ} (slot : Nat) (v : Float), S s t → R S (c.declare s slot v) (d.declare t slot v)
  assign : ∀ {s : σ} {t : τ} (slot : Nat) (v : Float), S s t → R S (c.assign s slot v) (d.assign t slot v)
  enter : ∀ {s : σ} {t : τ}, S s t → R S (c.enter s) (d.enter t)
  leave : ∀ {s : σ} {t : τ}, S s t → R S (c.leave s) (d.leave t)
  call : ∀ callee values, R Eq (c.call callee values) (d.call callee values)

namespace Simulates

variable {R : {α β : Type} → (α → β → Prop) → m α → n β → Prop} {S : σ → τ → Prop}

theorem arrayArg? (sim : Simulates c d R S) (param : Nat) : c.env.arrayArg? param = d.env.arrayArg? param := by
  simp only [Env.arrayArg?, sim.args]

theorem andThen {α γ δ : Type} {Q : γ → δ → Prop} {x : m α} {y : n α} {f : α → m γ} {g : α → n δ}
    (sim : Simulates c d R S) (first : R Eq x y) (next : ∀ a, R Q (f a) (g a)) : R Q (x >>= f) (y >>= g) := by
  refine sim.seq first ?_
  rintro a _ rfl
  exact next a

section Expressions

variable {s : σ} {t : τ}

mutual

theorem eval (sim : Simulates c d R S) (related : S s t) (e : Expr) : R Eq (c.eval s e) (d.eval t e) := by
  cases e with
  | const v =>
    simp only [Evaluator.eval]
    exact sim.value rfl
  | param index =>
    simp only [Evaluator.eval, Env.scalarArg, sim.args]
    exact sim.lift _
  | var slot =>
    simp only [Evaluator.eval]
    exact sim.read slot related
  | thread axis | extent axis =>
    simp only [Evaluator.eval, sim.context]
    exact sim.value rfl
  | index param indices =>
    simp only [Evaluator.eval, sim.arrayArg?]
    cases d.env.arrayArg? param with
    | none => exact sim.lift _
    | some view =>
      refine sim.andThen (evalAll sim related indices) ?_
      intro values
      exact sim.lift _
  | unary op input =>
    simp only [Evaluator.eval]
    refine sim.andThen (eval sim related input) ?_
    intro v
    exact sim.value rfl
  | binary op left right =>
    simp only [Evaluator.eval]
    refine sim.andThen (eval sim related left) ?_
    intro a
    refine sim.andThen (eval sim related right) ?_
    intro b
    exact sim.value rfl
  | select cond yes no =>
    simp only [Evaluator.eval]
    refine sim.andThen (eval sim related cond) ?_
    intro v
    split
    · exact eval sim related yes
    · exact eval sim related no
  | call name args =>
    simp only [Evaluator.eval, sim.lookup]
    cases d.env.lookup name with
    | none => exact sim.lift _
    | some callee =>
      dsimp only
      split
      · exact sim.lift _
      · refine sim.andThen (evalArgs sim related name _ args) ?_
        intro values
        exact sim.call callee values

theorem evalAll (sim : Simulates c d R S) (related : S s t) (es : List Expr) : R Eq (c.evalAll s es) (d.evalAll t es) := by
  cases es with
  | nil =>
    simp only [Evaluator.evalAll]
    exact sim.value rfl
  | cons e es =>
    simp only [Evaluator.evalAll]
    refine sim.andThen (eval sim related e) ?_
    intro v
    refine sim.andThen (evalAll sim related es) ?_
    intro vs
    exact sim.value rfl

theorem evalArgs (sim : Simulates c d R S) (related : S s t) (callee : String) (types : List ValueType) (es : List Expr) :
    R Eq (c.evalArgs s callee types es) (d.evalArgs t callee types es) := by
  cases es with
  | nil => cases types <;> exact sim.value rfl
  | cons e es =>
    cases types with
    | nil => exact sim.value rfl
    | cons type types =>
      have rest (value : Value) : R Eq (do let values ← c.evalArgs s callee types es; pure (value :: values))
          (do let values ← d.evalArgs t callee types es; pure (value :: values)) := by
        refine sim.andThen (evalArgs sim related callee types es) ?_
        intro values
        exact sim.value rfl
      simp only [Evaluator.evalArgs]
      cases type with
      | float | int =>
        refine sim.andThen (sim.andThen (eval sim related e) ?_) rest
        intro v
        exact sim.value rfl
      | floatArray =>
        have same : c.env.arrayFor callee e = d.env.arrayFor callee e := by
          cases e <;> simp only [Env.arrayFor, sim.arrayArg?]
        rw [same]
        exact sim.andThen (sim.lift _) rest

end

end Expressions

theorem onward (sim : Simulates c d R S) {x : m (Ending σ)} {y : n (Ending τ)} {f : σ → m (Ending σ)} {g : τ → n (Ending τ)}
    (first : R (Follows S) x y) (next : ∀ s t, S s t → R (Follows S) (f s) (g t)) :
    R (Follows S) (x >>= Evaluator.onward f) (y >>= Evaluator.onward g) := by
  refine sim.seq first ?_
  intro a b follows
  cases follows with
  | next related => exact next _ _ related
  | done v => exact sim.value (.done v)

theorem onNext (sim : Simulates c d R S) {x : m σ} {y : n τ} (first : R S x y) :
    R (Follows S) (do let s ← x; pure (.next s)) (do let t ← y; pure (.next t)) :=
  sim.seq first fun _ _ related => sim.value (.next related)

theorem inside (sim : Simulates c d R S) {f : σ → m (Ending σ)} {g : τ → n (Ending τ)}
    (block : ∀ s t, S s t → R (Follows S) (f s) (g t)) {s : σ} {t : τ} (related : S s t) :
    R (Follows S) (c.inside f s) (d.inside g t) := by
  refine sim.seq (sim.enter related) ?_
  intro entered entered' related
  refine sim.onward (block _ _ related) ?_
  intro last last' related
  exact sim.onNext (sim.leave related)

theorem iterate (sim : Simulates c d R S) {test : σ → m Bool} {test' : τ → n Bool} {step : σ → m (Ending σ)}
    {step' : τ → n (Ending τ)} (tests : ∀ s t, S s t → R Eq (test s) (test' t))
    (steps : ∀ s t, S s t → R (Follows S) (step s) (step' t)) (left : Nat) (s : σ) (t : τ) (related : S s t) :
    R (Follows S) (c.iterate test step left s) (d.iterate test' step' left t) := by
  induction left generalizing s t with
  | zero =>
    refine sim.andThen (tests s t related) ?_
    intro more
    split
    · exact sim.stops _
    · exact sim.value (.next related)
  | succ left ih =>
    refine sim.andThen (tests s t related) ?_
    intro more
    split
    · exact sim.onward (steps s t related) ih
    · exact sim.value (.next related)

mutual

theorem exec (sim : Simulates c d R S) (stmt : Stmt) (s : σ) (t : τ) (related : S s t) :
    R (Follows S) (c.exec stmt s) (d.exec stmt t) := by
  cases stmt with
  | declare slot value =>
    simp only [Evaluator.exec]
    refine sim.andThen (sim.eval related value) ?_
    intro v
    exact sim.onNext (sim.declare slot v related)
  | assign slot value =>
    simp only [Evaluator.exec]
    refine sim.andThen (sim.eval related value) ?_
    intro v
    exact sim.onNext (sim.assign slot v related)
  | loop counter start stop body =>
    simp only [Evaluator.exec]
    refine sim.andThen (sim.eval related start) ?_
    intro first
    refine sim.inside ?_ related
    intro s t related
    refine sim.seq (sim.declare counter first related) ?_
    intro s t related
    refine sim.iterate ?_ ?_ maxIterations s t related
    · intro s t related
      refine sim.andThen (sim.eval related stop) ?_
      intro bound
      refine sim.andThen (sim.read counter related) ?_
      intro v
      exact sim.value rfl
    · intro s t related
      refine sim.onward (sim.inside (execBlock sim body) related) ?_
      intro s t related
      refine sim.andThen (sim.read counter related) ?_
      intro v
      exact sim.onNext (sim.assign counter _ related)
  | branch cond yes no =>
    simp only [Evaluator.exec]
    refine sim.andThen (sim.eval related cond) ?_
    intro v
    split
    · exact sim.inside (execBlock sim yes) related
    · exact sim.inside (execBlock sim no) related
  | ret value =>
    simp only [Evaluator.exec]
    refine sim.andThen (sim.eval related value) ?_
    intro v
    exact sim.value (.done v)

theorem execBlock (sim : Simulates c d R S) (stmts : List Stmt) (s : σ) (t : τ) (related : S s t) :
    R (Follows S) (c.execBlock stmts s) (d.execBlock stmts t) := by
  cases stmts with
  | nil =>
    simp only [Evaluator.execBlock]
    exact sim.value (.next related)
  | cons stmt rest =>
    simp only [Evaluator.execBlock]
    exact sim.onward (exec sim stmt s t related) (execBlock sim rest)

end

theorem run (sim : Simulates c d R S) (stmts : List Stmt) {s : σ} {t : τ} (related : S s t) :
    R Eq (c.run stmts s) (d.run stmts t) := by
  refine sim.seq (execBlock sim stmts s t related) ?_
  intro a b follows
  cases follows with
  | next => exact sim.stops _
  | done v => exact sim.value rfl

end Simulates

end Simulation

end Evaluator
end GridKernel
