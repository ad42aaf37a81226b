import GridKernel.Proofs.Eval.Evaluator

namespace GridKernel

-- What a body does to its locals as it runs. A loop declares its counter in a block around its body.
inductive Access where
  | enter
  | leave
  | declare (slot : Nat) (value : Float)
  | assign (slot : Nat) (value : Float)
  | read (slot : Nat) (value : Float)

-- A computation and its accesses in order, also those before a failure.
structure Logged (α : Type) where
  log : List Access
  result : Except EvalError α

namespace Logged

variable {α β : Type}

def lift (x : Except EvalError α) : Logged α := ⟨[], x⟩

def noting (access : α → Access) : Except EvalError α → Logged α
  | .ok a => ⟨[access a], .ok a⟩
  | .error e => ⟨[], .error e⟩

def andThen (x : Logged α) (f : α → Logged β) : Logged β :=
  match x.result with
  | .ok a => ⟨x.log ++ (f a).log, (f a).result⟩
  | .error e => ⟨x.log, .error e⟩

instance : Monad Logged where
  pure a := lift (.ok a)
  bind := andThen

@[simp]
theorem result_lift (x : Except EvalError α) : (lift x).result = x := rfl

@[simp]
theorem result_pure (a : α) : (pure a : Logged α).result = .ok a := rfl

@[simp]
theorem result_noting (access : α → Access) (x : Except EvalError α) : (noting access x).result = x := by
  cases x <;> rfl

@[simp]
theorem result_bind (x : Logged α) (f : α → Logged β) : (x >>= f).result = x.result >>= fun a => (f a).result := by
  change (x.andThen f).result = _
  unfold andThen
  split
  · rename_i a ran
    rw [ran]
    rfl
  · rename_i e ran
    rw [ran]
    rfl

end Logged

structure Memory (σ : Type) where
  read : σ → Nat → Except EvalError Float
  declare : σ → Nat → Float → Except EvalError σ
  assign : σ → Nat → Float → Except EvalError σ
  enter : σ → σ
  leave : σ → σ

namespace Memory

variable {σ : Type}

-- Evaluation over locals that are kept so, with a record of every access to them.
def evaluator (m : Memory σ) (env : Env) : Evaluator Logged σ where
  env := env
  lift := Logged.lift
  read s slot := .noting (.read slot) (m.read s slot)
  declare s slot v := .noting (fun _ => .declare slot v) (m.declare s slot v)
  assign s slot v := .noting (fun _ => .assign slot v) (m.assign s slot v)
  enter s := .noting (fun _ => .enter) (.ok (m.enter s))
  leave s := .noting (fun _ => .leave) (.ok (m.leave s))
  call callee values := .lift (env.enter callee values)

@[simp]
theorem evaluator_env (m : Memory σ) (env : Env) : (m.evaluator env).env = env := rfl

def run (m : Memory σ) (env : Env) (stmts : List Stmt) (s : σ) : Logged Float := (m.evaluator env).run stmts s

def flat : Memory Locals where
  read := Locals.read
  declare := Locals.write
  assign := Locals.write
  enter := id
  leave := id

-- Noting accesses changes no result.
theorem result_run (env : Env) (stmts : List Stmt) (locals : Locals) :
    (flat.run env stmts locals).result = env.runFrom stmts locals := by
  have sim : Evaluator.Simulates (flat.evaluator env) (Evaluator.plain env)
      (fun P (x : Logged _) y => SameResult P x.result y) Eq := by
    refine ⟨rfl, rfl, rfl, ?_, ?_, ?_, ?_, ?_, ?_, ?_, ?_, ?_, ?_⟩
    · intro α β P a b related
      exact .ok related
    · intro α β γ δ P Q x y f g first next
      rw [Logged.result_bind]
      generalize x.result = result at first
      cases first with
      | error e => exact .error e
      | ok related => exact next _ _ related
    · intro α x
      exact SameResult.self x
    · intro α β P e
      exact .error e
    · rintro locals _ slot rfl
      exact Logged.result_noting _ _ ▸ SameResult.self _
    · rintro locals _ slot v rfl
      exact Logged.result_noting _ _ ▸ SameResult.self _
    · rintro locals _ slot v rfl
      exact Logged.result_noting _ _ ▸ SameResult.self _
    · rintro locals _ rfl
      exact .ok rfl
    · rintro locals _ rfl
      exact .ok rfl
    · intro callee values
      exact SameResult.self _
  rw [← Evaluator.plain_run]
  exact (sim.run stmts rfl).eq

end Memory

end GridKernel
