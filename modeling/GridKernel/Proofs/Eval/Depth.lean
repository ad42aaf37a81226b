import GridKernel.Proofs.Eval.Evaluator

namespace GridKernel

-- A computation that is given the depth it starts at and leaves the depth it ends at.
def Counted (α : Type) : Type := Nat → Except EvalError α × Nat

namespace Counted

variable {α β γ δ : Type}

def of (x : Except EvalError α) : Counted α := fun depth => (x, depth)

def andThen (x : Counted α) (f : α → Counted β) : Counted β := fun depth =>
  match x depth with
  | (.ok a, after) => f a after
  | (.error e, after) => (.error e, after)

instance : Monad Counted where
  pure a := of (.ok a)
  bind := andThen

-- Names and arguments are those of the frame, and calls go through `enter`.
def evaluator (env : Env) (enter : Definition → List Value → Counted Float) : Evaluator Counted Locals where
  env := env
  lift := of
  read locals slot := of (locals.read slot)
  declare locals slot v := of (locals.write slot v)
  assign locals slot v := of (locals.write slot v)
  enter := pure
  leave := pure
  call := enter

def frame (lookup : String → Option Definition) (context : Context) (args : List Value) : Env :=
  ⟨lookup, context, GridKernel.enter lookup context 0, args⟩

-- A call is refused when the counter stands at the limit. It counts up before the callee runs and down when that has
-- ended, so the counter stops the calls and the fuel only has to outlast it.
def enter (lookup : String → Option Definition) (context : Context) : Nat → Definition → List Value → Counted Float
  | 0, _, _ => of (.error .stackOverflow)
  | fuel + 1, callee, values => fun depth =>
    if maxCallDepth ≤ depth then (.error .stackOverflow, depth)
    else
      let inside : Counted Float :=
        match callee.body with
        | .kernel body =>
          (evaluator (frame lookup context values) (enter lookup context fuel)).run body.stmts (Array.replicate body.locals 0.0)
        | .native _ apply => of (.ok (apply (values.map Value.number)))
      let ended := inside (depth + 1)
      (ended.1.map fun v => if callee.returnType = .int then Whole.trunc v else v, ended.2 - 1)

def evaluate (lookup : String → Option Definition) (context : Context) (body : Body) (args : List Value) : Counted Float :=
  (evaluator (frame lookup context args) (enter lookup context (maxCallDepth + 1))).run body.stmts
    (Array.replicate body.locals 0.0)

-- At a depth, the computation ends as the other one does and leaves the depth as it was.
def Keeps (depth : Nat) (P : α → β → Prop) (x : Counted α) (y : Except EvalError β) : Prop :=
  (x depth).2 = depth ∧ SameResult P (x depth).1 y

variable {depth : Nat}

theorem keeps_of (y : Except EvalError α) : Keeps depth Eq (of y) y := ⟨rfl, .self y⟩

theorem Keeps.bind {P : α → β → Prop} {Q : γ → δ → Prop} {x : Counted α} {y : Except EvalError β} {f : α → Counted γ}
    {g : β → Except EvalError δ} (first : Keeps depth P x y) (next : ∀ a b, P a b → Keeps depth Q (f a) (g b)) :
    Keeps depth Q (x >>= f) (y >>= g) := by
  obtain ⟨back, same⟩ := first
  change (andThen x f depth).2 = depth ∧ SameResult Q (andThen x f depth).1 (y >>= g)
  unfold andThen
  generalize x depth = ended at back same
  obtain ⟨result, after⟩ := ended
  cases back
  cases same with
  | error e => exact ⟨rfl, .error e⟩
  | ok related => exact next _ _ related

theorem Keeps.eq {x : Counted α} {y : Except EvalError α} (kept : Keeps depth Eq x y) : x depth = (y, depth) :=
  Prod.ext kept.2.eq kept.1

theorem keeps_iff {x : Counted α} {y : Except EvalError α} : Keeps depth Eq x y ↔ x depth = (y, depth) := by
  refine ⟨Keeps.eq, ?_⟩
  intro same
  unfold Keeps
  rw [same]
  exact ⟨rfl, .self y⟩

theorem run_keeps (lookup : String → Option Definition) (context : Context) (args : List Value)
    {calls : Definition → List Value → Counted Float} {plain : Definition → List Value → Except EvalError Float}
    (keeps : ∀ callee values, Keeps depth Eq (calls callee values) (plain callee values)) (stmts : List Stmt)
    (locals : Locals) :
    Keeps depth Eq ((evaluator (frame lookup context args) calls).run stmts locals)
      (Env.runFrom ⟨lookup, context, plain, args⟩ stmts locals) := by
  have sim : Evaluator.Simulates (evaluator (frame lookup context args) calls)
      (Evaluator.plain ⟨lookup, context, plain, args⟩) (Keeps depth) Eq := by
    refine ⟨rfl, rfl, rfl, ?_, Keeps.bind, keeps_of, ?_, ?_, ?_, ?_, ?_, ?_, keeps⟩
    · intro α β P a b related
      exact ⟨rfl, .ok related⟩
    · intro α β P e
      exact ⟨rfl, .error e⟩
    · rintro locals _ slot rfl
      exact keeps_of _
    · rintro locals _ slot v rfl
      exact keeps_of _
    · rintro locals _ slot v rfl
      exact keeps_of _
    · rintro locals _ rfl
      exact keeps_of (.ok locals)
    · rintro locals _ rfl
      exact keeps_of (.ok locals)
  rw [← Evaluator.plain_run]
  exact sim.run stmts rfl

section
variable (lookup : String → Option Definition) (context : Context)

theorem enter_keeps (fuel : Nat) (callee : Definition) (values : List Value) (depth : Nat)
    (enough : maxCallDepth < fuel + depth) :
    Keeps depth Eq (enter lookup context fuel callee values)
      (GridKernel.enter lookup context (maxCallDepth - depth) callee values) := by
  induction fuel generalizing callee values depth with
  | zero =>
    have none : maxCallDepth - depth = 0 := by omega
    rw [none]
    exact keeps_of _
  | succ fuel ih =>
    rw [keeps_iff]
    unfold enter
    split
    · rename_i full
      rw [Nat.sub_eq_zero_of_le full]
      rfl
    · rename_i room
      obtain ⟨left, more⟩ : ∃ left, maxCallDepth - depth = left + 1 := Nat.exists_eq_add_one.mpr (by omega)
      have deeper : maxCallDepth - (depth + 1) = left := by omega
      rw [more, GridKernel.enter]
      cases callee.body with
      | native family apply => rfl
      | kernel body =>
        have inner : ∀ callee values, Keeps (depth + 1) Eq (enter lookup context fuel callee values)
            (GridKernel.enter lookup context left callee values) := by
          intro inner passed
          exact deeper ▸ ih inner passed (depth + 1) (by omega)
        have kept := (run_keeps lookup context values inner body.stmts
          (Array.replicate body.locals 0.0)).eq
        simp only [kept, Nat.add_sub_cancel]

theorem evaluate_keeps (body : Body) (args : List Value) (depth : Nat) :
    evaluate lookup context body args depth =
      (Env.runFrom ⟨lookup, context, GridKernel.enter lookup context (maxCallDepth - depth), args⟩ body.stmts
        (Array.replicate body.locals 0.0), depth) := by
  refine (run_keeps lookup context args ?_ body.stmts _).eq
  intro callee values
  exact enter_keeps lookup context _ callee values depth (by omega)

theorem evaluate_restores (body : Body) (args : List Value) (depth : Nat) :
    (evaluate lookup context body args depth).2 = depth :=
  congrArg Prod.snd (evaluate_keeps lookup context body args depth)

theorem evaluate_eq (body : Body) (args : List Value) :
    (evaluate lookup context body args 0).1 = GridKernel.evaluate lookup context body args :=
  congrArg Prod.fst (evaluate_keeps lookup context body args 0)

end

end Counted
end GridKernel
