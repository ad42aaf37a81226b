import GridKernel.Proofs.Outcome
import GridKernel.Proofs.Shader.Meaning

namespace GridKernel

-- Whenever both computations end, their results are related.
def Consistent {ε α β : Type} (R : α → β → Prop) (x : Option α) (y : Except ε β) : Prop :=
  ∀ a b, x = some a → y = .ok b → R a b

namespace Consistent

variable {ε α β γ δ : Type} {R : α → β → Prop} {S : γ → δ → Prop}

theorem ends {a : α} {b : β} (related : R a b) : Consistent R (some a) (.ok b : Except ε β) := by
  intro c d first second
  cases first
  cases second
  exact related

theorem nothing (y : Except ε β) : Consistent R none y := by
  intro a b first
  cases first

theorem failure (x : Option α) (e : ε) : Consistent R x (.error e) := by
  intro a b _ second
  cases second

theorem bind {x : Option α} {y : Except ε β} {f : α → Option γ} {g : β → Except ε δ}
    (first : Consistent R x y) (then' : ∀ a b, R a b → Consistent S (f a) (g b)) :
    Consistent S (x >>= f) (y >>= g) := by
  intro c d left right
  obtain ⟨a, hx, hf⟩ := Option.bind_eq_some_iff.mp left
  obtain ⟨b, hy, hg⟩ := bind_eq_ok right
  exact then' a b (first a b hx hy) c d hf hg

end Consistent

namespace Shader

variable {frame : Frame} {vars : Vars}

@[simp]
theorem zero_value : zero.value frame vars = some 0.0 := by
  rw [zero, Term.value]

@[simp]
theorem truth_value (test : Test) : (truth test).value frame vars = (test.value frame vars).map flag := by
  simp only [truth, zero, Term.value]
  cases test.value frame vars <;> rfl

@[simp]
theorem nonzero_value (t : Term) : (nonzero t).value frame vars = (t.value frame vars).map isTrue := by
  simp only [nonzero, zero, Test.value, Term.value]
  cases t.value frame vars <;> rfl

theorem unary_value (op : UnaryOp) (t : Term) :
    (unary op t).value frame vars = (do let v ← t.value frame vars; some (op.apply v)) := by
  cases op <;> simp only [unary, truth_value, zero, Test.value, Term.value] <;>
    cases t.value frame vars <;> rfl

theorem unary_consistent (op : UnaryOp) (t : Term) {x : Except EvalError Float}
    (operand : Consistent (· = ·) (t.value frame vars) x) :
    Consistent (· = ·) ((unary op t).value frame vars) (do let v ← x; .ok (op.apply v)) := by
  rw [unary_value]
  refine operand.bind ?_
  rintro v _ rfl
  exact .ends rfl

-- Every binary operator but the logical ones computes both operands first.
theorem binary_value (op : BinaryOp) (a b : Term) (strict : op.isLogical = false) :
    (binary op a b).value frame vars =
      (do let v ← a.value frame vars; let w ← b.value frame vars; some (op.apply v w)) := by
  cases op with
  | and | or => cases strict
  | add | sub | mul | div | rem => simp only [binary, Term.value, Arith.op]
  | pow | min | max | atan2 => simp only [binary, Term.value, Math.op]
  | lt | le | gt | ge | eq | ne =>
    simp only [binary, truth_value, Test.value]
    cases a.value frame vars <;> cases b.value frame vars <;> rfl

-- A logical operator may skip its second operand, and then the first one decides.
theorem and_value (a b : Term) : (binary .and a b).value frame vars =
    (do
      let v ← a.value frame vars
      if isTrue v then do let w ← b.value frame vars; some (flag (isTrue w)) else some (flag false)) := by
  simp only [binary, truth_value, Test.value, nonzero_value]
  cases a.value frame vars with
  | none => rfl
  | some v =>
    cases truth : isTrue v <;> cases b.value frame vars <;> simp [truth]

theorem or_value (a b : Term) : (binary .or a b).value frame vars =
    (do
      let v ← a.value frame vars
      if isTrue v then some (flag true) else do let w ← b.value frame vars; some (flag (isTrue w))) := by
  simp only [binary, truth_value, Test.value, nonzero_value]
  cases a.value frame vars with
  | none => rfl
  | some v =>
    cases truth : isTrue v <;> cases b.value frame vars <;> simp [truth]

theorem binary_consistent (op : BinaryOp) (a b : Term) {x y : Except EvalError Float}
    (left : Consistent (· = ·) (a.value frame vars) x) (right : Consistent (· = ·) (b.value frame vars) y) :
    Consistent (· = ·) ((binary op a b).value frame vars) (do let v ← x; let w ← y; .ok (op.apply v w)) := by
  have strict (f : Float → Float) (g : Float → Float) (same : ∀ w, f w = g w) :
      Consistent (· = ·) (do let w ← b.value frame vars; some (f w)) (do let w ← y; .ok (g w)) := by
    refine right.bind ?_
    rintro w _ rfl
    exact .ends (same w)
  have decided (r : Float) (g : Float → Float) (same : ∀ w, r = g w) :
      Consistent (· = ·) (some r) (do let w ← y; .ok (g w)) := by
    intro c d first second
    cases first
    obtain ⟨w, _, last⟩ := bind_eq_ok second
    cases last
    exact same w
  by_cases logical : op.isLogical = false
  · rw [binary_value op a b logical]
    refine left.bind ?_
    rintro v _ rfl
    exact strict _ _ fun _ => rfl
  · cases op with
    | and =>
      rw [and_value]
      refine left.bind ?_
      rintro v _ rfl
      cases truth : isTrue v with
      | true => exact strict _ _ fun w => by simp [BinaryOp.apply, truth]
      | false => exact decided _ _ fun w => by simp [BinaryOp.apply, truth]
    | or =>
      rw [or_value]
      refine left.bind ?_
      rintro v _ rfl
      cases truth : isTrue v with
      | true => exact decided _ _ fun w => by simp [BinaryOp.apply, truth]
      | false => exact strict _ _ fun w => by simp [BinaryOp.apply, truth]
    | _ => exact absurd rfl logical

theorem fold_eval (env : Env) (locals : Locals) (e : Expr) (v : Float) (folded : e.fold = some v) :
    env.eval locals e = .ok v := by
  fun_induction Expr.fold e generalizing v with
  | case1 c =>
    cases folded
    rw [Env.eval]
  | case2 op input ih =>
    obtain ⟨a, first, last⟩ := Option.bind_eq_some_iff.mp folded
    cases last
    rw [Env.eval, ih a first]
    rfl
  | case3 op left right ihLeft ihRight =>
    obtain ⟨a, first, folded⟩ := Option.bind_eq_some_iff.mp folded
    obtain ⟨b, second, last⟩ := Option.bind_eq_some_iff.mp folded
    cases last
    rw [Env.eval, ihLeft a first, ihRight b second]
    rfl
  | case4 cond yes no ihCond ihYes ihNo =>
    obtain ⟨c, test, folded⟩ := Option.bind_eq_some_iff.mp folded
    obtain ⟨y, first, folded⟩ := Option.bind_eq_some_iff.mp folded
    obtain ⟨n, second, last⟩ := Option.bind_eq_some_iff.mp folded
    cases last
    rw [Env.eval, ihCond c test, ihYes y first, ihNo n second]
    change (if isTrue c then _ else _) = _
    rw [isTrue]
    split <;> rfl
  | case5 => cases folded

theorem folded_consistent {env : Env} {locals : Locals} {e : Expr} {v : Float} (folded : e.fold = some v) :
    Consistent (· = ·) (Term.value frame vars (.literal v)) (env.eval locals e) := by
  rw [Term.value, fold_eval env locals e v folded]
  exact .ends rfl

-- A select computes both values, and evaluation only the one it takes.
theorem select_consistent {c y n : Term} {cond yes no : Except EvalError Float}
    (test : Consistent (· = ·) (c.value frame vars) cond) (first : Consistent (· = ·) (y.value frame vars) yes)
    (second : Consistent (· = ·) (n.value frame vars) no) :
    Consistent (· = ·) ((Term.select n y (nonzero c)).value frame vars)
      (do let v ← cond; if isTrue v then yes else no) := by
  intro v w yielded evaluated
  rw [Term.value, nonzero_value] at yielded
  obtain ⟨r, hn, yielded⟩ := Option.bind_eq_some_iff.mp yielded
  obtain ⟨q, hy, yielded⟩ := Option.bind_eq_some_iff.mp yielded
  obtain ⟨chosen, hc, last⟩ := Option.bind_eq_some_iff.mp yielded
  obtain ⟨u, tested, rfl⟩ := Option.map_eq_some_iff.mp hc
  cases last
  obtain ⟨s, hs, branch⟩ := bind_eq_ok evaluated
  cases test u s tested hs
  split at branch
  · rename_i truth
    rw [if_pos truth]
    exact first q w hy branch
  · rename_i truth
    rw [if_neg truth]
    exact second r w hn branch

-- A function of a program sees what the body it was lowered from sees.
structure Agrees (names : Names) (frame : Frame) (env : Env) : Prop where
  lookup : names.lookup = env.lookup
  scalar : ∀ index, Consistent (· = ·) (frame.param index) (env.scalarArg index)
  thread : ∀ axis, frame.thread axis = ofCoordinate (env.context.thread.get axis)
  extent : ∀ axis, frame.extent axis = some (ofCoordinate (env.context.extent.get axis))
  load : ∀ param slot view indices v, names.slot? param = some slot → env.arrayArg? param = some view →
    frame.load slot (List.replicate (3 - indices.length) 0.0 ++ indices) = some v → view.load indices = .ok v
  numeric : ∀ name callee, env.lookup name = some callee → ∀ type ∈ callee.paramTypes, type.isArray = false
  call : ∀ name callee args, env.lookup name = some callee →
    Consistent (fun v w => (if callee.returnType = .int then Whole.trunc v else v) = w)
      (frame.call name args) (env.enter callee (args.map .scalar))

def Vars.Held (vars : Vars) (locals : Locals) : Prop := ∀ slot v, (slot, v) ∈ vars → locals[slot]? = some v

theorem Vars.get?_mem (vars : Vars) (slot : Nat) (v : Float) (found : vars.get? slot = some v) : (slot, v) ∈ vars := by
  fun_induction Vars.get? slot vars with
  | case1 => cases found
  | case2 value rest =>
    cases found
    exact List.mem_cons_self
  | case3 name value rest other ih => exact List.mem_cons_of_mem _ (ih found)

theorem Vars.Held.get {vars : Vars} {locals : Locals} (held : vars.Held locals) (slot : Nat) :
    Consistent (· = ·) (vars.get? slot) (locals.read slot) := by
  intro v w found read
  rw [Locals.read, held slot v (Vars.get?_mem vars slot v found)] at read
  cases read
  rfl

theorem passed_value (type : ValueType) (t : Term) : (passed type t).value frame vars =
    (do let v ← t.value frame vars; some (if type = .int then Whole.trunc v else v)) := by
  unfold passed
  split
  · rw [Term.value]
    rfl
  · cases t.value frame vars <;> rfl

-- The indices that are not given are read at zero.
theorem values_padded (count : Nat) (ts : List Term) : values frame vars (List.replicate count zero ++ ts) =
    (do let vs ← values frame vars ts; some (List.replicate count 0.0 ++ vs)) := by
  induction count with
  | zero =>
    change values frame vars ts = _
    cases values frame vars ts <;> rfl
  | succ n ih =>
    simp only [List.replicate_succ, List.cons_append, values, zero_value, ih]
    cases values frame vars ts <;> rfl

theorem evalAll_length (env : Env) (locals : Locals) (es : List Expr) (vs : List Float)
    (evaluated : env.evalAll locals es = .ok vs) : vs.length = es.length := by
  induction es generalizing vs with
  | nil =>
    cases evaluated
    rfl
  | cons e es ih =>
    rw [Env.evalAll] at evaluated
    obtain ⟨v, _, evaluated⟩ := bind_eq_ok evaluated
    obtain ⟨rest, others, last⟩ := bind_eq_ok evaluated
    cases last
    rw [List.length_cons, List.length_cons, ih rest others]

theorem passed_consistent {x : Option Float} {y : Except EvalError Float} (same : Consistent (· = ·) x y)
    (wrap : Float → Float) :
    Consistent (fun v w => Value.scalar v = w) (do let v ← x; some (wrap v)) (y.map fun v => .scalar (wrap v)) := by
  intro v w yielded evaluated
  obtain ⟨a, first, last⟩ := Option.bind_eq_some_iff.mp yielded
  obtain ⟨b, second, rfl⟩ := map_eq_ok evaluated
  cases last
  rw [same a b first second]

section Lowering

variable {names : Names} {env : Env} {locals : Locals}

theorem load_consistent (agrees : Agrees names frame env) {param slot : Nat} (bound : names.slot? param = some slot)
    (indices : List Expr) (terms : List Term)
    (all : Consistent (· = ·) (values frame vars terms) (env.evalAll locals indices)) :
    Consistent (· = ·) (Term.value frame vars (.load slot (List.replicate (3 - indices.length) zero ++ terms)))
      (env.eval locals (.index param indices)) := by
  intro v w yielded evaluated
  rw [Env.eval] at evaluated
  cases array : env.arrayArg? param with
  | none =>
    rw [array] at evaluated
    cases evaluated
  | some view =>
    rw [array] at evaluated
    obtain ⟨ws, read, given⟩ := bind_eq_ok evaluated
    rw [Term.value, values_padded] at yielded
    obtain ⟨us, padded, loaded⟩ := Option.bind_eq_some_iff.mp yielded
    obtain ⟨vs, found, last⟩ := Option.bind_eq_some_iff.mp padded
    cases last
    cases all vs ws found read
    rw [← evalAll_length env locals indices ws read] at loaded
    exact Except.ok.inj ((agrees.load param slot view ws v bound array loaded).symm.trans given)

theorem application_consistent (agrees : Agrees names frame env) {name : String} {callee : Definition}
    (known : env.lookup name = some callee) (args : List Expr) (count : ¬callee.paramTypes.length ≠ args.length)
    (terms : List Term)
    (all : Consistent (fun vs ws => vs.map Value.scalar = ws) (values frame vars terms)
      (env.evalArgs locals name callee.paramTypes args)) :
    Consistent (· = ·) ((passed callee.returnType (.helper name terms)).value frame vars)
      (env.eval locals (.call name args)) := by
  rw [Env.eval, known, passed_value, Term.value]
  dsimp only
  rw [if_neg count, bind_assoc]
  refine all.bind ?_
  rintro vs _ rfl
  intro v w yielded entered
  obtain ⟨r, called, last⟩ := Option.bind_eq_some_iff.mp yielded
  cases last
  exact agrees.call name callee vs known r w called entered

mutual

theorem lower_consistent (agrees : Agrees names frame env) (held : vars.Held locals) (e : Expr) (t : Term)
    (lowered : lower names e = .ok t) : Consistent (· = ·) (t.value frame vars) (env.eval locals e) := by
  cases e with
  | const v =>
    rw [lower] at lowered
    cases lowered
    rw [Term.value, Env.eval]
    exact .ends rfl
  | param index =>
    rw [lower] at lowered
    split at lowered
    · cases lowered
    · cases lowered
      rw [Term.value, Env.eval]
      exact agrees.scalar index
  | var slot =>
    rw [lower] at lowered
    cases lowered
    rw [Term.value, Env.eval]
    exact held.get slot
  | thread axis =>
    rw [lower] at lowered
    cases lowered
    rw [Term.value, Env.eval]
    exact .ends (agrees.thread axis)
  | extent axis =>
    rw [lower] at lowered
    cases lowered
    rw [Term.value, Env.eval, agrees.extent]
    exact .ends rfl
  | index param indices =>
    rw [lower] at lowered
    split at lowered
    · cases lowered
    · rename_i slot bound
      obtain ⟨terms, inner, last⟩ := bind_eq_ok lowered
      cases last
      exact load_consistent agrees bound indices terms (lowerAll_consistent agrees held indices terms inner)
  | unary op input =>
    rw [lower] at lowered
    split at lowered
    · rename_i v folded
      cases lowered
      exact folded_consistent folded
    · obtain ⟨s, inner, last⟩ := bind_eq_ok lowered
      cases last
      rw [Env.eval]
      exact unary_consistent op s (lower_consistent agrees held input s inner)
  | binary op left right =>
    rw [lower] at lowered
    split at lowered
    · rename_i v folded
      cases lowered
      exact folded_consistent folded
    · obtain ⟨a, first, lowered⟩ := bind_eq_ok lowered
      obtain ⟨b, second, last⟩ := bind_eq_ok lowered
      cases last
      rw [Env.eval]
      exact binary_consistent op a b (lower_consistent agrees held left a first)
        (lower_consistent agrees held right b second)
  | select cond yes no =>
    rw [lower] at lowered
    split at lowered
    · rename_i v folded
      cases lowered
      exact folded_consistent folded
    · obtain ⟨n, third, lowered⟩ := bind_eq_ok lowered
      obtain ⟨y, second, lowered⟩ := bind_eq_ok lowered
      obtain ⟨c, first, last⟩ := bind_eq_ok lowered
      cases last
      rw [Env.eval]
      exact select_consistent (lower_consistent agrees held cond c first)
        (lower_consistent agrees held yes y second) (lower_consistent agrees held no n third)
  | call name args =>
    rw [lower] at lowered
    split at lowered
    · cases lowered
    · rename_i callee known
      split at lowered
      · cases lowered
      · rename_i count
        obtain ⟨terms, inner, last⟩ := bind_eq_ok lowered
        cases last
        rw [agrees.lookup] at known
        exact application_consistent agrees known args count terms
          (lowerArgs_consistent agrees held name callee.paramTypes (agrees.numeric name callee known) args terms inner)

theorem lowerAll_consistent (agrees : Agrees names frame env) (held : vars.Held locals) (es : List Expr)
    (ts : List Term) (lowered : lowerAll names es = .ok ts) :
    Consistent (· = ·) (values frame vars ts) (env.evalAll locals es) := by
  cases es with
  | nil =>
    rw [lowerAll] at lowered
    cases lowered
    rw [values, Env.evalAll]
    exact .ends rfl
  | cons e es =>
    rw [lowerAll] at lowered
    obtain ⟨t, first, lowered⟩ := bind_eq_ok lowered
    obtain ⟨rest, others, last⟩ := bind_eq_ok lowered
    cases last
    rw [values, Env.evalAll]
    refine (lower_consistent agrees held e t first).bind ?_
    rintro v _ rfl
    refine (lowerAll_consistent agrees held es rest others).bind ?_
    rintro vs _ rfl
    exact .ends rfl

theorem lowerArgs_consistent (agrees : Agrees names frame env) (held : vars.Held locals) (callee : String)
    (types : List ValueType) (numeric : ∀ type ∈ types, type.isArray = false) (es : List Expr)
    (ts : List Term) (lowered : lowerArgs names types es = .ok ts) :
    Consistent (fun vs ws => vs.map Value.scalar = ws) (values frame vars ts) (env.evalArgs locals callee types es) := by
  cases es with
  | nil =>
    simp only [lowerArgs] at lowered
    cases lowered
    simp only [values, Env.evalArgs]
    exact .ends rfl
  | cons e es =>
    cases types with
    | nil =>
      simp only [lowerArgs] at lowered
      cases lowered
      simp only [values, Env.evalArgs]
      exact .ends rfl
    | cons type types =>
      simp only [lowerArgs] at lowered
      obtain ⟨t, first, lowered⟩ := bind_eq_ok lowered
      obtain ⟨rest, others, last⟩ := bind_eq_ok lowered
      cases last
      have head := lower_consistent agrees held e t first
      have tail := lowerArgs_consistent agrees held callee types (fun u later => numeric u (by simp [later])) es rest others
      have number := numeric type (by simp)
      simp only [values, Env.evalArgs, passed_value]
      refine Consistent.bind (R := fun v w => Value.scalar v = w) ?_ ?_
      · cases type with
        | floatArray => cases number
        | int => exact passed_consistent head Whole.trunc
        | float => exact passed_consistent head id
      · rintro v _ rfl
        refine tail.bind ?_
        rintro vs _ rfl
        exact .ends rfl

end

end Lowering

end Shader
end GridKernel
