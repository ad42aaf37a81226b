import GridKernel.Eval.Machine
import GridKernel.Proofs.Eval.Views
import GridKernel.Proofs.Function.Stamps
import GridKernel.Proofs.Kernel.Scopes

namespace GridKernel

-- A computation that ends well, or fails in a way that is allowed.
def Ends {ε α : Type} (Fails : ε → Prop) (Good : α → Prop) : Except ε α → Prop
  | .ok a => Good a
  | .error e => Fails e

namespace Ends

variable {ε α β : Type} {Fails : ε → Prop} {Good : α → Prop} {Then : β → Prop}

theorem bind {x : Except ε α} {f : α → Except ε β} (first : Ends Fails Good x)
    (next : ∀ a, Good a → Ends Fails Then (f a)) : Ends Fails Then (x >>= f) := by
  cases x with
  | ok a => exact next a first
  | error e => exact first

theorem map {x : Except ε α} {f : α → β} (first : Ends Fails Good x) (next : ∀ a, Good a → Then (f a)) :
    Ends Fails Then (x.map f) := by
  cases x with
  | ok a => exact next a first
  | error e => exact first

theorem mono {Better : α → Prop} {x : Except ε α} (ends : Ends Fails Better x) (weaker : ∀ a, Better a → Good a) :
    Ends Fails Good x := by
  cases x with
  | ok a => exact weaker a ends
  | error e => exact ends

end Ends

def View.Total (view : View) : Prop := ∀ indices, ∃ v, view.load indices = .ok v

-- A bound argument has the shape its parameter type asks for, and arrays can be read unless a read may be lost.
inductive Value.HasType (Lost : Prop) : ValueType → Value → Prop where
  | float (v : Float) : HasType Lost .float (.scalar v)
  | int (v : Float) : HasType Lost .int (.scalar v)
  | array (view : View) (total : ¬ Lost → view.Total) : HasType Lost .floatArray (.array view)

abbrev TypedArgs (Lost : Prop) : List ValueType → List Value → Prop := List.Forall₂ (Value.HasType Lost)

theorem TypedArgs.at {Lost : Prop} {types : List ValueType} {values : List Value} (typed : TypedArgs Lost types values)
    {index : Nat} {type : ValueType} (known : types[index]? = some type) :
    ∃ value, values[index]? = some value ∧ Value.HasType Lost type value := by
  induction typed generalizing index with
  | nil => cases known
  | cons head _ ih =>
    cases index with
    | zero =>
      cases known
      exact ⟨_, rfl, head⟩
    | succ index => exact ih known

theorem TypedArgs.total {Lost : Prop} {types : List ValueType} {env : Env} (typed : TypedArgs Lost types env.args)
    {index : Nat} {view : View} (found : env.arrayArg? index = some view) : ¬ Lost → view.Total := by
  unfold Env.arrayArg? at found
  split at found
  · rename_i here
    cases found
    have within := (List.getElem?_eq_some_iff.mp here).1
    obtain ⟨type, known⟩ : ∃ type, types[index]? = some type :=
      ⟨_, List.getElem?_eq_getElem (typed.length_eq ▸ within)⟩
    obtain ⟨value, same, has⟩ := typed.at known
    cases here.symm.trans same
    cases has with
    | array view total => exact total
  · cases found

section Binding

variable {Lost : Prop} {types : List ValueType} {args : List Arg} {values : List Value}

theorem Value.bindFrom_typed (position : Nat) (total : ∀ t, .array t ∈ args → ¬ Lost → (View.ofTensor t).Total)
    (length : types.length = args.length) (bound : Value.bindFrom position types args = .ok values) :
    TypedArgs Lost types values := by
  induction types generalizing position args values with
  | nil =>
    rw [Value.bindFrom] at bound
    · cases bound
      exact .nil
    · nofun
  | cons type types ih =>
    cases args with
    | nil => cases length
    | cons arg args =>
      rw [Value.bindFrom] at bound
      obtain ⟨value, first, bound⟩ := bind_eq_ok bound
      obtain ⟨others, rest, last⟩ := bind_eq_ok bound
      cases last
      refine .cons ?_ (ih _ (fun t member => total t (List.mem_cons_of_mem _ member)) (Nat.succ.inj length) rest)
      unfold Value.bind at first
      split at first <;> cases first
      · exact .float _
      · exact .int _
      · exact .array _ (total _ List.mem_cons_self)

theorem Value.bindAll_typed (total : ∀ t, .array t ∈ args → ¬ Lost → (View.ofTensor t).Total)
    (bound : Value.bindAll types args = .ok values) : TypedArgs Lost types values := by
  unfold Value.bindAll at bound
  split at bound
  · cases bound
  · rename_i length
    exact Value.bindFrom_typed 0 total (not_not.mp length) bound

end Binding

-- An argument that does not fit the parameter it is passed to, and what evaluation says of it:
-- a whole array for a number, or anything but an array parameter for an array.
inductive MisfitArg (types : List ValueType) (callee : String) : ValueType → Expr → Mismatch → Prop where
  | whole {type : ValueType} {index : Nat} (number : type ≠ .floatArray) (array : types[index]? = some .floatArray) :
      MisfitArg types callee type (.param index) (.arrayAsScalar index)
  | other {e : Expr} (other : ∀ index, e = .param index → types[index]? ≠ some .floatArray) :
      MisfitArg types callee .floatArray e (.arrayExpected callee)

inductive MisfitCall (lookup : String → Option Definition) (types : List ValueType) (nodes : List Expr)
    (cause : Mismatch) : Prop where
  | at {name : String} {args : List Expr} {callee : Definition} {position : Nat} {type : ValueType} {e : Expr}
      (call : .call name args ∈ nodes) (known : lookup name = some callee)
      (param : callee.paramTypes[position]? = some type) (passed : args[position]? = some e)
      (misfit : MisfitArg types name type e cause) : MisfitCall lookup types nodes cause

-- The failures that checking leaves open.
def EvalError.Open (Misfits : Mismatch → Prop) (Lost : Prop) : EvalError → Prop
  | .typeMismatch cause => Misfits cause
  | .unknownFunction _ => True
  | .arityMismatch _ _ _ => True
  | .stackOverflow => True
  | .loopLimit => True
  | .missingReturn => False
  | .badLocal _ => False
  | .overflow => Lost

abbrev Safe {α : Type} (Misfits : Mismatch → Prop) (Lost : Prop) : (α → Prop) → Except EvalError α → Prop :=
  Ends (EvalError.Open Misfits Lost)

theorem Locals.read_safe {Misfits : Mismatch → Prop} {Lost : Prop} {locals : Locals} {slot : Nat} (inside : slot < locals.size) :
    Safe Misfits Lost (fun _ => True) (locals.read slot) := by
  unfold Locals.read
  rw [Array.getElem?_eq_getElem inside]
  trivial

theorem Locals.write_safe {Misfits : Mismatch → Prop} {Lost : Prop} {locals : Locals} {slot : Nat} {value : Float}
    (inside : slot < locals.size) : Safe Misfits Lost (fun after => after.size = locals.size) (locals.write slot value) := by
  unfold Locals.write
  rw [if_pos inside]
  exact Array.size_setIfInBounds

structure Env.Sound (env : Env) (types : List ValueType) (nodes : List Expr) (Misfits : Mismatch → Prop) (Lost : Prop) :
    Prop where
  args : TypedArgs Lost types env.args
  misfit : ∀ cause, MisfitCall env.lookup types nodes cause → Misfits cause
  enter : ∀ name callee values, env.lookup name = some callee → TypedArgs Lost callee.paramTypes values →
    Safe Misfits Lost (fun _ => True) (env.enter callee values)

namespace Env

variable {env : Env} {i : Interface} {nodes : List Expr} {Misfits : Mismatch → Prop} {Lost : Prop}

theorem scalarArg_safe (typed : TypedArgs Lost i.types env.args) {index : Nat} {type : ValueType}
    (known : i.types[index]? = some type) (number : type ≠ .floatArray) :
    Safe Misfits Lost (fun _ => True) (env.scalarArg index) := by
  obtain ⟨value, found, has⟩ := typed.at known
  unfold scalarArg
  rw [found]
  cases has with
  | float | int => trivial
  | array => exact absurd rfl number

theorem scalarArg_array (typed : TypedArgs Lost i.types env.args) {index : Nat}
    (known : i.types[index]? = some .floatArray) :
    env.scalarArg index = .error (.typeMismatch (.arrayAsScalar index)) := by
  obtain ⟨value, found, has⟩ := typed.at known
  unfold scalarArg
  rw [found]
  cases has
  rfl

theorem arrayArg?_known (typed : TypedArgs Lost i.types env.args) {index : Nat}
    (known : i.types[index]? = some .floatArray) :
    ∃ view, env.arrayArg? index = some view ∧ (¬ Lost → view.Total) := by
  obtain ⟨value, found, has⟩ := typed.at known
  unfold arrayArg?
  rw [found]
  cases has with
  | array view total => exact ⟨view, rfl, total⟩

theorem arrayFor_safe (typed : TypedArgs Lost i.types env.args) (callee : String) (e : Expr)
    (misfit : ∀ cause, MisfitArg i.types callee .floatArray e cause → Misfits cause) :
    Safe Misfits Lost (Value.HasType Lost .floatArray) (env.arrayFor callee e) := by
  by_cases array : ∃ index, e = .param index ∧ i.types[index]? = some .floatArray
  · obtain ⟨index, rfl, known⟩ := array
    obtain ⟨view, found, total⟩ := arrayArg?_known typed known
    have passed : env.arrayFor callee (.param index) = .ok (.array view) := by simp [arrayFor, found]
    rw [passed]
    exact .array view total
  · have clash : Misfits (.arrayExpected callee) := by
      refine misfit _ (.other ?_)
      intro index same known
      exact array ⟨index, same, known⟩
    unfold arrayFor
    split
    · split
      · rename_i view found
        exact .array view (typed.total found)
      · exact clash
    · exact clash

theorem load_safe {view : View} (total : ¬ Lost → view.Total) (indices : List Float) :
    Safe Misfits Lost (fun _ => True) (view.load indices) := by
  cases ended : view.load indices with
  | ok v => trivial
  | error failure =>
    rw [View.load_error ended]
    by_contra found
    obtain ⟨v, loaded⟩ := total found indices
    cases ended.symm.trans loaded

-- Where a number is asked for, only a whole array stands in the way of an evaluation.
theorem number_safe (typed : TypedArgs Lost i.types env.args) {callee : String} {type : ValueType}
    (number : type ≠ .floatArray) {e : Expr} {locals : Locals}
    (misfit : ∀ cause, MisfitArg i.types callee type e cause → Misfits cause)
    (own : (∀ index, e = .param index → i.types[index]? ≠ some .floatArray) →
      Safe Misfits Lost (fun _ => True) (env.eval locals e)) :
    Safe Misfits Lost (fun _ => True) (env.eval locals e) := by
  by_cases array : ∃ index, e = .param index ∧ i.types[index]? = some .floatArray
  · obtain ⟨index, rfl, known⟩ := array
    rw [eval, scalarArg_array typed known]
    exact misfit _ (.whole number known)
  · apply own
    intro index same known
    exact array ⟨index, same, known⟩

mutual

-- A whole array may stand where it is passed on, so an expression that is to be evaluated is not one.
theorem eval_safe (sound : env.Sound i.types nodes Misfits Lost) {visible : List Nat} {locals : Locals}
    (inside : ∀ slot ∈ visible, slot < locals.size) (e : Expr) (arrayAllowed : Bool)
    (checked : i.checkExpr visible arrayAllowed e = .ok ())
    (number : arrayAllowed = true → ∀ index, e = .param index → i.types[index]? ≠ some .floatArray)
    (within : e.nodes ⊆ nodes) : Safe Misfits Lost (fun _ => True) (env.eval locals e) := by
  cases e with
  | const | thread | extent =>
    rw [eval]
    trivial
  | param index =>
    rw [Interface.checkExpr] at checked
    obtain ⟨type, known, checked⟩ := bind_eq_ok checked
    have found := Interface.paramType_parts known
    rw [eval]
    refine scalarArg_safe sound.args found ?_
    rintro rfl
    cases arrayAllowed with
    | true => exact number rfl index rfl found
    | false => cases checked
  | var slot =>
    rw [Interface.checkExpr] at checked
    split at checked
    · rename_i seen
      rw [eval]
      exact Locals.read_safe (inside slot (by simpa using seen))
    · cases checked
  | index param indices =>
    rw [Interface.checkExpr] at checked
    obtain ⟨type, known, checked⟩ := bind_eq_ok checked
    split at checked
    · cases checked
    · rename_i array
      split at checked
      · cases checked
      · have found : i.types[param]? = some .floatArray := by
          rw [Interface.paramType_parts known]
          simpa [ValueType.isArray] using array
        obtain ⟨view, bound, total⟩ := arrayArg?_known sound.args found
        rw [Expr.nodes, List.cons_subset] at within
        rw [eval, bound]
        refine (evalAll_safe sound inside indices checked within.2).bind ?_
        intro values _
        exact load_safe total values
  | unary op input =>
    rw [Interface.checkExpr] at checked
    rw [Expr.nodes, List.cons_subset] at within
    rw [eval]
    refine (eval_safe sound inside input false checked nofun within.2).bind ?_
    intro v _
    trivial
  | binary op left right =>
    rw [Interface.checkExpr] at checked
    obtain ⟨_, checkedLeft, checkedRight⟩ := bind_eq_ok checked
    rw [Expr.nodes, List.cons_subset, List.append_subset] at within
    obtain ⟨_, inLeft, inRight⟩ := within
    rw [eval]
    refine (eval_safe sound inside left false checkedLeft nofun inLeft).bind ?_
    intro a _
    refine (eval_safe sound inside right false checkedRight nofun inRight).bind ?_
    intro b _
    trivial
  | select cond yes no =>
    rw [Interface.checkExpr] at checked
    obtain ⟨_, checkedCond, checked⟩ := bind_eq_ok checked
    obtain ⟨_, checkedYes, checkedNo⟩ := bind_eq_ok checked
    rw [Expr.nodes, List.cons_subset, List.append_subset, List.append_subset] at within
    obtain ⟨_, ⟨inCond, inYes⟩, inNo⟩ := within
    rw [eval]
    refine (eval_safe sound inside cond false checkedCond nofun inCond).bind ?_
    intro c _
    split
    · exact eval_safe sound inside yes false checkedYes nofun inYes
    · exact eval_safe sound inside no false checkedNo nofun inNo
  | call name args =>
    rw [Interface.checkExpr] at checked
    split at checked
    · cases checked
    · rw [Expr.nodes, List.cons_subset] at within
      rw [eval]
      split
      · trivial
      · rename_i callee found
        split
        · trivial
        · rename_i length
          have fitted := evalArgs_safe sound inside name callee.paramTypes args (not_not.mp length)
            (fun position type e cause typed passed misfit =>
              sound.misfit cause (.at within.1 found typed passed misfit))
            checked within.2
          exact fitted.bind fun values typed => sound.enter name callee values found typed

theorem evalAll_safe (sound : env.Sound i.types nodes Misfits Lost) {visible : List Nat} {locals : Locals}
    (inside : ∀ slot ∈ visible, slot < locals.size) (es : List Expr)
    (checked : i.checkExprs visible false es = .ok ()) (within : Expr.nodesOf es ⊆ nodes) :
    Safe Misfits Lost (fun _ => True) (env.evalAll locals es) := by
  cases es with
  | nil =>
    rw [evalAll]
    trivial
  | cons e es =>
    rw [Interface.checkExprs] at checked
    obtain ⟨_, first, rest⟩ := bind_eq_ok checked
    rw [Expr.nodesOf, List.append_subset] at within
    rw [evalAll]
    refine (eval_safe sound inside e false first nofun within.1).bind ?_
    intro v _
    refine (evalAll_safe sound inside es rest within.2).bind ?_
    intro vs _
    trivial

theorem evalArgs_safe (sound : env.Sound i.types nodes Misfits Lost) {visible : List Nat} {locals : Locals}
    (inside : ∀ slot ∈ visible, slot < locals.size) (callee : String) (types : List ValueType) (es : List Expr)
    (length : types.length = es.length)
    (misfit : ∀ (position : Nat) (type : ValueType) (e : Expr) (cause : Mismatch), types[position]? = some type →
      es[position]? = some e → MisfitArg i.types callee type e cause → Misfits cause)
    (checked : i.checkExprs visible true es = .ok ()) (within : Expr.nodesOf es ⊆ nodes) :
    Safe Misfits Lost (TypedArgs Lost types) (env.evalArgs locals callee types es) := by
  cases es with
  | nil =>
    cases types with
    | nil =>
      rw [evalArgs]
      · exact .nil
      · nofun
    | cons => cases length
  | cons e es =>
    cases types with
    | nil => cases length
    | cons type types =>
      rw [Interface.checkExprs] at checked
      obtain ⟨_, first, rest⟩ := bind_eq_ok checked
      rw [Expr.nodesOf, List.append_subset] at within
      have own := fun number => eval_safe sound inside e true first (fun _ => number) within.1
      have clash := fun cause => misfit 0 type e cause rfl rfl
      have others := evalArgs_safe sound inside callee types es (Nat.succ.inj length)
        (fun position => misfit (position + 1)) rest within.2
      have joined : ∀ value, Value.HasType Lost type value → Safe Misfits Lost (TypedArgs Lost (type :: types))
          (do let values ← env.evalArgs locals callee types es; .ok (value :: values)) := by
        intro value typed
        exact others.bind fun values rest => .cons typed rest
      simp only [evalArgs]
      cases type with
      | floatArray => exact (arrayFor_safe sound.args callee e clash).bind joined
      | int =>
        have number := number_safe sound.args (by decide) clash own
        exact (number.map fun v _ => .int _).bind joined
      | float =>
        have number := number_safe sound.args (by decide) clash own
        exact (number.map fun v _ => .float v).bind joined

end

end Env

-- How a statement may end, given whether it returns on every path: the slots stay as many as they
-- were, and control only passes on where some path does not return.
def Flow.Goes (slots : Nat) (returns : Bool) : Flow → Prop
  | .next locals => locals.size = slots ∧ returns = false
  | .done _ => True

theorem Flow.Goes.relax {slots : Nat} {returns less : Bool} {flow : Flow} (goes : flow.Goes slots returns)
    (fewer : returns = false → less = false) : flow.Goes slots less := by
  cases flow with
  | done v => trivial
  | next locals => exact ⟨goes.1, fewer goes.2⟩

namespace Env

variable {env : Env} {i : Interface} {nodes : List Expr} {Misfits : Mismatch → Prop} {Lost : Prop}

theorem iterate_safe {slots : Nat} {test : Locals → Except EvalError Bool} {step : Locals → Except EvalError Flow}
    (tests : ∀ locals : Locals, locals.size = slots → Safe Misfits Lost (fun _ => True) (test locals))
    (steps : ∀ locals : Locals, locals.size = slots → Safe Misfits Lost (Flow.Goes slots false) (step locals))
    (budget : Nat) (locals : Locals) (sized : locals.size = slots) :
    Safe Misfits Lost (Flow.Goes slots false) (iterate test step budget locals) := by
  induction budget generalizing locals with
  | zero =>
    have tested := tests locals sized
    unfold iterate
    split
    · rename_i failed
      rw [failed] at tested
      exact tested
    · exact ⟨sized, rfl⟩
    · trivial
  | succ left ih =>
    have tested := tests locals sized
    have stepped := steps locals sized
    unfold iterate
    split
    · rename_i failed
      rw [failed] at tested
      exact tested
    · exact ⟨sized, rfl⟩
    · dsimp only
      split
      · rename_i after went
        rw [went] at stepped
        exact ih after stepped.1
      · exact stepped

theorem below_safe {slots counter : Nat} {stop : Expr} {locals : Locals} (sized : locals.size = slots)
    (inside : counter < slots) (bound : Safe Misfits Lost (fun _ => True) (env.eval locals stop)) :
    Safe Misfits Lost (fun _ => True) (env.below counter stop locals) := by
  refine bound.bind ?_
  intro b _
  refine (Locals.read_safe (sized ▸ inside)).bind ?_
  intro v _
  trivial

theorem advance_safe {slots counter : Nat} {returns : Bool} (inside : counter < slots) (flow : Flow)
    (goes : flow.Goes slots returns) : Safe Misfits Lost (Flow.Goes slots false) (advance counter flow) := by
  cases flow with
  | done v => trivial
  | next locals =>
    have here : counter < locals.size := goes.1 ▸ inside
    refine (Locals.read_safe here).bind ?_
    intro v _
    refine (Locals.write_safe here).bind ?_
    intro after kept
    exact ⟨kept.trans goes.1, rfl⟩

mutual

-- Blocks nest as the checks do: the scope inside is the one the check went on with.
theorem exec_safe (sound : env.Sound i.types nodes Misfits Lost) (stmt : Stmt) (s after : Scope)
    (checked : i.checkStmt stmt s = .ok after) (bounded : s.Within i.locals) (within : stmt.nodes ⊆ nodes)
    (locals : Locals) (sized : locals.size = i.locals) :
    Safe Misfits Lost (Flow.Goes i.locals stmt.returns) (env.exec stmt locals) := by
  have inside : ∀ slot ∈ s.visible, slot < locals.size := sized ▸ bounded
  cases stmt with
  | declare slot value =>
    rw [Interface.checkStmt] at checked
    obtain ⟨_, first, declared⟩ := bind_eq_ok checked
    obtain ⟨room, _, _⟩ := Interface.declare_parts declared
    rw [exec]
    refine (eval_safe sound inside value false first nofun within).bind ?_
    intro v _
    refine (Locals.write_safe (sized ▸ room)).bind ?_
    intro after kept
    exact ⟨kept.trans sized, rfl⟩
  | assign slot value =>
    rw [Interface.checkStmt] at checked
    split at checked
    · cases checked
    · rename_i seen
      obtain ⟨_, first, _⟩ := bind_eq_ok checked
      rw [exec]
      refine (eval_safe sound inside value false first nofun within).bind ?_
      intro v _
      refine (Locals.write_safe (inside slot (by simpa using seen))).bind ?_
      intro after kept
      exact ⟨kept.trans sized, rfl⟩
  | loop counter start stop body =>
    obtain ⟨inner, ended, first, bound, declared, block, _⟩ := Interface.checkLoop_parts checked
    obtain ⟨room, _, _⟩ := Interface.declare_parts declared
    rw [Stmt.nodes, List.append_subset, List.append_subset] at within
    obtain ⟨⟨inStart, inStop⟩, inBody⟩ := within
    rw [exec]
    refine (eval_safe sound inside start false first nofun inStart).bind ?_
    intro v _
    refine (Locals.write_safe (sized ▸ room)).bind ?_
    intro entered kept
    refine iterate_safe ?_ ?_ maxIterations entered (kept.trans sized)
    · intro locals sized
      exact below_safe sized room (eval_safe sound (sized ▸ bounded) stop false bound nofun inStop)
    · intro locals sized
      have ran := execBlock_safe sound body inner ended block (Interface.declare_within bounded declared) inBody locals sized
      exact ran.bind (advance_safe room)
  | branch cond yes no =>
    obtain ⟨first, second, test, blockYes, blockNo, _⟩ := Interface.checkBranch_parts checked
    rw [Stmt.nodes, List.append_subset, List.append_subset] at within
    obtain ⟨⟨inCond, inYes⟩, inNo⟩ := within
    rw [exec]
    refine (eval_safe sound inside cond false test nofun inCond).bind ?_
    intro c _
    split
    · refine (execBlock_safe sound yes s first blockYes bounded inYes locals sized).mono ?_
      intro flow goes
      apply goes.relax
      intro passes
      rw [Stmt.returns, passes, Bool.false_and]
    · refine (execBlock_safe sound no ⟨s.visible, first.declared⟩ second blockNo bounded inNo locals sized).mono ?_
      intro flow goes
      apply goes.relax
      intro passes
      rw [Stmt.returns, passes, Bool.and_false]
  | ret value =>
    rw [Interface.checkStmt] at checked
    obtain ⟨_, first, _⟩ := bind_eq_ok checked
    rw [exec]
    refine (eval_safe sound inside value false first nofun within).bind ?_
    intro v _
    trivial

theorem execBlock_safe (sound : env.Sound i.types nodes Misfits Lost) (stmts : List Stmt) (s after : Scope)
    (checked : i.checkBlock stmts s = .ok after) (bounded : s.Within i.locals) (within : Stmt.nodesOf stmts ⊆ nodes)
    (locals : Locals) (sized : locals.size = i.locals) :
    Safe Misfits Lost (Flow.Goes i.locals (Stmt.anyReturns stmts)) (env.execBlock stmts locals) := by
  cases stmts with
  | nil =>
    rw [execBlock]
    exact ⟨sized, rfl⟩
  | cons stmt rest =>
    rw [Interface.checkBlock] at checked
    obtain ⟨middle, first, checked⟩ := bind_eq_ok checked
    split at checked
    · cases checked
    · rw [Stmt.nodesOf, List.append_subset] at within
      have ran := exec_safe sound stmt s middle first bounded within.1 locals sized
      have later := execBlock_safe sound rest middle after checked
        (Interface.checkStmt_within stmt s middle bounded first) within.2
      rw [execBlock]
      split
      · rename_i next went
        rw [went] at ran
        refine (later next ran.1).mono ?_
        intro flow goes
        apply goes.relax
        intro passes
        rw [Stmt.anyReturns, ran.2, passes, Bool.or_false]
      · rename_i ended
        cases done : env.exec stmt locals with
        | error e =>
          rw [done] at ran
          exact ran
        | ok flow =>
          cases flow with
          | done v => trivial
          | next locals => exact absurd done (ended locals)

end

-- A checked body in a sound frame always comes to a value, or to a failure that was left open.
theorem runFrom_safe {body : Body} {types : List ValueType} (sound : env.Sound types body.nodes Misfits Lost)
    (valid : body.validate types = .ok ()) :
    Safe Misfits Lost (fun _ => True) (env.runFrom body.stmts (Array.replicate body.locals 0.0)) := by
  obtain ⟨after, checked, returns⟩ := Body.validate_parts valid
  have bounded : Scope.empty.Within body.locals := nofun
  have ran := execBlock_safe sound body.stmts .empty after checked bounded (List.Subset.refl _)
    (Array.replicate body.locals 0.0) Array.size_replicate
  rw [returns] at ran
  unfold runFrom
  split
  · trivial
  · rename_i went
    rw [went] at ran
    cases ran.2
  · rename_i failed
    rw [failed] at ran
    exact ran

end Env

-- Calls by induction on how many may still be nested: every helper was checked under its own types.
theorem enter_safe {lookup : String → Option Definition} {context : Context} {Misfits : Mismatch → Prop} {Lost : Prop}
    (valid : ∀ name d, lookup name = some d → d.validate = .ok ())
    (covered : ∀ name d body cause, lookup name = some d → d.body = .kernel body →
      MisfitCall lookup d.paramTypes body.nodes cause → Misfits cause)
    (depth : Nat) (name : String) (callee : Definition) (values : List Value) (found : lookup name = some callee)
    (typed : TypedArgs Lost callee.paramTypes values) :
    Safe Misfits Lost (fun _ => True) (enter lookup context depth callee values) := by
  induction depth generalizing name callee values with
  | zero => trivial
  | succ depth ih =>
    rw [enter]
    cases own : callee.body with
    | native arity apply => trivial
    | kernel body =>
      have frame : Env.Sound ⟨lookup, context, enter lookup context depth, values⟩ callee.paramTypes body.nodes Misfits Lost :=
        ⟨typed, fun cause => covered name callee body cause found own, ih⟩
      have ran := Env.runFrom_safe frame (Definition.validate_body (valid name callee found) own)
      exact ran.map fun v _ => trivial

-- The bodies a run can come to, each with the types it was checked under: the kernel's own and
-- those of the helpers it reaches.
inductive Runs (functions : Snapshot) (body : Body) (types : List ValueType) : Body → List ValueType → Prop where
  | kernel : Runs functions body types body types
  | helper {d : Definition} {own : Body} (member : d ∈ functions.functions) (kernel : d.body = .kernel own) :
      Runs functions body types own d.paramTypes

theorem evaluate_safe {registry : Registry} (valid : registry.Valid) {body : Body} {types : List ValueType}
    (checked : body.validate types = .ok ()) {values : List Value} {Lost : Prop}
    (typed : TypedArgs Lost types values) (context : Context) :
    Safe (fun cause => ∃ code own, Runs (registry.snapshot body.calls) body types code own ∧
        MisfitCall (registry.snapshot body.calls).get? own code.nodes cause)
      Lost (fun _ => True) (evaluate (registry.snapshot body.calls).get? context body values) := by
  have member : ∀ name d, (registry.snapshot body.calls).get? name = some d →
      d ∈ (registry.snapshot body.calls).functions := fun name d found => List.mem_of_find?_eq_some found
  refine Env.runFrom_safe ⟨typed, ?_, ?_⟩ checked
  · intro cause misfit
    exact ⟨body, types, .kernel, misfit⟩
  · refine enter_safe ?_ ?_ maxCallDepth
    · intro name d found
      exact valid.checked d (Registry.snapshot_mem registry _ d (member name d found))
    · intro name d own cause found kernel misfit
      exact ⟨own, d.paramTypes, .helper (member name d found) kernel, misfit⟩

-- A checked kernel with bound arguments finds every local, returns on every path, and reads no
-- parameter that is unbound or indexed without being an array. If types clash at all, some body it
-- runs has a call whose argument does not fit the callee's parameter.
theorem checked_kernels_evaluate_safely (registry : Registry) (reached : registry.Reached) (body : Body)
    (types : List ValueType) (checked : body.validate types = .ok ()) (args : List Arg) (values : List Value)
    (bound : Value.bindAll types args = .ok values) (context : Context) (failure : EvalError)
    (failed : evaluate (registry.snapshot body.calls).get? context body values = .error failure) :
    (∀ slot, failure ≠ .badLocal slot) ∧ failure ≠ .missingReturn ∧
      (∀ param, failure ≠ .typeMismatch (.unbound param)) ∧ (∀ param, failure ≠ .typeMismatch (.notArray param)) ∧
      ∀ cause, failure = .typeMismatch cause →
        ∃ code own, Runs (registry.snapshot body.calls) body types code own ∧
          MisfitCall (registry.snapshot body.calls).get? own code.nodes cause := by
  have typed : TypedArgs True types values := Value.bindAll_typed (fun _ _ never => absurd trivial never) bound
  have safe := evaluate_safe (Registry.reached_valid reached) checked typed context
  rw [failed] at safe
  refine ⟨?_, ?_, ?_, ?_, ?_⟩
  · rintro slot rfl
    exact safe
  · rintro rfl
    exact safe
  · rintro param rfl
    obtain ⟨_, _, _, ⟨_, _, _, _, misfit⟩⟩ := safe
    cases misfit
  · rintro param rfl
    obtain ⟨_, _, _, ⟨_, _, _, _, misfit⟩⟩ := safe
    cases misfit
  · rintro cause rfl
    exact safe

-- A helper that hands its whole array on to one that takes a number. Both it and the kernel that
-- calls it pass their checks.
def smooth : Definition :=
  .make "smooth" (.kernel ⟨[⟨"a", some .floatArray⟩], 0, [.ret (.call "clamp01" [.param 0])]⟩) none none

def smoothed : Registry := (Registry.new false).store smooth

def smoothBody : Body := ⟨[⟨"data", none⟩], 1,
  [.declare 0 (.index 0 [.thread .x]), .ret (.binary .add (.var 0) (.call "smooth" [.param 0]))]⟩

def smoothArgs : List Arg := [.array ⟨[2], .f32 #[⟨0x3f000000⟩, ⟨0x40000000⟩]⟩]

theorem smooth_snapshot : smoothed.snapshot smoothBody.calls =
    ⟨[⟨"clamp01", [.float], .float, .kernel (Builtin.ofParams ["x"] Builtin.clamp01), 6, true⟩,
      { smooth with generation := 8 }], []⟩ := by
  have calls : smoothBody.calls = ["smooth"] := by decide +kernel
  have inner : smooth.body.calls = ["clamp01"] := by decide +kernel
  have none : (Builtin.ofParams ["x"] Builtin.clamp01).calls = [] := by decide +kernel
  rw [calls, Registry.snapshot, Registry.close_known smoothed _ "smooth" [] { smooth with generation := 8 } rfl rfl]
  rw [inner, List.append_nil]
  rw [Registry.close_known smoothed _ "clamp01" []
    ⟨"clamp01", [.float], .float, .kernel (Builtin.ofParams ["x"] Builtin.clamp01), 6, true⟩ (by decide +kernel) rfl]
  rw [FunctionBody.calls, none, List.append_nil, Registry.close]
  rfl

theorem smooth_clash_explained :
    smoothBody.validate [.floatArray] = .ok () ∧
      ∃ values, Value.bindAll [.floatArray] smoothArgs = .ok values ∧
        evaluate (smoothed.snapshot smoothBody.calls).get? ⟨⟨1, 0, 0⟩, ⟨2, 1, 1⟩⟩ smoothBody values =
          .error (.typeMismatch (.arrayAsScalar 0)) ∧
        ∃ code own, Runs (smoothed.snapshot smoothBody.calls) smoothBody [.floatArray] code own ∧
          MisfitCall (smoothed.snapshot smoothBody.calls).get? own code.nodes (.arrayAsScalar 0) := by
  have checked : smoothBody.validate [.floatArray] = .ok () := by decide +kernel
  have accepted : (Registry.new false).register smooth = (smoothed, .ok .added) := rfl
  have bound : Value.bindAll [.floatArray] smoothArgs =
      .ok [.array (View.ofTensor ⟨[2], .f32 #[⟨0x3f000000⟩, ⟨0x40000000⟩]⟩)] := rfl
  have failed : evaluate (smoothed.snapshot smoothBody.calls).get? ⟨⟨1, 0, 0⟩, ⟨2, 1, 1⟩⟩ smoothBody
      [.array (View.ofTensor ⟨[2], .f32 #[⟨0x3f000000⟩, ⟨0x40000000⟩]⟩)] =
        .error (.typeMismatch (.arrayAsScalar 0)) := by
    rw [smooth_snapshot]
    rfl
  refine ⟨checked, _, bound, failed, ?_⟩
  obtain ⟨_, _, _, _, explained⟩ := checked_kernels_evaluate_safely smoothed (.register (.new false) accepted) smoothBody
    [.floatArray] checked smoothArgs _ bound ⟨⟨1, 0, 0⟩, ⟨2, 1, 1⟩⟩ _ failed
  exact explained _ rfl

end GridKernel
