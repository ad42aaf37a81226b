import GridKernel.Proofs.Eval.Depth
import Mathlib.Logic.Relation

namespace GridKernel

namespace Stepwise

inductive Control where
  | expr (e : Expr)
  -- The indices of an array read, and the arguments of a call, with those that are known.
  | indices (view : View) (known : List Float) (rest : List Expr)
  | args (name : String) (callee : Definition) (known : List Value) (types : List ValueType) (rest : List Expr)
  | enter (callee : Definition) (values : List Value)
  | value (v : Float)
  | stmt (s : Stmt)
  | block (stmts : List Stmt)
  -- How statements and failures end: going on, returning, unwinding.
  | next
  | done (v : Float)
  | fault (e : EvalError)

inductive Frame where
  | operand (op : UnaryOp)
  | left (op : BinaryOp) (right : Expr)
  | right (op : BinaryOp) (left : Float)
  | choose (yes no : Expr)
  | index (view : View) (known : List Float) (rest : List Expr)
  | arg (name : String) (callee : Definition) (known : List Value) (type : ValueType) (types : List ValueType)
      (rest : List Expr)
  -- A call keeps the arguments and locals of its caller.
  | call (callee : Definition) (args : List Value) (locals : Locals)
  | write (slot : Nat)
  | give
  | branch (yes no : List Stmt)
  | start (counter : Nat) (stop : Expr) (body : List Stmt)
  -- A loop waits for its bound or for its body, after some completed iterations.
  | test (counter : Nat) (stop : Expr) (body : List Stmt) (completed : Nat)
  | turn (counter : Nat) (stop : Expr) (body : List Stmt) (completed : Nat)
  | rest (stmts : List Stmt)

structure State where
  control : Control
  args : List Value
  locals : Locals
  stack : List Frame

def Frame.calls : Frame → Nat
  | .call _ _ _ => 1
  | _ => 0

def calls : List Frame → Nat
  | [] => 0
  | frame :: stack => calls stack + frame.calls

def Control.ofResult : Except EvalError Float → Control
  | .ok v => .value v
  | .error e => .fault e

def returned (callee : Definition) (v : Float) : Float := if callee.returnType = .int then Whole.trunc v else v

def passed (type : ValueType) (v : Float) : Value := .scalar (if type = .int then Whole.trunc v else v)

def increment (counter : Nat) (locals : Locals) : Except EvalError Locals := do
  let v ← locals.read counter
  locals.write counter (v + Whole.one)

section Machine

variable (lookup : String → Option Definition) (context : Context)

-- The evaluator's environment with some calls left. Steps use it for names and arguments only.
def envAt (left : Nat) (args : List Value) : Env := ⟨lookup, context, enter lookup context left, args⟩

def openExpr (args : List Value) (locals : Locals) (stack : List Frame) : Expr → State
  | .const v => ⟨.value v.toFloat, args, locals, stack⟩
  | .param index => ⟨.ofResult ((envAt lookup context 0 args).scalarArg index), args, locals, stack⟩
  | .var slot => ⟨.ofResult (locals.read slot), args, locals, stack⟩
  | .thread axis => ⟨.value (ofCoordinate (context.thread.get axis)), args, locals, stack⟩
  | .extent axis => ⟨.value (ofCoordinate (context.extent.get axis)), args, locals, stack⟩
  | .index param indices =>
    match (envAt lookup context 0 args).arrayArg? param with
    | none => ⟨.fault (.typeMismatch (.notArray param)), args, locals, stack⟩
    | some view => ⟨.indices view [] indices, args, locals, stack⟩
  | .unary op input => ⟨.expr input, args, locals, .operand op :: stack⟩
  | .binary op left right => ⟨.expr left, args, locals, .left op right :: stack⟩
  | .select cond yes no => ⟨.expr cond, args, locals, .choose yes no :: stack⟩
  | .call name exprs =>
    match lookup name with
    | none => ⟨.fault (.unknownFunction name), args, locals, stack⟩
    | some callee =>
      if callee.paramTypes.length ≠ exprs.length then
        ⟨.fault (.arityMismatch name callee.paramTypes.length exprs.length), args, locals, stack⟩
      else ⟨.args name callee [] callee.paramTypes exprs, args, locals, stack⟩

def openArgs (args : List Value) (locals : Locals) (stack : List Frame) (name : String) (callee : Definition)
    (known : List Value) : List ValueType → List Expr → State
  | type :: types, e :: rest =>
    if type = .floatArray then
      match (envAt lookup context 0 args).arrayFor name e with
      | .error cause => ⟨.fault cause, args, locals, stack⟩
      | .ok v => ⟨.args name callee (known ++ [v]) types rest, args, locals, stack⟩
    else ⟨.expr e, args, locals, .arg name callee known type types rest :: stack⟩
  | _, _ => ⟨.enter callee known, args, locals, stack⟩

def openCall (args : List Value) (locals : Locals) (stack : List Frame) (callee : Definition) (values : List Value) :
    State :=
  if maxCallDepth ≤ calls stack then ⟨.fault .stackOverflow, args, locals, stack⟩
  else
    match callee.body with
    | .kernel body =>
      ⟨.block body.stmts, values, Array.replicate body.locals 0.0, .call callee args locals :: stack⟩
    | .native _ apply => ⟨.value (returned callee (apply (values.map Value.number))), args, locals, stack⟩

def openStmt (args : List Value) (locals : Locals) (stack : List Frame) : Stmt → State
  | .declare slot value => ⟨.expr value, args, locals, .write slot :: stack⟩
  | .assign slot value => ⟨.expr value, args, locals, .write slot :: stack⟩
  | .loop counter start stop body => ⟨.expr start, args, locals, .start counter stop body :: stack⟩
  | .branch cond yes no => ⟨.expr cond, args, locals, .branch yes no :: stack⟩
  | .ret value => ⟨.expr value, args, locals, .give :: stack⟩

def openTurn (args : List Value) (locals : Locals) (stack : List Frame) (counter : Nat) (stop : Expr) (body : List Stmt)
    (completed : Nat) : State :=
  if completed < maxIterations then ⟨.block body, args, locals, .turn counter stop body completed :: stack⟩
  else ⟨.fault .loopLimit, args, locals, stack⟩

-- A value arrives at the frame on top. Only expressions and the heads of statements wait for one.
def resume (args : List Value) (locals : Locals) (stack : List Frame) (v : Float) : Frame → Option State
  | .operand op => some ⟨.value (op.apply v), args, locals, stack⟩
  | .left op right => some ⟨.expr right, args, locals, .right op v :: stack⟩
  | .right op left => some ⟨.value (op.apply left v), args, locals, stack⟩
  | .choose yes no => some ⟨.expr (if isTrue v then yes else no), args, locals, stack⟩
  | .index view known rest => some ⟨.indices view (known ++ [v]) rest, args, locals, stack⟩
  | .arg name callee known type types rest =>
    some ⟨.args name callee (known ++ [passed type v]) types rest, args, locals, stack⟩
  | .write slot =>
    match locals.write slot v with
    | .ok after => some ⟨.next, args, after, stack⟩
    | .error e => some ⟨.fault e, args, locals, stack⟩
  | .give => some ⟨.done v, args, locals, stack⟩
  | .branch yes no => some ⟨.block (if isTrue v then yes else no), args, locals, stack⟩
  | .start counter stop body =>
    match locals.write counter v with
    | .ok entered => some ⟨.expr stop, args, entered, .test counter stop body 0 :: stack⟩
    | .error e => some ⟨.fault e, args, locals, stack⟩
  | .test counter stop body completed =>
    match locals.read counter with
    | .ok count =>
      if count < v then some (openTurn args locals stack counter stop body completed)
      else some ⟨.next, args, locals, stack⟩
    | .error e => some ⟨.fault e, args, locals, stack⟩
  | .call _ _ _ => none
  | .turn _ _ _ _ => none
  | .rest _ => none

def proceed (args : List Value) (locals : Locals) (stack : List Frame) : Frame → Option State
  | .rest stmts => some ⟨.block stmts, args, locals, stack⟩
  | .turn counter stop body completed =>
    match increment counter locals with
    | .ok after => some ⟨.expr stop, args, after, .test counter stop body (completed + 1) :: stack⟩
    | .error e => some ⟨.fault e, args, locals, stack⟩
  | .call _ outer saved => some ⟨.fault .missingReturn, outer, saved, stack⟩
  | _ => none

-- A return leaves blocks and loops behind, up to the call.
def leave (args : List Value) (locals : Locals) (stack : List Frame) (v : Float) : Frame → Option State
  | .rest _ => some ⟨.done v, args, locals, stack⟩
  | .turn _ _ _ _ => some ⟨.done v, args, locals, stack⟩
  | .call callee outer saved => some ⟨.value (returned callee v), outer, saved, stack⟩
  | _ => none

def unwind (args : List Value) (locals : Locals) (stack : List Frame) (e : EvalError) : Frame → State
  | .call _ outer saved => ⟨.fault e, outer, saved, stack⟩
  | _ => ⟨.fault e, args, locals, stack⟩

def step : State → Option State
  | ⟨.expr e, args, locals, stack⟩ => some (openExpr lookup context args locals stack e)
  | ⟨.indices view known [], args, locals, stack⟩ => some ⟨.ofResult (view.load known), args, locals, stack⟩
  | ⟨.indices view known (e :: rest), args, locals, stack⟩ => some ⟨.expr e, args, locals, .index view known rest :: stack⟩
  | ⟨.args name callee known types rest, args, locals, stack⟩ =>
    some (openArgs lookup context args locals stack name callee known types rest)
  | ⟨.enter callee values, args, locals, stack⟩ => some (openCall args locals stack callee values)
  | ⟨.stmt s, args, locals, stack⟩ => some (openStmt args locals stack s)
  | ⟨.block [], args, locals, stack⟩ => some ⟨.next, args, locals, stack⟩
  | ⟨.block (s :: rest), args, locals, stack⟩ => some ⟨.stmt s, args, locals, .rest rest :: stack⟩
  | ⟨.value v, args, locals, frame :: stack⟩ => resume args locals stack v frame
  | ⟨.next, args, locals, frame :: stack⟩ => proceed args locals stack frame
  | ⟨.done v, args, locals, frame :: stack⟩ => leave args locals stack v frame
  | ⟨.fault e, args, locals, frame :: stack⟩ => some (unwind args locals stack e frame)
  | ⟨_, _, _, []⟩ => none

def Reaches : State → State → Prop := Relation.ReflTransGen fun a b => step lookup context a = some b

end Machine

def State.start (body : Body) (args : List Value) : State :=
  ⟨.block body.stmts, args, Array.replicate body.locals 0.0, []⟩

def State.result? : State → Option (Except EvalError Float)
  | ⟨.done v, _, _, []⟩ => some (.ok v)
  | ⟨.next, _, _, []⟩ => some (.error .missingReturn)
  | ⟨.fault e, _, _, []⟩ => some (.error e)
  | _ => none

end Stepwise

namespace Env

variable (env : Env) (locals : Locals) (callee : String)

theorem evalArgs_array {α : Type} (types : List ValueType) (e : Expr) (es : List Expr)
    (next : List Value → Except EvalError α) :
    env.evalArgs locals callee (.floatArray :: types) (e :: es) >>= next = env.arrayFor callee e >>= fun value =>
      env.evalArgs locals callee types es >>= fun values => next (value :: values) := by
  simp only [Env.evalArgs, bind_assoc]
  rfl

theorem evalArgs_scalar {α : Type} (type : ValueType) (scalar : type ≠ .floatArray) (types : List ValueType) (e : Expr)
    (es : List Expr) (next : List Value → Except EvalError α) :
    env.evalArgs locals callee (type :: types) (e :: es) >>= next = env.eval locals e >>= fun v =>
      env.evalArgs locals callee types es >>= fun values => next (Stepwise.passed type v :: values) := by
  cases type with
  | floatArray => exact absurd rfl scalar
  | int | float =>
    simp only [Env.evalArgs, bind_assoc]
    cases env.eval locals e <;> rfl

end Env

namespace Stepwise

section Simulation

variable {lookup : String → Option Definition} {context : Context} {left : Nat}

theorem Reaches.head {a b c : State} (first : step lookup context a = some b) (later : Reaches lookup context b c) :
    Reaches lookup context a c := Relation.ReflTransGen.head first later

theorem Reaches.one {a b : State} (first : step lookup context a = some b) : Reaches lookup context a b :=
  Relation.ReflTransGen.single first

theorem Reaches.trans {a b c : State} (first : Reaches lookup context a b) (later : Reaches lookup context b c) :
    Reaches lookup context a c := Relation.ReflTransGen.trans first later

theorem unwind_plain {args : List Value} {locals : Locals} {stack : List Frame} {e : EvalError} {frame : Frame}
    (plain : frame.calls = 0) : unwind args locals stack e frame = ⟨.fault e, args, locals, stack⟩ := by
  cases frame with
  | call => cases plain
  | _ => rfl

variable (lookup context)

-- A computation ends where it began, its result in the place of it.
def Gives (control : Control) (args : List Value) (locals : Locals) (stack : List Frame) (r : Except EvalError Float) : Prop :=
  Reaches lookup context ⟨control, args, locals, stack⟩ ⟨.ofResult r, args, locals, stack⟩

def Enters (left : Nat) : Prop := ∀ callee values args locals stack, calls stack + left = maxCallDepth →
  Gives lookup context (.enter callee values) args locals stack (enter lookup context left callee values)

variable {lookup context}

theorem Gives.bind {control : Control} {args : List Value} {locals : Locals} {stack : List Frame} {frame : Frame}
    {r : Except EvalError Float} (first : Gives lookup context control args locals (frame :: stack) r)
    (plain : frame.calls = 0) {next : Float → Except EvalError Float}
    (later : ∀ v, Reaches lookup context ⟨.value v, args, locals, frame :: stack⟩ ⟨.ofResult (next v), args, locals, stack⟩) :
    Reaches lookup context ⟨control, args, locals, frame :: stack⟩ ⟨.ofResult (r >>= next), args, locals, stack⟩ := by
  cases r with
  | ok v => exact first.trans (later v)
  | error e =>
    refine first.trans (.one ?_)
    change some (unwind args locals stack e frame) = _
    rw [unwind_plain plain]
    rfl

section Expressions

variable (args : List Value) (locals : Locals)

mutual

theorem eval_steps (enters : Enters lookup context left) (e : Expr) (stack : List Frame)
    (room : calls stack + left = maxCallDepth) :
    Gives lookup context (.expr e) args locals stack ((envAt lookup context left args).eval locals e) := by
  cases e with
  | const v | param index | var slot | thread axis | extent axis =>
    simp only [Env.eval]
    exact .one rfl
  | index param indices =>
    simp only [Env.eval]
    cases known : (envAt lookup context left args).arrayArg? param with
    | none =>
      have absent : (envAt lookup context 0 args).arrayArg? param = none := known
      refine .one ?_
      simp only [step, openExpr, absent]
      rfl
    | some view =>
      have present : (envAt lookup context 0 args).arrayArg? param = some view := known
      refine .head (b := ⟨.indices view [] indices, args, locals, stack⟩) ?_
        (evalAll_steps enters indices view [] stack room)
      simp only [step, openExpr, present]
  | unary op input =>
    simp only [Env.eval]
    refine .head rfl ((eval_steps enters input (.operand op :: stack) room).bind rfl ?_)
    intro v
    exact .one rfl
  | binary op first second =>
    simp only [Env.eval]
    refine .head rfl ((eval_steps enters first (.left op second :: stack) room).bind rfl ?_)
    intro a
    refine .head rfl ((eval_steps enters second (.right op a :: stack) room).bind rfl ?_)
    intro b
    exact .one rfl
  | select cond yes no =>
    simp only [Env.eval]
    refine .head rfl ((eval_steps enters cond (.choose yes no :: stack) room).bind rfl ?_)
    intro c
    refine .head rfl ?_
    split
    · exact eval_steps enters yes stack room
    · exact eval_steps enters no stack room
  | call name exprs =>
    simp only [Env.eval]
    cases found : lookup name with
    | none =>
      have absent : (envAt lookup context left args).lookup name = none := found
      rw [absent]
      refine .one ?_
      simp only [step, openExpr, found]
      rfl
    | some callee =>
      have present : (envAt lookup context left args).lookup name = some callee := found
      rw [present]
      dsimp only
      split
      · rename_i apart
        refine .one ?_
        simp only [step, openExpr, found, if_pos apart]
        rfl
      · rename_i same
        refine .head (b := ⟨.args name callee [] callee.paramTypes exprs, args, locals, stack⟩) ?_
          (evalArgs_steps enters exprs name callee [] callee.paramTypes stack room)
        simp only [step, openExpr, found, if_neg same]

theorem evalAll_steps (enters : Enters lookup context left) (es : List Expr) (view : View) (known : List Float)
    (stack : List Frame) (room : calls stack + left = maxCallDepth) :
    Gives lookup context (.indices view known es) args locals stack
      ((envAt lookup context left args).evalAll locals es >>= fun values => view.load (known ++ values)) := by
  cases es with
  | nil =>
    simp only [Env.evalAll, bind, Except.bind, List.append_nil]
    exact .one rfl
  | cons e es =>
    have chain : ((envAt lookup context left args).evalAll locals (e :: es) >>= fun values =>
        view.load (known ++ values)) = (envAt lookup context left args).eval locals e >>= fun v =>
        (envAt lookup context left args).evalAll locals es >>= fun values => view.load (known ++ [v] ++ values) := by
      simp only [Env.evalAll, bind_assoc, List.append_assoc, List.singleton_append]
      rfl
    rw [chain]
    refine .head rfl ((eval_steps enters e (.index view known es :: stack) room).bind rfl ?_)
    intro v
    exact .head rfl (evalAll_steps enters es view (known ++ [v]) stack room)

theorem evalArgs_steps (enters : Enters lookup context left) (es : List Expr) (name : String) (callee : Definition)
    (known : List Value) (types : List ValueType) (stack : List Frame) (room : calls stack + left = maxCallDepth) :
    Gives lookup context (.args name callee known types es) args locals stack
      ((envAt lookup context left args).evalArgs locals name types es >>= fun values =>
        enter lookup context left callee (known ++ values)) := by
  have entered := enters callee known args locals stack room
  cases es with
  | nil =>
    simp only [Env.evalArgs, bind, Except.bind, List.append_nil]
    exact .head (by cases types <;> rfl) entered
  | cons e es =>
    cases types with
    | nil =>
      simp only [Env.evalArgs, bind, Except.bind, List.append_nil]
      exact .head rfl entered
    | cons type types =>
      have later (value : Value) := evalArgs_steps enters es name callee (known ++ [value]) types stack room
      simp only [List.append_assoc, List.singleton_append] at later
      by_cases array : type = .floatArray
      · subst array
        rw [Env.evalArgs_array]
        have same : (envAt lookup context 0 args).arrayFor name e = (envAt lookup context left args).arrayFor name e := rfl
        cases given : (envAt lookup context left args).arrayFor name e with
        | error cause =>
          refine .one ?_
          simp only [step, openArgs, same, given, if_true]
          rfl
        | ok value =>
          refine .head ?_ (later value)
          simp only [step, openArgs, same, given, if_true]
      · rw [Env.evalArgs_scalar _ _ _ _ array]
        refine .head (b := ⟨.expr e, args, locals, .arg name callee known type types es :: stack⟩) ?_ ?_
        · simp only [step, openArgs, if_neg array]
        refine (eval_steps enters e (.arg name callee known type types es :: stack) room).bind rfl ?_
        intro v
        exact .head rfl (later (passed type v))

end

end Expressions

variable (lookup context)

-- How statements end that were to run with the given arguments on a stack. Locals last only to the end of the body.
def Finishes (s : State) (args : List Value) (stack : List Frame) : Except EvalError Flow → Prop
  | .ok (.next after) => Reaches lookup context s ⟨.next, args, after, stack⟩
  | .ok (.done v) => ∃ locals, Reaches lookup context s ⟨.done v, args, locals, stack⟩
  | .error e => ∃ locals, Reaches lookup context s ⟨.fault e, args, locals, stack⟩

variable {lookup context} {args : List Value} {stack : List Frame}

theorem Finishes.after {s t : State} {r : Except EvalError Flow} (first : Reaches lookup context s t)
    (later : Finishes lookup context t args stack r) : Finishes lookup context s args stack r := by
  cases r with
  | error e => exact later.imp fun _ ends => first.trans ends
  | ok flow =>
    cases flow with
    | next after => exact first.trans later
    | done v => exact later.imp fun _ ends => first.trans ends

theorem Finishes.head {s t : State} {r : Except EvalError Flow} (first : step lookup context s = some t)
    (later : Finishes lookup context t args stack r) : Finishes lookup context s args stack r := .after (.one first) later

-- A read or a write takes no step of its own: the step that makes it fails or goes on.
theorem Finishes.access {α : Type} {s : State} {r : Except EvalError α} {next : α → Except EvalError Flow} (locals : Locals)
    (fails : ∀ e, r = .error e → step lookup context s = some ⟨.fault e, args, locals, stack⟩)
    (goes : ∀ a, r = .ok a → Finishes lookup context s args stack (next a)) :
    Finishes lookup context s args stack (r >>= next) := by
  cases r with
  | error e => exact ⟨locals, .one (fails e rfl)⟩
  | ok a => exact goes a rfl

theorem Gives.andThen {control : Control} {locals : Locals} {frame : Frame} {r : Except EvalError Float}
    (first : Gives lookup context control args locals (frame :: stack) r) (plain : frame.calls = 0)
    {next : Float → Except EvalError Flow}
    (later : ∀ v, Finishes lookup context ⟨.value v, args, locals, frame :: stack⟩ args stack (next v)) :
    Finishes lookup context ⟨control, args, locals, frame :: stack⟩ args stack (r >>= next) := by
  cases r with
  | ok v => exact .after first (later v)
  | error e =>
    refine ⟨locals, first.trans (.one ?_)⟩
    change some (unwind args locals stack e frame) = _
    rw [unwind_plain plain]

-- Statements wait in blocks and loops, which a return leaves.
theorem Finishes.andThen {s : State} {frame : Frame} {r : Except EvalError Flow}
    (first : Finishes lookup context s args (frame :: stack) r) (plain : frame.calls = 0)
    (leaves : ∀ v locals, leave args locals stack v frame = some ⟨.done v, args, locals, stack⟩)
    {next : Locals → Except EvalError Flow}
    (later : ∀ after, Finishes lookup context ⟨.next, args, after, frame :: stack⟩ args stack (next after)) :
    Finishes lookup context s args stack (r >>= Flow.andThen next) := by
  cases r with
  | error e =>
    obtain ⟨locals, ends⟩ := first
    refine ⟨locals, ends.trans (.one ?_)⟩
    change some (unwind args locals stack e frame) = _
    rw [unwind_plain plain]
  | ok flow =>
    cases flow with
    | next after => exact .after first (later after)
    | done v =>
      obtain ⟨locals, ends⟩ := first
      exact ⟨locals, ends.trans (.one (leaves v locals))⟩

theorem turn_andThen (env : Env) (counter : Nat) (body : List Stmt) (locals : Locals)
    (next : Locals → Except EvalError Flow) :
    (env.execBlock body locals >>= Env.advance counter) >>= Flow.andThen next =
      env.execBlock body locals >>= Flow.andThen fun after => increment counter after >>= next := by
  rw [bind_assoc]
  refine congrArg (env.execBlock body locals >>= ·) (funext ?_)
  intro flow
  cases flow with
  | done v => rfl
  | next after =>
    simp only [Env.advance, Flow.andThen, increment, bind_assoc]
    rfl

theorem test_steps (enters : Enters lookup context left) (counter : Nat) (stop : Expr) (body : List Stmt)
    (room : calls stack + left = maxCallDepth) (completed : Nat) (locals : Locals) {more : Except EvalError Flow}
    (turns : Finishes lookup context (openTurn args locals stack counter stop body completed) args stack more) :
    Finishes lookup context ⟨.expr stop, args, locals, .test counter stop body completed :: stack⟩ args stack
      ((envAt lookup context left args).below counter stop locals >>= fun again =>
        if again then more else .ok (.next locals)) := by
  simp only [Env.below, bind_assoc]
  refine (eval_steps args locals enters stop (.test counter stop body completed :: stack) room).andThen rfl ?_
  intro bound
  refine .access locals ?_ ?_
  · intro e count
    simp only [step, resume, count]
  · intro v count
    change Finishes _ _ _ _ _ (if decide (v < bound) = true then more else .ok (.next locals))
    simp only [decide_eq_true_eq]
    split
    · rename_i less
      refine .head ?_ turns
      simp only [step, resume, count, if_pos less]
    · rename_i reached
      refine .one ?_
      simp only [step, resume, count, if_neg reached]

theorem iterate_steps (enters : Enters lookup context left) (counter : Nat) (stop : Expr) (body : List Stmt)
    (room : calls stack + left = maxCallDepth)
    (runs : ∀ locals stack, calls stack + left = maxCallDepth → Finishes lookup context ⟨.block body, args, locals, stack⟩
      args stack ((envAt lookup context left args).execBlock body locals))
    (budget completed : Nat) (total : completed + budget = maxIterations) (locals : Locals) :
    Finishes lookup context ⟨.expr stop, args, locals, .test counter stop body completed :: stack⟩ args stack
      (Env.iterate ((envAt lookup context left args).below counter stop)
        (fun locals => (envAt lookup context left args).execBlock body locals >>= Env.advance counter) budget locals) := by
  induction budget generalizing completed locals with
  | zero =>
    rw [Env.iterate_zero]
    apply test_steps enters counter stop body room
    rw [openTurn, if_neg (by omega)]
    exact ⟨locals, .refl⟩
  | succ budget ih =>
    rw [Env.iterate_succ]
    apply test_steps enters counter stop body room
    rw [openTurn, if_pos (by omega), turn_andThen]
    refine (runs locals (.turn counter stop body completed :: stack) room).andThen rfl (fun _ _ => rfl) ?_
    intro after
    refine .access after ?_ ?_
    · intro e counted
      simp only [step, proceed, counted]
    · intro advanced counted
      refine .head ?_ (ih (completed + 1) (by omega) advanced)
      simp only [step, proceed, counted]

mutual

theorem exec_steps (enters : Enters lookup context left) (s : Stmt) (locals : Locals) (stack : List Frame)
    (room : calls stack + left = maxCallDepth) :
    Finishes lookup context ⟨.stmt s, args, locals, stack⟩ args stack ((envAt lookup context left args).exec s locals) := by
  cases s with
  | declare slot value | assign slot value =>
    simp only [Env.exec]
    refine .head rfl ((eval_steps args locals enters value (.write slot :: stack) room).andThen rfl ?_)
    intro v
    refine .access locals ?_ ?_
    · intro e written
      simp only [step, resume, written]
    · intro after written
      refine .one ?_
      simp only [step, resume, written]
  | loop counter start stop body =>
    simp only [Env.exec]
    refine .head rfl ((eval_steps args locals enters start (.start counter stop body :: stack) room).andThen rfl ?_)
    intro v
    refine .access locals ?_ ?_
    · intro e written
      simp only [step, resume, written]
    · intro entered written
      refine .head ?_ (iterate_steps enters counter stop body room
        (fun locals stack room => execBlock_steps enters body locals stack room) maxIterations 0 (Nat.zero_add _) entered)
      simp only [step, resume, written]
  | branch cond yes no =>
    simp only [Env.exec]
    refine .head rfl ((eval_steps args locals enters cond (.branch yes no :: stack) room).andThen rfl ?_)
    intro c
    refine .head rfl ?_
    split
    · exact execBlock_steps enters yes locals stack room
    · exact execBlock_steps enters no locals stack room
  | ret value =>
    simp only [Env.exec]
    refine .head rfl ((eval_steps args locals enters value (.give :: stack) room).andThen rfl ?_)
    intro v
    exact ⟨locals, .one rfl⟩

theorem execBlock_steps (enters : Enters lookup context left) (stmts : List Stmt) (locals : Locals) (stack : List Frame)
    (room : calls stack + left = maxCallDepth) :
    Finishes lookup context ⟨.block stmts, args, locals, stack⟩ args stack
      ((envAt lookup context left args).execBlock stmts locals) := by
  cases stmts with
  | nil =>
    simp only [Env.execBlock]
    exact .one rfl
  | cons s rest =>
    rw [Env.execBlock_cons]
    refine .head rfl ((exec_steps enters s locals (.rest rest :: stack) room).andThen rfl (fun _ _ => rfl) ?_)
    intro after
    exact .head rfl (execBlock_steps enters rest after stack room)

end

variable (lookup context)

-- By induction on the calls that are left: the body of the callee has one less.
theorem enter_steps (left : Nat) : Enters lookup context left := by
  induction left with
  | zero =>
    intro callee values args locals stack room
    have full : maxCallDepth ≤ calls stack := by omega
    refine .one ?_
    simp only [step, openCall, if_pos full]
    rfl
  | succ left ih =>
    intro callee values args locals stack room
    have inside : ¬ maxCallDepth ≤ calls stack := by omega
    rw [enter]
    cases runs : callee.body with
    | native family apply =>
      refine .one ?_
      simp only [step, openCall, if_neg inside, runs]
      rfl
    | kernel body =>
      have deeper : calls (.call callee args locals :: stack) + left = maxCallDepth := by
        simp only [calls, Frame.calls]
        omega
      have ends : Finishes lookup context ⟨.block body.stmts, values, Array.replicate body.locals 0.0, _⟩ values _ _ :=
        execBlock_steps ih body.stmts (Array.replicate body.locals 0.0) (.call callee args locals :: stack) deeper
      refine .head (b := ⟨.block body.stmts, values, Array.replicate body.locals 0.0, .call callee args locals :: stack⟩) ?_ ?_
      · simp only [step, openCall, if_neg inside, runs]
      change Reaches lookup context _ ⟨.ofResult (((envAt lookup context left values).runFrom body.stmts _).map _), _, _, _⟩
      rw [Env.runFrom_eq]
      cases flow : (envAt lookup context left values).execBlock body.stmts (Array.replicate body.locals 0.0) with
      | error e =>
        rw [flow] at ends
        obtain ⟨after, ends⟩ := ends
        exact ends.trans (.one rfl)
      | ok ended =>
        rw [flow] at ends
        cases ended with
        | next after => exact Reaches.trans ends (.one rfl)
        | done v =>
          obtain ⟨after, ends⟩ := ends
          exact ends.trans (.one rfl)

theorem start_reaches (body : Body) (args : List Value) : ∃ s, Reaches lookup context (.start body args) s ∧
    step lookup context s = none ∧ s.result? = some (evaluate lookup context body args) := by
  have ends : Finishes lookup context (.start body args) args [] _ := execBlock_steps
    (enter_steps lookup context maxCallDepth) body.stmts (Array.replicate body.locals 0.0) [] (Nat.zero_add _)
  change ∃ s, _ ∧ _ ∧ _ = some ((envAt lookup context maxCallDepth args).runFrom body.stmts _)
  rw [Env.runFrom_eq]
  cases flow : (envAt lookup context maxCallDepth args).execBlock body.stmts (Array.replicate body.locals 0.0) with
  | error e =>
    rw [flow] at ends
    obtain ⟨after, ends⟩ := ends
    exact ⟨_, ends, rfl, rfl⟩
  | ok ended =>
    rw [flow] at ends
    cases ended with
    | next after => exact ⟨_, ends, rfl, rfl⟩
    | done v =>
      obtain ⟨after, ends⟩ := ends
      exact ⟨_, ends, rfl, rfl⟩

end Simulation

end Stepwise

end GridKernel
