import GridKernel.Proofs.Eval.Stepwise
import GridKernel.Proofs.Eval.Views
import GridKernel.Proofs.Outcome

namespace GridKernel

namespace Env

variable (env : Env) (counter : Nat) (stop : Expr) (body : List Stmt) (entered : Locals)

-- The locals after some completed iterations, counted without a limit.
inductive AfterTurns : Nat → Locals → Prop
  | entry : AfterTurns 0 entered
  | turn {completed : Nat} {locals after advanced : Locals} (before : AfterTurns completed locals)
      (test : env.below counter stop locals = .ok true) (ran : env.execBlock body locals = .ok (.next after))
      (counted : Stepwise.increment counter after = .ok advanced) : AfterTurns (completed + 1) advanced

inductive Ends : Nat → Except EvalError Flow → Prop
  | leaves {runs : Nat} {locals : Locals} (before : AfterTurns env counter stop body entered runs locals)
      (test : env.below counter stop locals = .ok false) : Ends runs (.ok (.next locals))
  | untested {runs : Nat} {locals : Locals} {e : EvalError} (before : AfterTurns env counter stop body entered runs locals)
      (test : env.below counter stop locals = .error e) : Ends runs (.error e)
  | returns {completed : Nat} {locals : Locals} {v : Float} (before : AfterTurns env counter stop body entered completed locals)
      (test : env.below counter stop locals = .ok true) (ran : env.execBlock body locals = .ok (.done v)) :
      Ends (completed + 1) (.ok (.done v))
  | fails {completed : Nat} {locals : Locals} {e : EvalError} (before : AfterTurns env counter stop body entered completed locals)
      (test : env.below counter stop locals = .ok true) (ran : env.execBlock body locals = .error e) :
      Ends (completed + 1) (.error e)
  | uncounted {completed : Nat} {locals after : Locals} {e : EvalError}
      (before : AfterTurns env counter stop body entered completed locals)
      (test : env.below counter stop locals = .ok true) (ran : env.execBlock body locals = .ok (.next after))
      (lost : Stepwise.increment counter after = .error e) : Ends (completed + 1) (.error e)

def Exhausts : Prop :=
  ∃ locals, AfterTurns env counter stop body entered maxIterations locals ∧ env.below counter stop locals = .ok true

variable {env counter stop body entered}

theorem AfterTurns.unique {k : Nat} {first second : Locals} (one : AfterTurns env counter stop body entered k first)
    (other : AfterTurns env counter stop body entered k second) : first = second := by
  induction one generalizing second with
  | entry =>
    cases other
    rfl
  | turn before test ran counted ih =>
    cases other with
    | turn before' test' ran' counted' =>
      cases ih before'
      cases ran.symm.trans ran'
      exact Except.ok.inj (counted.symm.trans counted')

theorem AfterTurns.completed {n k : Nat} {last locals : Locals} (later : AfterTurns env counter stop body entered n last)
    (less : k < n) (here : AfterTurns env counter stop body entered k locals) :
    env.below counter stop locals = .ok true ∧ ∃ after advanced, env.execBlock body locals = .ok (.next after) ∧
      Stepwise.increment counter after = .ok advanced := by
  induction later with
  | entry => omega
  | @turn completed before' after advanced before test ran counted ih =>
    rcases Nat.lt_succ_iff_lt_or_eq.mp less with earlier | rfl
    · exact ih earlier
    · cases here.unique before
      exact ⟨test, after, advanced, ran, counted⟩

theorem Ends.not_exhausts {runs : Nat} {r : Except EvalError Flow} (ends : Ends env counter stop body entered runs r)
    (within : runs ≤ maxIterations) : ¬ Exhausts env counter stop body entered := by
  rintro ⟨last, later, holds⟩
  have test {k : Nat} {locals : Locals} (here : AfterTurns env counter stop body entered k locals) (le : k ≤ maxIterations) :
      env.below counter stop locals = .ok true := by
    rcases Nat.lt_or_eq_of_le le with less | rfl
    · exact (later.completed less here).1
    · exact here.unique later ▸ holds
  cases ends with
  | leaves before stops => cases stops.symm.trans (test before within)
  | untested before stops => cases stops.symm.trans (test before within)
  | returns before _ ran =>
    obtain ⟨_, _, _, again, _⟩ := later.completed within before
    cases ran.symm.trans again
  | fails before _ ran =>
    obtain ⟨_, _, _, again, _⟩ := later.completed within before
    cases ran.symm.trans again
  | uncounted before _ ran lost =>
    obtain ⟨_, _, _, again, counted⟩ := later.completed within before
    cases ran.symm.trans again
    cases lost.symm.trans counted

theorem Ends.of_test {runs : Nat} {locals : Locals} (here : AfterTurns env counter stop body entered runs locals)
    {more r : Except EvalError Flow} (result : (env.below counter stop locals >>= fun again =>
      if again then more else .ok (.next locals)) = r) :
    Ends env counter stop body entered runs r ∨ env.below counter stop locals = .ok true ∧ more = r := by
  cases test : env.below counter stop locals with
  | error e =>
    rw [test] at result
    cases result
    exact .inl (.untested here test)
  | ok again =>
    rw [test] at result
    cases again with
    | false =>
      cases result
      exact .inl (.leaves here test)
    | true => exact .inr ⟨rfl, result⟩

theorem Ends.of_turn {completed : Nat} {locals : Locals} (here : AfterTurns env counter stop body entered completed locals)
    (test : env.below counter stop locals = .ok true) {more : Locals → Except EvalError Flow} {r : Except EvalError Flow}
    (result : (env.execBlock body locals >>= advance counter) >>= Flow.andThen more = r) :
    Ends env counter stop body entered (completed + 1) r ∨
      ∃ advanced, AfterTurns env counter stop body entered (completed + 1) advanced ∧ more advanced = r := by
  rw [Stepwise.turn_andThen] at result
  cases ran : env.execBlock body locals with
  | error e =>
    rw [ran] at result
    cases result
    exact .inl (.fails here test ran)
  | ok flow =>
    rw [ran] at result
    cases flow with
    | done v =>
      cases result
      exact .inl (.returns here test ran)
    | next after =>
      change Stepwise.increment counter after >>= more = r at result
      cases counted : Stepwise.increment counter after with
      | error e =>
        rw [counted] at result
        cases result
        exact .inl (.uncounted here test ran counted)
      | ok advanced =>
        rw [counted] at result
        exact .inr ⟨advanced, .turn here test ran counted, result⟩

theorem exec_loop {start : Expr} {locals : Locals} {first : Float} (begun : env.eval locals start = .ok first)
    (written : locals.write counter first = .ok entered) : env.exec (.loop counter start stop body) locals =
      iterate (env.below counter stop) (fun l => env.execBlock body l >>= advance counter) maxIterations entered := by
  rw [exec, begun]
  simp only [bind, Except.bind, written]

-- By induction on the iterations that are left: the loop ends here, or one more is completed.
theorem iterate_cases (budget completed : Nat) (total : completed + budget = maxIterations) (locals : Locals)
    (here : AfterTurns env counter stop body entered completed locals) {r : Except EvalError Flow}
    (result : Env.iterate (env.below counter stop) (fun l => env.execBlock body l >>= Env.advance counter) budget locals = r) :
    (∃ runs ≤ maxIterations, Ends env counter stop body entered runs r) ∨
      Exhausts env counter stop body entered ∧ r = .error .loopLimit := by
  induction budget generalizing completed locals with
  | zero =>
    rw [iterate_zero] at result
    have all : completed = maxIterations := total
    subst all
    rcases Ends.of_test here result with ends | ⟨test, rfl⟩
    · exact .inl ⟨_, Nat.le_refl _, ends⟩
    · exact .inr ⟨⟨locals, here, test⟩, rfl⟩
  | succ budget ih =>
    rw [iterate_succ] at result
    rcases Ends.of_test here result with ends | ⟨test, turns⟩
    · exact .inl ⟨completed, by omega, ends⟩
    · rcases Ends.of_turn here test turns with ends | ⟨advanced, there, rest⟩
      · exact .inl ⟨completed + 1, by omega, ends⟩
      · exact ih (completed + 1) (by omega) advanced there rest

end Env

namespace Stepwise

def Frame.Within : Frame → Prop
  | .test _ _ _ completed => completed ≤ maxIterations
  | .turn _ _ _ completed => completed < maxIterations
  | _ => True

structure Bounded (stack : List Frame) : Prop where
  calls : calls stack ≤ maxCallDepth
  loops : ∀ frame ∈ stack, frame.Within

variable {args : List Value} {locals : Locals} {stack : List Frame} {frame : Frame}

namespace Bounded

theorem tail (bounded : Bounded (frame :: stack)) : Bounded stack where
  calls := Nat.le_trans (Nat.le_add_right _ _) bounded.calls
  loops f member := bounded.loops f (List.mem_cons_of_mem _ member)

theorem push (bounded : Bounded stack) (room : Stepwise.calls stack + frame.calls ≤ maxCallDepth) (within : frame.Within) :
    Bounded (frame :: stack) where
  calls := room
  loops f member := by
    rcases List.mem_cons.mp member with rfl | below
    · exact within
    · exact bounded.loops f below

end Bounded

-- Within the limits, and no loop limit is on its way.
structure Plain (t : State) : Prop where
  bounded : Bounded t.stack
  limit : t.control ≠ .fault .loopLimit

def State.AtLimit (s : State) : Prop := ∃ counter stop body stack bound count, s.control = .value bound ∧
  s.stack = .test counter stop body maxIterations :: stack ∧ s.locals.read counter = .ok count ∧ count < bound

inductive Moves (s t : State) : Prop
  | goes (plain : Plain t) (sound : ∀ e, s.control ≠ .fault e) (early : ¬ s.AtLimit)
  | passes (e : EvalError) (bounded : Bounded t.stack) (failed : s.control = .fault e) (fails : t.control = .fault e)
  | exhausts (bounded : Bounded t.stack) (full : s.AtLimit) (fails : t.control = .fault .loopLimit)

namespace Moves

variable {s t : State}

theorem bounded (moves : Moves s t) : Bounded t.stack := by
  cases moves with
  | goes plain => exact plain.bounded
  | passes _ bounded => exact bounded
  | exhausts bounded => exact bounded

theorem limit_iff (moves : Moves s t) :
    t.control = .fault .loopLimit ↔ s.control = .fault .loopLimit ∨ s.AtLimit := by
  cases moves with
  | goes plain sound early => simp only [plain.limit, sound, early, or_self]
  | passes e _ failed fails =>
    have early : ¬ s.AtLimit := by
      rintro ⟨_, _, _, _, _, _, value, _⟩
      cases failed.symm.trans value
    simp only [failed, fails, early, or_false]
  | exhausts _ full fails => simp only [full, fails, or_true]

theorem unvalued (plain : Plain t) (sound : ∀ e, s.control ≠ .fault e) (unvalued : ∀ v, s.control ≠ .value v) :
    Moves s t := by
  refine .goes plain sound ?_
  rintro ⟨_, _, _, _, bound, _, value, _⟩
  exact unvalued bound value

end Moves

section Failures

theorem read_ne_limit (slot : Nat) : locals.read slot ≠ .error .loopLimit := by
  unfold Locals.read
  split <;> simp

theorem write_ne_limit (slot : Nat) (v : Float) : locals.write slot v ≠ .error .loopLimit := by
  unfold Locals.write
  split <;> simp

theorem increment_ne_limit (counter : Nat) : increment counter locals ≠ .error .loopLimit := by
  unfold increment
  cases count : locals.read counter with
  | error e =>
    intro failed
    cases failed
    exact read_ne_limit counter count
  | ok v => exact write_ne_limit counter (v + Whole.one)

theorem scalarArg_ne_limit (env : Env) (index : Nat) : env.scalarArg index ≠ .error .loopLimit := by
  unfold Env.scalarArg
  split <;> simp

theorem arrayFor_ne_limit (env : Env) (name : String) (e : Expr) : env.arrayFor name e ≠ .error .loopLimit := by
  unfold Env.arrayFor
  split
  · split <;> simp
  · simp

theorem load_ne_limit (view : View) (indices : List Float) : view.load indices ≠ .error .loopLimit := by
  intro failed
  cases View.load_error failed

theorem ofResult_ne_limit {r : Except EvalError Float} (sound : r ≠ .error .loopLimit) :
    Control.ofResult r ≠ .fault .loopLimit := by
  cases r with
  | ok v => simp [Control.ofResult]
  | error e =>
    intro failed
    cases failed
    exact sound rfl

theorem Plain.of_failed (bounded : Bounded stack) {α : Type} {r : Except EvalError α} (never : r ≠ .error .loopLimit)
    {e : EvalError} (failed : r = .error e) : Plain ⟨.fault e, args, locals, stack⟩ := by
  refine ⟨bounded, ?_⟩
  intro limit
  cases limit
  exact never failed

end Failures

section Steps

variable {lookup : String → Option Definition} {context : Context}

theorem openExpr_plain (bounded : Bounded stack) (e : Expr) : Plain (openExpr lookup context args locals stack e) := by
  cases e with
  | const | thread | extent => exact ⟨bounded, by simp [openExpr]⟩
  | param index => exact ⟨bounded, ofResult_ne_limit (scalarArg_ne_limit _ index)⟩
  | var slot => exact ⟨bounded, ofResult_ne_limit (read_ne_limit slot)⟩
  | unary | binary | select => exact ⟨bounded.push bounded.calls trivial, by simp [openExpr]⟩
  | index param indices =>
    simp only [openExpr]
    split <;> exact ⟨bounded, by simp⟩
  | call name exprs =>
    simp only [openExpr]
    split
    · exact ⟨bounded, by simp⟩
    · split <;> exact ⟨bounded, by simp⟩

theorem openArgs_plain (bounded : Bounded stack) (name : String) (callee : Definition) (known : List Value)
    (types : List ValueType) (rest : List Expr) :
    Plain (openArgs lookup context args locals stack name callee known types rest) := by
  unfold openArgs
  split
  · split
    · split
      · rename_i failed
        exact .of_failed bounded (arrayFor_ne_limit _ _ _) failed
      · exact ⟨bounded, by simp⟩
    · exact ⟨bounded.push bounded.calls trivial, by simp⟩
  · exact ⟨bounded, by simp⟩

theorem openCall_plain (bounded : Bounded stack) (callee : Definition) (values : List Value) :
    Plain (openCall args locals stack callee values) := by
  unfold openCall
  split
  · exact ⟨bounded, by simp⟩
  · rename_i room
    split
    · exact ⟨bounded.push (Nat.lt_of_not_le room) trivial, by simp⟩
    · exact ⟨bounded, by simp⟩

theorem openStmt_plain (bounded : Bounded stack) (s : Stmt) : Plain (openStmt args locals stack s) := by
  cases s <;> exact ⟨bounded.push bounded.calls trivial, by simp [openStmt]⟩

theorem resume_plain (bounded : Bounded stack) {v : Float} {t : State} (next : resume args locals stack v frame = some t)
    (other : ∀ counter stop body completed, frame ≠ .test counter stop body completed) : Plain t := by
  cases frame with
  | operand | right | choose | index | arg | give | branch =>
    cases next
    exact ⟨bounded, by simp⟩
  | left =>
    cases next
    exact ⟨bounded.push bounded.calls trivial, by simp⟩
  | call | turn | rest => cases next
  | write slot =>
    simp only [resume] at next
    split at next <;> cases next
    · exact ⟨bounded, by simp⟩
    · rename_i failed
      exact .of_failed bounded (write_ne_limit _ _) failed
  | start counter stop body =>
    simp only [resume] at next
    split at next <;> cases next
    · exact ⟨bounded.push bounded.calls (Nat.zero_le _), by simp⟩
    · rename_i failed
      exact .of_failed bounded (write_ne_limit _ _) failed
  | test counter stop body completed => exact absurd rfl (other counter stop body completed)

-- A test goes on, unless the counter is below the bound after all iterations.
theorem resume_moves (bounded : Bounded (frame :: stack)) {v : Float} {t : State}
    (next : resume args locals stack v frame = some t) : Moves ⟨.value v, args, locals, frame :: stack⟩ t := by
  have sound (e : EvalError) : (State.mk (.value v) args locals (frame :: stack)).control ≠ .fault e := by simp
  by_cases test : ∃ counter stop body completed, frame = .test counter stop body completed
  · obtain ⟨counter, stop, body, completed, rfl⟩ := test
    have within : completed ≤ maxIterations := bounded.loops _ List.mem_cons_self
    simp only [resume] at next
    cases count : locals.read counter with
    | error e =>
      simp only [count] at next
      cases next
      refine .goes (.of_failed bounded.tail (read_ne_limit counter) count) sound ?_
      rintro ⟨_, _, _, _, _, _, _, top, known, _⟩
      cases top
      cases count.symm.trans known
    | ok value =>
      simp only [count] at next
      split at next
      · rename_i less
        cases next
        unfold openTurn
        split
        · rename_i more
          refine .goes ⟨bounded.tail.push bounded.tail.calls more, by simp⟩ sound ?_
          rintro ⟨_, _, _, _, _, _, _, top, _, _⟩
          cases top
          exact Nat.lt_irrefl _ more
        · rename_i last
          have all : completed = maxIterations := Nat.le_antisymm within (Nat.le_of_not_lt last)
          subst all
          exact .exhausts bounded.tail ⟨counter, stop, body, stack, v, value, rfl, rfl, count, less⟩ rfl
      · rename_i reached
        cases next
        refine .goes ⟨bounded.tail, by simp⟩ sound ?_
        rintro ⟨_, _, _, _, _, _, value', top, known, less⟩
        cases value'
        cases top
        cases count.symm.trans known
        exact reached less
  · refine .goes (resume_plain bounded.tail next fun counter stop body completed top =>
      test ⟨counter, stop, body, completed, top⟩) sound ?_
    rintro ⟨counter, stop, body, _, _, _, _, top, _⟩
    cases top
    exact test ⟨counter, stop, body, maxIterations, rfl⟩

-- One more completed iteration is within the limit, since the turn was.
theorem proceed_plain (bounded : Bounded (frame :: stack)) {t : State} (next : proceed args locals stack frame = some t) :
    Plain t := by
  cases frame with
  | turn counter stop body completed =>
    have before : completed < maxIterations := bounded.loops _ List.mem_cons_self
    simp only [proceed] at next
    split at next <;> cases next
    · exact ⟨bounded.tail.push bounded.tail.calls before, by simp⟩
    · rename_i failed
      exact .of_failed bounded.tail (increment_ne_limit counter) failed
  | rest | call =>
    cases next
    exact ⟨bounded.tail, by simp⟩
  | _ => cases next

theorem leave_plain (bounded : Bounded stack) {v : Float} {t : State} (next : leave args locals stack v frame = some t) :
    Plain t := by
  cases frame with
  | rest | turn | call =>
    cases next
    exact ⟨bounded, by simp⟩
  | _ => cases next

theorem unwind_moves (bounded : Bounded stack) (e : EvalError) :
    Moves ⟨.fault e, args, locals, frame :: stack⟩ (unwind args locals stack e frame) := by
  cases frame <;> exact .passes e bounded rfl rfl

theorem step_moves {s t : State} (bounded : Bounded s.stack) (next : step lookup context s = some t) : Moves s t := by
  obtain ⟨control, args, locals, stack⟩ := s
  cases control with
  | expr e =>
    cases next
    exact .unvalued (openExpr_plain bounded e) (by simp) (by simp)
  | indices view known rest =>
    cases rest with
    | nil =>
      cases next
      exact .unvalued ⟨bounded, ofResult_ne_limit (load_ne_limit view known)⟩ (by simp) (by simp)
    | cons e rest =>
      cases next
      exact .unvalued ⟨bounded.push bounded.calls trivial, by simp⟩ (by simp) (by simp)
  | args name callee known types rest =>
    cases next
    exact .unvalued (openArgs_plain bounded name callee known types rest) (by simp) (by simp)
  | enter callee values =>
    cases next
    exact .unvalued (openCall_plain bounded callee values) (by simp) (by simp)
  | stmt s =>
    cases next
    exact .unvalued (openStmt_plain bounded s) (by simp) (by simp)
  | block stmts =>
    cases stmts with
    | nil =>
      cases next
      exact .unvalued ⟨bounded, by simp⟩ (by simp) (by simp)
    | cons s rest =>
      cases next
      exact .unvalued ⟨bounded.push bounded.calls trivial, by simp⟩ (by simp) (by simp)
  | value v =>
    cases stack with
    | nil => cases next
    | cons frame stack => exact resume_moves bounded next
  | next =>
    cases stack with
    | nil => cases next
    | cons frame stack => exact .unvalued (proceed_plain bounded next) (by simp) (by simp)
  | done v =>
    cases stack with
    | nil => cases next
    | cons frame stack => exact .unvalued (leave_plain bounded.tail next) (by simp) (by simp)
  | fault e =>
    cases stack with
    | nil => cases next
    | cons frame stack =>
      cases next
      exact unwind_moves bounded.tail e

theorem reached_bounded {body : Body} {s : State} (reached : Reaches lookup context (.start body args) s) :
    Bounded s.stack := by
  induction reached with
  | refl => exact ⟨Nat.zero_le _, fun _ none => nomatch none⟩
  | tail _ next bounded => exact (step_moves bounded next).bounded

-- Steps are determined, so a way that comes to rest is the only one.
theorem no_endless_run {a s : State} (reached : Reaches lookup context a s) (rests : step lookup context s = none) :
    ¬ ∃ run : Nat → State, run 0 = a ∧ ∀ n, step lookup context (run n) = some (run (n + 1)) := by
  induction reached using Relation.ReflTransGen.head_induction_on with
  | refl =>
    rintro ⟨run, rfl, next⟩
    cases rests.symm.trans (next 0)
  | @head a b first _ ih =>
    rintro ⟨run, rfl, next⟩
    exact ih ⟨fun n => run (n + 1), Option.some.inj ((next 0).symm.trans first), fun n => next (n + 1)⟩

end Steps

section Loops

variable {lookup : String → Option Definition} {context : Context} {left : Nat} {counter : Nat} {stop : Expr}
  {body : List Stmt} {entered : Locals}

theorem below_eq_true {env : Env} (test : env.below counter stop locals = .ok true) : ∃ bound count,
    env.eval locals stop = .ok bound ∧ locals.read counter = .ok count ∧ count < bound := by
  obtain ⟨bound, evaluated, rest⟩ := bind_eq_ok test
  obtain ⟨count, known, less⟩ := bind_eq_ok rest
  exact ⟨bound, count, evaluated, known, of_decide_eq_true (Except.ok.inj less)⟩

theorem test_reaches (body : List Stmt) (room : calls stack + left = maxCallDepth) (completed : Nat)
    (test : (envAt lookup context left args).below counter stop locals = .ok true) : ∃ bound count,
    Reaches lookup context ⟨.expr stop, args, locals, .test counter stop body completed :: stack⟩
      ⟨.value bound, args, locals, .test counter stop body completed :: stack⟩ ∧
    locals.read counter = .ok count ∧ count < bound := by
  obtain ⟨bound, count, evaluated, known, less⟩ := below_eq_true test
  have steps := eval_steps args locals (enter_steps lookup context left) stop (.test counter stop body completed :: stack) room
  rw [evaluated] at steps
  exact ⟨bound, count, steps, known, less⟩

theorem loop_enters (room : calls stack + left = maxCallDepth) {start : Expr} {first : Float}
    (begun : (envAt lookup context left args).eval locals start = .ok first)
    (written : locals.write counter first = .ok entered) :
    Reaches lookup context ⟨.stmt (.loop counter start stop body), args, locals, stack⟩
      ⟨.expr stop, args, entered, .test counter stop body 0 :: stack⟩ := by
  have steps := eval_steps args locals (enter_steps lookup context left) start (.start counter stop body :: stack) room
  rw [begun] at steps
  refine .head rfl (Reaches.trans steps (.one ?_))
  simp only [Control.ofResult, step, resume, written]

-- The count in the frame of a loop is that of its completed iterations.
theorem turns_reach (room : calls stack + left = maxCallDepth) {completed : Nat}
    (turns : (envAt lookup context left args).AfterTurns counter stop body entered completed locals)
    (within : completed ≤ maxIterations) :
    Reaches lookup context ⟨.expr stop, args, entered, .test counter stop body 0 :: stack⟩
      ⟨.expr stop, args, locals, .test counter stop body completed :: stack⟩ := by
  induction turns with
  | entry => exact .refl
  | @turn completed before after advanced _ test ran counted ih =>
    obtain ⟨bound, count, tested, known, less⟩ := test_reaches body room completed test
    have block : Finishes lookup context ⟨.block body, args, before, _⟩ args _ _ := execBlock_steps
      (enter_steps lookup context left) body before (.turn counter stop body completed :: stack) room
    rw [ran] at block
    have more : completed < maxIterations := within
    refine (ih (Nat.le_of_lt more)).trans (tested.trans ?_)
    refine .head (b := ⟨.block body, args, before, .turn counter stop body completed :: stack⟩) ?_ (Reaches.trans block ?_)
    · simp only [step, resume, known, if_pos less, openTurn, if_pos more]
    · refine .one ?_
      simp only [step, proceed, counted]

def State.env (lookup : String → Option Definition) (context : Context) (s : State) : Env :=
  envAt lookup context (maxCallDepth - calls s.stack) s.args

-- A loop that is about to run ends in one of two ways. Either it ends by itself, its body has run no more often than it may,
-- and its test would not hold after all iterations. Or the test holds then, and the loop comes to its limit.
inductive LoopOutcome (lookup : String → Option Definition) (context : Context) (s : State) (counter : Nat)
    (start stop : Expr) (body : List Stmt) (entered : Locals) : Prop
  | ends (runs : Nat) (r : Except EvalError Flow) (within : runs ≤ maxIterations)
      (ends : (s.env lookup context).Ends counter stop body entered runs r)
      (early : ¬ (s.env lookup context).Exhausts counter stop body entered)
      (result : (s.env lookup context).exec (.loop counter start stop body) s.locals = r)
  | limit (full : State) (exhausts : (s.env lookup context).Exhausts counter stop body entered)
      (reached : Reaches lookup context s full) (own : full.stack = .test counter stop body maxIterations :: s.stack)
      (atLimit : full.AtLimit)
      (result : (s.env lookup context).exec (.loop counter start stop body) s.locals = .error .loopLimit)

theorem loop_outcome {s : State} (nested : calls s.stack ≤ maxCallDepth) {start : Expr} {first : Float}
    (about : s.control = .stmt (.loop counter start stop body))
    (begun : (s.env lookup context).eval s.locals start = .ok first) (written : s.locals.write counter first = .ok entered) :
    LoopOutcome lookup context s counter start stop body entered := by
  obtain ⟨control, args, locals, stack⟩ := s
  cases about
  have room : calls stack + (maxCallDepth - calls stack) = maxCallDepth := Nat.add_sub_cancel' nested
  rcases Env.iterate_cases maxIterations 0 (Nat.zero_add _) entered .entry (Env.exec_loop begun written).symm with
    ⟨runs, within, ends⟩ | ⟨⟨last, turns, test⟩, result⟩
  · exact .ends runs _ within ends (ends.not_exhausts within) rfl
  · obtain ⟨bound, count, tested, known, less⟩ := test_reaches body room maxIterations test
    have full := (turns_reach room turns (Nat.le_refl _)).trans tested
    exact .limit _ ⟨last, turns, test⟩ ((loop_enters room begun written).trans full) rfl
      ⟨counter, stop, body, stack, bound, count, rfl, rfl, known, less⟩ result

end Loops

end Stepwise

-- Every evaluation comes to rest with its result and has no other way to go. On the way no more calls are nested than may be,
-- a loop limit is passed on or comes from a loop at its limit, and each loop that starts has one of the two outcomes.
theorem evaluation_ends_within_limits (lookup : String → Option Definition) (context : Context) (body : Body)
    (args : List Value) :
    (∃ s, Stepwise.Reaches lookup context (.start body args) s ∧ Stepwise.step lookup context s = none ∧
      s.result? = some (evaluate lookup context body args)) ∧
    (¬ ∃ run : Nat → Stepwise.State, run 0 = .start body args ∧
      ∀ n, Stepwise.step lookup context (run n) = some (run (n + 1))) ∧
    ∀ s, Stepwise.Reaches lookup context (.start body args) s →
      Stepwise.calls s.stack ≤ maxCallDepth ∧ (∀ frame ∈ s.stack, frame.Within) ∧
      (∀ t, Stepwise.step lookup context s = some t →
        (t.control = .fault .loopLimit ↔ s.control = .fault .loopLimit ∨ s.AtLimit)) ∧
      ∀ counter start stop inner first entered, s.control = .stmt (.loop counter start stop inner) →
        (s.env lookup context).eval s.locals start = .ok first → s.locals.write counter first = .ok entered →
        Stepwise.LoopOutcome lookup context s counter start stop inner entered := by
  obtain ⟨rest, reached, rests, result⟩ := Stepwise.start_reaches lookup context body args
  refine ⟨⟨rest, reached, rests, result⟩, Stepwise.no_endless_run reached rests, ?_⟩
  intro s passed
  have bounded := Stepwise.reached_bounded passed
  refine ⟨bounded.calls, bounded.loops, fun t next => (Stepwise.step_moves bounded next).limit_iff, ?_⟩
  intro counter start stop inner first entered about begun written
  exact Stepwise.loop_outcome bounded.calls about begun written

-- Two helpers that call each other without end.
def bounce (name other : String) : Definition where
  name := name
  paramTypes := []
  returnType := .float
  body := .kernel ⟨[], 0, [.ret (.call other [])]⟩

def rally (name : String) : Option Definition :=
  if name = "ping" then some (bounce "ping" "pong") else some (bounce "pong" "ping")

theorem runFrom_rally (context : Context) (left : Nat) (locals : Locals) (name : String) : ∃ here other,
    Env.runFrom ⟨rally, context, enter rally context left, []⟩ [.ret (.call name [])] locals =
      enter rally context left (bounce here other) [] := by
  obtain ⟨here, other, found⟩ : ∃ here other, rally name = some (bounce here other) := by
    unfold rally
    split <;> exact ⟨_, _, rfl⟩
  refine ⟨here, other, ?_⟩
  simp only [Env.runFrom_eq, Env.execBlock_cons, Env.exec, Env.eval, found]
  change (((enter rally context left (bounce here other) [] >>= _) >>= _) >>= _) = _
  cases enter rally context left (bounce here other) [] <;> rfl

-- By induction on the calls that are left.
theorem enter_rally (context : Context) (left : Nat) (here other : String) :
    enter rally context left (bounce here other) [] = .error .stackOverflow := by
  induction left generalizing here other with
  | zero => rfl
  | succ left ih =>
    obtain ⟨there, back, inner⟩ := runFrom_rally context left (Array.replicate 0 0.0) other
    rw [ih] at inner
    simp only [enter, bounce, inner]
    rfl

theorem rally_comes_to_rest : ∃ s, Stepwise.Reaches rally ⟨⟨0, 0, 0⟩, ⟨1, 1, 1⟩⟩
      (.start ⟨[], 0, [.ret (.call "ping" [])]⟩ []) s ∧
    Stepwise.step rally ⟨⟨0, 0, 0⟩, ⟨1, 1, 1⟩⟩ s = none ∧ s.result? = some (.error .stackOverflow) := by
  obtain ⟨here, other, runs⟩ := runFrom_rally ⟨⟨0, 0, 0⟩, ⟨1, 1, 1⟩⟩ maxCallDepth (Array.replicate 0 0.0) "ping"
  have result : evaluate rally ⟨⟨0, 0, 0⟩, ⟨1, 1, 1⟩⟩ ⟨[], 0, [.ret (.call "ping" [])]⟩ [] = .error .stackOverflow :=
    runs.trans (enter_rally _ maxCallDepth here other)
  exact result ▸ (evaluation_ends_within_limits rally ⟨⟨0, 0, 0⟩, ⟨1, 1, 1⟩⟩ ⟨[], 0, [.ret (.call "ping" [])]⟩ []).1

end GridKernel
