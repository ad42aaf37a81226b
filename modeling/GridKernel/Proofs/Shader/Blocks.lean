import GridKernel.Proofs.Kernel.Scopes
import GridKernel.Proofs.Shader.Terms

namespace GridKernel

theorem Locals.write_parts {locals after : Locals} {slot : Nat} {value : Float}
    (written : locals.write slot value = .ok after) :
    after[slot]? = some value ∧ ∀ other, other ≠ slot → after[other]? = locals[other]? := by
  unfold Locals.write at written
  split at written
  · rename_i inside
    cases written
    refine ⟨by simp [inside], fun other apart => ?_⟩
    exact Array.getElem?_setIfInBounds_ne (Ne.symm apart)
  · cases written

namespace Shader

structure Tracks (visible : List Nat) (vars : Vars) (locals : Locals) : Prop where
  names : vars.map Prod.fst = visible
  held : vars.Held locals

-- A block that goes on keeps a relation of variables and locals; one that returns, returns alike.
inductive Follows (Kept : Vars → Locals → Prop) : Outcome → Flow → Prop where
  | next {vars : Vars} {locals : Locals} (kept : Kept vars locals) : Follows Kept (.next vars) (.next locals)
  | done (v : Float) : Follows Kept (.returned v) (.done v)

variable {vars : Vars} {locals after : Locals} {visible : List Nat}

theorem Tracks.count (tracks : Tracks visible vars locals) : visible.length = vars.length := by
  rw [← tracks.names, List.length_map]

theorem Tracks.declare {slot : Nat} {v : Float} (tracks : Tracks visible vars locals) (fresh : slot ∉ visible)
    (written : locals.write slot v = .ok after) : Tracks (slot :: visible) ((slot, v) :: vars) after := by
  obtain ⟨new, old⟩ := Locals.write_parts written
  refine ⟨by rw [List.map_cons, tracks.names], ?_⟩
  intro name u member
  rcases List.mem_cons.mp member with same | later
  · cases same
    exact new
  · have seen : name ∈ visible := tracks.names ▸ List.mem_map_of_mem later
    have apart : name ≠ slot := fun same => fresh (same ▸ seen)
    rw [old name apart]
    exact tracks.held name u later

theorem set?_parts {slot : Nat} {v : Float} {next : Vars} (assigned : vars.set? slot v = some next)
    (distinct : (vars.map Prod.fst).Nodup) :
    next.map Prod.fst = vars.map Prod.fst ∧
      ∀ name u, (name, u) ∈ next → name = slot ∧ u = v ∨ name ≠ slot ∧ (name, u) ∈ vars := by
  fun_induction Vars.set? slot v vars generalizing next with
  | case1 => cases assigned
  | case2 old rest =>
    cases assigned
    refine ⟨rfl, ?_⟩
    intro name u member
    rcases List.mem_cons.mp member with same | later
    · cases same
      exact .inl ⟨rfl, rfl⟩
    · have apart : slot ∉ rest.map Prod.fst := (List.nodup_cons.mp distinct).1
      refine .inr ⟨?_, List.mem_cons_of_mem _ later⟩
      rintro rfl
      exact apart (List.mem_map_of_mem later)
  | case3 name old rest apart ih =>
    obtain ⟨others, inner, rfl⟩ := Option.map_eq_some_iff.mp assigned
    obtain ⟨names, entries⟩ := ih inner (List.nodup_cons.mp distinct).2
    refine ⟨by rw [List.map_cons, List.map_cons, names], ?_⟩
    intro other u member
    rcases List.mem_cons.mp member with same | later
    · cases same
      exact .inr ⟨apart, List.mem_cons_self⟩
    · rcases entries other u later with found | ⟨differs, kept⟩
      · exact .inl found
      · exact .inr ⟨differs, List.mem_cons_of_mem _ kept⟩

theorem Tracks.assign {slot : Nat} {v : Float} {next : Vars} (tracks : Tracks visible vars locals)
    (distinct : visible.Nodup) (assigned : vars.set? slot v = some next) (written : locals.write slot v = .ok after) :
    Tracks visible next after := by
  obtain ⟨new, old⟩ := Locals.write_parts written
  obtain ⟨names, entries⟩ := set?_parts assigned (tracks.names ▸ distinct)
  refine ⟨names.trans tracks.names, ?_⟩
  intro name u member
  rcases entries name u member with ⟨rfl, rfl⟩ | ⟨apart, kept⟩
  · exact new
  · rw [old name apart]
    exact tracks.held name u kept

-- Leaving a block drops what it declared and keeps what it assigned.
theorem Tracks.leave {inner : List Nat} {depth : Nat} (tracks : Tracks inner vars locals) (outer : visible <:+ inner)
    (count : visible.length = depth) : Tracks visible (vars.leave depth) locals := by
  obtain ⟨new, rfl⟩ := outer
  have length : vars.length - depth = new.length := by
    rw [← List.length_map Prod.fst, tracks.names, List.length_append]
    omega
  refine ⟨?_, ?_⟩
  · rw [Vars.leave, length, List.map_drop, tracks.names, List.drop_left]
  · intro name u member
    exact tracks.held name u (List.mem_of_mem_drop member)

theorem Follows.leave {inner : List Nat} {depth : Nat} {outcome : Outcome} {flow : Flow}
    (follows : Follows (Tracks inner) outcome flow) (outer : visible <:+ inner) (count : visible.length = depth) :
    Follows (Tracks visible) (outcome.leave depth) flow := by
  cases follows with
  | next kept => exact .next (kept.leave outer count)
  | done v => exact .done v

-- One iteration keeps the relation, so every number of them does. Each side counts its own
-- iterations down; whichever stops first leaves nothing to compare.
theorem repeatWhile_follows {Kept : Vars → Locals → Prop} {test : Vars → Option Bool} {step : Vars → Option Outcome}
    {test' : Locals → Except EvalError Bool} {step' : Locals → Except EvalError Flow}
    (tests : ∀ vars locals, Kept vars locals → Consistent (· = ·) (test vars) (test' locals))
    (steps : ∀ vars locals, Kept vars locals → Consistent (Follows Kept) (step vars) (step' locals))
    (fuel budget : Nat) (vars : Vars) (locals : Locals) (kept : Kept vars locals) :
    Consistent (Follows Kept) (repeatWhile test step fuel vars) (Env.iterate test' step' budget locals) := by
  induction fuel generalizing budget vars locals with
  | zero => exact .nothing _
  | succ fuel ih =>
    intro outcome flow yielded iterated
    rw [repeatWhile] at yielded
    obtain ⟨more, tested, yielded⟩ := Option.bind_eq_some_iff.mp yielded
    rw [Env.iterate.eq_def] at iterated
    cases tested' : test' locals with
    | error e => simp [tested'] at iterated
    | ok goes =>
      cases tests vars locals kept more goes tested tested'
      cases more with
      | false =>
        simp only [tested'] at iterated
        cases iterated
        cases yielded
        exact .next kept
      | true =>
        simp only [tested'] at iterated
        cases budget with
        | zero => cases iterated
        | succ left =>
          simp only [if_true] at yielded
          obtain ⟨ended, stepped, yielded⟩ := Option.bind_eq_some_iff.mp yielded
          cases stepped' : step' locals with
          | error e => simp [stepped'] at iterated
          | ok flow' =>
            rw [stepped'] at iterated
            cases steps vars locals kept ended flow' stepped stepped' with
            | next inner => exact ih left _ _ inner outcome flow yielded iterated
            | done v =>
              cases yielded
              cases iterated
              exact .done v

section Simulation

variable {names : Names} {frame : Frame} {env : Env} {i : Interface}

theorem below_consistent (agrees : Agrees names frame env) (held : vars.Held locals) (counter : Nat) (stop : Expr)
    (bound : Term) (lowered : lower names stop = .ok bound) :
    Consistent (· = ·) (Test.value frame vars (.compare .lt (.var counter) bound)) (env.below counter stop locals) := by
  intro more goes yielded tested
  rw [Test.value, Term.value] at yielded
  obtain ⟨v, counted, yielded⟩ := Option.bind_eq_some_iff.mp yielded
  obtain ⟨u, found, last⟩ := Option.bind_eq_some_iff.mp yielded
  cases last
  obtain ⟨u', evaluated, tested⟩ := bind_eq_ok tested
  obtain ⟨v', read, last⟩ := bind_eq_ok tested
  cases last
  cases held.get counter v v' counted read
  cases lower_consistent agrees held stop bound lowered u u' found evaluated
  rfl

theorem increment_consistent (counter : Nat) (distinct : visible.Nodup) {outcome : Outcome} {flow : Flow}
    (follows : Follows (Tracks visible) outcome flow) :
    Consistent (Follows (Tracks visible)) (increment counter outcome) (Env.advance counter flow) := by
  cases follows with
  | next tracks =>
    refine (tracks.held.get counter).bind ?_
    rintro v _ rfl
    intro next flow assigned written
    obtain ⟨vars', first, last⟩ := Option.bind_eq_some_iff.mp assigned
    cases last
    obtain ⟨locals', second, last⟩ := bind_eq_ok written
    cases last
    exact .next (tracks.assign distinct first second)
  | done v => exact .ends (.done v)

theorem declare_follows {slot : Nat} {value : Expr} {t : Term} (tracks : Tracks visible vars locals)
    (fresh : slot ∉ visible) (same : Consistent (· = ·) (t.value frame vars) (env.eval locals value)) (fuel : Nat) :
    Consistent (Follows (Tracks (slot :: visible))) (Command.run frame fuel (.declare slot t) vars)
      (env.exec (.declare slot value) locals) := by
  rw [Command.run, Env.exec]
  refine same.bind ?_
  rintro v _ rfl
  intro outcome flow yielded executed
  cases yielded
  obtain ⟨next, written, last⟩ := bind_eq_ok executed
  cases last
  exact .next (tracks.declare fresh written)

theorem assign_follows {slot : Nat} {value : Expr} {t : Term} (tracks : Tracks visible vars locals)
    (distinct : visible.Nodup) (same : Consistent (· = ·) (t.value frame vars) (env.eval locals value)) (fuel : Nat) :
    Consistent (Follows (Tracks visible)) (Command.run frame fuel (.assign slot t) vars)
      (env.exec (.assign slot value) locals) := by
  rw [Command.run, Env.exec]
  refine same.bind ?_
  rintro v _ rfl
  intro outcome flow yielded executed
  obtain ⟨vars', assigned, last⟩ := Option.bind_eq_some_iff.mp yielded
  cases last
  obtain ⟨locals', written, last⟩ := bind_eq_ok executed
  cases last
  exact .next (tracks.assign distinct assigned written)

-- Each round starts and ends with the counter as the innermost variable.
theorem loop_follows (agrees : Agrees names frame env) {counter : Nat} {start stop : Expr} {first bound : Term}
    {body : List Stmt} {commands : List Command} {ended : List Nat} (fuel : Nat)
    (lowerStart : lower names start = .ok first) (lowerStop : lower names stop = .ok bound)
    (distinct : (counter :: visible).Nodup) (grown : counter :: visible <:+ ended)
    (block : ∀ vars locals, Tracks (counter :: visible) vars locals →
      Consistent (Follows (Tracks ended)) (runBlock frame fuel commands vars) (env.execBlock body locals))
    (tracks : Tracks visible vars locals) :
    Consistent (Follows (Tracks visible)) (Command.run frame fuel (.loop counter first bound commands) vars)
      (env.exec (.loop counter start stop body) locals) := by
  have round : ∀ vars locals, Tracks (counter :: visible) vars locals →
      Consistent (Follows (Tracks (counter :: visible)))
        (do
          let outcome ← runBlock frame fuel commands vars
          increment counter (outcome.leave vars.length))
        (do
          let flow ← env.execBlock body locals
          Env.advance counter flow) := by
    intro vars locals tracks
    refine (block vars locals tracks).bind ?_
    intro outcome flow follows
    exact increment_consistent counter distinct (follows.leave grown tracks.count)
  rw [Command.run, Env.exec]
  refine (lower_consistent agrees tracks.held start first lowerStart).bind ?_
  rintro v _ rfl
  intro outcome flow yielded executed
  obtain ⟨out, repeated, last⟩ := Option.bind_eq_some_iff.mp yielded
  cases last
  obtain ⟨locals', written, iterated⟩ := bind_eq_ok executed
  have entered := tracks.declare (List.nodup_cons.mp distinct).1 written
  have whole := repeatWhile_follows
    (fun vars locals tracks => below_consistent agrees tracks.held counter stop bound lowerStop)
    round fuel maxIterations _ _ entered out flow repeated iterated
  exact whole.leave (List.suffix_cons _ _) tracks.count

theorem branch_follows {cond : Expr} {c : Term} {yes no : List Stmt} {y n : List Command} {first second : List Nat}
    (fuel : Nat) (tracks : Tracks visible vars locals)
    (same : Consistent (· = ·) (c.value frame vars) (env.eval locals cond))
    (left : Consistent (Follows (Tracks first)) (runBlock frame fuel y vars) (env.execBlock yes locals))
    (right : Consistent (Follows (Tracks second)) (runBlock frame fuel n vars) (env.execBlock no locals))
    (inFirst : visible <:+ first) (inSecond : visible <:+ second) :
    Consistent (Follows (Tracks visible)) (Command.run frame fuel (.branch (nonzero c) y n) vars)
      (env.exec (.branch cond yes no) locals) := by
  rw [Command.run, Env.exec, nonzero_value]
  intro outcome flow yielded executed
  obtain ⟨chosen, test, yielded⟩ := Option.bind_eq_some_iff.mp yielded
  obtain ⟨v, tested, rfl⟩ := Option.map_eq_some_iff.mp test
  obtain ⟨out, block, rfl⟩ := Option.map_eq_some_iff.mp yielded
  obtain ⟨w, evaluated, executed⟩ := bind_eq_ok executed
  cases same v w tested evaluated
  cases truth : isTrue v with
  | true =>
    rw [truth] at block executed
    exact (left out flow block executed).leave inFirst tracks.count
  | false =>
    rw [truth] at block executed
    exact (right out flow block executed).leave inSecond tracks.count

mutual

theorem lowerStmt_follows (agrees : Agrees names frame env) (fuel : Nat) (stmt : Stmt) (command : Command)
    (lowered : lowerStmt names stmt = .ok command) (s after : Scope) (proper : s.Proper)
    (checked : i.checkStmt stmt s = .ok after) (vars : Vars) (locals : Locals) (tracks : Tracks s.visible vars locals) :
    Consistent (Follows (Tracks after.visible)) (command.run frame fuel vars) (env.exec stmt locals) := by
  cases stmt with
  | declare slot value =>
    rw [lowerStmt] at lowered
    obtain ⟨t, inner, last⟩ := bind_eq_ok lowered
    cases last
    rw [Interface.checkStmt] at checked
    obtain ⟨_, _, declared⟩ := bind_eq_ok checked
    obtain ⟨_, fresh, rfl⟩ := Interface.declare_parts declared
    exact declare_follows tracks (fun seen => fresh (proper.declared seen))
      (lower_consistent agrees tracks.held value t inner) fuel
  | assign slot value =>
    rw [lowerStmt] at lowered
    obtain ⟨t, inner, last⟩ := bind_eq_ok lowered
    cases last
    rw [Interface.checkStmt] at checked
    split at checked
    · cases checked
    · obtain ⟨_, _, last⟩ := bind_eq_ok checked
      cases last
      exact assign_follows tracks proper.distinct (lower_consistent agrees tracks.held value t inner) fuel
  | loop counter start stop body =>
    rw [lowerStmt] at lowered
    obtain ⟨first, lowerStart, lowered⟩ := bind_eq_ok lowered
    obtain ⟨bound, lowerStop, lowered⟩ := bind_eq_ok lowered
    obtain ⟨commands, lowerBody, last⟩ := bind_eq_ok lowered
    cases last
    obtain ⟨inner, ended, _, _, declared, block, rfl⟩ := Interface.checkLoop_parts checked
    have entered := Interface.declare_grows proper declared
    have grown := Interface.checkBlock_grows body inner ended entered.proper block
    obtain ⟨_, _, rfl⟩ := Interface.declare_parts declared
    refine loop_follows agrees fuel lowerStart lowerStop entered.proper.distinct grown.visible ?_ tracks
    intro vars locals tracks
    exact lowerBlock_follows agrees fuel body commands lowerBody _ ended entered.proper block vars locals tracks
  | branch cond yes no =>
    rw [lowerStmt] at lowered
    obtain ⟨c, lowerCond, lowered⟩ := bind_eq_ok lowered
    obtain ⟨y, lowerYes, lowered⟩ := bind_eq_ok lowered
    obtain ⟨n, lowerNo, last⟩ := bind_eq_ok lowered
    cases last
    obtain ⟨first, second, _, blockYes, blockNo, rfl⟩ := Interface.checkBranch_parts checked
    have one := Interface.checkBlock_grows yes s first proper blockYes
    have between := proper.more one.declared
    have two := Interface.checkBlock_grows no _ second between blockNo
    have left := lowerBlock_follows agrees fuel yes y lowerYes s first proper blockYes vars locals tracks
    have right := lowerBlock_follows agrees fuel no n lowerNo _ second between blockNo vars locals tracks
    exact branch_follows fuel tracks (lower_consistent agrees tracks.held cond c lowerCond) left right
      one.visible two.visible
  | ret value =>
    rw [lowerStmt] at lowered
    obtain ⟨t, inner, last⟩ := bind_eq_ok lowered
    cases last
    rw [Command.run, Env.exec]
    refine (lower_consistent agrees tracks.held value t inner).bind ?_
    rintro v _ rfl
    exact .ends (.done v)

theorem lowerBlock_follows (agrees : Agrees names frame env) (fuel : Nat) (stmts : List Stmt) (commands : List Command)
    (lowered : lowerBlock names stmts = .ok commands) (s after : Scope) (proper : s.Proper)
    (checked : i.checkBlock stmts s = .ok after) (vars : Vars) (locals : Locals) (tracks : Tracks s.visible vars locals) :
    Consistent (Follows (Tracks after.visible)) (runBlock frame fuel commands vars) (env.execBlock stmts locals) := by
  cases stmts with
  | nil =>
    rw [lowerBlock] at lowered
    cases lowered
    rw [Interface.checkBlock] at checked
    cases checked
    rw [runBlock, Env.execBlock]
    exact .ends (.next tracks)
  | cons stmt rest =>
    rw [lowerBlock] at lowered
    obtain ⟨command, first, lowered⟩ := bind_eq_ok lowered
    obtain ⟨others, later, last⟩ := bind_eq_ok lowered
    cases last
    rw [Interface.checkBlock] at checked
    obtain ⟨middle, one, checked⟩ := bind_eq_ok checked
    split at checked
    · cases checked
    · have grown := Interface.checkStmt_grows stmt s middle proper one
      intro outcome flow yielded executed
      rw [runBlock] at yielded
      obtain ⟨out, ran, yielded⟩ := Option.bind_eq_some_iff.mp yielded
      rw [Env.execBlock] at executed
      cases done : env.exec stmt locals with
      | error e => simp [done] at executed
      | ok flow' =>
        rw [done] at executed
        cases lowerStmt_follows agrees fuel stmt command first s middle proper one vars locals tracks out flow' ran done with
        | next kept =>
          exact lowerBlock_follows agrees fuel rest others later middle after grown.proper checked _ _ kept outcome flow
            yielded executed
        | done v =>
          cases yielded
          cases executed
          exact .done v

end

end Simulation

end Shader

end GridKernel
