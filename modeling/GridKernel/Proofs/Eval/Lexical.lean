import GridKernel.Proofs.Eval.Accesses
import GridKernel.Proofs.Shader.Blocks

namespace GridKernel

-- The open blocks with their variables, the innermost first.
abbrev Blocks := List Shader.Vars

namespace Blocks

def get? (slot : Nat) : Blocks → Option Float
  | [] => none
  | block :: outer => (block.get? slot).or (get? slot outer)

def set? (slot : Nat) (value : Float) : Blocks → Option Blocks
  | [] => none
  | block :: outer =>
    match block.set? slot value with
    | some changed => some (changed :: outer)
    | none => (set? slot value outer).map (block :: ·)

def declare (slot : Nat) (value : Float) : Blocks → Blocks
  | [] => [[(slot, value)]]
  | block :: outer => ((slot, value) :: block) :: outer

def known {α : Type} (slot : Nat) : Option α → Except EvalError α
  | some a => .ok a
  | none => .error (.badLocal slot)

end Blocks

-- Block-scoped variables: a variable that no open block declares cannot be read or assigned.
def Memory.blocks : Memory Blocks where
  read blocks slot := Blocks.known slot (blocks.get? slot)
  declare blocks slot value := .ok (blocks.declare slot value)
  assign blocks slot value := Blocks.known slot (blocks.set? slot value)
  enter blocks := [] :: blocks
  leave blocks := blocks.tail

-- After some accesses a local is in scope, `depth` blocks around the innermost, and `value` is what was last
-- written to it since it was declared there.
inductive Live (slot : Nat) : List Access → Nat → Float → Prop where
  | declared (log : List Access) (value : Float) : Live slot (log ++ [.declare slot value]) 0 value
  | assigned {log : List Access} {depth : Nat} {old : Float} (live : Live slot log depth old) (value : Float) :
      Live slot (log ++ [.assign slot value]) depth value
  | entered {log : List Access} {depth : Nat} {value : Float} (live : Live slot log depth value) :
      Live slot (log ++ [.enter]) (depth + 1) value
  | left {log : List Access} {depth : Nat} {value : Float} (live : Live slot log (depth + 1) value) :
      Live slot (log ++ [.leave]) depth value
  | read {log : List Access} {depth : Nat} {value : Float} (live : Live slot log depth value) (other : Nat) (v : Float) :
      Live slot (log ++ [.read other v]) depth value
  | otherDeclared {log : List Access} {depth : Nat} {value : Float} (live : Live slot log depth value) {other : Nat}
      (apart : slot ≠ other) (v : Float) : Live slot (log ++ [.declare other v]) depth value
  | otherAssigned {log : List Access} {depth : Nat} {value : Float} (live : Live slot log depth value) {other : Nat}
      (apart : slot ≠ other) (v : Float) : Live slot (log ++ [.assign other v]) depth value

-- Every read of a log sees the live value, if `past` came before it.
def ReadsLive (past log : List Access) : Prop :=
  ∀ before slot v after, log = before ++ .read slot v :: after → ∃ depth, Live slot (past ++ before) depth v

theorem readsLive_nil (past : List Access) : ReadsLive past [] := by
  intro before slot v after empty
  simp at empty

theorem readsLive_single {past : List Access} {access : Access}
    (live : ∀ slot v, access = .read slot v → ∃ depth, Live slot past depth v) : ReadsLive past [access] := by
  intro before slot v after one
  cases before with
  | nil =>
    cases one
    simpa using live slot v rfl
  | cons first rest => simp at one

theorem ReadsLive.append {past first second : List Access} (one : ReadsLive past first)
    (two : ReadsLive (past ++ first) second) : ReadsLive past (first ++ second) := by
  intro before slot v after joined
  rcases List.append_eq_append_iff.mp joined with ⟨more, rfl, later⟩ | ⟨more, earlier, later⟩
  · rw [← List.append_assoc]
    exact two more slot v after later
  · cases more with
    | nil =>
      rw [List.append_nil] at earlier
      subst earlier
      simpa using two [] slot v after later.symm
    | cons access more =>
      cases later
      exact one before slot v more earlier

-- Two computations with the same accesses and related results, all of whose reads see live values.
structure Agrees {α β : Type} (past : List Access) (R : List Access → α → β → Prop) (x : Logged α) (y : Logged β) :
    Prop where
  log : x.log = y.log
  reads : ReadsLive past x.log
  result : SameResult (R (past ++ x.log)) x.result y.result

namespace Agrees

variable {α β γ δ : Type} {past : List Access} {R : List Access → α → β → Prop} {S : List Access → γ → δ → Prop}

theorem pure {a : α} {b : β} (related : R past a b) : Agrees past R (.lift (.ok a)) (.lift (.ok b)) := by
  refine ⟨rfl, readsLive_nil past, .ok ?_⟩
  simpa [Logged.lift] using related

theorem lift_same {past : List Access} {Known : List Access → Prop} (known : Known past) (x : Except EvalError α) :
    Agrees past (fun log a b => a = b ∧ Known log) (.lift x) (.lift x) := by
  refine ⟨rfl, readsLive_nil past, ?_⟩
  cases x with
  | error e => exact .error e
  | ok a => exact .ok ⟨rfl, by simpa [Logged.lift] using known⟩

theorem fails (e : EvalError) : Agrees past R (.lift (.error e)) (.lift (.error e)) :=
  ⟨rfl, readsLive_nil past, .error e⟩

theorem noting {access : α → Access} {access' : β → Access} {x : Except EvalError α} {y : Except EvalError β} {a : α}
    {b : β} (first : x = .ok a) (second : y = .ok b) (same : access a = access' b)
    (live : ∀ slot v, access a = .read slot v → ∃ depth, Live slot past depth v) (related : R (past ++ [access a]) a b) :
    Agrees past R (.noting access x) (.noting access' y) := by
  subst first second
  exact ⟨by rw [Logged.noting, Logged.noting, same], readsLive_single live, .ok related⟩

theorem same {past : List Access} {x y : Logged α} (agrees : Agrees past (fun _ a b => a = b) x y) : x = y := by
  obtain ⟨log, result⟩ := x
  obtain ⟨log', result'⟩ := y
  obtain ⟨rfl, _, result⟩ := agrees
  cases result with
  | error e => rfl
  | ok equal => cases equal; rfl

theorem bind {x : Logged α} {y : Logged β} {f : α → Logged γ} {g : β → Logged δ} (first : Agrees past R x y)
    (next : ∀ log a b, R log a b → Agrees log S (f a) (g b)) : Agrees past S (x >>= f) (y >>= g) := by
  obtain ⟨log, result⟩ := x
  obtain ⟨log', result'⟩ := y
  obtain ⟨rfl, reads, result⟩ := first
  cases result with
  | error e => exact ⟨rfl, reads, .error e⟩
  | @ok a b related =>
    obtain ⟨same, more, ended⟩ := next _ a b related
    refine ⟨congrArg (log ++ ·) same, reads.append more, ?_⟩
    rw [List.append_assoc] at ended
    exact ended

end Agrees

theorem mem_of_get? {vars : Shader.Vars} {slot : Nat} {v : Float} (found : vars.get? slot = some v) : (slot, v) ∈ vars := by
  induction vars with
  | nil => cases found
  | cons entry rest ih =>
    obtain ⟨name, old⟩ := entry
    rw [Shader.Vars.get?] at found
    split at found
    · rename_i same
      cases found
      simp [same]
    · exact List.mem_cons_of_mem _ (ih found)

theorem get?_of_mem {vars : Shader.Vars} {slot : Nat} (named : slot ∈ vars.map Prod.fst) : ∃ v, vars.get? slot = some v := by
  induction vars with
  | nil => simp at named
  | cons entry rest ih =>
    obtain ⟨name, old⟩ := entry
    rw [Shader.Vars.get?]
    split
    · exact ⟨old, rfl⟩
    · rename_i apart
      refine ih ?_
      simpa [Ne.symm apart] using named

theorem set?_of_mem {vars : Shader.Vars} {slot : Nat} (named : slot ∈ vars.map Prod.fst) (v : Float) :
    ∃ next, vars.set? slot v = some next := by
  induction vars with
  | nil => simp at named
  | cons entry rest ih =>
    obtain ⟨name, old⟩ := entry
    rw [Shader.Vars.set?]
    split
    · exact ⟨_, rfl⟩
    · rename_i apart
      obtain ⟨next, changed⟩ := ih (by simpa [Ne.symm apart] using named)
      exact ⟨_, by rw [changed]; rfl⟩

theorem mem_of_set? {vars next : Shader.Vars} {slot : Nat} {v : Float} (changed : vars.set? slot v = some next) :
    ∃ old, (slot, old) ∈ vars := by
  induction vars generalizing next with
  | nil => cases changed
  | cons entry rest ih =>
    obtain ⟨name, old⟩ := entry
    rw [Shader.Vars.set?] at changed
    split at changed
    · rename_i same
      exact ⟨old, by simp [same]⟩
    · obtain ⟨others, inner, _⟩ := Option.map_eq_some_iff.mp changed
      obtain ⟨u, member⟩ := ih inner
      exact ⟨u, List.mem_cons_of_mem _ member⟩

namespace Blocks

def names (blocks : Blocks) : List (List Nat) := blocks.map fun block => block.map Prod.fst

def Holds (blocks : Blocks) (depth slot : Nat) (v : Float) : Prop := ∃ block, blocks[depth]? = some block ∧ (slot, v) ∈ block

@[simp]
theorem holds_zero {block : Shader.Vars} {outer : Blocks} {slot : Nat} {v : Float} :
    Holds (block :: outer) 0 slot v ↔ (slot, v) ∈ block := by
  simp [Holds]

@[simp]
theorem holds_succ {block : Shader.Vars} {outer : Blocks} {depth slot : Nat} {v : Float} :
    Holds (block :: outer) (depth + 1) slot v ↔ outer.Holds depth slot v := by
  simp [Holds]

@[simp]
theorem names_cons (block : Shader.Vars) (outer : Blocks) : names (block :: outer) = block.map Prod.fst :: outer.names := rfl

variable {blocks : Blocks}

theorem Holds.named {depth slot : Nat} {v : Float} (holds : blocks.Holds depth slot v) : slot ∈ blocks.names.flatten := by
  obtain ⟨block, found, member⟩ := holds
  refine List.mem_flatten.mpr ⟨block.map Prod.fst, ?_, List.mem_map_of_mem member⟩
  exact List.mem_map_of_mem (List.mem_of_getElem? found)

theorem get?_named {slot : Nat} (named : slot ∈ blocks.names.flatten) :
    ∃ depth v, blocks.get? slot = some v ∧ blocks.Holds depth slot v := by
  induction blocks with
  | nil => simp [names] at named
  | cons block outer ih =>
    rw [get?]
    cases found : block.get? slot with
    | some v => exact ⟨0, v, rfl, holds_zero.mpr (mem_of_get? found)⟩
    | none =>
      have further : slot ∈ (names outer).flatten := by
        rw [names_cons, List.flatten_cons, List.mem_append] at named
        rcases named with here | further
        · obtain ⟨v, known⟩ := get?_of_mem here
          cases found.symm.trans known
        · exact further
      obtain ⟨depth, v, known, holds⟩ := ih further
      exact ⟨depth + 1, v, by simpa using known, holds_succ.mpr holds⟩

theorem set?_named {slot : Nat} (named : slot ∈ blocks.names.flatten) (distinct : blocks.names.flatten.Nodup) (v : Float) :
    ∃ next, blocks.set? slot v = some next ∧ next.names = blocks.names ∧
      ∀ depth name u, next.Holds depth name u →
        name = slot ∧ u = v ∧ (∃ old, blocks.Holds depth slot old) ∨ name ≠ slot ∧ blocks.Holds depth name u := by
  induction blocks with
  | nil => simp [names] at named
  | cons block outer ih =>
    rw [names_cons, List.flatten_cons] at named distinct
    obtain ⟨own, others, disjoint⟩ := List.nodup_append.mp distinct
    rw [set?]
    cases changed : block.set? slot v with
    | some next =>
      obtain ⟨same, entries⟩ := Shader.set?_parts changed own
      obtain ⟨old, member⟩ := mem_of_set? changed
      refine ⟨next :: outer, rfl, by rw [names_cons, names_cons, same], ?_⟩
      rintro (_ | depth) name u holds
      · rcases entries name u (holds_zero.mp holds) with ⟨rfl, rfl⟩ | ⟨apart, kept⟩
        · exact .inl ⟨rfl, rfl, old, holds_zero.mpr member⟩
        · exact .inr ⟨apart, holds_zero.mpr kept⟩
      · have further := holds_succ.mp holds
        refine .inr ⟨?_, holds_succ.mpr further⟩
        rintro rfl
        exact disjoint name (List.mem_map_of_mem member) name further.named rfl
    | none =>
      have absent : slot ∉ block.map Prod.fst := by
        intro here
        obtain ⟨next, known⟩ := set?_of_mem here v
        cases changed.symm.trans known
      obtain ⟨next, inner, same, entries⟩ := ih ((List.mem_append.mp named).resolve_left absent) others
      refine ⟨block :: next, by simp [inner], by rw [names_cons, names_cons, same], ?_⟩
      rintro (_ | depth) name u holds
      · refine .inr ⟨?_, holds_zero.mpr (holds_zero.mp holds)⟩
        rintro rfl
        exact absent (List.mem_map_of_mem (holds_zero.mp holds))
      · simpa only [holds_succ] using entries depth name u (holds_succ.mp holds)

end Blocks

-- Slots and block-scoped variables at the same point of a run: the variables are those in scope, and each is live
-- with the value its slot has. Only the innermost block may grow, in front of the blocks `outer`.
structure Kept (slots : Nat) (outer : List (List Nat)) (visible : List Nat) (log : List Access) (blocks : Blocks)
    (locals : Locals) : Prop where
  names : ∃ top, blocks.names = top :: outer ∧ top ++ outer.flatten = visible
  size : locals.size = slots
  held : ∀ depth slot v, blocks.Holds depth slot v → locals[slot]? = some v ∧ Live slot log depth v

namespace Kept

variable {slots : Nat} {outer : List (List Nat)} {visible : List Nat} {log : List Access} {blocks : Blocks} {locals : Locals}

theorem flatten (kept : Kept slots outer visible log blocks locals) : blocks.names.flatten = visible := by
  obtain ⟨top, names, visible⟩ := kept.names
  rw [names, List.flatten_cons, visible]

theorem read_visible (kept : Kept slots outer visible log blocks locals) {slot : Nat} (seen : slot ∈ visible) :
    ∃ v depth, Memory.blocks.read blocks slot = .ok v ∧ locals.read slot = .ok v ∧ Live slot log depth v := by
  obtain ⟨depth, v, found, holds⟩ := Blocks.get?_named (kept.flatten ▸ seen)
  obtain ⟨stored, live⟩ := kept.held depth slot v holds
  refine ⟨v, depth, ?_, ?_, live⟩
  · simp only [Memory.blocks, found, Blocks.known]
  · simp only [Locals.read, stored]

theorem afterRead (kept : Kept slots outer visible log blocks locals) (slot : Nat) (v : Float) :
    Kept slots outer visible (log ++ [.read slot v]) blocks locals := by
  refine ⟨kept.names, kept.size, ?_⟩
  intro depth name u holds
  obtain ⟨stored, live⟩ := kept.held depth name u holds
  exact ⟨stored, live.read slot v⟩

theorem afterEnter (kept : Kept slots outer visible log blocks locals) :
    ∃ top, top ++ outer.flatten = visible ∧ Kept slots (top :: outer) visible (log ++ [.enter]) ([] :: blocks) locals := by
  obtain ⟨top, names, seen⟩ := kept.names
  refine ⟨top, seen, ⟨[], by rw [Blocks.names_cons, names]; rfl, seen⟩, kept.size, ?_⟩
  rintro (_ | depth) slot v holds
  · simp at holds
  · obtain ⟨stored, live⟩ := kept.held depth slot v (Blocks.holds_succ.mp holds)
    exact ⟨stored, live.entered⟩

theorem afterLeave {top inner : List Nat} (kept : Kept slots (top :: outer) inner log blocks locals)
    (seen : top ++ outer.flatten = visible) : Kept slots outer visible (log ++ [.leave]) blocks.tail locals := by
  obtain ⟨own, names, _⟩ := kept.names
  cases blocks with
  | nil => cases names
  | cons block rest =>
    refine ⟨⟨top, (List.cons.inj names).2, seen⟩, kept.size, ?_⟩
    intro depth slot v holds
    obtain ⟨stored, live⟩ := kept.held (depth + 1) slot v (Blocks.holds_succ.mpr holds)
    exact ⟨stored, live.left⟩

theorem write_sized {slot : Nat} (inside : slot < locals.size) (v : Float) :
    ∃ after, locals.write slot v = .ok after ∧ after.size = locals.size := by
  refine ⟨locals.setIfInBounds slot v, ?_, by simp⟩
  simp only [Locals.write, inside, if_true]

theorem afterDeclare (kept : Kept slots outer visible log blocks locals) {slot : Nat} (inside : slot < slots)
    (fresh : slot ∉ visible) (v : Float) : ∃ after, locals.write slot v = .ok after ∧
      Kept slots outer (slot :: visible) (log ++ [.declare slot v]) (blocks.declare slot v) after := by
  obtain ⟨after, written, sized⟩ := write_sized (kept.size ▸ inside) v
  obtain ⟨new, old⟩ := Locals.write_parts written
  obtain ⟨top, names, seen⟩ := kept.names
  have others : ∀ depth name u, blocks.Holds depth name u →
      after[name]? = some u ∧ Live name (log ++ [.declare slot v]) depth u := by
    intro depth name u holds
    have apart : name ≠ slot := by
      rintro rfl
      exact fresh (kept.flatten ▸ holds.named)
    obtain ⟨stored, live⟩ := kept.held depth name u holds
    exact ⟨(old name apart).trans stored, live.otherDeclared apart v⟩
  refine ⟨after, written, ?_⟩
  cases blocks with
  | nil => cases names
  | cons block rest =>
    obtain ⟨rfl, rfl⟩ := List.cons.inj names
    refine ⟨⟨slot :: block.map Prod.fst, rfl, congrArg (slot :: ·) seen⟩, sized.trans kept.size, ?_⟩
    rintro (_ | depth) name u holds
    · rcases List.mem_cons.mp (Blocks.holds_zero.mp holds) with same | here
      · cases same
        exact ⟨new, .declared log v⟩
      · exact others 0 name u (Blocks.holds_zero.mpr here)
    · exact others (depth + 1) name u (Blocks.holds_succ.mpr (Blocks.holds_succ.mp holds))

theorem afterAssign (kept : Kept slots outer visible log blocks locals) (distinct : visible.Nodup) {slot : Nat}
    (seen : slot ∈ visible) (v : Float) : ∃ next after, Memory.blocks.assign blocks slot v = .ok next ∧
      locals.write slot v = .ok after ∧ Kept slots outer visible (log ++ [.assign slot v]) next after := by
  obtain ⟨next, changed, names, entries⟩ := Blocks.set?_named (kept.flatten ▸ seen) (kept.flatten ▸ distinct) v
  obtain ⟨first, _, _, stored, _⟩ := kept.read_visible seen
  have inside : slot < locals.size := by
    by_contra outside
    simp [Locals.read, Array.getElem?_eq_none (Nat.le_of_not_lt outside)] at stored
  obtain ⟨after, written, sized⟩ := write_sized inside v
  obtain ⟨new, old⟩ := Locals.write_parts written
  refine ⟨next, after, by simp only [Memory.blocks, changed, Blocks.known], written, names ▸ kept.names,
    sized.trans kept.size, ?_⟩
  intro depth name u holds
  rcases entries depth name u holds with ⟨rfl, rfl, before, held⟩ | ⟨apart, held⟩
  · exact ⟨new, (kept.held depth name before held).2.assigned u⟩
  · obtain ⟨stored, live⟩ := kept.held depth name u held
    exact ⟨(old name apart).trans stored, live.otherAssigned apart v⟩

end Kept

section Expressions

variable {σ τ : Type} {m : Memory σ} {n : Memory τ} {s : σ} {t : τ} {env : Env} {i : Interface} {visible : List Nat}
  {Known : List Access → Prop} {r r' : Nat → Except EvalError Float}

-- A read of a local in scope gives the same live value on both sides, and what is known outlasts it.
structure Sees (visible : List Nat) (Known : List Access → Prop) (r r' : Nat → Except EvalError Float) : Prop where
  known : ∀ log slot v, Known log → Known (log ++ [.read slot v])
  same : ∀ log slot, Known log → slot ∈ visible → ∃ v depth, r slot = .ok v ∧ r' slot = .ok v ∧ Live slot log depth v

theorem Sees.narrow (sees : Sees visible Known r r') {narrow : List Nat} (within : narrow ⊆ visible) :
    Sees narrow Known r r' :=
  ⟨sees.known, fun log slot known seen => sees.same log slot known (within seen)⟩

theorem Sees.read (sees : Sees visible Known r r') {past : List Access} (known : Known past) {slot : Nat}
    (seen : slot ∈ visible) : Agrees past (fun log a b => a = b ∧ Known log) (.noting (.read slot) (r slot))
      (.noting (.read slot) (r' slot)) := by
  obtain ⟨v, depth, first, second, live⟩ := sees.same past slot known seen
  refine .noting first second rfl ?_ ⟨rfl, sees.known past slot v known⟩
  intro name u same
  cases same
  exact ⟨depth, live⟩

mutual

theorem eval_sees (sees : Sees visible Known (m.read s) (n.read t)) (e : Expr) (allowed : Bool)
    (checked : i.checkExpr visible allowed e = .ok ()) (past : List Access) (known : Known past) :
    Agrees past (fun log a b => a = b ∧ Known log) ((m.evaluator env).eval s e) ((n.evaluator env).eval t e) := by
  cases e with
  | const v | thread axis | extent axis | param index =>
    simp only [Evaluator.eval, Memory.evaluator_env]
    exact .lift_same known _
  | var slot =>
    simp only [Evaluator.eval]
    refine sees.read known ?_
    rw [Interface.checkExpr] at checked
    split at checked
    · rename_i seen
      simpa using seen
    · cases checked
  | index param indices =>
    simp only [Evaluator.eval, Memory.evaluator_env]
    cases env.arrayArg? param with
    | none => exact .lift_same known _
    | some view =>
      rw [Interface.checkExpr] at checked
      obtain ⟨_, _, checked⟩ := bind_eq_ok checked
      split at checked
      · cases checked
      · split at checked
        · cases checked
        · refine (evalAll_sees sees indices false checked past known).bind ?_
          rintro log values _ ⟨rfl, known⟩
          exact .lift_same known _
  | unary op input =>
    simp only [Evaluator.eval]
    rw [Interface.checkExpr] at checked
    refine (eval_sees sees input false checked past known).bind ?_
    rintro log v _ ⟨rfl, known⟩
    exact .lift_same known _
  | binary op left right =>
    simp only [Evaluator.eval]
    rw [Interface.checkExpr] at checked
    obtain ⟨_, first, second⟩ := bind_eq_ok checked
    refine (eval_sees sees left false first past known).bind ?_
    rintro log a _ ⟨rfl, known⟩
    refine (eval_sees sees right false second log known).bind ?_
    rintro log b _ ⟨rfl, known⟩
    exact .lift_same known _
  | select cond yes no =>
    simp only [Evaluator.eval]
    rw [Interface.checkExpr] at checked
    obtain ⟨_, test, checked⟩ := bind_eq_ok checked
    obtain ⟨_, first, second⟩ := bind_eq_ok checked
    refine (eval_sees sees cond false test past known).bind ?_
    rintro log c _ ⟨rfl, known⟩
    split
    · exact eval_sees sees yes false first log known
    · exact eval_sees sees no false second log known
  | call name args =>
    simp only [Evaluator.eval, Memory.evaluator_env]
    rw [Interface.checkExpr] at checked
    split at checked
    · cases checked
    · cases env.lookup name with
      | none => exact .lift_same known _
      | some callee =>
        dsimp only
        split
        · exact .lift_same known _
        · refine (evalArgs_sees sees name callee.paramTypes args checked past known).bind ?_
          rintro log values _ ⟨rfl, known⟩
          exact .lift_same known _

theorem evalAll_sees (sees : Sees visible Known (m.read s) (n.read t)) (es : List Expr) (allowed : Bool)
    (checked : i.checkExprs visible allowed es = .ok ()) (past : List Access) (known : Known past) :
    Agrees past (fun log a b => a = b ∧ Known log) ((m.evaluator env).evalAll s es) ((n.evaluator env).evalAll t es) := by
  cases es with
  | nil =>
    simp only [Evaluator.evalAll]
    exact .lift_same known _
  | cons e es =>
    simp only [Evaluator.evalAll]
    rw [Interface.checkExprs] at checked
    obtain ⟨_, first, rest⟩ := bind_eq_ok checked
    refine (eval_sees sees e allowed first past known).bind ?_
    rintro log v _ ⟨rfl, known⟩
    refine (evalAll_sees sees es allowed rest log known).bind ?_
    rintro log vs _ ⟨rfl, known⟩
    exact .lift_same known _

theorem evalArgs_sees (sees : Sees visible Known (m.read s) (n.read t)) (callee : String) (types : List ValueType) (es : List Expr)
    (checked : i.checkExprs visible true es = .ok ()) (past : List Access) (known : Known past) :
    Agrees past (fun log a b => a = b ∧ Known log) ((m.evaluator env).evalArgs s callee types es)
      ((n.evaluator env).evalArgs t callee types es) := by
  cases es with
  | nil => cases types <;> exact .lift_same known _
  | cons e es =>
    cases types with
    | nil => exact .lift_same known _
    | cons type types =>
      rw [Interface.checkExprs] at checked
      obtain ⟨_, first, rest⟩ := bind_eq_ok checked
      have value := eval_sees sees e true first past known
      have others (log : List Access) (a b : Value) (related : a = b ∧ Known log) :
          Agrees log (fun log a b => a = b ∧ Known log)
            (do let values ← (m.evaluator env).evalArgs s callee types es; pure (a :: values))
            (do let values ← (n.evaluator env).evalArgs t callee types es; pure (b :: values)) := by
        obtain ⟨rfl, known⟩ := related
        refine (evalArgs_sees sees callee types es rest log known).bind ?_
        rintro log values _ ⟨rfl, known⟩
        exact .lift_same known _
      simp only [Evaluator.evalArgs]
      cases type with
      | floatArray => exact (Agrees.lift_same known _).bind others
      | float | int =>
        refine Agrees.bind (value.bind ?_) others
        rintro log v _ ⟨rfl, known⟩
        exact .lift_same known _

end

end Expressions

namespace Memory

variable {σ τ : Type} {past : List Access}

-- Runs that go on, go on from states related by what they have done so far.
abbrev Follows (R : List Access → σ → τ → Prop) (log : List Access) : Ending σ → Ending τ → Prop :=
  Evaluator.Follows (R log)

theorem agrees_onward {R S : List Access → σ → τ → Prop} {x : Logged (Ending σ)} {y : Logged (Ending τ)}
    {f : σ → Logged (Ending σ)} {g : τ → Logged (Ending τ)} (first : Agrees past (Follows R) x y)
    (next : ∀ log s t, R log s t → Agrees log (Follows S) (f s) (g t)) :
    Agrees past (Follows S) (x >>= Evaluator.onward f) (y >>= Evaluator.onward g) := by
  refine first.bind ?_
  intro log a b follows
  cases follows with
  | next related => exact next log _ _ related
  | done v => exact .pure (.done v)

theorem iterate_agrees (m : Memory σ) (n : Memory τ) (env : Env) {R : List Access → σ → τ → Prop} {test : σ → Logged Bool} {test' : τ → Logged Bool}
    {step : σ → Logged (Ending σ)} {step' : τ → Logged (Ending τ)}
    (tests : ∀ log s t, R log s t → Agrees log (fun log a b => a = b ∧ R log s t) (test s) (test' t))
    (steps : ∀ log s t, R log s t → Agrees log (Follows R) (step s) (step' t)) (left : Nat) (past : List Access) (s : σ)
    (t : τ) (related : R past s t) :
    Agrees past (Follows R) ((m.evaluator env).iterate test step left s) ((n.evaluator env).iterate test' step' left t) := by
  induction left generalizing past s t with
  | zero =>
    refine (tests past s t related).bind ?_
    rintro log more _ ⟨rfl, related⟩
    split
    · exact .fails _
    · exact .pure (.next related)
  | succ left ih =>
    refine (tests past s t related).bind ?_
    rintro log more _ ⟨rfl, related⟩
    split
    · exact agrees_onward (steps log s t related) ih
    · exact .pure (.next related)

variable {slots : Nat} {outer : List (List Nat)} {visible : List Nat}

theorem inside_agrees (env : Env) (inner : List Nat) {f : Blocks → Logged (Ending Blocks)} {g : Locals → Logged (Ending Locals)}
    (block : ∀ top log blocks locals, Kept slots (top :: outer) visible log blocks locals →
      Agrees log (Follows (Kept slots (top :: outer) inner)) (f blocks) (g locals))
    {blocks : Blocks} {locals : Locals} (kept : Kept slots outer visible past blocks locals) :
    Agrees past (Follows (Kept slots outer visible)) ((Memory.blocks.evaluator env).inside f blocks)
      ((flat.evaluator env).inside g locals) := by
  obtain ⟨top, seen, entered⟩ := kept.afterEnter
  have begins : Agrees past (Kept slots (top :: outer) visible) (.noting (fun _ => .enter) (.ok (Memory.blocks.enter blocks)))
      (.noting (fun _ => .enter) (.ok (flat.enter locals))) := .noting rfl rfl rfl (by simp) entered
  refine begins.bind ?_
  intro log a b entered
  refine agrees_onward (block top log a b entered) ?_
  intro log a b last
  have ends : Agrees log (Kept slots outer visible) (.noting (fun _ => .leave) (.ok (Memory.blocks.leave a)))
      (.noting (fun _ => .leave) (.ok (flat.leave b))) := .noting rfl rfl rfl (by simp) (last.afterLeave seen)
  refine ends.bind ?_
  intro log a b left
  exact .pure (.next left)

section Statements

variable {env : Env} {i : Interface} {log : List Access} {blocks : Blocks} {locals : Locals}

theorem kept_sees (slots : Nat) (outer : List (List Nat)) (visible : List Nat) (blocks : Blocks) (locals : Locals) :
    Sees visible (fun log => Kept slots outer visible log blocks locals) (Memory.blocks.read blocks) (flat.read locals) := by
  refine ⟨?_, ?_⟩
  · intro log slot v kept
    exact kept.afterRead slot v
  · intro log slot kept seen
    exact kept.read_visible seen

theorem eval_agrees {e : Expr} (checked : i.checkExpr visible false e = .ok ())
    (kept : Kept slots outer visible log blocks locals) :
    Agrees log (fun log a b => a = b ∧ Kept slots outer visible log blocks locals)
      ((Memory.blocks.evaluator env).eval blocks e) ((flat.evaluator env).eval locals e) :=
  eval_sees (kept_sees _ _ _ blocks locals) e false checked log kept

theorem declare_agrees (kept : Kept slots outer visible log blocks locals) {slot : Nat} (inside : slot < slots)
    (fresh : slot ∉ visible) (v : Float) :
    Agrees log (Kept slots outer (slot :: visible)) (.noting (fun _ => .declare slot v) (Memory.blocks.declare blocks slot v))
      (.noting (fun _ => .declare slot v) (flat.declare locals slot v)) := by
  obtain ⟨after, written, kept⟩ := kept.afterDeclare inside fresh v
  exact .noting rfl written rfl (by simp) kept

theorem assign_agrees (kept : Kept slots outer visible log blocks locals) (distinct : visible.Nodup) {slot : Nat}
    (seen : slot ∈ visible) (v : Float) :
    Agrees log (Kept slots outer visible) (.noting (fun _ => .assign slot v) (Memory.blocks.assign blocks slot v))
      (.noting (fun _ => .assign slot v) (flat.assign locals slot v)) := by
  obtain ⟨next, after, changed, written, kept⟩ := kept.afterAssign distinct seen v
  exact .noting changed written rfl (by simp) kept

-- The bound was checked where the counter is not in scope yet.
theorem below_agrees {counter : Nat} {stop : Expr} (checked : i.checkExpr visible false stop = .ok ())
    (kept : Kept slots outer (counter :: visible) log blocks locals) :
    Agrees log (fun log a b => a = b ∧ Kept slots outer (counter :: visible) log blocks locals)
      ((Memory.blocks.evaluator env).below counter stop blocks) ((flat.evaluator env).below counter stop locals) := by
  have sees := kept_sees slots outer (counter :: visible) blocks locals
  refine (eval_sees (sees.narrow (List.subset_cons_self _ _)) stop false checked log kept).bind ?_
  rintro log bound _ ⟨rfl, kept⟩
  refine (sees.read kept List.mem_cons_self).bind ?_
  rintro log v _ ⟨rfl, kept⟩
  exact .lift_same kept _

theorem advance_agrees {counter : Nat} (distinct : visible.Nodup) (seen : counter ∈ visible)
    (kept : Kept slots outer visible log blocks locals) :
    Agrees log (Follows (Kept slots outer visible)) ((Memory.blocks.evaluator env).advance counter blocks)
      ((flat.evaluator env).advance counter locals) := by
  refine ((kept_sees _ _ _ blocks locals).read kept seen).bind ?_
  rintro log v _ ⟨rfl, kept⟩
  refine (assign_agrees kept distinct seen _).bind ?_
  intro log a b kept
  exact .pure (.next kept)

mutual

theorem exec_agrees (stmt : Stmt) (s after : Scope) (proper : s.Proper) (checked : i.checkStmt stmt s = .ok after)
    (outer : List (List Nat)) (log : List Access) (blocks : Blocks) (locals : Locals)
    (kept : Kept i.locals outer s.visible log blocks locals) :
    Agrees log (Follows (Kept i.locals outer after.visible)) ((Memory.blocks.evaluator env).exec stmt blocks)
      ((flat.evaluator env).exec stmt locals) := by
  cases stmt with
  | declare slot value =>
    rw [Interface.checkStmt] at checked
    obtain ⟨_, value, declared⟩ := bind_eq_ok checked
    obtain ⟨inside, fresh, rfl⟩ := Interface.declare_parts declared
    rw [Evaluator.exec, Evaluator.exec]
    refine (eval_agrees value kept).bind ?_
    rintro log v _ ⟨rfl, kept⟩
    refine (declare_agrees kept inside (fun seen => fresh (proper.declared seen)) v).bind ?_
    intro log a b kept
    exact .pure (.next kept)
  | assign slot value =>
    rw [Interface.checkStmt] at checked
    split at checked
    · cases checked
    · rename_i seen
      obtain ⟨_, value, last⟩ := bind_eq_ok checked
      cases last
      rw [Evaluator.exec, Evaluator.exec]
      refine (eval_agrees value kept).bind ?_
      rintro log v _ ⟨rfl, kept⟩
      refine (assign_agrees kept proper.distinct (by simpa using seen) v).bind ?_
      intro log a b kept
      exact .pure (.next kept)
  | loop counter start stop body =>
    obtain ⟨entry, ended, first, bound, declared, block, rfl⟩ := Interface.checkLoop_parts checked
    have grown := Interface.declare_grows proper declared
    obtain ⟨inside, fresh, rfl⟩ := Interface.declare_parts declared
    rw [Evaluator.exec, Evaluator.exec]
    refine (eval_agrees first kept).bind ?_
    rintro log v _ ⟨rfl, kept⟩
    refine inside_agrees env (counter :: s.visible) ?_ kept
    intro top log blocks locals kept
    refine (declare_agrees kept inside (fun seen => fresh (proper.declared seen)) v).bind ?_
    intro log blocks locals kept
    refine iterate_agrees Memory.blocks flat env ?_ ?_ maxIterations log blocks locals kept
    · intro log blocks locals kept
      exact below_agrees bound kept
    · intro log blocks locals kept
      refine agrees_onward (inside_agrees env ended.visible ?_ kept) ?_
      · intro inner log blocks locals kept
        exact execBlock_agrees body _ ended grown.proper block _ log blocks locals kept
      · intro log blocks locals kept
        exact advance_agrees grown.proper.distinct List.mem_cons_self kept
  | branch cond yes no =>
    obtain ⟨first, second, test, blockYes, blockNo, rfl⟩ := Interface.checkBranch_parts checked
    have one := Interface.checkBlock_grows yes s first proper blockYes
    rw [Evaluator.exec, Evaluator.exec]
    refine (eval_agrees test kept).bind ?_
    rintro log c _ ⟨rfl, kept⟩
    split
    · refine inside_agrees env first.visible ?_ kept
      intro top log blocks locals kept
      exact execBlock_agrees yes s first proper blockYes _ log blocks locals kept
    · refine inside_agrees env second.visible ?_ kept
      intro top log blocks locals kept
      exact execBlock_agrees no _ second (proper.more one.declared) blockNo _ log blocks locals kept
  | ret value =>
    rw [Interface.checkStmt] at checked
    obtain ⟨_, value, last⟩ := bind_eq_ok checked
    cases last
    rw [Evaluator.exec, Evaluator.exec]
    refine (eval_agrees value kept).bind ?_
    rintro log v _ ⟨rfl, kept⟩
    exact .pure (.done v)

theorem execBlock_agrees (stmts : List Stmt) (s after : Scope) (proper : s.Proper)
    (checked : i.checkBlock stmts s = .ok after) (outer : List (List Nat)) (log : List Access) (blocks : Blocks)
    (locals : Locals) (kept : Kept i.locals outer s.visible log blocks locals) :
    Agrees log (Follows (Kept i.locals outer after.visible)) ((Memory.blocks.evaluator env).execBlock stmts blocks)
      ((flat.evaluator env).execBlock stmts locals) := by
  cases stmts with
  | nil =>
    rw [Interface.checkBlock] at checked
    cases checked
    rw [Evaluator.execBlock, Evaluator.execBlock]
    exact .pure (.next kept)
  | cons stmt rest =>
    rw [Interface.checkBlock] at checked
    obtain ⟨middle, one, checked⟩ := bind_eq_ok checked
    split at checked
    · cases checked
    · have grown := Interface.checkStmt_grows stmt s middle proper one
      rw [Evaluator.execBlock, Evaluator.execBlock]
      refine agrees_onward (exec_agrees stmt s middle proper one outer log blocks locals kept) ?_
      intro log blocks locals kept
      exact execBlock_agrees rest middle after grown.proper checked outer log blocks locals kept

end

end Statements

theorem run_agrees {b : Body} {types : List ValueType} (valid : b.validate types = .ok ()) (env : Env) {locals : Locals}
    (sized : locals.size = b.locals) :
    Agrees [] (fun _ v w => v = w) (Memory.blocks.run env b.stmts [[]]) (flat.run env b.stmts locals) := by
  obtain ⟨after, checked, _⟩ := b.validate_parts valid
  have start : Kept b.locals [] [] [] [[]] locals := by
    refine ⟨⟨[], rfl, rfl⟩, sized, ?_⟩
    rintro (_ | depth) slot v holds <;> simp [Blocks.Holds] at holds
  refine (execBlock_agrees b.stmts .empty after ⟨.nil, List.Subset.refl _⟩ checked [] [] [[]] locals start).bind ?_
  intro log a b follows
  cases follows with
  | next => exact .fails _
  | done v => exact .pure rfl

end Memory

-- A checked body runs alike from any content of its slots. It makes the accesses of a run with block-scoped variables
-- and has its result, and each read gives what was last written to the local in whose scope it stands.
theorem locals_are_block_scoped (b : Body) (types : List ValueType) (valid : b.validate types = .ok ()) (env : Env) :
    (∀ locals others : Locals, locals.size = b.locals → others.size = b.locals →
      env.runFrom b.stmts locals = env.runFrom b.stmts others) ∧
    ∀ locals : Locals, locals.size = b.locals →
      (Memory.flat.run env b.stmts locals).result = env.runFrom b.stmts locals ∧
      Memory.flat.run env b.stmts locals = Memory.blocks.run env b.stmts [[]] ∧
      ∀ before slot v after, (Memory.flat.run env b.stmts locals).log = before ++ .read slot v :: after →
        ∃ depth, Live slot before depth v := by
  have agrees : ∀ locals : Locals, locals.size = b.locals →
      Agrees [] (fun _ v w => v = w) (Memory.blocks.run env b.stmts [[]]) (Memory.flat.run env b.stmts locals) := by
    intro locals sized
    exact Memory.run_agrees valid env sized
  refine ⟨?_, ?_⟩
  · intro locals others sized sized'
    rw [← Memory.result_run, ← Memory.result_run, ← (agrees locals sized).same, ← (agrees others sized').same]
  · intro locals sized
    refine ⟨Memory.result_run env b.stmts locals, (agrees locals sized).same.symm, ?_⟩
    rw [← (agrees locals sized).log]
    exact (agrees locals sized).reads

-- A sum over a loop whose block has a local of its own, declared again in each round; one branch assigns the sum.
def roundSum : Body where
  params := []
  locals := 4
  stmts := [
    .declare 0 (.const ⟨0⟩),
    .loop 1 (.const ⟨0⟩) (.extent .x) [
      .declare 2 (.binary .add (.var 0) (.var 1)),
      .branch (.var 2) [.assign 0 (.var 2)] [.declare 3 (.var 1)]],
    .ret (.var 0)]

def oneThread : Env := ⟨fun _ => none, ⟨⟨0, 0, 0⟩, ⟨1, 1, 1⟩⟩, enter (fun _ => none) ⟨⟨0, 0, 0⟩, ⟨1, 1, 1⟩⟩ maxCallDepth, []⟩

theorem roundSum_starts_anywhere : roundSum.validate [] = .ok () ∧
    oneThread.runFrom roundSum.stmts #[1.0, 2.0, 3.0, 4.0] = oneThread.runFrom roundSum.stmts (Array.replicate 4 0.0) ∧
    Memory.flat.run oneThread roundSum.stmts #[1.0, 2.0, 3.0, 4.0] = Memory.blocks.run oneThread roundSum.stmts [[]] := by
  have valid : roundSum.validate [] = .ok () := by decide
  obtain ⟨alike, runs⟩ := locals_are_block_scoped roundSum [] valid oneThread
  exact ⟨valid, alike _ _ rfl rfl, (runs _ rfl).2.1⟩

end GridKernel
