import GridKernel.Kernel.Script
import Mathlib.Data.List.Range

namespace GridKernel

-- What a script creates, with a handle for each.
inductive Creation where
  | param (p : Param)
  | var
  | counter
deriving DecidableEq

def Creation.param? : Creation → Option Param
  | .param p => some p
  | _ => none

namespace Instr

mutual

-- In the order of creation: a counter comes before what the body of its loop creates.
def creations : Instr → List Creation
  | .param name type => [.param ⟨name, type⟩]
  | .var _ => [.var]
  | .assign _ _ => []
  | .loop _ _ body => .counter :: creationsOf body
  | .branch _ yes no => creationsOf yes ++ creationsOf no
  | .ret _ => []

def creationsOf : List Instr → List Creation
  | [] => []
  | step :: rest => creations step ++ creationsOf rest

end

end Instr

namespace Draft

structure Extends (d later : Draft) : Prop where
  params : d.params <+: later.params
  paramHandles : d.paramHandles <+: later.paramHandles
  varHandles : d.varHandles <+: later.varHandles
  counterHandles : d.counterHandles <+: later.counterHandles

theorem Extends.refl (d : Draft) : d.Extends d := ⟨List.prefix_rfl, List.prefix_rfl, List.prefix_rfl, List.prefix_rfl⟩

theorem Extends.trans {d middle later : Draft} (first : d.Extends middle) (second : middle.Extends later) : d.Extends later :=
  ⟨first.params.trans second.params, first.paramHandles.trans second.paramHandles, first.varHandles.trans second.varHandles,
    first.counterHandles.trans second.counterHandles⟩

def create (d : Draft) : Creation → Draft
  | .param p => d.addParam p
  | .var => d.addVar
  | .counter => d.addCounter

def createAll (d : Draft) (creations : List Creation) : Draft := creations.foldl create d

theorem createAll_append (d : Draft) (first second : List Creation) :
    d.createAll (first ++ second) = (d.createAll first).createAll second := List.foldl_append

theorem create_extends (d : Draft) (c : Creation) : d.Extends (d.create c) := by
  cases c with
  | param p => exact ⟨List.prefix_append _ _, List.prefix_append _ _, List.prefix_rfl, List.prefix_rfl⟩
  | var => exact ⟨List.prefix_rfl, List.prefix_rfl, List.prefix_append _ _, List.prefix_rfl⟩
  | counter => exact ⟨List.prefix_rfl, List.prefix_rfl, List.prefix_rfl, List.prefix_append _ _⟩

theorem createAll_extends (d : Draft) (creations : List Creation) : d.Extends (d.createAll creations) := by
  induction creations generalizing d with
  | nil => exact .refl d
  | cons c rest ih => exact (d.create_extends c).trans (ih (d.create c))

theorem createAll_params (d : Draft) (creations : List Creation) :
    (d.createAll creations).params = d.params ++ creations.filterMap Creation.param? := by
  induction creations generalizing d with
  | nil => simp [createAll]
  | cons c rest ih =>
    refine (ih (d.create c)).trans ?_
    cases c <;> simp [create, addParam, addVar, addCounter, Creation.param?, List.filterMap_cons]

theorem createAll_locals (d : Draft) (creations : List Creation) :
    (d.createAll creations).locals = d.locals + creations.count .var + creations.count .counter := by
  induction creations generalizing d with
  | nil => rfl
  | cons c rest ih =>
    refine (ih (d.create c)).trans ?_
    cases c <;> simp [create, addParam, addVar, addCounter] <;> omega

def Numbered (d : Draft) : Prop := d.paramHandles = List.range d.params.length

theorem Numbered.createAll {d : Draft} (numbered : d.Numbered) (creations : List Creation) :
    (d.createAll creations).Numbered := by
  induction creations generalizing d with
  | nil => exact numbered
  | cons c rest ih =>
    refine ih ?_
    unfold Numbered at numbered ⊢
    cases c <;> simp [create, addParam, addVar, addCounter, numbered, List.range_succ]

end Draft

theorem found_later {α : Type} {l later : List α} (ext : l <+: later) {k : Nat} {a : α} (found : l[k]? = some a) :
    later[k]? = some a := by
  obtain ⟨inside, rfl⟩ := List.getElem?_eq_some_iff.mp found
  exact List.prefix_iff_getElem?.mp ext k inside

namespace Term

variable {d later : Draft}

mutual

theorem resolve_extends (ext : d.Extends later) (t : Term) (e : Expr) (resolved : t.resolve d = some e) :
    t.resolve later = some e := by
  cases t with
  | const v | thread axis | extent axis => simpa only [resolve] using resolved
  | param k =>
    simp only [resolve, Option.map_eq_some_iff] at resolved ⊢
    obtain ⟨index, found, rfl⟩ := resolved
    exact ⟨index, found_later ext.paramHandles found, rfl⟩
  | var k =>
    simp only [resolve, Option.map_eq_some_iff] at resolved ⊢
    obtain ⟨slot, found, rfl⟩ := resolved
    exact ⟨slot, found_later ext.varHandles found, rfl⟩
  | counter k =>
    simp only [resolve, Option.map_eq_some_iff] at resolved ⊢
    obtain ⟨slot, found, rfl⟩ := resolved
    exact ⟨slot, found_later ext.counterHandles found, rfl⟩
  | «at» p indices =>
    simp only [resolve, Option.bind_eq_bind, Option.bind_eq_some_iff] at resolved ⊢
    obtain ⟨index, found, es, inner, last⟩ := resolved
    exact ⟨index, found_later ext.paramHandles found, es, resolveAll_extends ext indices es inner, last⟩
  | unary op input =>
    simp only [resolve, Option.bind_eq_bind, Option.bind_eq_some_iff] at resolved ⊢
    obtain ⟨inner, found, last⟩ := resolved
    exact ⟨inner, resolve_extends ext input inner found, last⟩
  | binary op left right =>
    simp only [resolve, Option.bind_eq_bind, Option.bind_eq_some_iff] at resolved ⊢
    obtain ⟨a, first, b, second, last⟩ := resolved
    exact ⟨a, resolve_extends ext left a first, b, resolve_extends ext right b second, last⟩
  | select cond yes no =>
    simp only [resolve, Option.bind_eq_bind, Option.bind_eq_some_iff] at resolved ⊢
    obtain ⟨c, test, a, first, b, second, last⟩ := resolved
    exact ⟨c, resolve_extends ext cond c test, a, resolve_extends ext yes a first, b, resolve_extends ext no b second, last⟩
  | call name args =>
    simp only [resolve, Option.bind_eq_bind, Option.bind_eq_some_iff] at resolved ⊢
    obtain ⟨es, inner, last⟩ := resolved
    exact ⟨es, resolveAll_extends ext args es inner, last⟩

theorem resolveAll_extends (ext : d.Extends later) (ts : List Term) (es : List Expr) (resolved : resolveAll d ts = some es) :
    resolveAll later ts = some es := by
  cases ts with
  | nil => simpa only [resolveAll] using resolved
  | cons t ts =>
    simp only [resolveAll, Option.bind_eq_bind, Option.bind_eq_some_iff] at resolved ⊢
    obtain ⟨e, first, rest, others, last⟩ := resolved
    exact ⟨e, resolve_extends ext t e first, rest, resolveAll_extends ext ts rest others, last⟩

end

end Term

structure Mark where
  params : Nat
  vars : Nat
  counters : Nat
  locals : Nat

namespace Mark

def start : Mark := ⟨0, 0, 0, 0⟩

def addParam (m : Mark) : Mark := { m with params := m.params + 1 }

def addVar (m : Mark) : Mark := { m with vars := m.vars + 1, locals := m.locals + 1 }

def addCounter (m : Mark) : Mark := { m with counters := m.counters + 1, locals := m.locals + 1 }

def create (m : Mark) : Creation → Mark
  | .param _ => m.addParam
  | .var => m.addVar
  | .counter => m.addCounter

def createAll (m : Mark) (creations : List Creation) : Mark := creations.foldl create m

theorem createAll_append (m : Mark) (first second : List Creation) :
    m.createAll (first ++ second) = (m.createAll first).createAll second := List.foldl_append

end Mark

-- A block of statements says what a block of steps says, step by step, between two points of the script. `d` knows what all
-- handles of the script stand for: the parameter, variable or counter created at a point has the next number of its kind,
-- and a local the next slot.
inductive Spells (d : Draft) : Mark → List Instr → List Stmt → Mark → Prop where
  | nil (m : Mark) : Spells d m [] [] m
  | param {m last : Mark} {rest : List Instr} {stmts : List Stmt} {name : String} {type : Option ValueType}
      (declared : d.params[m.params]? = some ⟨name, type⟩) (handle : d.paramHandles[m.params]? = some m.params)
      (others : Spells d m.addParam rest stmts last) : Spells d m (.param name type :: rest) stmts last
  | var {m last : Mark} {rest : List Instr} {stmts : List Stmt} {init : Term} {value : Expr}
      (resolved : init.resolve d = some value) (handle : d.varHandles[m.vars]? = some m.locals)
      (others : Spells d m.addVar rest stmts last) :
      Spells d m (.var init :: rest) (.declare m.locals value :: stmts) last
  | assign {m last : Mark} {rest : List Instr} {stmts : List Stmt} {k slot : Nat} {term : Term} {value : Expr}
      (handle : d.varHandles[k]? = some slot) (resolved : term.resolve d = some value)
      (others : Spells d m rest stmts last) : Spells d m (.assign k term :: rest) (.assign slot value :: stmts) last
  | loop {m inner last : Mark} {rest body : List Instr} {stmts block : List Stmt} {start stop : Term} {first bound : Expr}
      (begins : start.resolve d = some first) (ends : stop.resolve d = some bound)
      (handle : d.counterHandles[m.counters]? = some m.locals) (inside : Spells d m.addCounter body block inner)
      (others : Spells d inner rest stmts last) :
      Spells d m (.loop start stop body :: rest) (.loop m.locals first bound block :: stmts) last
  | branch {m middle inner last : Mark} {rest yes no : List Instr} {stmts blockYes blockNo : List Stmt} {cond : Term}
      {test : Expr} (resolved : cond.resolve d = some test) (first : Spells d m yes blockYes middle)
      (second : Spells d middle no blockNo inner) (others : Spells d inner rest stmts last) :
      Spells d m (.branch cond yes no :: rest) (.branch test blockYes blockNo :: stmts) last
  | ret {m last : Mark} {rest : List Instr} {stmts : List Stmt} {term : Term} {value : Expr}
      (resolved : term.resolve d = some value) (others : Spells d m rest stmts last) :
      Spells d m (.ret term :: rest) (.ret value :: stmts) last

namespace Draft

def mark (d : Draft) : Mark := ⟨d.params.length, d.varHandles.length, d.counterHandles.length, d.locals⟩

@[simp]
theorem mark_addParam (d : Draft) (p : Param) : (d.addParam p).mark = d.mark.addParam := by
  simp [mark, addParam, Mark.addParam]

@[simp]
theorem mark_addVar (d : Draft) : d.addVar.mark = d.mark.addVar := by
  simp [mark, addVar, Mark.addVar]

@[simp]
theorem mark_addCounter (d : Draft) : d.addCounter.mark = d.mark.addCounter := by
  simp [mark, addCounter, Mark.addCounter]

theorem mark_createAll (d : Draft) (creations : List Creation) : (d.createAll creations).mark = d.mark.createAll creations := by
  induction creations generalizing d with
  | nil => rfl
  | cons c rest ih =>
    refine (ih (d.create c)).trans ?_
    cases c <;> simp [create, Mark.createAll, Mark.create]

end Draft

namespace Stmt

mutual

def declared : Stmt → List Nat
  | .declare slot _ => [slot]
  | .assign _ _ => []
  | .loop counter _ _ body => counter :: declaredOf body
  | .branch _ yes no => declaredOf yes ++ declaredOf no
  | .ret _ => []

def declaredOf : List Stmt → List Nat
  | [] => []
  | stmt :: rest => declared stmt ++ declaredOf rest

end

end Stmt

namespace Spells

variable {d : Draft} {m last : Mark} {script : List Instr} {stmts : List Stmt}

theorem last_eq (spelled : Spells d m script stmts last) : last = m.createAll (Instr.creationsOf script) := by
  induction spelled with
  | nil => rfl
  | param _ _ _ ih | var _ _ _ ih | assign _ _ _ ih | ret _ _ ih => exact ih
  | loop _ _ _ _ _ inside others =>
    rw [others, inside, Instr.creationsOf, Instr.creations, Mark.createAll_append]
    rfl
  | branch _ _ _ _ first second others =>
    rw [others, second, first, Instr.creationsOf, Instr.creations, Mark.createAll_append, Mark.createAll_append]

-- Slots are handed out one after the other, whatever the nesting.
theorem declared_range (spelled : Spells d m script stmts last) :
    ∃ count, last.locals = m.locals + count ∧ Stmt.declaredOf stmts = List.range' m.locals count := by
  induction spelled with
  | nil m => exact ⟨0, rfl, rfl⟩
  | param _ _ _ ih | assign _ _ _ ih | ret _ _ ih => exact ih
  | @var m _ _ _ _ _ _ _ _ ih =>
    obtain ⟨count, ends, slots⟩ := ih
    have next : m.addVar.locals = m.locals + 1 := rfl
    refine ⟨count + 1, by omega, ?_⟩
    rw [Stmt.declaredOf, slots, next]
    rfl
  | @loop m inner _ _ _ _ _ _ _ _ _ _ _ _ _ _ inside others =>
    obtain ⟨one, within, block⟩ := inside
    obtain ⟨two, ends, slots⟩ := others
    have next : m.addCounter.locals = m.locals + 1 := rfl
    refine ⟨one + two + 1, by omega, ?_⟩
    rw [Stmt.declaredOf, Stmt.declared, block, slots, within, next, List.cons_append, List.range'_append_1]
    rfl
  | @branch m middle inner _ _ _ _ _ _ _ _ _ _ _ _ _ first second others =>
    obtain ⟨one, left, blockYes⟩ := first
    obtain ⟨two, right, blockNo⟩ := second
    obtain ⟨three, ends, slots⟩ := others
    refine ⟨one + two + three, by omega, ?_⟩
    rw [Stmt.declaredOf, Stmt.declared, blockYes, blockNo, slots, right, left, List.range'_append_1, Nat.add_assoc m.locals,
      List.range'_append_1]

end Spells

namespace Instr

mutual

theorem run_creates (step : Instr) (d after : Draft) (stmts : List Stmt) (ran : run step d = some (after, stmts)) :
    after = d.createAll (creations step) := by
  cases step with
  | param name type =>
    cases ran
    rfl
  | var init =>
    simp only [run, Option.bind_eq_bind, Option.bind_eq_some_iff] at ran
    obtain ⟨_, _, last⟩ := ran
    cases last
    rfl
  | assign k value =>
    simp only [run, Option.bind_eq_bind, Option.bind_eq_some_iff] at ran
    obtain ⟨_, _, _, _, last⟩ := ran
    cases last
    rfl
  | loop start stop body =>
    simp only [run, Option.bind_eq_bind, Option.bind_eq_some_iff] at ran
    obtain ⟨_, _, _, _, ⟨ended, block⟩, inner, last⟩ := ran
    cases last
    exact runAll_creates body _ _ _ inner
  | branch cond yes no =>
    simp only [run, Option.bind_eq_bind, Option.bind_eq_some_iff] at ran
    obtain ⟨_, _, ⟨middle, _⟩, first, ⟨ended, _⟩, second, last⟩ := ran
    cases last
    rw [creations, Draft.createAll_append, ← runAll_creates yes _ _ _ first]
    exact runAll_creates no _ _ _ second
  | ret value =>
    simp only [run, Option.bind_eq_bind, Option.bind_eq_some_iff] at ran
    obtain ⟨_, _, last⟩ := ran
    cases last
    rfl

theorem runAll_creates (script : List Instr) (d after : Draft) (stmts : List Stmt)
    (ran : runAll script d = some (after, stmts)) : after = d.createAll (creationsOf script) := by
  cases script with
  | nil =>
    cases ran
    rfl
  | cons step rest =>
    simp only [runAll, Option.bind_eq_bind, Option.bind_eq_some_iff] at ran
    obtain ⟨⟨middle, _⟩, first, ⟨ended, _⟩, second, last⟩ := ran
    cases last
    rw [creationsOf, Draft.createAll_append, ← run_creates step _ _ _ first]
    exact runAll_creates rest _ _ _ second

end

theorem run_extends {step : Instr} {d after : Draft} {stmts : List Stmt} (ran : run step d = some (after, stmts)) :
    d.Extends after := by
  rw [run_creates step d after stmts ran]
  exact d.createAll_extends _

theorem runAll_extends {script : List Instr} {d after : Draft} {stmts : List Stmt}
    (ran : runAll script d = some (after, stmts)) : d.Extends after := by
  rw [runAll_creates script d after stmts ran]
  exact d.createAll_extends _

section Spelling

variable {later : Draft}

mutual

-- By induction on the step; the rest of its block comes behind it.
theorem run_spells (step : Instr) (d after : Draft) (stmts : List Stmt) (ran : run step d = some (after, stmts))
    (numbered : d.Numbered) (ext : after.Extends later) (rest : List Instr) (more : List Stmt) (last : Mark)
    (others : Spells later after.mark rest more last) : Spells later d.mark (step :: rest) (stmts ++ more) last := by
  have before : d.Extends later := (run_extends ran).trans ext
  cases step with
  | param name type =>
    cases ran
    rw [Draft.mark_addParam] at others
    refine .param (found_later ext.params ?_) (found_later ext.paramHandles ?_) others
    · simp [Draft.addParam, Draft.mark]
    · unfold Draft.Numbered at numbered
      simp [Draft.addParam, Draft.mark, numbered]
  | var init =>
    simp only [run, Option.bind_eq_bind, Option.bind_eq_some_iff] at ran
    obtain ⟨value, resolved, ended⟩ := ran
    cases ended
    rw [Draft.mark_addVar] at others
    refine .var (Term.resolve_extends before init value resolved) (found_later ext.varHandles ?_) others
    simp [Draft.addVar, Draft.mark]
  | assign k term =>
    simp only [run, Option.bind_eq_bind, Option.bind_eq_some_iff] at ran
    obtain ⟨slot, handle, value, resolved, ended⟩ := ran
    cases ended
    exact .assign (found_later before.varHandles handle) (Term.resolve_extends before term value resolved) others
  | loop start stop body =>
    simp only [run, Option.bind_eq_bind, Option.bind_eq_some_iff] at ran
    obtain ⟨first, begins, bound, ends, ⟨inner, block⟩, inside, ended⟩ := ran
    cases ended
    have entered := (runAll_extends inside).trans ext
    have spelled := runAll_spells body _ _ _ inside numbered ext
    rw [Draft.mark_addCounter] at spelled
    refine .loop (Term.resolve_extends before start first begins) (Term.resolve_extends before stop bound ends)
      (found_later entered.counterHandles ?_) spelled others
    simp [Draft.addCounter, Draft.mark]
  | branch cond yes no =>
    simp only [run, Option.bind_eq_bind, Option.bind_eq_some_iff] at ran
    obtain ⟨test, resolved, ⟨middle, blockYes⟩, first, ⟨inner, blockNo⟩, second, ended⟩ := ran
    cases ended
    have kept : middle.Numbered := runAll_creates yes _ _ _ first ▸ numbered.createAll _
    have between := (runAll_extends second).trans ext
    exact .branch (Term.resolve_extends before cond test resolved) (runAll_spells yes _ _ _ first numbered between)
      (runAll_spells no _ _ _ second kept ext) others
  | ret term =>
    simp only [run, Option.bind_eq_bind, Option.bind_eq_some_iff] at ran
    obtain ⟨value, resolved, ended⟩ := ran
    cases ended
    exact .ret (Term.resolve_extends before term value resolved) others

theorem runAll_spells (script : List Instr) (d after : Draft) (stmts : List Stmt)
    (ran : runAll script d = some (after, stmts)) (numbered : d.Numbered) (ext : after.Extends later) :
    Spells later d.mark script stmts after.mark := by
  cases script with
  | nil =>
    cases ran
    exact .nil _
  | cons step rest =>
    simp only [runAll, Option.bind_eq_bind, Option.bind_eq_some_iff] at ran
    obtain ⟨⟨middle, one⟩, first, ⟨ended, more⟩, second, last⟩ := ran
    cases last
    have kept : middle.Numbered := run_creates step _ _ _ first ▸ numbered.createAll _
    have between := (runAll_extends second).trans ext
    exact run_spells step _ _ _ first numbered between rest more _ (runAll_spells rest _ _ _ second kept ext)

end

end Spelling

end Instr

inductive Handle where
  | param (k : Nat)
  | var (k : Nat)
  | counter (k : Nat)
deriving DecidableEq

namespace Handle

def created (m : Mark) : Handle → Bool
  | .param k => k < m.params
  | .var k => k < m.vars
  | .counter k => k < m.counters

-- Parameters belong to no block.
def inScope (scope : List Handle) : Handle → Bool
  | .param _ => true
  | .var k => scope.contains (.var k)
  | .counter k => scope.contains (.counter k)

end Handle

namespace Term

mutual

def handles : Term → List Handle
  | .const _ => []
  | .param k => [.param k]
  | .var k => [.var k]
  | .counter k => [.counter k]
  | .thread _ => []
  | .extent _ => []
  | .at p indices => .param p :: handlesOf indices
  | .unary _ input => handles input
  | .binary _ left right => handles left ++ handles right
  | .select cond yes no => handles cond ++ handles yes ++ handles no
  | .call _ args => handlesOf args

def handlesOf : List Term → List Handle
  | [] => []
  | t :: ts => handles t ++ handlesOf ts

end

end Term

namespace Instr

-- What the rest of a block has in scope behind a step.
def scopeBehind (m : Mark) (scope : List Handle) : Instr → List Handle
  | .var _ => .var m.vars :: scope
  | _ => scope

mutual

-- Every handle is used where `may` allows it. It is told what has been created so far and which variables and counters the
-- blocks around have created.
def uses (may : Mark → List Handle → Handle → Bool) (m : Mark) (scope : List Handle) : Instr → Bool
  | .param _ _ => true
  | .var init => init.handles.all (may m scope)
  | .assign k value => may m scope (.var k) && value.handles.all (may m scope)
  | .loop start stop body =>
    start.handles.all (may m scope) && stop.handles.all (may m scope) &&
      usesAll may m.addCounter (.counter m.counters :: scope) body
  | .branch cond yes no =>
    cond.handles.all (may m scope) && usesAll may m scope yes && usesAll may (m.createAll (creationsOf yes)) scope no
  | .ret value => value.handles.all (may m scope)

def usesAll (may : Mark → List Handle → Handle → Bool) (m : Mark) (scope : List Handle) : List Instr → Bool
  | [] => true
  | step :: rest => uses may m scope step && usesAll may (m.createAll (creations step)) (scopeBehind m scope step) rest

end

-- Each handle is used after its creation.
def ordered (script : List Instr) : Bool := usesAll (fun m _ => Handle.created m) .start [] script

-- Each variable is used in its block and each counter in its loop, or in blocks inside of these.
def tidy (script : List Instr) : Bool := usesAll (fun _ => Handle.inScope) .start [] script

end Instr

section
variable {α β : Type}

theorem isSome_then {x : Option α} {f : α → Option β} {later : Bool} (next : ∀ a, x = some a → (f a).isSome = later) :
    (x >>= f).isSome = (x.isSome && later) := by
  cases x with
  | none => rfl
  | some a => exact next a rfl

theorem isSome_last (x : Option α) (f : α → β) : (x >>= fun a => some (f a)).isSome = x.isSome := by
  cases x <;> rfl

theorem isSome_found (l : List α) (k : Nat) : (l[k]?).isSome = decide (k < l.length) := by
  rw [Bool.eq_iff_iff]
  simp

end

namespace Term

variable {d : Draft}

mutual

theorem resolve_isSome (numbered : d.Numbered) (t : Term) : (t.resolve d).isSome = t.handles.all (Handle.created d.mark) := by
  have params (k : Nat) : (d.paramHandles[k]?).isSome = Handle.created d.mark (.param k) := by
    rw [show d.paramHandles = _ from numbered, isSome_found, List.length_range]
    rfl
  cases t with
  | const | thread | extent => rfl
  | param k => simp [resolve, handles, params]
  | var k | counter k => simp [resolve, handles, isSome_found, Handle.created, Draft.mark]
  | «at» p indices =>
    rw [resolve, handles, List.all_cons, ← params, ← resolveAll_isSome numbered indices]
    exact isSome_then fun _ _ => isSome_last _ _
  | unary op input =>
    rw [resolve, handles, ← resolve_isSome numbered input]
    exact isSome_last _ _
  | binary op left right =>
    rw [resolve, handles, List.all_append, ← resolve_isSome numbered left, ← resolve_isSome numbered right]
    exact isSome_then fun _ _ => isSome_last _ _
  | select cond yes no =>
    rw [resolve, handles, List.all_append, List.all_append, ← resolve_isSome numbered cond, ← resolve_isSome numbered yes,
      ← resolve_isSome numbered no, Bool.and_assoc]
    exact isSome_then fun _ _ => isSome_then fun _ _ => isSome_last _ _
  | call name args =>
    rw [resolve, handles, ← resolveAll_isSome numbered args]
    exact isSome_last _ _

theorem resolveAll_isSome (numbered : d.Numbered) (ts : List Term) :
    (resolveAll d ts).isSome = (handlesOf ts).all (Handle.created d.mark) := by
  cases ts with
  | nil => rfl
  | cons t ts =>
    rw [resolveAll, handlesOf, List.all_append, ← resolve_isSome numbered t, ← resolveAll_isSome numbered ts]
    exact isSome_then fun _ _ => isSome_last _ _

end

end Term

namespace Instr

mutual

theorem run_isSome (step : Instr) (d : Draft) (numbered : d.Numbered) (scope : List Handle) :
    (run step d).isSome = uses (fun m _ => Handle.created m) d.mark scope step := by
  cases step with
  | param name type => rfl
  | var init =>
    rw [run, uses, ← init.resolve_isSome numbered]
    exact isSome_last _ _
  | assign k value =>
    have known : Handle.created d.mark (.var k) = (d.varHandles[k]?).isSome := (isSome_found _ k).symm
    rw [run, uses, known, ← value.resolve_isSome numbered]
    exact isSome_then fun _ _ => isSome_last _ _
  | loop start stop body =>
    have inside := runAll_isSome body d.addCounter numbered (.counter d.mark.counters :: scope)
    rw [Draft.mark_addCounter] at inside
    rw [run, uses, ← start.resolve_isSome numbered, ← stop.resolve_isSome numbered, ← inside, Bool.and_assoc]
    exact isSome_then fun _ _ => isSome_then fun _ _ => isSome_last _ _
  | branch cond yes no =>
    rw [run, uses, ← cond.resolve_isSome numbered, ← runAll_isSome yes d numbered scope, Bool.and_assoc]
    refine isSome_then fun _ _ => isSome_then fun built ran => ?_
    have after := runAll_creates yes d built.1 built.2 ran
    have second := runAll_isSome no built.1 (after ▸ numbered.createAll _) scope
    rw [after, Draft.mark_createAll, ← after] at second
    exact (isSome_last _ _).trans second
  | ret value =>
    rw [run, uses, ← value.resolve_isSome numbered]
    exact isSome_last _ _

theorem runAll_isSome (script : List Instr) (d : Draft) (numbered : d.Numbered) (scope : List Handle) :
    (runAll script d).isSome = usesAll (fun m _ => Handle.created m) d.mark scope script := by
  cases script with
  | nil => rfl
  | cons step rest =>
    rw [runAll, usesAll, ← run_isSome step d numbered scope]
    refine isSome_then fun built ran => ?_
    have after := run_creates step d built.1 built.2 ran
    have others := runAll_isSome rest built.1 (after ▸ numbered.createAll _) (scopeBehind d.mark scope step)
    rw [after, Draft.mark_createAll, ← after] at others
    exact (isSome_last _ _).trans others

end

end Instr

-- A builder with a stack of open blocks, the innermost first. A statement goes to the end of the innermost block, and a loop
-- or a branch goes there when its own blocks are complete.
structure Builder where
  draft : Draft
  blocks : List (List Stmt)

namespace Builder

def push (b : Builder) (stmt : Stmt) : Builder :=
  match b.blocks with
  | [] => b
  | block :: outer => { b with blocks := (block ++ [stmt]) :: outer }

def enter (b : Builder) : Builder := { b with blocks := [] :: b.blocks }

def leave (b : Builder) : Builder := { b with blocks := b.blocks.tail }

def innermost (b : Builder) : List Stmt := b.blocks.headD []

mutual

def step : Instr → Builder → Option Builder
  | .param name type, b => some { b with draft := b.draft.addParam ⟨name, type⟩ }
  | .var init, b => do
    let value ← init.resolve b.draft
    some ({ b with draft := b.draft.addVar }.push (.declare b.draft.locals value))
  | .assign handle value, b => do
    let slot ← b.draft.varHandles[handle]?
    let value ← value.resolve b.draft
    some (b.push (.assign slot value))
  | .loop start stop body, b => do
    let start ← start.resolve b.draft
    let stop ← stop.resolve b.draft
    let inner ← steps body { b with draft := b.draft.addCounter }.enter
    some (inner.leave.push (.loop b.draft.locals start stop inner.innermost))
  | .branch cond yes no, b => do
    let cond ← cond.resolve b.draft
    let first ← steps yes b.enter
    let second ← steps no first.leave.enter
    some (second.leave.push (.branch cond first.innermost second.innermost))
  | .ret value, b => do
    let value ← value.resolve b.draft
    some (b.push (.ret value))

def steps : List Instr → Builder → Option Builder
  | [], b => some b
  | first :: rest, b => do
    let after ← step first b
    steps rest after

end

def finish (b : Builder) : Body × List Nat := (⟨b.draft.params, b.draft.locals, b.innermost⟩, b.draft.paramHandles)

def build? (script : List Instr) : Option (Body × List Nat) := do
  let b ← steps script ⟨{}, [[]]⟩
  some b.finish

mutual

theorem step_eq (instr : Instr) (d : Draft) (block : List Stmt) (outer : List (List Stmt)) :
    step instr ⟨d, block :: outer⟩ = (instr.run d).map fun built => ⟨built.1, (block ++ built.2) :: outer⟩ := by
  cases instr with
  | param name type => simp [step, Instr.run]
  | var init => cases resolved : init.resolve d <;> simp [step, Instr.run, push, resolved]
  | assign k value =>
    cases handle : d.varHandles[k]? <;> cases resolved : value.resolve d <;> simp [step, Instr.run, push, handle, resolved]
  | loop start stop body =>
    have inside := steps_eq body d.addCounter [] (block :: outer)
    cases begins : start.resolve d with
    | none => simp [step, Instr.run, begins]
    | some first =>
      cases ends : stop.resolve d with
      | none => simp [step, Instr.run, begins, ends]
      | some bound => cases ran : Instr.runAll body d.addCounter <;>
          simp [step, Instr.run, begins, ends, enter, leave, push, innermost, inside, ran]
  | branch cond yes no =>
    have first := steps_eq yes d [] (block :: outer)
    cases resolved : cond.resolve d with
    | none => simp [step, Instr.run, resolved]
    | some test =>
      cases ran : Instr.runAll yes d with
      | none => simp [step, Instr.run, resolved, enter, first, ran]
      | some built =>
        have second := steps_eq no built.1 [] (block :: outer)
        cases done : Instr.runAll no built.1 <;>
          simp [step, Instr.run, resolved, enter, leave, push, innermost, first, ran, second, done]
  | ret value => cases resolved : value.resolve d <;> simp [step, Instr.run, push, resolved]

theorem steps_eq (script : List Instr) (d : Draft) (block : List Stmt) (outer : List (List Stmt)) :
    steps script ⟨d, block :: outer⟩ = (Instr.runAll script d).map fun built => ⟨built.1, (block ++ built.2) :: outer⟩ := by
  cases script with
  | nil => simp [steps, Instr.runAll]
  | cons instr rest =>
    have first := step_eq instr d block outer
    cases ran : instr.run d with
    | none => simp [steps, Instr.runAll, first, ran]
    | some built =>
      have others := steps_eq rest built.1 (block ++ built.2) outer
      cases done : Instr.runAll rest built.1 <;> simp [steps, Instr.runAll, first, ran, others, done]

end

theorem build?_eq (script : List Instr) : build? script = Body.ofScript? script := by
  unfold build? Body.ofScript?
  rw [steps_eq script {} [] []]
  cases Instr.runAll script {} <;> simp [finish, innermost]

end Builder

namespace Body

theorem ofScript?_isSome (script : List Instr) : (ofScript? script).isSome = Instr.ordered script :=
  (isSome_last _ _).trans (Instr.runAll_isSome script {} rfl [])

section
variable {script : List Instr} {b : Body} {handles : List Nat} (built : ofScript? script = some (b, handles))
include built

theorem ofScript?_parts : ∃ d : Draft, d = Draft.createAll {} (Instr.creationsOf script) ∧
    Spells d .start script b.stmts d.mark ∧ b.params = d.params ∧ b.locals = d.locals ∧ handles = d.paramHandles := by
  simp only [ofScript?, Option.bind_eq_bind, Option.bind_eq_some_iff] at built
  obtain ⟨⟨d, stmts⟩, ran, last⟩ := built
  cases last
  exact ⟨d, Instr.runAll_creates script {} d stmts ran, Instr.runAll_spells script {} d stmts ran rfl (.refl d), rfl, rfl, rfl⟩

theorem ofScript?_locals : b.locals = (Instr.creationsOf script).count .var + (Instr.creationsOf script).count .counter := by
  obtain ⟨d, rfl, _, _, locals, _⟩ := ofScript?_parts built
  rw [locals, Draft.createAll_locals]
  simp

theorem ofScript?_params : b.params = (Instr.creationsOf script).filterMap Creation.param? ∧ handles = List.range b.params.length := by
  obtain ⟨d, rfl, _, params, _, own⟩ := ofScript?_parts built
  have numbered : Draft.Numbered {} := rfl
  refine ⟨by rw [params, Draft.createAll_params]; rfl, ?_⟩
  rw [own, params]
  exact numbered.createAll _

theorem ofScript?_declared : Stmt.declaredOf b.stmts = List.range b.locals := by
  obtain ⟨d, _, spelled, _, locals, _⟩ := ofScript?_parts built
  obtain ⟨count, ends, slots⟩ := spelled.declared_range
  have all : b.locals = count := by rw [locals]; exact ends.trans (Nat.zero_add count)
  rw [slots, all]
  exact List.range_eq_range'.symm

end

end Body

end GridKernel
