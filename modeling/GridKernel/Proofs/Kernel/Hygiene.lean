import GridKernel.Proofs.Kernel.Scopes
import GridKernel.Proofs.Kernel.Scripts

namespace GridKernel

namespace ArgumentFault

def OfSlot : ArgumentFault → Prop
  | .slotOutOfRange _ _ => True
  | .slotRedeclared _ => True
  | _ => False

def OfUse : ArgumentFault → Prop
  | .assignUndeclared _ => True
  | .readUndeclared _ => True
  | _ => False

end ArgumentFault

namespace Interface

variable {i : Interface} {visible : List Nat}

-- An expression declares nothing, and it is at fault for a use only through a local that is not in scope.
structure Blames (visible : List Nat) (nodes : List Expr) (fault : ArgumentFault) : Prop where
  slot : ¬ fault.OfSlot
  use : fault.OfUse → ∃ slot, .var slot ∈ nodes ∧ slot ∉ visible

theorem Blames.mono {nodes more : List Expr} {fault : ArgumentFault} (blames : Blames visible nodes fault) (sub : nodes ⊆ more) :
    Blames visible more fault := by
  refine ⟨blames.slot, fun use => ?_⟩
  obtain ⟨slot, read, hidden⟩ := blames.use use
  exact ⟨slot, sub read, hidden⟩

theorem paramType_blames {index : Nat} {fault : ArgumentFault} (failed : i.paramType index = .error fault) :
    Blames visible [] fault := by
  unfold paramType at failed
  split at failed <;> cases failed
  exact ⟨id, False.elim⟩

mutual

theorem checkExpr_blames (allowed : Bool) (e : Expr) (fault : ArgumentFault)
    (failed : i.checkExpr visible allowed e = .error fault) : Blames visible e.nodes fault := by
  cases e with
  | const | thread | extent => cases failed
  | param index =>
    rw [checkExpr] at failed
    rcases bind_eq_error failed with unknown | ⟨_, _, failed⟩
    · exact (paramType_blames unknown).mono (List.nil_subset _)
    · split at failed <;> cases failed
      exact ⟨id, False.elim⟩
  | var slot =>
    rw [checkExpr] at failed
    split at failed
    · cases failed
    · rename_i hidden
      cases failed
      exact ⟨id, fun _ => ⟨slot, by simp [Expr.nodes], by simpa using hidden⟩⟩
  | index param indices =>
    rw [checkExpr] at failed
    rcases bind_eq_error failed with unknown | ⟨_, _, failed⟩
    · exact (paramType_blames unknown).mono (List.nil_subset _)
    · split at failed
      · cases failed
        exact ⟨id, False.elim⟩
      · split at failed
        · cases failed
          exact ⟨id, False.elim⟩
        · exact (checkExprs_blames false indices fault failed).mono (by simp [Expr.nodes])
  | unary op input =>
    rw [checkExpr] at failed
    exact (checkExpr_blames false input fault failed).mono (by simp [Expr.nodes])
  | binary op left right =>
    rw [checkExpr] at failed
    rcases bind_eq_error failed with first | ⟨_, _, second⟩
    · exact (checkExpr_blames false left fault first).mono fun _ inside => by simp [Expr.nodes, inside]
    · exact (checkExpr_blames false right fault second).mono fun _ inside => by simp [Expr.nodes, inside]
  | select cond yes no =>
    rw [checkExpr] at failed
    rcases bind_eq_error failed with test | ⟨_, _, failed⟩
    · exact (checkExpr_blames false cond fault test).mono fun _ inside => by simp [Expr.nodes, inside]
    · rcases bind_eq_error failed with first | ⟨_, _, second⟩
      · exact (checkExpr_blames false yes fault first).mono fun _ inside => by simp [Expr.nodes, inside]
      · exact (checkExpr_blames false no fault second).mono fun _ inside => by simp [Expr.nodes, inside]
  | call name args =>
    rw [checkExpr] at failed
    split at failed
    · cases failed
      exact ⟨id, False.elim⟩
    · exact (checkExprs_blames true args fault failed).mono (by simp [Expr.nodes])

theorem checkExprs_blames (allowed : Bool) (es : List Expr) (fault : ArgumentFault)
    (failed : i.checkExprs visible allowed es = .error fault) : Blames visible (Expr.nodesOf es) fault := by
  cases es with
  | nil => cases failed
  | cons e es =>
    rw [checkExprs] at failed
    rw [Expr.nodesOf]
    rcases bind_eq_error failed with first | ⟨_, _, rest⟩
    · exact (checkExpr_blames allowed e fault first).mono (List.subset_append_left _ _)
    · exact (checkExprs_blames allowed es fault rest).mono (List.subset_append_right _ _)

end

variable {s : Scope} {fault : ArgumentFault}

theorem declare_fault {slot : Nat} (failed : i.declare slot s = .error fault) : fault.OfSlot := by
  unfold declare at failed
  split at failed
  · cases failed
    trivial
  · split at failed <;> cases failed
    trivial

theorem checkDeclare_fault {slot : Nat} {value : Expr} (failed : i.checkStmt (.declare slot value) s = .error fault) :
    i.checkExpr s.visible false value = .error fault ∨ i.declare slot s = .error fault := by
  rw [checkStmt] at failed
  rcases bind_eq_error failed with bad | ⟨_, _, bad⟩
  · exact .inl bad
  · exact .inr bad

theorem checkAssign_fault {slot : Nat} {value : Expr} (failed : i.checkStmt (.assign slot value) s = .error fault) :
    fault = .assignUndeclared slot ∧ slot ∉ s.visible ∨ i.checkExpr s.visible false value = .error fault := by
  rw [checkStmt] at failed
  split at failed
  · rename_i hidden
    cases failed
    exact .inl ⟨rfl, by simpa using hidden⟩
  · rcases bind_eq_error failed with bad | ⟨_, _, bad⟩
    · exact .inr bad
    · cases bad

theorem checkLoop_fault {counter : Nat} {start stop : Expr} {body : List Stmt}
    (failed : i.checkStmt (.loop counter start stop body) s = .error fault) :
    i.checkExpr s.visible false start = .error fault ∨ i.checkExpr s.visible false stop = .error fault ∨
      i.declare counter s = .error fault ∨ ∃ inner, i.declare counter s = .ok inner ∧ i.checkBlock body inner = .error fault := by
  rw [checkStmt] at failed
  rcases bind_eq_error failed with bad | ⟨_, _, failed⟩
  · exact .inl bad
  · rcases bind_eq_error failed with bad | ⟨_, _, failed⟩
    · exact .inr (.inl bad)
    · rcases bind_eq_error failed with bad | ⟨inner, declared, failed⟩
      · exact .inr (.inr (.inl bad))
      · rcases bind_eq_error failed with bad | ⟨_, _, bad⟩
        · exact .inr (.inr (.inr ⟨inner, declared, bad⟩))
        · cases bad

theorem checkBranch_fault {cond : Expr} {yes no : List Stmt} (failed : i.checkStmt (.branch cond yes no) s = .error fault) :
    i.checkExpr s.visible false cond = .error fault ∨ i.checkBlock yes s = .error fault ∨
      ∃ first, i.checkBlock yes s = .ok first ∧ i.checkBlock no ⟨s.visible, first.declared⟩ = .error fault := by
  rw [checkStmt] at failed
  rcases bind_eq_error failed with bad | ⟨_, _, failed⟩
  · exact .inl bad
  · rcases bind_eq_error failed with bad | ⟨first, one, failed⟩
    · exact .inr (.inl bad)
    · rcases bind_eq_error failed with bad | ⟨_, _, bad⟩
      · exact .inr (.inr ⟨first, one, bad⟩)
      · cases bad

theorem checkRet_fault {value : Expr} (failed : i.checkStmt (.ret value) s = .error fault) :
    i.checkExpr s.visible false value = .error fault := by
  rw [checkStmt] at failed
  rcases bind_eq_error failed with bad | ⟨_, _, bad⟩
  · exact bad
  · cases bad

theorem checkBlock_fault {stmt : Stmt} {rest : List Stmt} (failed : i.checkBlock (stmt :: rest) s = .error fault) :
    i.checkStmt stmt s = .error fault ∨ fault = .unreachable ∨
      ∃ middle, i.checkStmt stmt s = .ok middle ∧ i.checkBlock rest middle = .error fault := by
  rw [checkBlock] at failed
  rcases bind_eq_error failed with bad | ⟨middle, checked, failed⟩
  · exact .inl bad
  · split at failed
    · cases failed
      exact .inr (.inl rfl)
    · exact .inr (.inr ⟨middle, checked, failed⟩)

mutual

theorem checkStmt_declared (stmt : Stmt) (s after : Scope) (checked : i.checkStmt stmt s = .ok after) :
    after.declared = stmt.declared.reverse ++ s.declared := by
  cases stmt with
  | declare slot value =>
    rw [checkStmt] at checked
    obtain ⟨_, _, declared⟩ := bind_eq_ok checked
    obtain ⟨_, _, rfl⟩ := declare_parts declared
    rfl
  | assign slot value =>
    rw [checkStmt] at checked
    split at checked
    · cases checked
    · obtain ⟨_, _, last⟩ := bind_eq_ok checked
      cases last
      rfl
  | loop counter start stop body =>
    obtain ⟨inner, ended, _, _, declared, block, rfl⟩ := checkLoop_parts checked
    obtain ⟨_, _, rfl⟩ := declare_parts declared
    simp [checkBlock_declared body _ ended block, Stmt.declared]
  | branch cond yes no =>
    obtain ⟨first, second, _, blockYes, blockNo, rfl⟩ := checkBranch_parts checked
    simp [checkBlock_declared yes s first blockYes, checkBlock_declared no _ second blockNo, Stmt.declared]
  | ret value =>
    rw [checkStmt] at checked
    obtain ⟨_, _, last⟩ := bind_eq_ok checked
    cases last
    rfl

theorem checkBlock_declared (stmts : List Stmt) (s after : Scope) (checked : i.checkBlock stmts s = .ok after) :
    after.declared = (Stmt.declaredOf stmts).reverse ++ s.declared := by
  cases stmts with
  | nil =>
    rw [checkBlock] at checked
    cases checked
    rfl
  | cons stmt rest =>
    rw [checkBlock] at checked
    obtain ⟨middle, first, checked⟩ := bind_eq_ok checked
    split at checked
    · cases checked
    · simp [checkStmt_declared stmt s middle first, checkBlock_declared rest middle after checked, Stmt.declaredOf]

end

-- Slots that can be declared one after the other.
structure Fresh (locals : Nat) (declared slots : List Nat) : Prop where
  distinct : slots.Nodup
  within : ∀ slot ∈ slots, slot < locals
  unused : ∀ slot ∈ slots, slot ∉ declared

theorem Fresh.left {locals : Nat} {declared one two : List Nat} (fresh : Fresh locals declared (one ++ two)) :
    Fresh locals declared one :=
  ⟨(List.nodup_append.mp fresh.distinct).1, fun slot member => fresh.within slot (List.mem_append_left _ member),
    fun slot member => fresh.unused slot (List.mem_append_left _ member)⟩

theorem Fresh.right {locals : Nat} {declared one two : List Nat} (fresh : Fresh locals declared (one ++ two)) :
    Fresh locals (one.reverse ++ declared) two := by
  obtain ⟨_, distinct, apart⟩ := List.nodup_append.mp fresh.distinct
  refine ⟨distinct, fun slot member => fresh.within slot (List.mem_append_right _ member), fun slot member used => ?_⟩
  rcases List.mem_append.mp used with seen | old
  · exact apart slot (List.mem_reverse.mp seen) slot member rfl
  · exact fresh.unused slot (List.mem_append_right _ member) old

theorem Fresh.declare {slot : Nat} {rest : List Nat} (fresh : Fresh i.locals s.declared (slot :: rest)) :
    i.declare slot s = .ok ⟨slot :: s.visible, slot :: s.declared⟩ := by
  have inside := fresh.within slot List.mem_cons_self
  have unused := fresh.unused slot List.mem_cons_self
  simp [Interface.declare, Nat.not_le.mpr inside, unused]

mutual

theorem checkStmt_slots (stmt : Stmt) (s : Scope) (fault : ArgumentFault) (failed : i.checkStmt stmt s = .error fault)
    (fresh : Fresh i.locals s.declared stmt.declared) : ¬ fault.OfSlot := by
  cases stmt with
  | declare slot value =>
    rcases checkDeclare_fault failed with bad | bad
    · exact (checkExpr_blames _ _ _ bad).slot
    · cases fresh.declare.symm.trans bad
  | assign slot value =>
    rcases checkAssign_fault failed with ⟨rfl, _⟩ | bad
    · exact id
    · exact (checkExpr_blames _ _ _ bad).slot
  | loop counter start stop body =>
    rw [Stmt.declared] at fresh
    have inside : Fresh i.locals s.declared ([counter] ++ Stmt.declaredOf body) := fresh
    rcases checkLoop_fault failed with bad | bad | bad | ⟨inner, declared, bad⟩
    · exact (checkExpr_blames _ _ _ bad).slot
    · exact (checkExpr_blames _ _ _ bad).slot
    · cases fresh.declare.symm.trans bad
    · cases fresh.declare.symm.trans declared
      exact checkBlock_slots body _ fault bad inside.right
  | branch cond yes no =>
    rw [Stmt.declared] at fresh
    rcases checkBranch_fault failed with bad | bad | ⟨first, one, bad⟩
    · exact (checkExpr_blames _ _ _ bad).slot
    · exact checkBlock_slots yes s fault bad fresh.left
    · refine checkBlock_slots no _ fault bad ?_
      rw [checkBlock_declared yes s first one]
      exact fresh.right
  | ret value => exact (checkExpr_blames _ _ _ (checkRet_fault failed)).slot

theorem checkBlock_slots (stmts : List Stmt) (s : Scope) (fault : ArgumentFault) (failed : i.checkBlock stmts s = .error fault)
    (fresh : Fresh i.locals s.declared (Stmt.declaredOf stmts)) : ¬ fault.OfSlot := by
  cases stmts with
  | nil => cases failed
  | cons stmt rest =>
    rw [Stmt.declaredOf] at fresh
    rcases checkBlock_fault failed with bad | rfl | ⟨middle, first, bad⟩
    · exact checkStmt_slots stmt s fault bad fresh.left
    · exact id
    · refine checkBlock_slots rest middle fault bad ?_
      rw [checkStmt_declared stmt s middle first]
      exact fresh.right

end

end Interface

def Draft.slot? (d : Draft) : Handle → Option Nat
  | .param _ => none
  | .var k => d.varHandles[k]?
  | .counter k => d.counterHandles[k]?

namespace Term

variable {d : Draft}

mutual

theorem resolve_local (t : Term) (e : Expr) (resolved : t.resolve d = some e) {slot : Nat} (read : .var slot ∈ e.nodes) :
    ∃ h ∈ t.handles, d.slot? h = some slot := by
  cases t with
  | const | thread | extent =>
    cases resolved
    simp [Expr.nodes] at read
  | param k =>
    simp only [resolve, Option.map_eq_some_iff] at resolved
    obtain ⟨_, _, rfl⟩ := resolved
    simp [Expr.nodes] at read
  | var k =>
    simp only [resolve, Option.map_eq_some_iff] at resolved
    obtain ⟨own, found, rfl⟩ := resolved
    obtain rfl : slot = own := by simpa [Expr.nodes] using read
    exact ⟨.var k, by simp [handles], found⟩
  | counter k =>
    simp only [resolve, Option.map_eq_some_iff] at resolved
    obtain ⟨own, found, rfl⟩ := resolved
    obtain rfl : slot = own := by simpa [Expr.nodes] using read
    exact ⟨.counter k, by simp [handles], found⟩
  | «at» p indices =>
    simp only [resolve, Option.bind_eq_bind, Option.bind_eq_some_iff] at resolved
    obtain ⟨_, _, es, inner, last⟩ := resolved
    cases last
    obtain ⟨h, member, found⟩ := resolveAll_local indices es inner (by simpa [Expr.nodes] using read)
    exact ⟨h, by simp [handles, member], found⟩
  | unary op input =>
    simp only [resolve, Option.bind_eq_bind, Option.bind_eq_some_iff] at resolved
    obtain ⟨inner, one, last⟩ := resolved
    cases last
    exact resolve_local input inner one (by simpa [Expr.nodes] using read)
  | binary op left right =>
    simp only [resolve, Option.bind_eq_bind, Option.bind_eq_some_iff] at resolved
    obtain ⟨a, one, b, two, last⟩ := resolved
    cases last
    simp only [Expr.nodes, List.mem_cons, reduceCtorEq, List.mem_append, false_or] at read
    rcases read with read | read
    · obtain ⟨h, member, found⟩ := resolve_local left a one read
      exact ⟨h, by simp [handles, member], found⟩
    · obtain ⟨h, member, found⟩ := resolve_local right b two read
      exact ⟨h, by simp [handles, member], found⟩
  | select cond yes no =>
    simp only [resolve, Option.bind_eq_bind, Option.bind_eq_some_iff] at resolved
    obtain ⟨c, one, a, two, b, three, last⟩ := resolved
    cases last
    simp only [Expr.nodes, List.mem_cons, reduceCtorEq, List.mem_append, false_or] at read
    rcases read with (read | read) | read
    · obtain ⟨h, member, found⟩ := resolve_local cond c one read
      exact ⟨h, by simp [handles, member], found⟩
    · obtain ⟨h, member, found⟩ := resolve_local yes a two read
      exact ⟨h, by simp [handles, member], found⟩
    · obtain ⟨h, member, found⟩ := resolve_local no b three read
      exact ⟨h, by simp [handles, member], found⟩
  | call name args =>
    simp only [resolve, Option.bind_eq_bind, Option.bind_eq_some_iff] at resolved
    obtain ⟨es, inner, last⟩ := resolved
    cases last
    exact resolveAll_local args es inner (by simpa [Expr.nodes] using read)

theorem resolveAll_local (ts : List Term) (es : List Expr) (resolved : resolveAll d ts = some es) {slot : Nat}
    (read : .var slot ∈ Expr.nodesOf es) : ∃ h ∈ handlesOf ts, d.slot? h = some slot := by
  cases ts with
  | nil =>
    cases resolved
    cases read
  | cons t ts =>
    simp only [resolveAll, Option.bind_eq_bind, Option.bind_eq_some_iff] at resolved
    obtain ⟨e, one, rest, others, last⟩ := resolved
    cases last
    rcases List.mem_append.mp read with read | read
    · obtain ⟨h, member, found⟩ := resolve_local t e one read
      exact ⟨h, by simp [handlesOf, member], found⟩
    · obtain ⟨h, member, found⟩ := resolveAll_local ts rest others read
      exact ⟨h, by simp [handlesOf, member], found⟩

end

end Term

def Shown (d : Draft) (scope : List Handle) (visible : List Nat) : Prop :=
  ∀ h ∈ scope, ∀ slot, d.slot? h = some slot → slot ∈ visible

section Use

variable {d : Draft} {scope : List Handle} {visible : List Nat}

theorem Shown.found (shown : Shown d scope visible) {h : Handle} {slot : Nat} (inScope : h.inScope scope = true)
    (found : d.slot? h = some slot) : slot ∈ visible := by
  cases h with
  | param k => cases found
  | var k => exact shown (.var k) (List.contains_iff_mem.mp inScope) slot found
  | counter k => exact shown (.counter k) (List.contains_iff_mem.mp inScope) slot found

theorem Shown.cons (shown : Shown d scope visible) {h : Handle} {slot : Nat} (found : d.slot? h = some slot) :
    Shown d (h :: scope) (slot :: visible) := by
  intro other member own has
  rcases List.mem_cons.mp member with rfl | old
  · cases found.symm.trans has
    exact List.mem_cons_self
  · exact List.mem_cons_of_mem _ (shown other old own has)

theorem Shown.expr (shown : Shown d scope visible) {t : Term} {e : Expr} (resolved : t.resolve d = some e)
    (tidy : t.handles.all (Handle.inScope scope) = true) {i : Interface} {fault : ArgumentFault}
    (failed : i.checkExpr visible false e = .error fault) : ¬ fault.OfUse := by
  intro use
  obtain ⟨slot, read, hidden⟩ := (Interface.checkExpr_blames false e fault failed).use use
  obtain ⟨h, member, found⟩ := t.resolve_local e resolved read
  exact hidden (shown.found (List.all_eq_true.mp tidy h member) found)

theorem ArgumentFault.OfSlot.not_use {fault : ArgumentFault} (slot : fault.OfSlot) : ¬ fault.OfUse := by
  cases fault <;> simp_all [OfSlot, OfUse]

-- By induction on what the block says. The locals of the handles in scope stay visible, since both sides forget those of a
-- block at its end.
theorem Spells.no_use_fault {i : Interface} {m last : Mark} {script : List Instr} {stmts : List Stmt}
    (spelled : Spells d m script stmts last) (scope : List Handle)
    (tidy : Instr.usesAll (fun _ => Handle.inScope) m scope script = true) (s : Scope) (shown : Shown d scope s.visible)
    (fault : ArgumentFault) (failed : i.checkBlock stmts s = .error fault) : ¬ fault.OfUse := by
  induction spelled generalizing scope s with
  | nil => cases failed
  | param _ _ _ ih =>
    simp only [Instr.usesAll, Instr.uses, Bool.true_and] at tidy
    exact ih scope tidy s shown failed
  | @var m _ _ _ _ _ resolved handle _ ih =>
    simp only [Instr.usesAll, Instr.uses, Bool.and_eq_true] at tidy
    rcases Interface.checkBlock_fault failed with bad | rfl | ⟨middle, checked, bad⟩
    · rcases Interface.checkDeclare_fault bad with bad | bad
      · exact shown.expr resolved tidy.1 bad
      · exact (Interface.declare_fault bad).not_use
    · exact id
    · rw [Interface.checkStmt] at checked
      obtain ⟨_, _, declared⟩ := bind_eq_ok checked
      obtain ⟨_, _, rfl⟩ := Interface.declare_parts declared
      exact ih (.var m.vars :: scope) tidy.2 ⟨m.locals :: s.visible, _⟩ (shown.cons handle) bad
  | assign handle resolved _ ih =>
    simp only [Instr.usesAll, Instr.uses, Bool.and_eq_true] at tidy
    have visible := shown.found tidy.1.1 handle
    rcases Interface.checkBlock_fault failed with bad | rfl | ⟨middle, checked, bad⟩
    · rcases Interface.checkAssign_fault bad with ⟨_, hidden⟩ | bad
      · exact absurd visible hidden
      · exact shown.expr resolved tidy.1.2 bad
    · exact id
    · rw [Interface.checkStmt] at checked
      split at checked
      · cases checked
      · obtain ⟨_, _, last⟩ := bind_eq_ok checked
        cases last
        exact ih scope tidy.2 s shown bad
  | @loop m _ _ _ _ _ _ _ _ _ _ begins ends handle inside _ within others =>
    simp only [Instr.usesAll, Instr.uses, Bool.and_eq_true] at tidy
    obtain ⟨⟨⟨start, stop⟩, body⟩, rest⟩ := tidy
    have behind : Instr.usesAll _ (m.addCounter.createAll _) scope _ = true := rest
    rw [← inside.last_eq] at behind
    rcases Interface.checkBlock_fault failed with bad | rfl | ⟨middle, checked, bad⟩
    · rcases Interface.checkLoop_fault bad with bad | bad | bad | ⟨inner, declared, bad⟩
      · exact shown.expr begins start bad
      · exact shown.expr ends stop bad
      · exact (Interface.declare_fault bad).not_use
      · obtain ⟨_, _, rfl⟩ := Interface.declare_parts declared
        exact within (.counter m.counters :: scope) body ⟨m.locals :: s.visible, _⟩ (shown.cons handle) bad
    · exact id
    · obtain ⟨_, ended, _, _, _, _, rfl⟩ := Interface.checkLoop_parts checked
      exact others scope behind ⟨s.visible, ended.declared⟩ shown bad
  | branch resolved first second _ yes no others =>
    simp only [Instr.usesAll, Instr.uses, Bool.and_eq_true] at tidy
    obtain ⟨⟨⟨test, one⟩, two⟩, rest⟩ := tidy
    rw [← first.last_eq] at two
    rw [Instr.creations, Mark.createAll_append, ← first.last_eq, ← second.last_eq] at rest
    rcases Interface.checkBlock_fault failed with bad | rfl | ⟨middle, checked, bad⟩
    · rcases Interface.checkBranch_fault bad with bad | bad | ⟨between, _, bad⟩
      · exact shown.expr resolved test bad
      · exact yes scope one s shown bad
      · exact no scope two ⟨s.visible, between.declared⟩ shown bad
    · exact id
    · obtain ⟨_, ended, _, _, _, rfl⟩ := Interface.checkBranch_parts checked
      exact others scope rest ⟨s.visible, ended.declared⟩ shown bad
  | ret resolved _ ih =>
    simp only [Instr.usesAll, Instr.uses, Bool.and_eq_true] at tidy
    rcases Interface.checkBlock_fault failed with bad | rfl | ⟨middle, checked, bad⟩
    · exact shown.expr resolved tidy.1 (Interface.checkRet_fault bad)
    · exact id
    · rw [Interface.checkStmt] at checked
      obtain ⟨_, _, last⟩ := bind_eq_ok checked
      cases last
      exact ih scope tidy.2 s shown bad

end Use

namespace Body

theorem validate_fault {b : Body} {types : List ValueType} {fault : ArgumentFault} (failed : b.validate types = .error fault) :
    fault = .typeCount types.length b.params.length ∨ fault = .noReturn ∨
      Interface.checkBlock ⟨b.params, types, b.locals⟩ b.stmts .empty = .error fault := by
  unfold validate at failed
  split at failed
  · cases failed
    exact .inl rfl
  · rcases bind_eq_error failed with bad | ⟨_, _, last⟩
    · exact .inr (.inr bad)
    · split at last <;> cases last
      exact .inr (.inl rfl)

section
variable {script : List Instr} {b : Body} {handles : List Nat} (built : ofScript? script = some (b, handles))
include built

theorem validate_slots {types : List ValueType} {fault : ArgumentFault} (failed : b.validate types = .error fault) :
    ¬ fault.OfSlot := by
  rcases validate_fault failed with rfl | rfl | bad
  · exact id
  · exact id
  · refine Interface.checkBlock_slots b.stmts .empty fault bad ?_
    rw [ofScript?_declared built]
    exact ⟨List.nodup_range, fun slot member => List.mem_range.mp member, fun slot _ => List.not_mem_nil⟩

theorem validate_uses (tidy : Instr.tidy script = true) {types : List ValueType} {fault : ArgumentFault}
    (failed : b.validate types = .error fault) : ¬ fault.OfUse := by
  obtain ⟨d, _, spelled, _⟩ := ofScript?_parts built
  rcases validate_fault failed with rfl | rfl | bad
  · exact id
  · exact id
  · exact spelled.no_use_fault [] tidy .empty (fun _ none => absurd none List.not_mem_nil) fault bad

end

end Body

-- Whatever the nesting, a script that creates its handles before it uses them builds a body: the builder with open blocks gives
-- it too, its statements say what the steps say, block by block, and no local and no parameter is mixed up with another.
theorem scripts_build_hygienic_bodies (script : List Instr) :
    (Body.ofScript? script).isSome = Instr.ordered script ∧ Builder.build? script = Body.ofScript? script ∧
      ∀ b handles, Body.ofScript? script = some (b, handles) →
        b.locals = (Instr.creationsOf script).count .var + (Instr.creationsOf script).count .counter ∧
        Stmt.declaredOf b.stmts = List.range b.locals ∧
        b.params = (Instr.creationsOf script).filterMap Creation.param? ∧ handles = List.range b.params.length ∧
        (∃ d last, Spells d .start script b.stmts last ∧ d.params = b.params ∧ d.paramHandles = handles) ∧
        ∀ types fault, b.validate types = .error fault → ¬ fault.OfSlot ∧ (Instr.tidy script = true → ¬ fault.OfUse) := by
  refine ⟨Body.ofScript?_isSome script, Builder.build?_eq script, fun b handles built => ?_⟩
  obtain ⟨d, _, spelled, params, _, own⟩ := Body.ofScript?_parts built
  have ⟨declared, numbered⟩ := Body.ofScript?_params built
  refine ⟨Body.ofScript?_locals built, Body.ofScript?_declared built, declared, numbered,
    ⟨d, d.mark, spelled, params.symm, own.symm⟩, fun types fault failed => ?_⟩
  exact ⟨Body.validate_slots built failed, fun tidy => Body.validate_uses built tidy failed⟩

-- Variables and loops at several depths, and a parameter declared inside of a loop.
def gathered : List Instr :=
  [.param "xs" (some .floatArray), .var (.at 0 [.thread .x]),
    .loop (.thread .x) (.extent .x)
      [.param "gain" none, .var (.at 0 [.counter 0]),
        .branch (.binary .lt (.var 1) (.var 0)) [.assign 0 (.var 1)]
          [.loop (.counter 0) (.extent .x) [.assign 1 (.binary .add (.var 1) (.counter 1))]]],
    .ret (.binary .mul (.var 0) (.param 1))]

theorem gathered_is_hygienic : Instr.ordered gathered = true ∧ Instr.tidy gathered = true ∧
    ∃ b, Body.ofScript? gathered = some (b, [0, 1]) ∧ Stmt.declaredOf b.stmts = [0, 1, 2, 3] ∧
      b.params = [⟨"xs", some .floatArray⟩, ⟨"gain", none⟩] ∧
      ∀ types fault, b.validate types = .error fault → ¬ fault.OfSlot ∧ ¬ fault.OfUse := by
  have tidy : Instr.tidy gathered = true := by decide
  have ⟨b, built⟩ : ∃ b, Body.ofScript? gathered = some (b, [0, 1]) := ⟨_, rfl⟩
  obtain ⟨locals, declared, params, _, _, checks⟩ := (scripts_build_hygienic_bodies gathered).2.2 b [0, 1] built
  refine ⟨by decide, tidy, b, built, ?_, params, fun types fault failed => ?_⟩
  · rw [declared, locals]
    decide
  · exact ⟨(checks types fault failed).1, (checks types fault failed).2 tidy⟩

-- A variable used behind its block is built in, and the check refuses it.
example : ∃ b, Body.ofScript? [.branch (.thread .x) [.var (.thread .x)] [], .ret (.var 0)] = some (b, []) ∧
    b.validate [] = .error (.readUndeclared 0) := ⟨_, rfl, rfl⟩

end GridKernel
