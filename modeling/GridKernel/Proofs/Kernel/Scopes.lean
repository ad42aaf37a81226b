import GridKernel.Function.Definition
import GridKernel.Proofs.Outcome

namespace GridKernel

-- Locals in scope differ and are among the declared ones.
structure Scope.Proper (s : Scope) : Prop where
  distinct : s.visible.Nodup
  declared : s.visible ⊆ s.declared

theorem Scope.Proper.more {s : Scope} (proper : s.Proper) {declared : List Nat} (kept : s.declared ⊆ declared) :
    Scope.Proper ⟨s.visible, declared⟩ :=
  ⟨proper.distinct, List.Subset.trans proper.declared kept⟩

-- What a checked block leaves behind: more locals in scope, and no declaration forgotten.
structure Scope.Grows (s after : Scope) : Prop where
  visible : s.visible <:+ after.visible
  declared : s.declared ⊆ after.declared
  proper : after.Proper

def Scope.Within (s : Scope) (slots : Nat) : Prop := ∀ slot ∈ s.visible, slot < slots

namespace Interface

variable {i : Interface} {s after : Scope}

theorem paramType_parts {index : Nat} {type : ValueType} (known : i.paramType index = .ok type) :
    i.types[index]? = some type := by
  unfold paramType at known
  split at known
  · rename_i found
    cases known
    exact found
  · cases known

theorem declare_parts {slot : Nat} (declared : i.declare slot s = .ok after) :
    slot < i.locals ∧ slot ∉ s.declared ∧ after = ⟨slot :: s.visible, slot :: s.declared⟩ := by
  unfold declare at declared
  split at declared
  · cases declared
  · rename_i inside
    split at declared
    · cases declared
    · rename_i fresh
      cases declared
      exact ⟨Nat.lt_of_not_le inside, by simpa using fresh, rfl⟩

theorem declare_grows {slot : Nat} (proper : s.Proper) (declared : i.declare slot s = .ok after) :
    s.Grows after := by
  obtain ⟨_, fresh, rfl⟩ := declare_parts declared
  refine ⟨List.suffix_cons _ _, List.subset_cons_self _ _, ?_, ?_⟩
  · exact List.nodup_cons.mpr ⟨fun seen => fresh (proper.declared seen), proper.distinct⟩
  · exact List.cons_subset_cons _ proper.declared

theorem declare_within {slot : Nat} (within : s.Within i.locals) (declared : i.declare slot s = .ok after) :
    after.Within i.locals := by
  obtain ⟨inside, _, rfl⟩ := declare_parts declared
  intro other member
  rcases List.mem_cons.mp member with rfl | old
  · exact inside
  · exact within other old

-- Both kinds of inner block give the scope back as it was, but for the declarations.
theorem checkLoop_parts {counter : Nat} {start stop : Expr} {body : List Stmt}
    (checked : i.checkStmt (.loop counter start stop body) s = .ok after) :
    ∃ inner ended, i.checkExpr s.visible false start = .ok () ∧ i.checkExpr s.visible false stop = .ok () ∧
      i.declare counter s = .ok inner ∧ i.checkBlock body inner = .ok ended ∧ after = ⟨s.visible, ended.declared⟩ := by
  rw [checkStmt] at checked
  obtain ⟨_, first, checked⟩ := bind_eq_ok checked
  obtain ⟨_, bound, checked⟩ := bind_eq_ok checked
  obtain ⟨inner, declared, checked⟩ := bind_eq_ok checked
  obtain ⟨ended, block, last⟩ := bind_eq_ok checked
  cases last
  exact ⟨inner, ended, first, bound, declared, block, rfl⟩

theorem checkBranch_parts {cond : Expr} {yes no : List Stmt}
    (checked : i.checkStmt (.branch cond yes no) s = .ok after) :
    ∃ first second, i.checkExpr s.visible false cond = .ok () ∧ i.checkBlock yes s = .ok first ∧
      i.checkBlock no ⟨s.visible, first.declared⟩ = .ok second ∧ after = ⟨s.visible, second.declared⟩ := by
  rw [checkStmt] at checked
  obtain ⟨_, test, checked⟩ := bind_eq_ok checked
  obtain ⟨first, one, checked⟩ := bind_eq_ok checked
  obtain ⟨second, two, last⟩ := bind_eq_ok checked
  cases last
  exact ⟨first, second, test, one, two, rfl⟩

-- Only a declaration brings a local into scope behind it, and it has checked the slot.
theorem checkStmt_within (stmt : Stmt) (s after : Scope) (within : s.Within i.locals)
    (checked : i.checkStmt stmt s = .ok after) : after.Within i.locals := by
  cases stmt with
  | declare slot value =>
    rw [checkStmt] at checked
    obtain ⟨_, _, declared⟩ := bind_eq_ok checked
    exact declare_within within declared
  | assign slot value =>
    rw [checkStmt] at checked
    split at checked
    · cases checked
    · obtain ⟨_, _, last⟩ := bind_eq_ok checked
      cases last
      exact within
  | loop counter start stop body =>
    obtain ⟨_, _, _, _, _, _, rfl⟩ := checkLoop_parts checked
    exact within
  | branch cond yes no =>
    obtain ⟨_, _, _, _, _, rfl⟩ := checkBranch_parts checked
    exact within
  | ret value =>
    rw [checkStmt] at checked
    obtain ⟨_, _, last⟩ := bind_eq_ok checked
    cases last
    exact within

mutual

theorem checkStmt_grows (stmt : Stmt) (s after : Scope) (proper : s.Proper) (checked : i.checkStmt stmt s = .ok after) :
    s.Grows after := by
  cases stmt with
  | declare slot value =>
    rw [checkStmt] at checked
    obtain ⟨_, _, declared⟩ := bind_eq_ok checked
    exact declare_grows proper declared
  | assign slot value =>
    rw [checkStmt] at checked
    split at checked
    · cases checked
    · obtain ⟨_, _, last⟩ := bind_eq_ok checked
      cases last
      exact ⟨List.suffix_rfl, List.Subset.refl _, proper⟩
  | loop counter start stop body =>
    obtain ⟨inner, ended, _, _, declared, block, rfl⟩ := checkLoop_parts checked
    have entered := declare_grows proper declared
    have left := checkBlock_grows body inner ended entered.proper block
    have kept := List.Subset.trans entered.declared left.declared
    exact ⟨List.suffix_rfl, kept, proper.more kept⟩
  | branch cond yes no =>
    obtain ⟨first, second, _, blockYes, blockNo, rfl⟩ := checkBranch_parts checked
    have one := checkBlock_grows yes s first proper blockYes
    have two := checkBlock_grows no _ second (proper.more one.declared) blockNo
    have kept := List.Subset.trans one.declared two.declared
    exact ⟨List.suffix_rfl, kept, proper.more kept⟩
  | ret value =>
    rw [checkStmt] at checked
    obtain ⟨_, _, last⟩ := bind_eq_ok checked
    cases last
    exact ⟨List.suffix_rfl, List.Subset.refl _, proper⟩

theorem checkBlock_grows (stmts : List Stmt) (s after : Scope) (proper : s.Proper)
    (checked : i.checkBlock stmts s = .ok after) : s.Grows after := by
  cases stmts with
  | nil =>
    rw [checkBlock] at checked
    cases checked
    exact ⟨List.suffix_rfl, List.Subset.refl _, proper⟩
  | cons stmt rest =>
    rw [checkBlock] at checked
    obtain ⟨middle, first, checked⟩ := bind_eq_ok checked
    split at checked
    · cases checked
    · have one := checkStmt_grows stmt s middle proper first
      have two := checkBlock_grows rest middle after one.proper checked
      exact ⟨one.visible.trans two.visible, List.Subset.trans one.declared two.declared, two.proper⟩

end

end Interface

theorem Body.validate_parts {b : Body} {types : List ValueType} (valid : b.validate types = .ok ()) :
    ∃ after, Interface.checkBlock ⟨b.params, types, b.locals⟩ b.stmts .empty = .ok after ∧
      Stmt.anyReturns b.stmts = true := by
  unfold Body.validate at valid
  split at valid
  · cases valid
  · obtain ⟨after, checked, last⟩ := bind_eq_ok valid
    split at last
    · rename_i returns
      exact ⟨after, checked, returns⟩
    · cases last

theorem Definition.validate_body {d : Definition} {body : Body} (valid : d.validate = .ok ())
    (kernel : d.body = .kernel body) : body.validate d.paramTypes = .ok () := by
  unfold Definition.validate at valid
  rw [kernel] at valid
  split at valid
  · cases valid
  · split at valid
    · cases valid
    · split at valid
      · cases valid
      · exact valid

end GridKernel
