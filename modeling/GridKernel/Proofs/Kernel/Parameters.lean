import GridKernel.Proofs.Kernel.Scopes

namespace GridKernel

def HasArgs (nodes : List Expr) : Prop := ∀ name args, .call name args ∈ nodes → args ⊆ nodes

theorem HasArgs.append {first rest : List Expr} (one : HasArgs first) (two : HasArgs rest) : HasArgs (first ++ rest) := by
  intro name args call
  rcases List.mem_append.mp call with left | right
  · exact List.subset_append_of_subset_left _ (one name args left)
  · exact List.subset_append_of_subset_right _ (two name args right)

theorem HasArgs.cons {e : Expr} {nodes : List Expr} (inside : HasArgs nodes)
    (own : ∀ name args, .call name args = e → args ⊆ nodes) : HasArgs (e :: nodes) := by
  intro name args call
  refine List.subset_cons_of_subset _ ?_
  rcases List.mem_cons.mp call with same | deeper
  · exact own name args same
  · exact inside name args deeper

theorem HasArgs.nil : HasArgs [] := by
  intro name args call
  cases call

theorem Expr.self_mem_nodes (e : Expr) : e ∈ e.nodes := by
  cases e <;> simp [nodes]

theorem Expr.subset_nodesOf (es : List Expr) : es ⊆ nodesOf es := by
  induction es with
  | nil => exact List.nil_subset _
  | cons e es ih =>
    rw [nodesOf, List.cons_subset]
    exact ⟨List.mem_append_left _ e.self_mem_nodes, List.subset_append_of_subset_right _ ih⟩

mutual

theorem Expr.nodes_hasArgs (e : Expr) : HasArgs e.nodes := by
  cases e with
  | const | param | var | thread | extent =>
    rw [nodes]
    exact .cons .nil (by simp)
  | index param indices =>
    rw [nodes]
    exact .cons (nodesOf_hasArgs indices) (by simp)
  | unary op input =>
    rw [nodes]
    exact .cons input.nodes_hasArgs (by simp)
  | binary op left right =>
    rw [nodes]
    exact .cons (left.nodes_hasArgs.append right.nodes_hasArgs) (by simp)
  | select cond yes no =>
    rw [nodes]
    exact .cons ((cond.nodes_hasArgs.append yes.nodes_hasArgs).append no.nodes_hasArgs) (by simp)
  | call name args =>
    rw [nodes]
    refine .cons (nodesOf_hasArgs args) fun other own same => ?_
    cases same
    exact subset_nodesOf args

theorem Expr.nodesOf_hasArgs (es : List Expr) : HasArgs (nodesOf es) := by
  cases es with
  | nil => exact .nil
  | cons e es =>
    rw [nodesOf]
    exact e.nodes_hasArgs.append (nodesOf_hasArgs es)

end

mutual

theorem Stmt.nodes_hasArgs (stmt : Stmt) : HasArgs stmt.nodes := by
  cases stmt with
  | declare _ e | assign _ e | ret e =>
    rw [nodes]
    exact e.nodes_hasArgs
  | loop counter start stop body =>
    rw [nodes]
    exact (start.nodes_hasArgs.append stop.nodes_hasArgs).append (nodesOf_hasArgs body)
  | branch cond yes no =>
    rw [nodes]
    exact (cond.nodes_hasArgs.append (nodesOf_hasArgs yes)).append (nodesOf_hasArgs no)

theorem Stmt.nodesOf_hasArgs (stmts : List Stmt) : HasArgs (nodesOf stmts) := by
  cases stmts with
  | nil => exact .nil
  | cons stmt rest =>
    rw [nodesOf]
    exact stmt.nodes_hasArgs.append (nodesOf_hasArgs rest)

end

-- How nodes use parameters of the given types. The bare ones among them stand where a whole array may.
structure Handles (types : List ValueType) (bare nodes : List Expr) : Prop where
  indexed : ∀ param indices, .index param indices ∈ nodes → types[param]? = some .floatArray
  whole : ∀ param, .param param ∈ nodes → types[param]? = some .floatArray →
    .param param ∈ bare ∨ ∃ name args, .call name args ∈ nodes ∧ .param param ∈ args

section
variable {types : List ValueType} {bare others nodes rest : List Expr}

theorem Handles.nil : Handles types bare [] := by
  constructor
  · intro param indices member
    cases member
  · intro param member
    cases member

theorem Handles.append (one : Handles types bare nodes) (two : Handles types others rest) :
    Handles types (bare ++ others) (nodes ++ rest) := by
  constructor
  · intro param indices member
    exact (List.mem_append.mp member).elim (one.indexed param indices) (two.indexed param indices)
  · intro param member array
    rcases List.mem_append.mp member with left | right
    · refine (one.whole param left array).imp (List.mem_append_left _) ?_
      rintro ⟨name, args, call, given⟩
      exact ⟨name, args, List.mem_append_left _ call, given⟩
    · refine (two.whole param right array).imp (List.mem_append_right _) ?_
      rintro ⟨name, args, call, given⟩
      exact ⟨name, args, List.mem_append_right _ call, given⟩

theorem Handles.cons {e : Expr} (inside : Handles types [] nodes)
    (indexed : ∀ param indices, e = .index param indices → types[param]? = some .floatArray)
    (whole : ∀ param, e = .param param → types[param]? = some .floatArray → .param param ∈ bare) :
    Handles types bare (e :: nodes) := by
  constructor
  · intro param indices member
    rcases List.mem_cons.mp member with same | deeper
    · exact indexed param indices same.symm
    · exact inside.indexed param indices deeper
  · intro param member array
    rcases List.mem_cons.mp member with same | deeper
    · exact .inl (whole param same.symm array)
    · obtain ⟨name, args, call, given⟩ := (inside.whole param deeper array).resolve_left (by simp)
      exact .inr ⟨name, args, List.mem_cons_of_mem _ call, given⟩

theorem Handles.call {name : String} {args : List Expr} (inside : Handles types args nodes) :
    Handles types bare (.call name args :: nodes) := by
  constructor
  · intro param indices member
    exact inside.indexed param indices ((List.mem_cons.mp member).resolve_left (by simp))
  · intro param member array
    rcases inside.whole param ((List.mem_cons.mp member).resolve_left (by simp)) array with given | ⟨other, own, call, given⟩
    · exact .inr ⟨name, args, List.mem_cons_self, given⟩
    · exact .inr ⟨other, own, List.mem_cons_of_mem _ call, given⟩

end

namespace Interface

variable {i : Interface} {visible : List Nat}

mutual

theorem checkExpr_handles (allowed : Bool) (e : Expr) (checked : i.checkExpr visible allowed e = .ok ()) :
    Handles i.types (if allowed then [e] else []) e.nodes := by
  cases e with
  | const | var | thread | extent =>
    rw [Expr.nodes]
    exact .cons .nil (by simp) (by simp)
  | param index =>
    rw [checkExpr] at checked
    obtain ⟨type, known, checked⟩ := bind_eq_ok checked
    rw [Expr.nodes]
    refine .cons .nil (by simp) fun param same array => ?_
    cases same
    obtain rfl : type = .floatArray := Option.some.inj ((paramType_parts known).symm.trans array)
    cases allowed with
    | false => cases checked
    | true => simp
  | index param indices =>
    rw [checkExpr] at checked
    obtain ⟨type, known, checked⟩ := bind_eq_ok checked
    split at checked
    · cases checked
    · rename_i array
      split at checked
      · cases checked
      · rw [Expr.nodes]
        refine .cons (checkExprs_handles false indices checked) (fun param indices same => ?_) (by simp)
        cases same
        have isArray : type = .floatArray := by simpa [ValueType.isArray] using array
        exact isArray ▸ paramType_parts known
  | unary op input =>
    rw [checkExpr] at checked
    rw [Expr.nodes]
    exact .cons (checkExpr_handles false input checked) (by simp) (by simp)
  | binary op left right =>
    rw [checkExpr] at checked
    obtain ⟨_, one, two⟩ := bind_eq_ok checked
    rw [Expr.nodes]
    exact .cons ((checkExpr_handles false left one).append (checkExpr_handles false right two)) (by simp) (by simp)
  | select cond yes no =>
    rw [checkExpr] at checked
    obtain ⟨_, one, checked⟩ := bind_eq_ok checked
    obtain ⟨_, two, three⟩ := bind_eq_ok checked
    rw [Expr.nodes]
    exact .cons (((checkExpr_handles false cond one).append (checkExpr_handles false yes two)).append
      (checkExpr_handles false no three)) (by simp) (by simp)
  | call name args =>
    rw [checkExpr] at checked
    split at checked
    · cases checked
    · rw [Expr.nodes]
      exact .call (checkExprs_handles true args checked)

theorem checkExprs_handles (allowed : Bool) (es : List Expr) (checked : i.checkExprs visible allowed es = .ok ()) :
    Handles i.types (if allowed then es else []) (Expr.nodesOf es) := by
  cases es with
  | nil => exact .nil
  | cons e es =>
    rw [checkExprs] at checked
    obtain ⟨_, one, rest⟩ := bind_eq_ok checked
    rw [Expr.nodesOf]
    have both := (checkExpr_handles allowed e one).append (checkExprs_handles allowed es rest)
    cases allowed <;> exact both

end

mutual

theorem checkStmt_handles (stmt : Stmt) (s after : Scope) (checked : i.checkStmt stmt s = .ok after) :
    Handles i.types [] stmt.nodes := by
  cases stmt with
  | declare slot value =>
    rw [checkStmt] at checked
    obtain ⟨_, value, _⟩ := bind_eq_ok checked
    exact checkExpr_handles false _ value
  | assign slot value =>
    rw [checkStmt] at checked
    split at checked
    · cases checked
    · obtain ⟨_, value, _⟩ := bind_eq_ok checked
      exact checkExpr_handles false _ value
  | loop counter start stop body =>
    obtain ⟨inner, ended, first, bound, _, block, _⟩ := checkLoop_parts checked
    exact ((checkExpr_handles false start first).append (checkExpr_handles false stop bound)).append
      (checkBlock_handles body inner ended block)
  | branch cond yes no =>
    obtain ⟨first, second, test, one, two, _⟩ := checkBranch_parts checked
    exact ((checkExpr_handles false cond test).append (checkBlock_handles yes _ first one)).append
      (checkBlock_handles no _ second two)
  | ret value =>
    rw [checkStmt] at checked
    obtain ⟨_, value, _⟩ := bind_eq_ok checked
    exact checkExpr_handles false _ value

theorem checkBlock_handles (stmts : List Stmt) (s after : Scope) (checked : i.checkBlock stmts s = .ok after) :
    Handles i.types [] (Stmt.nodesOf stmts) := by
  cases stmts with
  | nil => exact .nil
  | cons stmt rest =>
    rw [checkBlock] at checked
    obtain ⟨middle, one, checked⟩ := bind_eq_ok checked
    split at checked
    · cases checked
    · exact (checkStmt_handles stmt s middle one).append (checkBlock_handles rest middle after checked)

end

end Interface

theorem Body.validate_handles {body : Body} {types : List ValueType} (valid : body.validate types = .ok ()) :
    Handles types [] body.nodes := by
  obtain ⟨after, checked, _⟩ := Body.validate_parts valid
  exact Interface.checkBlock_handles _ _ after checked

end GridKernel
