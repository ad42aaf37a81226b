import GridKernel.Proofs.Shader.Lines
import GridKernel.Proofs.Shader.Trees
import GridKernel.Shader.Commands

namespace GridKernel.Shader

mutual

-- The lines of a statement, those of its blocks between the one that opens and the one that closes.
def Names.lines (names : Names) : Stmt → List Line
  | .declare slot value => [.declare ("l" ++ toString slot) "f32" (names.tree value)]
  | .assign slot value => [.assign ("l" ++ toString slot) (names.tree value)]
  | .loop counter start stop body =>
    .loop ("l" ++ toString counter) "f32" (names.tree start) (.binary .lt (.name ("l" ++ toString counter)) (names.tree stop))
        ("l" ++ toString counter) (.binary .add (.name ("l" ++ toString counter)) (.number ⟨0x3f800000⟩)) ::
      (linesOf names body ++ [.close])
  | .branch cond yes no =>
    .branch (nonzeroTree (names.tree cond)) ::
      (linesOf names yes ++ (if no.isEmpty then [] else .otherwise :: linesOf names no) ++ [.close])
  | .ret value => [.ret (names.tree value)]

def Names.linesOf (names : Names) : List Stmt → List Line
  | [] => []
  | stmt :: rest => lines names stmt ++ linesOf names rest

end

theorem spells_declare (slot : Nat) {t : Term} {a : Tree} (spells : Spells .singular t.text a) :
    SpellsLine ("var l" ++ toString slot ++ ": f32 = " ++ t.text ++ ";") (.declare ("l" ++ toString slot) "f32" a) := by
  have text : "var l" ++ toString slot ++ ": f32 = " ++ t.text ++ ";" =
      "var " ++ ("l" ++ toString slot) ++ ": f32 = " ++ t.text ++ ";" := by
    rw [← String.toList_inj]
    simp
  rw [text]
  exact line_declare (isName_slot slot) spells.expression

theorem spells_loop (counter : Nat) {t u : Term} {a b : Tree} (one : Spells .singular t.text a) (two : Spells .singular u.text b) :
    SpellsLine ("for (var " ++ ("l" ++ toString counter) ++ ": f32 = " ++ t.text ++ "; " ++ ("l" ++ toString counter) ++ " < " ++
        u.text ++ "; " ++ ("l" ++ toString counter) ++ " = " ++ ("l" ++ toString counter) ++ " + 1.0) \x7b")
      (.loop ("l" ++ toString counter) "f32" a (.binary .lt (.name ("l" ++ toString counter)) b) ("l" ++ toString counter)
        (.binary .add (.name ("l" ++ toString counter)) (.number ⟨0x3f800000⟩))) := by
  have literal : (Term.literal 1.0).text = "1.0" := by decide
  have test := spells_relation .lt (spells_var counter) two
  have step := Spells.between (spells_var counter) spells_one fun ts us left right => left.arith .add right
  rw [Test.text, Term.text] at test
  rw [literal, Term.text] at step
  have tested : "l" ++ toString counter ++ " < " ++ u.text = "l" ++ toString counter ++ " " ++ Relation.lt.symbol ++ " " ++ u.text := by
    rw [← String.toList_inj]
    simp [Relation.symbol]
  have stepped : "l" ++ toString counter ++ " + 1.0" =
      "l" ++ toString counter ++ " " ++ Arith.add.operator.symbol ++ " " ++ "1.0" := by
    rw [← String.toList_inj]
    simp [Arith.operator, Operator.symbol]
  refine line_loop (isName_slot counter) one.expression ?_ ?_
  · rw [tested]
    exact test
  · rw [stepped]
    exact step

theorem lowerBlock_isEmpty {names : Names} {stmts : List Stmt} {commands : List Command} (lowered : lowerBlock names stmts = .ok commands) :
    commands.isEmpty = stmts.isEmpty := by
  cases stmts with
  | nil =>
    rw [lowerBlock] at lowered
    cases lowered
    rfl
  | cons stmt rest =>
    rw [lowerBlock] at lowered
    obtain ⟨command, _, lowered⟩ := bind_eq_ok lowered
    obtain ⟨commands, _, last⟩ := bind_eq_ok lowered
    cases last
    rfl

mutual

theorem lowerStmt_spells {names : Names} (identified : names.Identified) (stmt : Stmt) (command : Command) (depth : Nat)
    (lowered : lowerStmt names stmt = .ok command) : List.Forall₂ SpellsLine (command.lines depth) (names.lines stmt) := by
  cases stmt with
  | declare slot value =>
    rw [lowerStmt] at lowered
    obtain ⟨t, inside, last⟩ := bind_eq_ok lowered
    cases last
    rw [Command.lines, Names.lines]
    exact .cons ((spells_declare slot (lower_spells identified value t inside)).indent depth) .nil
  | assign slot value =>
    rw [lowerStmt] at lowered
    obtain ⟨t, inside, last⟩ := bind_eq_ok lowered
    cases last
    rw [Command.lines, Names.lines]
    exact .cons ((line_assign (isName_slot slot) (lower_spells identified value t inside).expression).indent depth) .nil
  | loop counter start stop body =>
    rw [lowerStmt] at lowered
    obtain ⟨t, one, lowered⟩ := bind_eq_ok lowered
    obtain ⟨u, two, lowered⟩ := bind_eq_ok lowered
    obtain ⟨commands, block, last⟩ := bind_eq_ok lowered
    cases last
    have opens := spells_loop counter (lower_spells identified start t one) (lower_spells identified stop u two)
    rw [Command.lines, Names.lines]
    refine .cons (opens.indent depth) ?_
    exact List.rel_append (lowerBlock_spells identified body commands (depth + 1) block) (.cons (line_close.indent depth) .nil)
  | branch cond yes no =>
    rw [lowerStmt] at lowered
    obtain ⟨c, test, lowered⟩ := bind_eq_ok lowered
    obtain ⟨first, one, lowered⟩ := bind_eq_ok lowered
    obtain ⟨second, two, last⟩ := bind_eq_ok lowered
    cases last
    have opens := line_branch (spells_nonzero (lower_spells identified cond c test))
    have blockYes := lowerBlock_spells identified yes first (depth + 1) one
    have blockNo := lowerBlock_spells identified no second (depth + 1) two
    rw [Command.lines, Names.lines]
    refine .cons (opens.indent depth) (List.rel_append (List.rel_append blockYes ?_) (.cons (line_close.indent depth) .nil))
    rw [lowerBlock_isEmpty two]
    split
    · exact .nil
    · exact .cons (line_otherwise.indent depth) blockNo
  | ret value =>
    rw [lowerStmt] at lowered
    obtain ⟨t, inside, last⟩ := bind_eq_ok lowered
    cases last
    rw [Command.lines, Names.lines]
    exact .cons ((line_ret (lower_spells identified value t inside).expression).indent depth) .nil

theorem lowerBlock_spells {names : Names} (identified : names.Identified) (stmts : List Stmt) (commands : List Command) (depth : Nat)
    (lowered : lowerBlock names stmts = .ok commands) :
    List.Forall₂ SpellsLine (blockLines depth commands) (names.linesOf stmts) := by
  cases stmts with
  | nil =>
    rw [lowerBlock] at lowered
    cases lowered
    exact .nil
  | cons stmt rest =>
    rw [lowerBlock] at lowered
    obtain ⟨command, one, lowered⟩ := bind_eq_ok lowered
    obtain ⟨commands, others, last⟩ := bind_eq_ok lowered
    cases last
    rw [blockLines, Names.linesOf]
    exact List.rel_append (lowerStmt_spells identified stmt command depth one)
      (lowerBlock_spells identified rest commands depth others)

end

mutual

def Term.tree : Term → Tree
  | .literal value => constantTree (Single.ofFloat value)
  | .param index => .name ("p" ++ toString index)
  | .var slot => .name ("l" ++ toString slot)
  | .thread axis => .member (.name "thread") axis.name
  | .extent axis => .call "f32" [.name (axisConstant axis)]
  | .load slot indices => .call ("load_in" ++ toString slot) (termTrees indices)
  | .negate input => .negate input.tree
  | .apply op input => .call op.name [input.tree]
  | .arith op left right => .binary op.operator left.tree right.tree
  | .math op left right => .call op.name [left.tree, right.tree]
  | .select no yes test => .call "select" [no.tree, yes.tree, test.tree]
  | .helper name args => .call ("fn_" ++ name) (.name "thread" :: termTrees args)

def Test.tree : Test → Tree
  | .compare relation left right => .binary relation.operator left.tree right.tree
  | .both left right => .binary .and left.tree right.tree
  | .either left right => .binary .or left.tree right.tree

def termTrees : List Term → List Tree
  | [] => []
  | t :: ts => t.tree :: termTrees ts

end

mutual

def Command.reading : Command → List Line
  | .declare slot value => [.declare ("l" ++ toString slot) "f32" value.tree]
  | .assign slot value => [.assign ("l" ++ toString slot) value.tree]
  | .loop counter start stop body =>
    .loop ("l" ++ toString counter) "f32" start.tree (.binary .lt (.name ("l" ++ toString counter)) stop.tree)
        ("l" ++ toString counter) (.binary .add (.name ("l" ++ toString counter)) (.number ⟨0x3f800000⟩)) ::
      (blockReading body ++ [.close])
  | .branch test yes no =>
    .branch test.tree :: (blockReading yes ++ (if no.isEmpty then [] else .otherwise :: blockReading no) ++ [.close])
  | .ret value => [.ret value.tree]

def blockReading : List Command → List Line
  | [] => []
  | c :: cs => c.reading ++ blockReading cs

end

theorem zero_tree : zero.tree = zeroTree := by
  have value : Single.ofFloat 0.0 = ⟨0⟩ := by decide
  rw [zero, Term.tree, value]
  rfl

theorem truth_tree (test : Test) : (truth test).tree = truthTree test.tree := by
  have value : Single.ofFloat 1.0 = ⟨0x3f800000⟩ := by decide
  rw [truth, Term.tree, zero_tree, Term.tree, value]
  rfl

theorem nonzero_tree (t : Term) : (nonzero t).tree = nonzeroTree t.tree := by
  rw [nonzero, Test.tree, zero_tree]
  rfl

theorem unary_tree (op : UnaryOp) (t : Term) : (unary op t).tree = unaryTree op t.tree := by
  cases op with
  | neg => rw [unary, Term.tree, unaryTree]
  | not => rw [unary, truth_tree, Test.tree, zero_tree, unaryTree, Relation.operator]
  | abs | sqrt | exp | log | log2 | sin | cos | tan | asin | acos | atan | floor | ceil | trunc | sign | fract =>
    simp only [unary, Term.tree, unaryTree]

theorem binary_tree (op : BinaryOp) (t u : Term) : (binary op t u).tree = binaryTree op t.tree u.tree := by
  cases op with
  | add | sub | mul | div | rem => rw [binary, Term.tree, binaryTree, Arith.operator]
  | pow | min | max | atan2 => rw [binary, Term.tree, binaryTree, Math.name]
  | lt | le | gt | ge | eq | ne => rw [binary, truth_tree, Test.tree, binaryTree, Relation.operator]
  | and | or => rw [binary, truth_tree, Test.tree, nonzero_tree, nonzero_tree, binaryTree]

theorem passed_tree (type : ValueType) (t : Term) : (passed type t).tree = passedTree type t.tree := by
  unfold passed passedTree
  split
  · rw [Term.tree, UnaryOp.name]
  · rfl

theorem termTrees_append (ts us : List Term) : termTrees (ts ++ us) = termTrees ts ++ termTrees us := by
  induction ts with
  | nil => rfl
  | cons t ts ih => rw [List.cons_append, termTrees, termTrees, ih, List.cons_append]

theorem termTrees_zeros (n : Nat) : termTrees (List.replicate n zero) = List.replicate n zeroTree := by
  induction n with
  | zero => rfl
  | succ n ih => rw [List.replicate_succ, termTrees, ih, zero_tree, List.replicate_succ]

mutual

theorem lower_tree {names : Names} (e : Expr) (t : Term) (lowered : lower names e = .ok t) : t.tree = names.tree e := by
  cases folded : e.fold with
  | some v =>
    obtain ⟨literal, tree⟩ := fold_lowered names folded
    cases literal.symm.trans lowered
    rw [tree, Term.tree]
  | none =>
    cases e with
    | const => cases folded
    | param index =>
      rw [lower] at lowered
      split at lowered
      · cases lowered
      · cases lowered
        rw [Names.tree, Term.tree]
    | var | thread | extent =>
      rw [lower] at lowered
      cases lowered
      rw [Names.tree, Term.tree]
    | index param indices =>
      rw [lower] at lowered
      split at lowered
      · cases lowered
      · rename_i slot bound
        obtain ⟨terms, inside, last⟩ := bind_eq_ok lowered
        cases last
        rw [Names.tree, bound, Term.tree, termTrees_append, termTrees_zeros, lowerAll_tree indices terms inside]
        rfl
    | unary op input =>
      rw [lower, folded] at lowered
      obtain ⟨t, inside, last⟩ := bind_eq_ok lowered
      cases last
      rw [Names.tree, foldedTree, folded, unary_tree, lower_tree input t inside]
    | binary op left right =>
      rw [lower, folded] at lowered
      obtain ⟨t, one, lowered⟩ := bind_eq_ok lowered
      obtain ⟨u, two, last⟩ := bind_eq_ok lowered
      cases last
      rw [Names.tree, foldedTree, folded, binary_tree, lower_tree left t one, lower_tree right u two]
    | select cond yes no =>
      rw [lower, folded] at lowered
      obtain ⟨n, one, lowered⟩ := bind_eq_ok lowered
      obtain ⟨y, two, lowered⟩ := bind_eq_ok lowered
      obtain ⟨c, three, last⟩ := bind_eq_ok lowered
      cases last
      rw [Names.tree, foldedTree, folded, Term.tree, nonzero_tree, lower_tree no n one, lower_tree yes y two,
        lower_tree cond c three]
    | call name args =>
      rw [lower] at lowered
      split at lowered
      · cases lowered
      · rename_i callee found
        split at lowered
        · cases lowered
        · obtain ⟨terms, inside, last⟩ := bind_eq_ok lowered
          cases last
          rw [Names.tree, found, passed_tree, Term.tree, lowerArgs_tree callee.paramTypes args terms inside]

theorem lowerAll_tree {names : Names} (es : List Expr) (ts : List Term) (lowered : lowerAll names es = .ok ts) :
    termTrees ts = names.trees es := by
  cases es with
  | nil =>
    rw [lowerAll] at lowered
    cases lowered
    rw [termTrees, Names.trees]
  | cons e es =>
    rw [lowerAll] at lowered
    obtain ⟨t, one, lowered⟩ := bind_eq_ok lowered
    obtain ⟨ts, rest, last⟩ := bind_eq_ok lowered
    cases last
    rw [termTrees, Names.trees, lower_tree e t one, lowerAll_tree es ts rest]

theorem lowerArgs_tree {names : Names} (types : List ValueType) (es : List Expr) (ts : List Term)
    (lowered : lowerArgs names types es = .ok ts) : termTrees ts = names.passedTrees types es := by
  cases es with
  | nil =>
    cases types with
    | nil | cons =>
      cases lowered
      rfl
  | cons e es =>
    cases types with
    | nil =>
      cases lowered
      rfl
    | cons type types =>
      rw [lowerArgs] at lowered
      obtain ⟨t, one, lowered⟩ := bind_eq_ok lowered
      obtain ⟨ts, rest, last⟩ := bind_eq_ok lowered
      cases last
      rw [termTrees, Names.passedTrees, passed_tree, lower_tree e t one, lowerArgs_tree types es ts rest]

end

mutual

theorem lowerStmt_reading {names : Names} (stmt : Stmt) (command : Command) (lowered : lowerStmt names stmt = .ok command) :
    command.reading = names.lines stmt := by
  cases stmt with
  | declare slot value =>
    rw [lowerStmt] at lowered
    obtain ⟨t, inside, last⟩ := bind_eq_ok lowered
    cases last
    rw [Command.reading, Names.lines, lower_tree value t inside]
  | assign slot value =>
    rw [lowerStmt] at lowered
    obtain ⟨t, inside, last⟩ := bind_eq_ok lowered
    cases last
    rw [Command.reading, Names.lines, lower_tree value t inside]
  | loop counter start stop body =>
    rw [lowerStmt] at lowered
    obtain ⟨t, one, lowered⟩ := bind_eq_ok lowered
    obtain ⟨u, two, lowered⟩ := bind_eq_ok lowered
    obtain ⟨commands, block, last⟩ := bind_eq_ok lowered
    cases last
    rw [Command.reading, Names.lines, lower_tree start t one, lower_tree stop u two, lowerBlock_reading body commands block]
  | branch cond yes no =>
    rw [lowerStmt] at lowered
    obtain ⟨c, test, lowered⟩ := bind_eq_ok lowered
    obtain ⟨first, one, lowered⟩ := bind_eq_ok lowered
    obtain ⟨second, two, last⟩ := bind_eq_ok lowered
    cases last
    rw [Command.reading, Names.lines, nonzero_tree, lower_tree cond c test, lowerBlock_reading yes first one,
      lowerBlock_reading no second two, lowerBlock_isEmpty two]
  | ret value =>
    rw [lowerStmt] at lowered
    obtain ⟨t, inside, last⟩ := bind_eq_ok lowered
    cases last
    rw [Command.reading, Names.lines, lower_tree value t inside]

theorem lowerBlock_reading {names : Names} (stmts : List Stmt) (commands : List Command)
    (lowered : lowerBlock names stmts = .ok commands) : blockReading commands = names.linesOf stmts := by
  cases stmts with
  | nil =>
    rw [lowerBlock] at lowered
    cases lowered
    rw [blockReading, Names.linesOf]
  | cons stmt rest =>
    rw [lowerBlock] at lowered
    obtain ⟨command, one, lowered⟩ := bind_eq_ok lowered
    obtain ⟨commands, others, last⟩ := bind_eq_ok lowered
    cases last
    rw [blockReading, Names.linesOf, lowerStmt_reading stmt command one, lowerBlock_reading rest commands others]

end

theorem spells_block {names : Names} (identified : names.Identified) {stmts : List Stmt} {commands : List Command}
    (lowered : lowerBlock names stmts = .ok commands) (depth : Nat) :
    SpellsAll (blockLines depth commands) (blockReading commands) := by
  rw [lowerBlock_reading stmts commands lowered]
  exact .of_forall (lowerBlock_spells identified stmts commands depth lowered)

end GridKernel.Shader
