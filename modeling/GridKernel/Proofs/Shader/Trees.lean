import GridKernel.Shader.Lowering
import GridKernel.Proofs.Outcome
import GridKernel.Proofs.Shader.Spelling

namespace GridKernel.Shader

def zeroTree : Tree := .number ⟨0⟩

def truthTree (test : Tree) : Tree := .call "select" [zeroTree, .number ⟨0x3f800000⟩, test]

def nonzeroTree (t : Tree) : Tree := .binary .ne t zeroTree

def unaryTree (op : UnaryOp) (t : Tree) : Tree :=
  match op with
  | .neg => .negate t
  | .not => truthTree (.binary .eq t zeroTree)
  | other => .call other.name [t]

def binaryTree (op : BinaryOp) (t u : Tree) : Tree :=
  match op with
  | .add => .binary .add t u
  | .sub => .binary .sub t u
  | .mul => .binary .mul t u
  | .div => .binary .div t u
  | .rem => .binary .rem t u
  | .pow => .call "pow" [t, u]
  | .min => .call "min" [t, u]
  | .max => .call "max" [t, u]
  | .atan2 => .call "atan2" [t, u]
  | .lt => truthTree (.binary .lt t u)
  | .le => truthTree (.binary .le t u)
  | .gt => truthTree (.binary .gt t u)
  | .ge => truthTree (.binary .ge t u)
  | .eq => truthTree (.binary .eq t u)
  | .ne => truthTree (.binary .ne t u)
  | .and => truthTree (.binary .and (nonzeroTree t) (nonzeroTree u))
  | .or => truthTree (.binary .or (nonzeroTree t) (nonzeroTree u))

def passedTree (type : ValueType) (t : Tree) : Tree := if type = .int then .call "trunc" [t] else t

-- What is computed beforehand takes the place of an operator.
def foldedTree (e : Expr) (otherwise : Tree) : Tree :=
  match e.fold with
  | some v => constantTree (Single.ofFloat v)
  | none => otherwise

mutual

def Names.tree (names : Names) : Expr → Tree
  | .const v => constantTree (Single.ofFloat v.toFloat)
  | .param index => .name ("p" ++ toString index)
  | .var slot => .name ("l" ++ toString slot)
  | .thread axis => .member (.name "thread") axis.name
  | .extent axis => .call "f32" [.name (axisConstant axis)]
  | .index param indices =>
    .call ("load_in" ++ toString ((names.slot? param).getD 0))
      (List.replicate (3 - indices.length) zeroTree ++ trees names indices)
  | .unary op input => foldedTree (.unary op input) (unaryTree op (tree names input))
  | .binary op left right => foldedTree (.binary op left right) (binaryTree op (tree names left) (tree names right))
  | .select cond yes no =>
    foldedTree (.select cond yes no) (.call "select" [tree names no, tree names yes, nonzeroTree (tree names cond)])
  | .call name args =>
    match names.lookup name with
    | some callee =>
      passedTree callee.returnType (.call ("fn_" ++ name) (.name "thread" :: passedTrees names callee.paramTypes args))
    | none => .call ("fn_" ++ name) (.name "thread" :: trees names args)

def Names.trees (names : Names) : List Expr → List Tree
  | [] => []
  | e :: es => tree names e :: trees names es

def Names.passedTrees (names : Names) : List ValueType → List Expr → List Tree
  | type :: types, e :: es => passedTree type (tree names e) :: passedTrees names types es
  | _, _ => []

end

theorem isIdentifier_append {stem more : String} (starts : isIdentifier stem = true) (all : ∀ c ∈ more.toList, inName c = true) :
    isIdentifier (stem ++ more) = true := by
  unfold isIdentifier at *
  rw [String.toList_append]
  cases spelled : stem.toList with
  | nil =>
    rw [spelled] at starts
    cases starts
  | cons first rest =>
    rw [spelled] at starts
    change (_ && (rest ++ more.toList).all _) = true
    simp only [Bool.and_eq_true, List.all_append] at starts ⊢
    exact ⟨starts.1, starts.2, List.all_eq_true.mpr all⟩

-- A stem with a number behind it is no keyword, since no keyword goes on with a digit there.
theorem isName_indexed {stem : String} (starts : isIdentifier stem = true)
    (apart : ∀ k ∈ keywords, stem.toList.isPrefixOf k.toList = true → k.toList.any Char.isDigit = false) (n : Nat) :
    IsName (stem ++ toString n) := by
  refine ⟨isIdentifier_append starts ?_, ?_⟩
  · intro c member
    rw [toList_toString] at member
    simp [inName, Char.isAlphanum, toDigits_isDigit n c member]
  · intro keyword
    obtain ⟨c, cs, spelled⟩ := List.exists_cons_of_ne_nil (Nat.toDigits_ne_nil (n := n) (b := 10))
    have digit := toDigits_isDigit n c (by rw [spelled]; exact List.mem_cons_self)
    have text : (stem ++ toString n).toList = stem.toList ++ c :: cs := by rw [String.toList_append, toList_toString, spelled]
    have none := apart _ keyword (by rw [text, List.isPrefixOf_iff_prefix]; exact List.prefix_append _ _)
    rw [text, List.any_append, List.any_cons, digit] at none
    simp at none

theorem inName_of_identifier {name : String} (ident : isIdentifier name = true) : ∀ c ∈ name.toList, inName c = true := by
  unfold isIdentifier at ident
  split at ident
  · cases ident
  · rename_i first rest spelled
    rw [Bool.and_eq_true, List.all_eq_true] at ident
    rw [spelled]
    refine List.forall_mem_cons.mpr ⟨?_, ident.2⟩
    have starts := ident.1
    simp only [inName, Char.isAlphanum, Bool.or_eq_true] at starts ⊢
    exact starts.imp_left .inl

theorem isName_slot (slot : Nat) : IsName ("l" ++ toString slot) := isName_indexed (by decide) (by decide) slot

theorem isName_param (index : Nat) : IsName ("p" ++ toString index) := isName_indexed (by decide) (by decide) index

theorem isName_loader (slot : Nat) : IsName ("load_in" ++ toString slot) := isName_indexed (by decide) (by decide) slot

theorem isName_helper {name : String} (ident : isIdentifier name = true) : IsName ("fn_" ++ name) := by
  have none : ∀ k ∈ keywords, "fn_".toList.isPrefixOf k.toList = false := by decide
  refine ⟨isIdentifier_append (by decide) (inName_of_identifier ident), ?_⟩
  intro keyword
  have start : "fn_".toList.isPrefixOf ("fn_" ++ name).toList = true := by
    rw [List.isPrefixOf_iff_prefix, String.toList_append]
    exact List.prefix_append _ _
  cases (none _ keyword).symm.trans start

theorem spells_zero : Spells .singular zero.text zeroTree := by
  have value : Single.ofFloat 0.0 = ⟨0⟩ := by decide
  have spells := spells_constant 0.0
  rwa [value] at spells

theorem spells_one : Spells .singular (Term.literal 1.0).text (.number ⟨0x3f800000⟩) := by
  have value : Single.ofFloat 1.0 = ⟨0x3f800000⟩ := by decide
  have spells := spells_constant 1.0
  rwa [value] at spells

section
variable {t u : Term} {a b : Tree}

theorem spells_relation (relation : Relation) (one : Spells .singular t.text a) (two : Spells .singular u.text b) :
    Spells .expression (Test.compare relation t u).text (.binary relation.operator a b) := by
  have symbol : relation.symbol = relation.operator.symbol := by cases relation <;> rfl
  have listed : relation.operator ∈ relations := by cases relation <;> decide
  change Spells .expression (t.text ++ " " ++ relation.symbol ++ " " ++ u.text) _
  rw [symbol]
  refine Spells.between one.sum two.sum ?_
  intro ts us left right
  exact (Derives.compare listed left right).expression

theorem spells_nonzero (one : Spells .singular t.text a) : Spells .expression (nonzero t).text (nonzeroTree a) :=
  spells_relation .ne one spells_zero

theorem spells_select {test : Test} {c : Tree} (one : Spells .singular t.text a) (two : Spells .singular u.text b)
    (three : Spells .expression test.text c) : Spells .singular (Term.select t u test).text (.call "select" [a, b, c]) := by
  have text : (Term.select t u test).text = "select" ++ "(" ++ Text.joined ", " [t.text, u.text, test.text] ++ ")" := by
    change "select(" ++ t.text ++ ", " ++ u.text ++ ", " ++ test.text ++ ")" = _
    rw [← String.toList_inj]
    simp [Text.joined]
  rw [text]
  exact spells_call (by decide) (.cons one.expression (.cons two.expression (.cons three .nil)))

theorem spells_truth {test : Test} {c : Tree} (spells : Spells .expression test.text c) :
    Spells .singular (truth test).text (truthTree c) :=
  spells_select spells_zero spells_one spells

theorem spells_logic {left right : Test} {op : Operator} (logical : op = .and ∨ op = .or) (one : Spells .expression left.text a)
    (two : Spells .expression right.text b) :
    Spells .expression ("(" ++ left.text ++ ")" ++ " " ++ op.symbol ++ " " ++ ("(" ++ right.text ++ ")")) (.binary op a b) := by
  refine Spells.between one.paren.singular.comparison two.paren.singular.comparison ?_
  intro ts us first second
  rcases logical with rfl | rfl
  · exact Derives.binary List.mem_cons_self List.mem_cons_self first second
  · exact Derives.binary (List.mem_cons_of_mem _ List.mem_cons_self) List.mem_cons_self first second

theorem spells_both {left right : Test} (one : Spells .expression left.text a) (two : Spells .expression right.text b) :
    Spells .expression (Test.both left right).text (.binary .and a b) := by
  have spells := spells_logic (.inl rfl) one two
  have text : (Test.both left right).text =
      "(" ++ left.text ++ ")" ++ " " ++ Operator.and.symbol ++ " " ++ ("(" ++ right.text ++ ")") := by
    change "(" ++ left.text ++ ") && (" ++ right.text ++ ")" = _
    rw [← String.toList_inj]
    simp [Operator.symbol]
  rwa [text]

theorem spells_either {left right : Test} (one : Spells .expression left.text a) (two : Spells .expression right.text b) :
    Spells .expression (Test.either left right).text (.binary .or a b) := by
  have spells := spells_logic (.inr rfl) one two
  have text : (Test.either left right).text =
      "(" ++ left.text ++ ")" ++ " " ++ Operator.or.symbol ++ " " ++ ("(" ++ right.text ++ ")") := by
    change "(" ++ left.text ++ ") || (" ++ right.text ++ ")" = _
    rw [← String.toList_inj]
    simp [Operator.symbol]
  rwa [text]

theorem spells_arith (op : Arith) (one : Spells .singular t.text a) (two : Spells .singular u.text b) :
    Spells .singular (Term.arith op t u).text (.binary op.operator a b) := by
  have symbol : op.symbol = op.operator.symbol := by cases op <;> rfl
  have text : (Term.arith op t u).text = "(" ++ (t.text ++ " " ++ op.operator.symbol ++ " " ++ u.text) ++ ")" := by
    change "(" ++ t.text ++ " " ++ op.symbol ++ " " ++ u.text ++ ")" = _
    rw [symbol, ← String.toList_inj]
    simp
  rw [text]
  exact (Spells.between one two fun ts us left right => left.arith op right).paren.singular

theorem spells_math (op : Math) (one : Spells .singular t.text a) (two : Spells .singular u.text b) :
    Spells .singular (Term.math op t u).text (.call op.name [a, b]) := by
  have name : IsName op.name := by cases op <;> decide
  have text : (Term.math op t u).text = op.name ++ "(" ++ Text.joined ", " [t.text, u.text] ++ ")" := by
    change op.name ++ "(" ++ t.text ++ ", " ++ u.text ++ ")" = _
    rw [← String.toList_inj]
    simp [Text.joined]
  rw [text]
  exact spells_call name (.cons one.expression (.cons two.expression .nil))

theorem spells_apply (op : UnaryOp) (spells : Spells .singular t.text a) :
    Spells .singular (Term.apply op t).text (.call op.name [a]) := by
  have name : IsName op.name := by cases op <;> decide
  have text : (Term.apply op t).text = op.name ++ "(" ++ Text.joined ", " [t.text] ++ ")" := rfl
  rw [text]
  exact spells_call name (.cons spells.expression .nil)

theorem spells_var (slot : Nat) : Spells .singular (Term.var slot).text (.name ("l" ++ toString slot)) :=
  (spells_name (isName_slot slot)).singular

theorem spells_thread (axis : Axis) : Spells .singular (Term.thread axis).text (.member (.name "thread") axis.name) := by
  have field : IsName axis.name := by cases axis <;> decide
  have text : (Term.thread axis).text = "thread" ++ "." ++ axis.name := by
    change "thread." ++ axis.name = _
    rw [← String.toList_inj]
    simp
  rw [text]
  exact spells_member (by decide) field

theorem spells_extent (axis : Axis) : Spells .singular (Term.extent axis).text (.call "f32" [.name (axisConstant axis)]) := by
  have name : IsName (axisConstant axis) := by cases axis <;> decide
  have text : (Term.extent axis).text = "f32" ++ "(" ++ Text.joined ", " [axisConstant axis] ++ ")" := by
    change "f32(" ++ axisConstant axis ++ ")" = _
    rw [Text.joined, ← String.toList_inj]
    simp
  rw [text]
  exact spells_call (by decide) (.cons (spells_name name).singular.expression .nil)

theorem spells_unary (op : UnaryOp) (spells : Spells .singular t.text a) : Spells .singular (unary op t).text (unaryTree op a) := by
  cases op with
  | neg => exact spells.negate.singular
  | not => exact spells_truth (spells_relation .eq spells spells_zero)
  | abs | sqrt | exp | log | log2 | sin | cos | tan | asin | acos | atan | floor | ceil | trunc | sign | fract =>
    exact spells_apply _ spells

theorem spells_binary (op : BinaryOp) (one : Spells .singular t.text a) (two : Spells .singular u.text b) :
    Spells .singular (binary op t u).text (binaryTree op a b) := by
  cases op with
  | add => exact spells_arith .add one two
  | sub => exact spells_arith .sub one two
  | mul => exact spells_arith .mul one two
  | div => exact spells_arith .div one two
  | rem => exact spells_arith .rem one two
  | pow => exact spells_math .pow one two
  | min => exact spells_math .min one two
  | max => exact spells_math .max one two
  | atan2 => exact spells_math .atan2 one two
  | lt => exact spells_truth (spells_relation .lt one two)
  | le => exact spells_truth (spells_relation .le one two)
  | gt => exact spells_truth (spells_relation .gt one two)
  | ge => exact spells_truth (spells_relation .ge one two)
  | eq => exact spells_truth (spells_relation .eq one two)
  | ne => exact spells_truth (spells_relation .ne one two)
  | and => exact spells_truth (spells_both (spells_nonzero one) (spells_nonzero two))
  | or => exact spells_truth (spells_either (spells_nonzero one) (spells_nonzero two))

theorem spells_passed (type : ValueType) (spells : Spells .singular t.text a) :
    Spells .singular (passed type t).text (passedTree type a) := by
  unfold passed passedTree
  split
  · exact spells_apply .trunc spells
  · exact spells

end

-- What can be called by name has an identifier for its name.
def Names.Identified (names : Names) : Prop := ∀ name d, names.lookup name = some d → isIdentifier name = true

theorem texts_spells {ts : List Term} {trees : List Tree} (all : List.Forall₂ (fun t tree => Spells .singular t.text tree) ts trees) :
    List.Forall₂ (Spells .expression) (texts ts) trees := by
  induction all with
  | nil => exact .nil
  | cons one _ ih =>
    rw [texts]
    exact .cons one.expression ih

theorem zeros_spell (n : Nat) :
    List.Forall₂ (fun t tree => Spells .singular t.text tree) (List.replicate n zero) (List.replicate n zeroTree) := by
  induction n with
  | zero => exact .nil
  | succ n ih => exact .cons spells_zero ih

theorem fold_lowered (names : Names) {e : Expr} {v : Float} (folded : e.fold = some v) :
    lower names e = .ok (.literal v) ∧ names.tree e = constantTree (Single.ofFloat v) := by
  cases e with
  | const =>
    cases folded
    rw [lower, Names.tree]
    exact ⟨rfl, rfl⟩
  | param | var | thread | extent | index | call => cases folded
  | unary | binary | select =>
    rw [lower, Names.tree, foldedTree, folded]
    exact ⟨rfl, rfl⟩

mutual

-- What is left unfolded is the term's own form around operands that stand for themselves.
theorem lower_spells {names : Names} (identified : names.Identified) (e : Expr) (t : Term) (lowered : lower names e = .ok t) :
    Spells .singular t.text (names.tree e) := by
  cases folded : e.fold with
  | some v =>
    obtain ⟨literal, tree⟩ := fold_lowered names folded
    cases literal.symm.trans lowered
    rw [tree, Term.text]
    exact spells_constant v
  | none =>
    cases e with
    | const => cases folded
    | param index =>
      rw [lower] at lowered
      split at lowered
      · cases lowered
      · cases lowered
        rw [Names.tree, Term.text]
        exact (spells_name (isName_param index)).singular
    | var slot =>
      rw [lower] at lowered
      cases lowered
      rw [Names.tree]
      exact spells_var slot
    | thread axis =>
      rw [lower] at lowered
      cases lowered
      rw [Names.tree]
      exact spells_thread axis
    | extent axis =>
      rw [lower] at lowered
      cases lowered
      rw [Names.tree]
      exact spells_extent axis
    | index param indices =>
      rw [lower] at lowered
      split at lowered
      · cases lowered
      · rename_i slot bound
        obtain ⟨terms, inside, last⟩ := bind_eq_ok lowered
        cases last
        rw [Names.tree, bound, Term.text]
        refine spells_call (isName_loader slot) (texts_spells ?_)
        exact List.rel_append (zeros_spell _) (lowerAll_spells identified indices terms inside)
    | unary op input =>
      rw [lower, folded] at lowered
      obtain ⟨t, inside, last⟩ := bind_eq_ok lowered
      cases last
      rw [Names.tree, foldedTree, folded]
      exact spells_unary op (lower_spells identified input t inside)
    | binary op left right =>
      rw [lower, folded] at lowered
      obtain ⟨t, one, lowered⟩ := bind_eq_ok lowered
      obtain ⟨u, two, last⟩ := bind_eq_ok lowered
      cases last
      rw [Names.tree, foldedTree, folded]
      exact spells_binary op (lower_spells identified left t one) (lower_spells identified right u two)
    | select cond yes no =>
      rw [lower, folded] at lowered
      obtain ⟨n, one, lowered⟩ := bind_eq_ok lowered
      obtain ⟨y, two, lowered⟩ := bind_eq_ok lowered
      obtain ⟨c, three, last⟩ := bind_eq_ok lowered
      cases last
      rw [Names.tree, foldedTree, folded]
      exact spells_select (lower_spells identified no n one) (lower_spells identified yes y two)
        (spells_nonzero (lower_spells identified cond c three))
    | call name args =>
      rw [lower] at lowered
      split at lowered
      · cases lowered
      · rename_i callee found
        split at lowered
        · cases lowered
        · obtain ⟨terms, inside, last⟩ := bind_eq_ok lowered
          cases last
          rw [Names.tree, found]
          apply spells_passed
          rw [Term.text]
          refine spells_call (isName_helper (identified name callee found)) (.cons ?_ ?_)
          · exact (spells_name (by decide)).singular.expression
          · exact texts_spells (lowerArgs_spells identified callee.paramTypes args terms inside)

theorem lowerAll_spells {names : Names} (identified : names.Identified) (es : List Expr) (ts : List Term)
    (lowered : lowerAll names es = .ok ts) :
    List.Forall₂ (fun t tree => Spells .singular t.text tree) ts (names.trees es) := by
  cases es with
  | nil =>
    rw [lowerAll] at lowered
    cases lowered
    exact .nil
  | cons e es =>
    rw [lowerAll] at lowered
    obtain ⟨t, one, lowered⟩ := bind_eq_ok lowered
    obtain ⟨ts, rest, last⟩ := bind_eq_ok lowered
    cases last
    exact .cons (lower_spells identified e t one) (lowerAll_spells identified es ts rest)

theorem lowerArgs_spells {names : Names} (identified : names.Identified) (types : List ValueType) (es : List Expr) (ts : List Term)
    (lowered : lowerArgs names types es = .ok ts) :
    List.Forall₂ (fun t tree => Spells .singular t.text tree) ts (names.passedTrees types es) := by
  cases es with
  | nil =>
    cases types with
    | nil | cons =>
      cases lowered
      exact .nil
  | cons e es =>
    cases types with
    | nil =>
      cases lowered
      exact .nil
    | cons type types =>
      rw [lowerArgs] at lowered
      obtain ⟨t, one, lowered⟩ := bind_eq_ok lowered
      obtain ⟨ts, rest, last⟩ := bind_eq_ok lowered
      cases last
      exact .cons (spells_passed type (lower_spells identified e t one)) (lowerArgs_spells identified types es ts rest)

end

end GridKernel.Shader
