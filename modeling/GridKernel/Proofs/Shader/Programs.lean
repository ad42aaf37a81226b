import GridKernel.Proofs.Shader.Preservation
import GridKernel.Proofs.Shader.Readings

namespace GridKernel.Shader

-- The level at which an operand of an operator is read. Only the operands of a sum may be products.
def operandLevel : Option Arith → Level
  | none => .expression
  | some .add => .product
  | some _ => .singular

theorem Spells.operand {text : String} {tree : Tree} (spells : Spells .singular text tree) (outer : Option Arith) :
    Spells (operandLevel outer) text tree := by
  cases outer with
  | none => exact spells.expression
  | some op =>
    cases op with
    | add => exact spells.product
    | sub | mul | div | rem => exact spells

theorem Derives.operator (op : Arith) {ts us : List Token} {t u : Tree} (left : Derives (operandLevel (some op)) ts t)
    (right : Derives (operandLevel (some op)) us u) :
    Derives .sum (ts ++ .mark op.operator.symbol :: us) (.binary op.operator t u) := by
  cases op with
  | add => exact Derives.binary List.mem_cons_self (by decide) left right
  | sub => exact Derives.binary List.mem_cons_self (by decide) left.plain.product right.plain.product
  | mul | div | rem =>
    apply Derives.sum
    exact Derives.binary List.mem_cons_self (by decide) left.plain right.plain

theorem spells_operator (outer : Option Arith) (op : Arith) {left right : String} {t u : Tree}
    (one : Spells (operandLevel (some op)) left t) (two : Spells (operandLevel (some op)) right u) :
    Spells (operandLevel outer) (operatorText outer op left right) (.binary op.operator t u) := by
  have symbol : op.symbol = op.operator.symbol := by cases op <;> rfl
  have inner : Spells .expression (left ++ " " ++ op.operator.symbol ++ " " ++ right) (.binary op.operator t u) :=
    Spells.between one two fun ts us first second => (Derives.operator op first second).alone.expression
  unfold operatorText
  rw [symbol]
  dsimp only
  split
  · rename_i bare
    rcases bare with rfl | ⟨rfl, rfl⟩
    · exact inner
    · refine Spells.between one two fun ts us first second => ?_
      exact Derives.binary List.mem_cons_self (by decide) first.plain second.plain
  · exact inner.paren.singular.operand outer

section Words

def WordName.tree : WordName → Tree
  | .invocation axis => .member (.name "gid") axis.name
  | other => .name other.text

def WordTerm.tree : WordTerm → Tree
  | .word name => name.tree
  | .arith op left right => .binary op.operator left.tree right.tree

theorem WordName.spells (name : WordName) : Spells .singular name.text name.tree := by
  cases name with
  | invocation axis =>
    have field : IsName axis.name := by cases axis <;> decide
    have text : (WordName.invocation axis).text = "gid" ++ "." ++ axis.name := by
      change "gid." ++ axis.name = _
      rw [← String.toList_inj]
      simp
    rw [text]
    exact spells_member (by decide) field
  | extent axis =>
    have name : IsName (axisConstant axis) := by cases axis <;> decide
    exact (spells_name name).singular
  | outputLength | rowStride | element => exact (spells_name (by decide)).singular

theorem WordTerm.spells (t : WordTerm) (outer : Option Arith) : Spells (operandLevel outer) (t.text outer) t.tree := by
  induction t generalizing outer with
  | word name => exact name.spells.operand outer
  | arith op left right one two => exact spells_operator outer op (one (some op)) (two (some op))

end Words

def Conversion.tree : Conversion → Tree → Tree
  | .bits, t => .construct "bitcast" "f32" [t]
  | other, t => .call other.text [t]

def Code.tree : Code → Tree
  | .number value => constantTree (Single.ofFloat value)
  | .word value => .integer value true
  | .name text => .name text
  | .element buffer index => .element buffer index.tree
  | .convert conversion input => conversion.tree input.tree
  | .arith op left right => .binary op.operator left.tree right.tree

def Code.Named : Code → Prop
  | .number _ | .word _ => True
  | .name text => IsName text
  | .element buffer index => IsName buffer ∧ index.Named
  | .convert _ input => input.Named
  | .arith _ left right => left.Named ∧ right.Named

theorem Conversion.spells (conversion : Conversion) {text : String} {t : Tree} (spells : Spells .expression text t) :
    Spells .singular (conversion.text ++ "(" ++ text ++ ")") (conversion.tree t) := by
  have alone : text = Text.joined ", " [text] := rfl
  have call {callee : String} (name : IsName callee) : Spells .singular (callee ++ "(" ++ text ++ ")") (.call callee [t]) := by
    rw [alone]
    exact spells_call name (.cons spells .nil)
  cases conversion with
  | bits =>
    have type : IsName "f32" := by decide
    have written : Conversion.bits.text ++ "(" ++ text ++ ")" =
        "bitcast" ++ "<" ++ "f32" ++ ">" ++ "(" ++ Text.joined ", " [text] ++ ")" := by
      rw [← alone, ← String.toList_inj]
      simp [Conversion.text]
    rw [written]
    exact spells_construct (by decide) type (.cons spells .nil)
  | floor | trunc | word | number => exact call (by decide)

theorem Code.spells (c : Code) (named : c.Named) (outer : Option Arith) :
    Spells (operandLevel outer) (c.text outer) c.tree := by
  induction c generalizing outer with
  | number value => exact (spells_constant value).operand outer
  | word value => exact (spells_word value).singular.operand outer
  | name text => exact (spells_name named).singular.operand outer
  | element buffer index ih =>
    obtain ⟨ts, derives, _, yields⟩ := ih named.2 none
    exact (spells_element named.1 derives fun rest => yields _ (.cons rfl rest)).singular.operand outer
  | convert conversion input ih => exact (conversion.spells (ih named none)).operand outer
  | arith op left right one two => exact spells_operator outer op (one named.1 (some op)) (two named.2 (some op))

def Let.reading (l : Let) : Line := .bind l.name l.value.tree

def Let.Named (l : Let) : Prop := IsName l.name ∧ l.value.Named

theorem Let.spells {l : Let} (named : l.Named) : SpellsLine (letLine l.name (l.value.text none)) l.reading :=
  (line_bind named.1 (l.value.spells named.2 none)).indent 1

def Check.tree (c : Check) : Tree := .binary c.relation.operator c.left.tree c.right.tree

def Check.Named (c : Check) : Prop := c.left.Named ∧ c.right.Named

theorem Check.spells {c : Check} (named : c.Named) : Spells .comparison c.text c.tree := by
  have symbol : c.relation.symbol = c.relation.operator.symbol := by cases c.relation <;> rfl
  have listed : c.relation.operator ∈ relations := by cases c.relation <;> decide
  have one : Spells .singular (c.left.text (some .mul)) c.left.tree := c.left.spells named.1 (some .mul)
  have two : Spells .singular (c.right.text (some .mul)) c.right.tree := c.right.spells named.2 (some .mul)
  unfold Check.text
  rw [symbol]
  exact Spells.between one.sum two.sum fun ts us left right => Derives.compare listed left right

theorem yields_conjunction {words : List String} {trees : List Tree} (spells : List.Forall₂ (Spells .comparison) words trees) :
    ∃ links : List Link, (∀ link ∈ links, link.op ∈ [Operator.and]) ∧
      (∀ link ∈ links, Derives .comparison link.tokens link.tree) ∧ links.map Link.tree = trees ∧
      ∀ rest, Cut inName rest → Cut inName ((words.flatMap fun word => " && ".toList ++ word.toList) ++ rest) ∧
        Yields (words.flatMap fun word => " && ".toList ++ word.toList) (written links) rest := by
  induction spells with
  | nil => exact ⟨[], nofun, nofun, rfl, fun rest stops => ⟨stops, Yields.nil rest⟩⟩
  | @cons word tree words trees one _ ih =>
    obtain ⟨ts, derives, _, yields⟩ := one
    obtain ⟨links, grouped, inside, same, later⟩ := ih
    refine ⟨⟨.and, ts, tree⟩ :: links, ?_, ?_, ?_, ?_⟩
    · exact List.forall_mem_cons.mpr ⟨List.mem_singleton.mpr rfl, grouped⟩
    · exact List.forall_mem_cons.mpr ⟨derives, inside⟩
    · rw [List.map_cons, same]
    · intro rest stops
      obtain ⟨cut, read⟩ := later rest stops
      have text : ((word :: words).flatMap fun word => " && ".toList ++ word.toList) =
          ' ' :: ("&&".toList ++ ' ' :: (word.toList ++ words.flatMap fun word => " && ".toList ++ word.toList)) := by
        simp
      refine ⟨?_, ?_⟩
      · rw [text]
        exact .cons rfl _
      · rw [text]
        have operand := ((yields _ cut).append read).blank
        exact ((yields_mark "&&" (by decide) (by decide) (.cons rfl _)).append operand).blank

theorem joined_cons (separator word : String) (words : List String) :
    (Text.joined separator (word :: words)).toList = word.toList ++ words.flatMap fun word => separator.toList ++ word.toList := by
  induction words generalizing word with
  | nil => simp [Text.joined]
  | cons next words ih =>
    change (word ++ separator ++ Text.joined separator (next :: words)).toList = _
    rw [String.toList_append, ih]
    simp

theorem spells_conjunction {word : String} {tree : Tree} {words : List String} {trees : List Tree}
    (first : Spells .comparison word tree) (others : List.Forall₂ (Spells .comparison) words trees) :
    Spells .expression (Text.joined " && " (word :: words)) (trees.foldl (.binary .and) tree) := by
  obtain ⟨ts, derives, ⟨c, cs, spelled, apart⟩, yields⟩ := first
  obtain ⟨links, grouped, inside, rfl, later⟩ := yields_conjunction others
  refine ⟨ts ++ written links, ?_, ?_, ?_⟩
  · have joined : (links.map Link.tree).foldl (.binary .and) tree = links.foldl Link.join tree := by
      rw [List.foldl_map]
      apply List.foldl_ext
      intro t link member
      rw [Link.join, List.mem_singleton.mp (grouped link member)]
    rw [joined]
    have listed : [Operator.and] ∈ Level.expression.groups := List.mem_cons_self
    exact Derives.chain listed derives grouped inside
  · rw [joined_cons, spelled]
    exact ⟨c, _, rfl, apart⟩
  · intro rest stops
    obtain ⟨cut, read⟩ := later rest stops
    rw [joined_cons]
    exact (yields _ cut).append read

def checkReading : List Check → List Line
  | [] => []
  | c :: cs => [.branch (.not ((cs.map Check.tree).foldl (.binary .and) c.tree)), .ret zeroTree, .close]

theorem spells_checks {checks : List Check} (named : ∀ c ∈ checks, c.Named) : SpellsAll (checkLines checks) (checkReading checks) := by
  cases checks with
  | nil => exact .nil
  | cons c cs =>
    obtain ⟨first, rest⟩ := List.forall_mem_cons.mp named
    have others : List.Forall₂ (Spells .comparison) (cs.map Check.text) (cs.map Check.tree) := by
      rw [List.forall₂_map_left_iff, List.forall₂_map_right_iff, List.forall₂_same]
      exact fun c member => c.spells (rest c member)
    have all := spells_conjunction (c.spells first) others
    have text : "if (!(" ++ Text.joined " && " ((c :: cs).map Check.text) ++ ")) \x7b" =
        "if (" ++ ("!" ++ ("(" ++ Text.joined " && " (c.text :: cs.map Check.text) ++ ")")) ++ ") \x7b" := by
      rw [List.map_cons, ← String.toList_inj]
      simp
    have opens := (line_branch all.paren.singular.not).indent 1
    rw [← text] at opens
    exact .cons opens (.cons ((line_ret spells_zero.expression).indent 2) (.line (line_close.indent 1)))

def Function.reading (f : Function) : List Line :=
  .function f.name (f.params.map fun p => ⟨p.1, .plain p.2⟩) "f32" ::
    (f.lets.map Let.reading ++ checkReading f.checks ++ [.ret f.result.tree, .close])

structure Function.Named (f : Function) : Prop where
  name : IsName f.name
  params : ∀ p ∈ f.params, IsName p.1 ∧ IsName p.2
  lets : ∀ l ∈ f.lets, l.Named
  checks : ∀ c ∈ f.checks, c.Named
  result : f.result.Named

theorem Function.spells {f : Function} (named : f.Named) : SpellsAll f.lines f.reading := by
  have params : (f.params.map fun p => (⟨p.1, .plain p.2⟩ : Param)).map (fun p => (p.name, p.kind.text)) = f.params := by
    rw [List.map_map]
    exact List.map_id _
  have head : SpellsLine (headLine f.name f.params) (.function f.name (f.params.map fun p => ⟨p.1, .plain p.2⟩) "f32") := by
    have line := line_function named.name (List.forall_mem_map.mpr named.params :
      ∀ p ∈ f.params.map fun p => (⟨p.1, .plain p.2⟩ : Param), p.Named)
    rwa [params] at line
  refine .cons head (.append (.append (.map fun l member => l.spells (named.lets l member)) (spells_checks named.checks)) ?_)
  exact .cons ((line_ret (f.result.spells named.result none)).indent 1) (.line line_close)

theorem bitsFunction_named : bitsFunction.Named := by
  refine ⟨by decide, ?_, nofun, nofun, ?_⟩
  · intro p member
    obtain rfl := List.mem_singleton.mp member
    decide
  · exact (by decide : IsName "bits")

theorem isName_input (slot : Nat) : IsName ("in" ++ toString slot) := isName_indexed (by decide) (by decide) slot

theorem loader_named (slot : Nat) : (loader slot).Named := by
  have input := isName_input slot
  refine ⟨isName_loader slot, ?_, ?_, ?_, ?_⟩
  · intro p member
    simp only [loader, List.mem_cons, List.not_mem_nil, or_false] at member
    rcases member with rfl | rfl | rfl <;> decide
  · intro l member
    simp only [loader, List.mem_cons, List.not_mem_nil, or_false] at member
    rcases member with rfl | rfl | rfl | rfl | rfl | rfl <;> simp only [Let.Named, Code.Named] <;> decide
  · intro c member
    simp only [loader, List.mem_cons, List.not_mem_nil, or_false] at member
    rcases member with rfl | rfl | rfl | rfl | rfl | rfl <;> simp only [Check.Named, Code.Named] <;> decide
  · refine ⟨input, ?_⟩
    simp only [Code.Named]
    decide

theorem scalarLet_named (param word : Nat) (whole : Bool) : (scalarLet param word whole).Named := by
  have scalars : IsName "scalars" := by decide
  cases whole <;> exact ⟨isName_param param, scalars, trivial⟩

def bindingReading (b : Binding) : Line :=
  .buffer 0 b.number (if b.readOnly then "read" else "read_write") b.name (if b.role = .shapes then "u32" else "f32")

theorem spells_binding {b : Binding} (name : IsName b.name) : SpellsLine (bindingLine b) (bindingReading b) := by
  refine line_buffer b.number ?_ name ?_
  · split <;> decide
  · split <;> decide

def constantReading (constant : WordName × Nat) : Line := .const constant.1.text "u32" (.integer constant.2 true)

def threadReading : Param := ⟨"thread", .generic "vec3" "f32"⟩

def Helper.reading (h : Helper) : List Line :=
  .function ("fn_" ++ h.name) (threadReading :: h.params.map fun i => ⟨"p" ++ toString i, .plain "f32"⟩) "f32" ::
    (blockReading h.body ++ [.close])

def Program.kernelReading (p : Program) : List Line :=
  .function "kernel_main" [threadReading] "f32" :: (p.lets.map Let.reading ++ blockReading p.body ++ [.close])

-- Elements that are only named, so that their buffers count as used.
def useReading (buffer : String) : Line := .assign "_" (.element buffer (.integer 0 false))

def entryReading (m : Manifest) : List Line :=
  [.compute workgroupSize, .entry entryName "global_invocation_id" ⟨"gid", .generic "vec3" "u32"⟩, useReading "scalars",
    useReading "shapes"] ++
  (List.range m.arrayParams.length).map (fun slot => useReading ("in" ++ toString slot)) ++
  [.bind "id" elementTerm.tree, .branch (.binary .ge (.name "id") (.name "OUTPUT_LEN")), .leave, .close,
    .bind "x" (coordinateTerm .x).tree, .bind "y" (coordinateTerm .y).tree, .bind "z" (coordinateTerm .z).tree,
    .store "result" (.name "id") (.call "kernel_main"
      [.construct "vec3" "f32" [.call "f32" [.name "x"], .call "f32" [.name "y"], .call "f32" [.name "z"]]]),
    .close]

def Program.reading (p : Program) : List Line :=
  p.manifest.bindings.map bindingReading ++ (constants p.manifest p.sizes).map constantReading ++ bitsFunction.reading ++
    p.loaders.flatMap Function.reading ++ p.helpers.flatMap Helper.reading ++ p.kernelReading ++ entryReading p.manifest

theorem thread_named : threadReading.Named := ⟨by decide, by decide, by decide⟩

theorem spells_helper {h : Helper} (name : isIdentifier h.name = true)
    (body : SpellsAll (blockLines 1 h.body) (blockReading h.body)) : SpellsAll (helperLines h) h.reading := by
  have pairs : (threadReading :: h.params.map fun i => (⟨"p" ++ toString i, .plain "f32"⟩ : Param)).map
      (fun p => (p.name, p.kind.text)) = threadParam :: h.params.map fun i => ("p" ++ toString i, "f32") := by
    rw [List.map_cons, List.map_map]
    rfl
  have params : ∀ p ∈ threadReading :: h.params.map fun i => (⟨"p" ++ toString i, .plain "f32"⟩ : Param), p.Named := by
    refine List.forall_mem_cons.mpr ⟨thread_named, List.forall_mem_map.mpr fun i _ => ⟨isName_param i, ?_⟩⟩
    exact (by decide : IsName "f32")
  have head := line_function (isName_helper name) params
  rw [pairs] at head
  exact .cons head (.append body (.line line_close))

theorem spells_kernel {p : Program} (lets : ∀ l ∈ p.lets, l.Named)
    (body : SpellsAll (blockLines 1 p.body) (blockReading p.body)) : SpellsAll (kernelLines p) p.kernelReading := by
  have name : IsName "kernel_main" := by decide
  have head := line_function name (List.forall_mem_singleton.mpr thread_named)
  exact .cons head (.append (.append (.map fun l member => l.spells (lets l member)) body) (.line line_close))

theorem spells_use {buffer : String} (name : IsName buffer) : SpellsLine ("    _ = " ++ buffer ++ "[0];") (useReading buffer) := by
  have blank : IsName "_" := by decide
  have element := spells_element name (Derives.integer 0 false).singular.plain.product.sum.alone.expression
    fun rest => yields_integer 0 false (.cons rfl rest) (by simp)
  have line := (line_assign blank element.singular.expression).indent 1
  have text : "    _ = " ++ buffer ++ "[0];" = indent 1 ("_" ++ " = " ++ (buffer ++ "[" ++ integerText 0 false ++ "]") ++ ";") := by
    rw [← String.toList_inj]
    simp [indent, integerText]
  rwa [text]

theorem spells_stored : SpellsLine "    result[id] = kernel_main(vec3<f32>(f32(x), f32(y), f32(z)));"
    (.store "result" (.name "id") (.call "kernel_main"
      [.construct "vec3" "f32" [.call "f32" [.name "x"], .call "f32" [.name "y"], .call "f32" [.name "z"]]])) := by
  have number {name : String} (isName : IsName name) : Spells .expression ("f32" ++ "(" ++ Text.joined ", " [name] ++ ")")
      (.call "f32" [.name name]) := (spells_call (by decide) (.cons (spells_name isName).singular.expression .nil)).expression
  have x : IsName "x" := by decide
  have y : IsName "y" := by decide
  have z : IsName "z" := by decide
  have type : IsName "f32" := by decide
  have kernel : IsName "kernel_main" := by decide
  have result : IsName "result" := by decide
  have id : IsName "id" := by decide
  have vector := spells_construct (by decide : "vec3" ∈ generics) type
    (.cons (number x) (.cons (number y) (.cons (number z) .nil)))
  have call := spells_call kernel (.cons vector.expression .nil)
  exact (line_store result (spells_name id).singular.expression call.expression).indent 1

theorem spells_entry (m : Manifest) : SpellsAll (entryLines m) (entryReading m) := by
  have letter {name : String} (isName : IsName name) (t : WordTerm) :
      SpellsLine (letLine name (t.text none)) (.bind name t.tree) := (line_bind isName (t.spells none)).indent 1
  have guard : SpellsLine ("    if (" ++ WordName.element.text ++ " >= " ++ WordName.outputLength.text ++ ") \x7b")
      (.branch (.binary .ge (.name "id") (.name "OUTPUT_LEN"))) := by
    have id : IsName "id" := by decide
    have length : IsName "OUTPUT_LEN" := by decide
    have test : Spells .expression ("id" ++ " " ++ Operator.ge.symbol ++ " " ++ "OUTPUT_LEN")
        (.binary .ge (.name "id") (.name "OUTPUT_LEN")) :=
      Spells.between (spells_name id).singular.sum (spells_name length).singular.sum
        fun ts us left right => (Derives.compare (by decide) left right).expression
    exact (line_branch test).indent 1
  have start : SpellsLine ("fn " ++ entryName ++ "(@builtin(global_invocation_id) gid: vec3<u32>) \x7b")
      (.entry entryName "global_invocation_id" ⟨"gid", .generic "vec3" "u32"⟩) := by
    have name : IsName entryName := by decide
    have builtin : IsName "global_invocation_id" := by decide
    exact line_entry name builtin ⟨by decide, by decide, by decide⟩
  refine .append (.append (.cons (line_compute workgroupSize) (.cons start (.cons ?_ (.line ?_)))) (.map fun slot _ => ?_)) ?_
  · exact spells_use (by decide)
  · exact spells_use (by decide)
  · exact spells_use (isName_input slot)
  · exact .cons (letter (by decide) elementTerm) (.cons guard (.cons (line_leave.indent 2) (.cons (line_close.indent 1)
      (.cons (letter (by decide) _) (.cons (letter (by decide) _) (.cons (letter (by decide) _)
      (.cons spells_stored (.line line_close))))))))

theorem binding_named (types : List ValueType) (grid : Grid) (workgroup : Nat) :
    ∀ b ∈ (Manifest.ofTypes types grid workgroup).bindings, IsName b.name := by
  intro b member
  simp only [Manifest.ofTypes, Manifest.inputBindings, List.mem_cons, List.mem_append, List.mem_mapIdx,
    List.not_mem_nil, or_false] at member
  rcases member with rfl | rfl | ⟨slot, _, rfl⟩ | rfl
  · exact (by decide : IsName "scalars")
  · exact (by decide : IsName "shapes")
  · exact isName_input slot
  · exact (by decide : IsName "result")

theorem constant_named (m : Manifest) (sizes : Coords) : ∀ constant ∈ constants m sizes, IsName constant.1.text := by
  have all : ∀ name ∈ (constants m sizes).map Prod.fst, IsName name.text := by
    change ∀ name ∈ [WordName.extent .x, .extent .y, .extent .z, .outputLength, .rowStride], IsName name.text
    decide
  exact fun constant member => all _ (List.mem_map_of_mem member)

theorem identified_of_named {functions : Snapshot} (named : ∀ d ∈ functions.functions, isIdentifier d.name = true)
    (types : List ValueType) (slot? : Nat → Option Nat) : Names.Identified ⟨functions.get?, types, slot?⟩ := by
  intro name d found
  change functions.functions.find? (·.name = name) = some d at found
  have same : d.name = name := by simpa using List.find?_some found
  rw [← same]
  exact named d (List.mem_of_find?_eq_some found)

theorem helpers_spell {r : Request} {p : Program} (built : Built r p)
    (named : ∀ d ∈ r.functions.functions, isIdentifier d.name = true) :
    ∀ h ∈ p.helpers, SpellsAll (helperLines h) h.reading := by
  intro h member
  obtain ⟨lowered, ran, listed⟩ := built.helpers
  rw [listed] at member
  obtain ⟨out, among, same⟩ := List.mem_filterMap.mp member
  obtain rfl : out = some h := same
  obtain ⟨d, defined, own⟩ := mapM_mem ran among
  obtain ⟨body, commands, _, block, made⟩ := lowerHelper_parts own (checkDevice_parts built.device d defined).1
  cases made
  exact spells_helper (named d defined) (spells_block (identified_of_named named _ _) block 1)

theorem program_holds {r : Request} {p : Program} (built : Built r p)
    (named : ∀ d ∈ r.functions.functions, isIdentifier d.name = true) (lines : List Line) :
    Holds p.text lines ↔ lines = p.reading := by
  have bindings : SpellsAll (p.manifest.bindings.map bindingLine) (p.manifest.bindings.map bindingReading) := by
    rw [built.manifest]
    exact .map fun b member => spells_binding (binding_named _ _ _ b member)
  have constants : SpellsAll ((constants p.manifest p.sizes).map fun constant => constantLine constant.1 constant.2)
      ((constants p.manifest p.sizes).map constantReading) :=
    .map fun constant member =>
      line_const (constant_named _ _ constant member) ((spells_word constant.2).singular.expression)
  have loaders : SpellsAll (p.loaders.flatMap fun f => "" :: f.lines) (p.loaders.flatMap Function.reading) := by
    refine .flatMap fun f member => .blank ?_
    obtain ⟨slot, _, rfl⟩ := List.mem_map.mp member
    exact Function.spells (loader_named slot)
  have helpers : SpellsAll (p.helpers.flatMap fun h => "" :: helperLines h) (p.helpers.flatMap Helper.reading) :=
    .flatMap fun h member => .blank (helpers_spell built named h member)
  have kernel : SpellsAll (kernelLines p) p.kernelReading := by
    refine spells_kernel ?_ (spells_block (identified_of_named named _ _) built.body 1)
    intro l member
    rw [built.lets, List.mem_mapIdx] at member
    obtain ⟨place, _, rfl⟩ := member
    exact scalarLet_named _ _ _
  have all : SpellsAll p.lines p.reading :=
    (((((bindings.append constants.blank).append (Function.spells bitsFunction_named).blank).append loaders).append helpers).append
      kernel.blank).append (spells_entry p.manifest).blank
  exact all.holds lines

end GridKernel.Shader
